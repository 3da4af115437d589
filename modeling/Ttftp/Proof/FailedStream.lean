/-
  A file that cannot be opened: what the five constructors and `start` do with a failed
  stream.

  `start` reports the error, ends the operation and falls through into a send or a receive,
  on the closed socket; whatever handlers run then, nothing more is sent or reported.  Only
  the constructor that takes a DATA 1 message reports the error itself, through
  `shared_from_this`, which throws there (`failsCleanly_iff`).
-/
import Ttftp.Proof.Course

namespace Ttftp

open Bytes Asio

/-- The ways to construct an end of a transfer. -/
inductive Construction where
  | sender (input : IStream) (firstAck : ℤ)
  | senderConnected (input : IStream) (remote : Endpoint) (firstAck : ℤ)
  | receiver (output : OStream)
  | receiverConnected (output : OStream) (remote : Endpoint)
  | receiverData1 (output : OStream) (remote : Endpoint) (data1 : DataMessage)

/-- An object on a socket that has sent `w`: neither its construction nor its start throws,
    and in all states reached after the start it has sent one ERROR message and no other, and
    its callback has been called once, with `code`. -/
structure EndsCleanly {σ H : Type} (P : Proactor σ H Endpoint) (callbacks : σ → List TftpUserFacingErrorCode)
    (code : TftpUserFacingErrorCode) (w : List (Endpoint × Bytes)) (s : σ) : Prop where
  constructed : P.threw s = false
  started : ∃ s₁, P.step s .start = some s₁ ∧ P.threw s₁ = false ∧
    ∃ dest msg, ∀ es s', (P.lts (· = s)).run s₁ es = some s' →
      (P.io s').wire = w ++ [(dest, ErrorMessage.encode msg)] ∧ callbacks s' = [code]

namespace Construction

def streamFailed : Construction → Bool
  | sender input _ | senderConnected input _ _ => input.fail
  | receiver output | receiverConnected output _ | receiverData1 output _ _ => output.fail

def takesData1 : Construction → Bool
  | receiverData1 _ _ _ => true
  | _ => false

/-- The object fails cleanly, constructed with an open socket that has sent `w`. -/
def FailsCleanly (w : List (Endpoint × Bytes)) (blocksize : ℕ) (timeoutSeconds : UInt8) : Construction → Prop
  | sender input firstAck => EndsCleanly Tftpsender.proactor Tftpsender.callbacks .inputFileOpen w
      (Tftpsender.new { wire := w } input firstAck blocksize timeoutSeconds)
  | senderConnected input remote firstAck => EndsCleanly Tftpsender.proactor Tftpsender.callbacks .inputFileOpen w
      (Tftpsender.newConnected { wire := w } input remote firstAck blocksize timeoutSeconds)
  | receiver output => EndsCleanly TftpReceiver.proactor TftpReceiver.callbacks .outputFileOpen w
      (TftpReceiver.new { wire := w } output blocksize timeoutSeconds)
  | receiverConnected output remote => EndsCleanly TftpReceiver.proactor TftpReceiver.callbacks .outputFileOpen w
      (TftpReceiver.newConnected { wire := w } output remote blocksize timeoutSeconds)
  | receiverData1 output remote data1 => EndsCleanly TftpReceiver.proactor TftpReceiver.callbacks .outputFileOpen w
      (TftpReceiver.newConnectedData1 { wire := w } output remote data1 blocksize timeoutSeconds)

end Construction

/-- **An object that has ended at its start**, with its socket closed, ends cleanly. -/
theorem EndsCleanly.of_started {σ H : Type} {P : Proactor σ H Endpoint}
    {R : Reporter σ H Endpoint TftpUserFacingErrorCode} (K : Reporter.Handles P R)
    {code : TftpUserFacingErrorCode} {w : List (Endpoint × Bytes)} {s s₁ : σ} (hthrew : P.threw s = false)
    (hstart : P.step s .start = some s₁) (hthrew₁ : P.threw s₁ = false) (hc : (P.io s₁).isOpen = false)
    (he : R.ended s₁ = true) (hw : ∃ dest msg, (P.io s₁).wire = w ++ [(dest, ErrorMessage.encode msg)])
    (hcb : R.callbacks s₁ = [code]) : EndsCleanly P R.callbacks code w s := by
  obtain ⟨dest, msg, hw⟩ := hw
  refine ⟨hthrew, s₁, hstart, hthrew₁, dest, msg, fun es s' hrun => ?_⟩
  obtain ⟨hwire, hcalls⟩ := K.run_over hc he hrun
  exact ⟨hwire.trans hw, hcalls.trans hcb⟩

/-! ## The sender -/

namespace Tftpsender
variable {s : Tftpsender}

/-- An ERROR message and the end of an operation that has not ended yet. -/
theorem fail_eq (ho : s.io.isOpen = true) (he : s.operationEnded = false) (c : UInt16) (m : Bytes) (dest : Endpoint)
    (code : TftpUserFacingErrorCode) : ((s.sendErrorMsg c m dest).endOperationWith code) =
      { s with
        operationEnded := true
        io := ({ s.io with wire := s.io.wire ++ [(dest, ErrorMessage.encode ⟨c, m⟩)] } : Io _ _).close
        callbacks := s.callbacks ++ [code] } := by
  have hsend : s.io.asyncSendDetached dest (ErrorMessage.encode ⟨c, m⟩) =
      { s.io with wire := s.io.wire ++ [(dest, ErrorMessage.encode ⟨c, m⟩)] } := if_pos ho
  rw [endOperationWith, sendErrorMsg, if_neg (by rw [he]; exact Bool.false_ne_true), hsend]

/-- Before its start, a sender on a failed stream ends cleanly. -/
theorem endsCleanly {w : List (Endpoint × Bytes)} (hio : s.io = { wire := w }) (ht : s.threw = false)
    (he : s.operationEnded = false) (hcb : s.callbacks = []) (hf : s.input.fail = true) :
    EndsCleanly proactor callbacks .inputFileOpen w s := by
  obtain ⟨t, hstarted⟩ : ∃ t, t = { s with io := { s.io with started := true } } := ⟨_, rfl⟩
  have hstep : proactor.step s .start = some t.start := by
    rw [hstarted]
    exact (Proactor.Step.start (P := proactor) (congrArg Io.started hio)).step_eq ht
  have hstart : t.start = _ := (if_pos (by rw [hstarted]; exact hf)).trans
    (fail_eq (by rw [hstarted]; exact congrArg Io.isOpen hio) (by rw [hstarted]; exact he) _ _ _ _)
  rw [hstart, hstarted] at hstep
  refine .of_started handles ht hstep ht rfl rfl ⟨_, ⟨_, _⟩, congrArg (fun io => io.wire ++ _) hio⟩ ?_
  exact congrArg (· ++ _) hcb

end Tftpsender

/-! ## The receiver -/

namespace TftpReceiver
variable {s : TftpReceiver}

/-- An ERROR message and the end of an operation that has not ended yet. -/
theorem fail_eq (ho : s.io.isOpen = true) (he : s.operationEnded = false) (c : UInt16) (m : Bytes) (dest : Endpoint)
    (code : TftpUserFacingErrorCode) : ((s.sendErrorMsg c m dest).endOperationWith code) =
      { s with
        operationEnded := true
        io := ({ s.io with wire := s.io.wire ++ [(dest, ErrorMessage.encode ⟨c, m⟩)] } : Io _ _).close
        callbacks := s.callbacks ++ [code] } := by
  have hsend : s.io.asyncSendDetached dest (ErrorMessage.encode ⟨c, m⟩) =
      { s.io with wire := s.io.wire ++ [(dest, ErrorMessage.encode ⟨c, m⟩)] } := if_pos ho
  rw [endOperationWith, sendErrorMsg, if_neg (by rw [he]; exact Bool.false_ne_true), hsend]

/-- Falling through to an ACK or a receive throws nothing. -/
theorem start_rest_threw (s : TftpReceiver) :
    (if s.isConnected then s.sendNextAck false else s.startNextReceive).threw = s.threw := by
  split_ifs with hc
  · rw [sendNextAck_false, if_pos hc]
  · rfl

/-- Before its start, a receiver on a failed stream ends cleanly, although it falls through. -/
theorem endsCleanly {w : List (Endpoint × Bytes)} (hio : s.io = { wire := w }) (ht : s.threw = false)
    (he : s.operationEnded = false) (hcb : s.callbacks = []) (hf : s.output.fail = true) :
    EndsCleanly proactor callbacks .outputFileOpen w s := by
  obtain ⟨t, hstarted⟩ : ∃ t, t = { s with io := { s.io with started := true } } := ⟨_, rfl⟩
  have hstep : proactor.step s .start = some t.start := by
    rw [hstarted]
    exact (Proactor.Step.start (P := proactor) (congrArg Io.started hio)).step_eq ht
  have hfail : t.outputFileError = _ := fail_eq (by rw [hstarted]; exact congrArg Io.isOpen hio)
    (by rw [hstarted]; exact he) _ _ _ _
  obtain ⟨u, hu⟩ : ∃ u, u = t.outputFileError := ⟨_, rfl⟩
  have hstart : t.start = if u.isConnected then u.sendNextAck false else u.startNextReceive := by
    have hfailed : t.output.fail = true := by rw [hstarted]; exact hf
    rw [hu, start, if_pos hfailed]
  have hrest := Course.start_rest u
  have hthrew := start_rest_threw u
  rw [← hstart] at hrest hthrew
  rw [hfail, hstarted] at hu
  have hwire : ∃ dest msg, u.io.wire = w ++ [(dest, ErrorMessage.encode msg)] := by
    subst hu
    exact ⟨_, ⟨_, _⟩, congrArg (fun io => io.wire ++ _) hio⟩
  have hcode : u.operationEnded = true ∧ u.callbacks = [.outputFileOpen] := by
    subst hu
    exact ⟨rfl, congrArg (· ++ _) hcb⟩
  obtain ⟨hclosed, hsent⟩ := hrest.silent (by rw [hu]; rfl)
  have hended : t.start.operationEnded = true ∧ t.start.callbacks = u.callbacks := by
    cases hrest.reported with
    | goesOn h1 h2 => exact ⟨h1.trans hcode.1, h2⟩
    | ends _ hn => cases hcode.1.symm.trans hn
  obtain ⟨dest, msg, hwire⟩ := hwire
  exact .of_started handles ht hstep (hthrew.trans (by rw [hu]; exact ht)) hclosed hended.1
    ⟨dest, msg, hsent.trans hwire⟩ (hended.2.trans hcode.2)

end TftpReceiver

/-! ## All constructors -/

namespace Construction

/-- **A file that cannot be opened fails cleanly** with every constructor but the one that
    takes a DATA 1 message. -/
theorem failsCleanly_iff {c : Construction} (h : c.streamFailed = true) (w : List (Endpoint × Bytes))
    (blocksize : ℕ) (timeoutSeconds : UInt8) :
    c.FailsCleanly w blocksize timeoutSeconds ↔ c.takesData1 = false := by
  cases c with
  | sender input firstAck => exact iff_of_true (Tftpsender.endsCleanly rfl rfl rfl rfl h) rfl
  | senderConnected input remote firstAck => exact iff_of_true (Tftpsender.endsCleanly rfl rfl rfl rfl h) rfl
  | receiver output => exact iff_of_true (TftpReceiver.endsCleanly rfl rfl rfl rfl h) rfl
  | receiverConnected output remote => exact iff_of_true (TftpReceiver.endsCleanly rfl rfl rfl rfl h) rfl
  | receiverData1 output remote data1 =>
    refine iff_of_false (fun hclean => ?_) fun hf => Bool.false_ne_true hf.symm
    -- the constructor throws
    have hthrew : (TftpReceiver.newConnectedData1 { wire := w } output remote data1 blocksize timeoutSeconds).threw =
        true := congrArg TftpReceiver.threw (if_pos h)
    cases hthrew.symm.trans hclean.constructed

/-- A receiver without a peer, on a failed stream. -/
theorem failsCleanly_receiver : FailsCleanly [] 512 2 (.receiver { fail := true }) :=
  (failsCleanly_iff rfl [] 512 2).2 rfl

/-- One that is given the first block of the default blocksize throws. -/
theorem not_failsCleanly_data1 :
    ¬ FailsCleanly [] 512 2 (.receiverData1 { fail := true } ⟨1, 1⟩ (DataMessage.new 512)) := fun h => by
  have hthrew : (TftpReceiver.newConnectedData1 {} { fail := true } ⟨1, 1⟩ (DataMessage.new 512) 512 2).threw = true :=
    rfl
  cases hthrew.symm.trans h.constructed

end Construction

end Ttftp

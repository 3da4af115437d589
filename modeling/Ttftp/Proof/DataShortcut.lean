/-
  The two ways of a client into a read transfer whose options the server has ignored.

  The client hands the server's answer, DATA 1, to the constructor of the receiver.  It could
  as well have started a receiver without a peer and let the answer arrive there;
  `data1_shortcut_iff` says for which answers this would be the same.
-/
import Ttftp.Proof.Inbox
import Ttftp.Proof.Reception

namespace Ttftp

open Bytes Asio

namespace TftpReceiver

/-- What can be seen of a receiver. -/
structure View where
  written : Bytes
  lastreceiveddatacount : UInt16
  isConnected : Bool
  mSenderEndpoint : Endpoint
  operationEnded : Bool
  callbacks : List TftpUserFacingErrorCode
  wire : List (Endpoint × Bytes)
  threw : Bool
  deriving DecidableEq

def view (s : TftpReceiver) : View where
  written := s.output.content
  lastreceiveddatacount := s.lastreceiveddatacount
  isConnected := s.isConnected
  mSenderEndpoint := s.mSenderEndpoint
  operationEnded := s.operationEnded
  callbacks := s.callbacks
  wire := s.io.wire
  threw := s.threw

/-- The constructor takes the message from `e`, and the object is started. -/
def takeData1 (out : OStream) (e : Endpoint) (msg : DataMessage) (t : UInt8) : TftpReceiver :=
  lts.attempt (newConnectedData1 {} out e msg 512 t) [.start]

/-- The object is started without a peer, and gets the datagram `d` from `e`; the wait it
    has cancelled completes. -/
def awaitData1 (out : OStream) (e : Endpoint) (d : Bytes) (t : UInt8) : TftpReceiver :=
  lts.attempt (new {} out 512 t) [.start, .deliver e d, .runReceive 0, .runTimer 0]

/-! ### The same behaviour -/

/-- The states are the same, or only an ACK is on its way and they will be the same when the
    next receive is started. -/
inductive Alike : TftpReceiver → TftpReceiver → Prop
  | same (s : TftpReceiver) : Alike s s
  | sending {s : TftpReceiver} (b : Bytes) (k : ℕ) : b.length = s.databuffer.length → s.io.started = true →
      s.io.receives = [] → s.io.received = [] → s.io.waits = 0 → s.io.waited = [] →
      Alike s { s with databuffer := b, io := { s.io with duration := k } }

theorem Alike.view {s t : TftpReceiver} (h : Alike s t) : s.view = t.view := by
  cases h <;> rfl

/-- The next receive makes the states the same. -/
theorem startNextReceive_alike {s : TftpReceiver} {b : Bytes} {k : ℕ} (hb : b.length = s.databuffer.length) :
    startNextReceive { s with databuffer := b, io := { s.io with duration := k } } = s.startNextReceive := by
  unfold startNextReceive
  rw [hb]
  rfl

/-- The handler of a send may find the two states different, and leaves them alike. -/
theorem handleACKsent_alike {s : TftpReceiver} {b : Bytes} {k : ℕ} (h : Alike s { s with
    databuffer := b, io := { s.io with duration := k } }) (hb : b.length = s.databuffer.length) (err : ErrorCode)
    (n : ℕ) : Alike (s.handleACKsent err n)
      (handleACKsent err n { s with databuffer := b, io := { s.io with duration := k } }) := by
  unfold handleACKsent
  split_ifs
  · rw [startNextReceive_alike hb]
    exact .same _
  · exact h

theorem alike_bisim : lts.Bisim Alike := by
  intro s t e h
  cases h with
  | same =>
    cases lts.step s e with
    | none => exact .none
    | some s' => exact .some (.same s')
  | sending b k hb hs hr hrd hw hwd =>
    refine Proactor.step_rel (k := k) rfl rfl fun s' t' hstep hstep' => ?_
    -- only the send can go on
    cases hstep with
    | start hf => exact absurd (hs.symm.trans hf) (by simp)
    | deliver hx | receiveFails hx _ => exact absurd (hr.symm.trans hx) (by simp)
    | expire hx => exact absurd hw hx
    | runReceive hx => rw [show (proactor.io s).received = [] from hrd] at hx; cases hx
    | runTimer hx => rw [show (proactor.io s).waited = [] from hwd] at hx; cases hx
    | sendCompletes hn =>
      cases hstep' with
      | sendCompletes hn' =>
        cases hn.symm.trans hn'
        exact .sending b k hb hs hr hrd hw hwd
    | @runSend i err n hx =>
      cases hstep' with
      | runSend hx' =>
        cases hx.symm.trans hx'
        refine handleACKsent_alike (s := { s with io := { s.io with sent := s.io.sent.eraseIdx i } }) ?_ hb _ _
        exact .sending b k hb hs hr hrd hw hwd

/-! ### The two ways -/

section
variable {out : OStream} {e : Endpoint} {d : Bytes} {msg : DataMessage} {t : UInt8}

/-- The object with DATA 1 after its start. -/
theorem takeData1_start (hf : out.fail = false) : takeData1 out e msg t =
    start { newConnected {} out e 512 t with
      output := out.write msg.mData, lastreceiveddatacount := 1, io := { started := true } } := by
  have hnew : newConnectedData1 {} out e msg 512 t = { newConnected {} out e 512 t with
      output := out.write msg.mData, lastreceiveddatacount := 1 } := if_neg (Bool.eq_false_iff.1 hf)
  rw [takeData1, hnew]
  rfl

theorem takeData1_good (hf : out.fail = false) (ha : out.accept out.writes.length = true) :
    takeData1 out e msg t = { newConnected {} out e 512 t with
      output := out.write msg.mData
      lastreceiveddatacount := 1
      lastsentack := ⟨1⟩
      io := { started := true, sends := [4], wire := [(e, AckMessage.encode ⟨1⟩)] } } := by
  rw [takeData1_start hf, start_good _ (by rw [OStream.write_fail, hf, ha]; rfl)]
  rfl

/-- The start reports a write that has failed. -/
theorem takeData1_callbacks (hf : out.fail = false) (ha : out.accept out.writes.length = false) :
    (takeData1 out e msg t).callbacks = [.outputFileOpen] := by
  have hfail : (out.write msg.mData).fail = true := by rw [OStream.write_fail, hf, ha]; rfl
  rw [takeData1_start hf, start, if_pos hfail]
  rfl

theorem takeData1_threw (hf : out.fail = true) : (takeData1 out e msg t).threw = true := by
  have hnew : newConnectedData1 {} out e msg 512 t = { newConnected {} out e 512 t with threw := true } :=
    if_pos hf
  rw [takeData1, hnew]
  rfl

theorem awaitData1_threw (hf : out.fail = true) : (awaitData1 out e d t).threw = false := by
  obtain ⟨f, a, w⟩ := out
  subst hf
  rfl

/-- The datagram `d` has arrived from `e` at an object without a peer. -/
def arrived (out : OStream) (e : Endpoint) (d : Bytes) (t : UInt8) : TftpReceiver :=
  { new {} out 512 t with
    io := { started := true, duration := t.toNat, waited := [.operationAborted] }
    databuffer := d ++ List.replicate (516 - d.length) 0
    mLastReceivedSenderEndpoint := e }

omit t in
/-- The handler cancels the timer anyway. -/
theorem checkReceivedBlock_timerCancel (s : TftpReceiver) (err : ErrorCode) (n : ℕ) :
    checkReceivedBlock err n { s with io := s.io.timerCancel } = s.checkReceivedBlock err n := by
  have hio : s.io.timerCancel.timerCancel = s.io.timerCancel := by simp [Io.timerCancel]
  simp only [checkReceivedBlock, hio]

theorem awaitData1_arrived (hf : out.fail = false) (hd : d.length ≤ 516) : awaitData1 out e d t =
    lts.attempt ((arrived out e d t).checkReceivedBlock .success d.length) [.runTimer 0] := by
  obtain ⟨f, a, w⟩ := out
  subst hf
  have hlen : (List.replicate (512 + controlBytes) (0 : UInt8)).length = 516 := List.length_replicate
  obtain ⟨s, hs⟩ : ∃ s, s = { new {} ⟨false, a, w⟩ 512 t with
    databuffer := List.replicate 516 0
    io := { started := true, duration := t.toNat, waits := 1, receives := [.handleFirstBlockWithoutConnect] } } :=
    ⟨_, rfl⟩
  have hstart : lts.step (new {} ⟨false, a, w⟩ 512 t) .start = some s := by
    rw [hs, ← hlen]
    rfl
  have hcap : proactor.capacity s = 516 := by
    rw [hs]
    exact List.length_replicate
  obtain ⟨s', hs', hdeliver, hrun⟩ := Proactor.step_deliver (P := proactor) (s := s) e d (fun _ => ⟨rfl, rfl⟩)
    (by rw [hs]; rfl) (by rw [hs]; rfl) (by rw [hs]; rfl)
  rw [hcap, List.take_of_length_le hd] at hs'
  rw [hcap, min_eq_left hd] at hrun
  have harrived : proactor.setIo { proactor.io s with receives := [], received := [] } s' =
      { arrived ⟨false, a, w⟩ e d t with io := { started := true, duration := t.toNat, waits := 1 } } := by
    rw [hs', hs, arrived, ← List.drop_replicate]
    rfl
  have hrun' : lts.step s' (.runReceive 0) =
      some ((arrived ⟨false, a, w⟩ e d t).checkReceivedBlock .success d.length) := by
    refine hrun.trans ?_
    rw [harrived, ← checkReceivedBlock_timerCancel]
    rfl
  rw [awaitData1, Lts.attempt_step hstart, Lts.attempt_step hdeliver, Lts.attempt_step hrun']

/-- What the datagram is to the object. -/
theorem arrived_branch (hd : (DataMessage.new 512).decode d = (true, msg)) :
    (arrived out e d t).receivedMsg d.length = (true, msg) ∧
      (arrived out e d t).blockBranch .success d.length =
        if msg.mBlockNr.toNat = 0 then .olderBlock
        else if msg.mBlockNr.toNat = 1 then .expectedBlock
        else .futureBlock := by
  have hle : d.length ≤ 512 + controlBytes :=
    (DataMessage.decode_true (by rw [hd] : ((DataMessage.new 512).decode d).1 = true)).2.1
  have hmsg : (arrived out e d t).receivedMsg d.length = (true, msg) := by
    rw [receivedMsg]
    change (DataMessage.new 512).decode ((d ++ List.replicate (516 - d.length) 0).take d.length) = _
    rw [List.take_left, hd]
  refine ⟨hmsg, ?_⟩
  have hconn : ¬ ((arrived out e d t).isConnected = true ∧
    (arrived out e d t).mLastReceivedSenderEndpoint ≠ (arrived out e d t).mSenderEndpoint) := fun h => by cases h.1
  have hlen : ¬ (arrived out e d t).blocksize + controlBytes < d.length := not_lt.2 hle
  have hcount : (arrived out e d t).lastreceiveddatacount.toNat = 0 := rfl
  rw [blockBranch, if_pos rfl, if_neg hconn, if_neg hlen, hmsg, if_neg (by simp), hcount]
  simp only [Nat.le_zero_eq, Nat.zero_add]

/-- What becomes of the datagram. -/
theorem arrived_handled (hd : (DataMessage.new 512).decode d = (true, msg)) :
    (arrived out e d t).checkReceivedBlock .success d.length =
      if msg.mBlockNr.toNat = 0 then (arrived out e d t).sendNextAck false
      else if msg.mBlockNr.toNat = 1 then (arrived out e d t).acceptBlock d.length
      else ((arrived out e d t).sendErrorMsg TftpErrorCode.illegalOp.toUInt16
        (ascii "Data package with higher number than expected. Expected " ++ decimal 1 ++ ascii ", got " ++
          decimal msg.mBlockNr.toNat) default).endOperationWith .wrongBlock := by
  obtain ⟨hmsg, hbranch⟩ := @arrived_branch out e d msg t hd
  have hio : ({ arrived out e d t with io := (arrived out e d t).io.timerCancel } : TftpReceiver) = arrived out e d t :=
    rfl
  rw [checkReceivedBlock, hio, hbranch, hmsg]
  split_ifs <;> rfl

theorem arrived_acceptBlock (hf : out.fail = false) (hd : (DataMessage.new 512).decode d = (true, msg)) :
    (arrived out e d t).acceptBlock d.length = sendNextAck (decide (msg.mData.length ≠ 512)) { arrived out e d t with
      lastreceiveddatacount := 1
      isConnected := true
      mSenderEndpoint := e
      output := out.write msg.mData } := by
  obtain ⟨h4, -, hp⟩ := DataMessage.decode_true (by rw [hd] : ((DataMessage.new 512).decode d).1 = true)
  rw [hd] at hp
  have hlast : decide (d.length ≠ 512 + controlBytes) = decide (msg.mData.length ≠ 512) := by
    rw [hp, List.length_drop, decide_eq_decide, controlBytes]
    omega
  have hfail : (arrived out e d t).countBlock.output.fail = false := hf
  rw [acceptBlock, writeBlock_good _ _ hfail, (arrived_branch hd).1]
  change sendNextAck (decide (d.length ≠ 512 + controlBytes)) _ = _
  rw [hlast]
  rfl

/-- A full block 1 leaves the object as the shortcut does, but for the buffer and the timer. -/
theorem awaitData1_full (hf : out.fail = false) (ha : out.accept out.writes.length = true)
    (hd : (DataMessage.new 512).decode d = (true, msg)) (hnr : msg.mBlockNr.toNat = 1) (hl : msg.mData.length = 512) :
    Alike (takeData1 out e msg t) (awaitData1 out e d t) := by
  obtain ⟨-, hle, -⟩ := DataMessage.decode_true (by rw [hd] : ((DataMessage.new 512).decode d).1 = true)
  rw [awaitData1_arrived hf hle, arrived_handled hd, if_neg (by omega), if_pos hnr, arrived_acceptBlock hf hd, hl,
    takeData1_good hf ha]
  refine .sending (d ++ List.replicate (516 - d.length) 0) t.toNat ?_ rfl rfl rfl rfl rfl
  change (d ++ List.replicate (516 - d.length) 0).length = (List.replicate (512 + controlBytes) (0 : UInt8)).length
  rw [List.length_append, List.length_replicate, List.length_replicate, controlBytes]
  change d.length ≤ 512 + 4 at hle
  omega

/-- Otherwise the object does something else than to ask for block 2. -/
theorem awaitData1_other (hf : out.fail = false) (hd : (DataMessage.new 512).decode d = (true, msg)) :
    (awaitData1 out e d t).callbacks ≠ [.outputFileOpen] ∧
      ((awaitData1 out e d t).callbacks = [] → (awaitData1 out e d t).lastreceiveddatacount = 1 →
        msg.mBlockNr.toNat = 1 ∧ msg.mData.length = 512) := by
  obtain ⟨-, hle, -⟩ := DataMessage.decode_true (by rw [hd] : ((DataMessage.new 512).decode d).1 = true)
  rw [awaitData1_arrived hf hle, arrived_handled hd]
  split_ifs with h0 h1
  · exact ⟨fun h => (by cases h), fun _ h => by cases h⟩
  · rw [arrived_acceptBlock hf hd]
    by_cases hl : msg.mData.length = 512
    · rw [hl]
      exact ⟨fun h => (by cases h), fun _ _ => ⟨h1, rfl⟩⟩
    · rw [decide_eq_true hl]
      exact ⟨fun h => (by cases h), fun h => by cases h⟩
  · exact ⟨fun h => (by cases h), fun h => by cases h⟩

/-- **When the DATA 1 shortcut is the ordinary path**: exactly for a full block 1, on a stream
    that is good and takes it. -/
theorem data1_shortcut_iff (out : OStream) (e : Endpoint) (t : UInt8) {d : Bytes} {msg : DataMessage}
    (hd : (DataMessage.new 512).decode d = (true, msg)) :
    lts.SameBehaviour view (takeData1 out e msg t) (awaitData1 out e d t) ↔
      out.fail = false ∧ out.accept out.writes.length = true ∧ msg.mBlockNr = 1 ∧ msg.mData.length = 512 := by
  constructor
  · intro h
    have hv := h.observe
    have hf : out.fail = false := by
      by_contra hf
      have hf' := Bool.eq_true_of_not_eq_false hf
      have := congrArg View.threw hv
      exact absurd ((takeData1_threw hf').symm.trans (this.trans (awaitData1_threw hf'))) (by decide)
    have hc : (takeData1 out e msg t).callbacks = (awaitData1 out e d t).callbacks := congrArg View.callbacks hv
    have hn : (takeData1 out e msg t).lastreceiveddatacount = (awaitData1 out e d t).lastreceiveddatacount :=
      congrArg View.lastreceiveddatacount hv
    obtain ⟨hne, hother⟩ := awaitData1_other (e := e) (t := t) hf hd
    have ha : out.accept out.writes.length = true := by
      by_contra ha
      exact hne (hc.symm.trans (takeData1_callbacks hf (Bool.eq_false_iff.2 ha)))
    rw [takeData1_good hf ha] at hc hn
    obtain ⟨hnr, hl⟩ := hother hc.symm hn.symm
    exact ⟨hf, ha, UInt16.toNat_inj.1 hnr, hl⟩
  · rintro ⟨hf, ha, hnr, hl⟩
    exact alike_bisim.sameBehaviour (fun _ _ => Alike.view) (awaitData1_full hf ha hd (by rw [hnr]; rfl) hl)

end

/-- A block of 512 bytes. -/
theorem data1_shortcut_full_block :
    lts.SameBehaviour view (takeData1 {} ⟨1, 2⟩ ⟨List.replicate 512 7, 1, 512⟩ 2)
      (awaitData1 {} ⟨1, 2⟩ (dataBytes 1 (List.replicate 512 7)) 2) :=
  (data1_shortcut_iff {} ⟨1, 2⟩ 2 ((DataMessage.decode_dataBytes _ _ _).trans (if_pos List.length_replicate.le))).2
    ⟨rfl, rfl, rfl, List.length_replicate⟩

/-- The block of a one-byte file does not end the transfer. -/
theorem data1_shortcut_short_block : ¬ ∀ out e t d msg, (DataMessage.new 512).decode d = (true, msg) →
    lts.SameBehaviour view (takeData1 out e msg t) (awaitData1 out e d t) := by
  intro h
  have hd : (DataMessage.new 512).decode (dataBytes 1 [7]) = (true, ⟨[7], 1, 512⟩) :=
    (DataMessage.decode_dataBytes _ _ _).trans (if_pos (by decide))
  have hv := (h {} ⟨1, 2⟩ 2 _ _ hd).observe
  have hother := (@awaitData1_other {} ⟨1, 2⟩ _ _ 2 rfl hd).2
  rw [takeData1_good rfl rfl] at hv
  generalize awaitData1 _ _ _ _ = s at hv hother
  exact absurd (hother (congrArg View.callbacks hv).symm (congrArg View.lastreceiveddatacount hv).symm).2 (by decide)

end TftpReceiver

end Ttftp

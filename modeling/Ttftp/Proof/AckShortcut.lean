/-
  The two ways of a client into a write transfer whose options the server has ignored.

  The client takes the server's answer, ACK 0, and starts a sender with the server as its
  peer.  It could as well have started a sender without a peer and let the answer arrive
  there; `ack_shortcut_iff` says for which answers this would be the same.
-/
import Ttftp.Proof.Inbox
import Ttftp.Client

namespace Ttftp

open Bytes Asio

namespace Tftpsender

/-- What can be seen of a sender. -/
structure View where
  lastsentdatacount : UInt16
  sendingdone : Bool
  isConnected : Bool
  mReceiverEndpoint : Endpoint
  operationEnded : Bool
  callbacks : List TftpUserFacingErrorCode
  wire : List (Endpoint × Bytes)
  threw : Bool
  deriving DecidableEq

def view (s : Tftpsender) : View where
  lastsentdatacount := s.lastsentdatacount
  sendingdone := s.sendingdone
  isConnected := s.isConnected
  mReceiverEndpoint := s.mReceiverEndpoint
  operationEnded := s.operationEnded
  callbacks := s.callbacks
  wire := s.io.wire
  threw := s.threw

theorem callbacks_of_view {s t : Tftpsender} (h : s.view = t.view) : s.callbacks = t.callbacks :=
  congrArg View.callbacks h

theorem lastsentdatacount_of_view {s t : Tftpsender} (h : s.view = t.view) :
    s.lastsentdatacount = t.lastsentdatacount :=
  congrArg View.lastsentdatacount h

/-- The client takes the datagram for an ACK, not for an OACK. -/
def TakenAsAck (past d : Bytes) : Prop :=
  (OptionACKMessage.decode past {} d).1 = false ∧ (AckMessage.decode past {} d).1 = true

/-- The sender knows the peer and starts with block 1, as the client starts it after an
    ACK. -/
def takeAck (file : Option Bytes) (e : Endpoint) (t : UInt8) : Tftpsender :=
  lts.attempt (newConnected {} (.ofFile file) e 1 512 t) [.start]

/-- The sender is started without a peer, and gets the datagram `d` from `e`. -/
def awaitAck (file : Option Bytes) (e : Endpoint) (d : Bytes) (t : UInt8) : Tftpsender :=
  lts.attempt (new {} (.ofFile file) 0 512 t) [.start, .deliver e d, .runReceive 0]

/-! ## The same behaviour -/

def withBuffer (b : Bytes) (s : Tftpsender) : Tftpsender := { s with ackbuffer := b }

section
variable (b : Bytes) (s : Tftpsender)

theorem endOperationWith_withBuffer (code : TftpUserFacingErrorCode) :
    (s.withBuffer b).endOperationWith code = (s.endOperationWith code).withBuffer b := by
  unfold endOperationWith
  change (if s.operationEnded = true then _ else _) = _
  split_ifs <;> rfl

theorem sendNextBlock_withBuffer : (s.withBuffer b).sendNextBlock = s.sendNextBlock.withBuffer b := by
  have hread : (s.withBuffer b).readNextBlock = s.readNextBlock.withBuffer b := by
    unfold readNextBlock
    change (if s.seeked.fail = true then _ else _) = withBuffer b (if s.seeked.fail = true then _ else _)
    split_ifs
    · exact endOperationWith_withBuffer b (sendErrorMsg _ _ _ { s with input := s.seeked }) _
    · rfl
  have hsend : ∀ s : Tftpsender, (s.withBuffer b).sendReadBlock = s.sendReadBlock.withBuffer b := by
    intro s
    cases h : (((DataMessage.new s.input.gcount).setData (s.lastsentdata.take s.input.gcount)).setBlockNr
      s.lastsentdatacount).encode with
    | none => simp only [sendReadBlock, withBuffer, h]
    | some str =>
      simp only [sendReadBlock, withBuffer, h]
      rfl
  rw [sendNextBlock, hread, hsend]
  rfl

theorem start_withBuffer : (s.withBuffer b).start = s.start.withBuffer b := by
  unfold start
  change (if s.input.fail = true then _ else if s.lastsentdatacount = 1 then _ else _) = _
  split_ifs
  · exact endOperationWith_withBuffer b (sendErrorMsg _ _ _ s) _
  · exact sendNextBlock_withBuffer b s
  · rfl

theorem handleBlockSent_withBuffer (err : ErrorCode) (n : ℕ) :
    (s.withBuffer b).handleBlockSent err n = (s.handleBlockSent err n).withBuffer b := by
  unfold handleBlockSent
  split_ifs <;> rfl

theorem handleReadTimeout_withBuffer (err : ErrorCode) :
    (s.withBuffer b).handleReadTimeout err = (s.handleReadTimeout err).withBuffer b := by
  unfold handleReadTimeout
  by_cases ha : err = .operationAborted
  · rw [if_pos ha, if_pos ha]
  · rw [if_neg ha, if_neg ha]
    cases hc : s.io.cancel with
    | none =>
      have hc' : (s.withBuffer b).io.cancel = none := hc
      rw [hc']
      rfl
    | some io =>
      have hc' : (s.withBuffer b).io.cancel = some io := hc
      rw [hc']
      change (if s.timeoutcount + 1 ≤ retransmissionsUntilTimeout then _ else _) =
        withBuffer b (if s.timeoutcount + 1 ≤ retransmissionsUntilTimeout then _ else _)
      split_ifs
      · rfl
      · exact endOperationWith_withBuffer b (sendErrorMsg _ _ _ { s with
          io := io, timeoutcount := s.timeoutcount + 1 }) _

/-- Only a datagram of four bytes is decoded. -/
theorem checkAckForLastBlock_withBuffer {err : ErrorCode} {n : ℕ}
    (h : err = .success → n ≠ opcodeLength + blockNrLength) :
    (s.withBuffer b).checkAckForLastBlock err n = (s.checkAckForLastBlock err n).withBuffer b := by
  have hshort : ¬ (err = .success ∧ n = opcodeLength + blockNrLength ∧ s.wrongRemoteHost = false) :=
    fun hs => h hs.1 hs.2.1
  have hb : ∀ t : Tftpsender, t.wrongRemoteHost = s.wrongRemoteHost → t.ackBranch err n =
      if s.wrongRemoteHost then .foreignHost
      else if err = .operationAborted ∨ n ≠ opcodeLength + blockNrLength then .retry else .fatal := by
    intro t ht
    rw [ackBranch, ht, if_neg hshort]
  obtain ⟨t, ht⟩ : ∃ t : Tftpsender, t = { s with io := s.io.timerCancel } := ⟨_, rfl⟩
  have hio : ({ s.withBuffer b with io := (s.withBuffer b).io.timerCancel } : Tftpsender) = t.withBuffer b := by
    rw [ht]
    rfl
  rw [checkAckForLastBlock, checkAckForLastBlock, hio, ← ht, hb t (by rw [ht]; rfl),
    hb (t.withBuffer b) (by rw [ht]; rfl)]
  split_ifs
  · exact sendNextBlock_withBuffer b (sendErrorMsg _ _ _ t)
  · exact sendNextBlock_withBuffer b t
  · exact endOperationWith_withBuffer b t _

end

/-- The states differ in the buffer, as long as no ACK is in it. -/
structure Alike (s t : Tftpsender) : Prop where
  eq : t = s.withBuffer t.ackbuffer
  wf : s.WellFormed
  length : t.ackbuffer.length = 4
  ack : ∀ h, (h, .success, opcodeLength + blockNrLength) ∈ s.io.received → t = s

namespace Alike
variable {s t : Tftpsender}

theorem refl (h : s.WellFormed) : Alike s s := ⟨rfl, h, h.ackbuffer, fun _ _ => rfl⟩

theorem view (h : Alike s t) : s.view = t.view := by
  rw [h.eq]
  rfl

/-- Code that does not look at the buffer and leaves no datagram. -/
theorem handler {f : Tftpsender → Tftpsender} (hf : ∀ b, f (s.withBuffer b) = (f s).withBuffer b)
    (ha : (f s).io.arrivals = s.io.arrivals) (hwf : (f s).WellFormed) (h : Alike s t) : Alike (f s) (f t) := by
  have ht : (f t).ackbuffer = t.ackbuffer := by
    rw [h.eq, hf]
    rfl
  refine ⟨?_, hwf, ht ▸ h.length, fun r hr => ?_⟩
  · rw [ht, ← hf, ← h.eq]
  · rw [← Io.mem_arrivals, ha, Io.mem_arrivals] at hr
    rw [h.ack r hr]

/-- Nothing happens to the buffer and the datagrams. -/
theorem setIo (h : Alike s t) (io : Io SenderHandler Endpoint) (hopen : io.isOpen = s.io.isOpen)
    (ha : io.arrivals ⊆ s.io.arrivals) : Alike { s with io := io } { t with io := io } := by
  refine ⟨?_, h.wf.io io hopen, h.length, fun r hr => ?_⟩
  · conv_lhs => rw [h.eq]
    rfl
  · rw [h.ack r (Io.mem_arrivals.1 (ha (Io.mem_arrivals.2 hr)))]

/-- A datagram of four bytes makes the buffers the same. -/
theorem deliver (h : Alike s t) (src : Endpoint) (d : Bytes) {io : Io SenderHandler Endpoint} {r : SenderHandler}
    (hopen : io.isOpen = s.io.isOpen)
    (hio : io.received = s.io.received ++ [(r, .success, min d.length (min s.ackbuffer.length s.blocksize))]) :
    Alike (store src (d.take (min s.ackbuffer.length s.blocksize)) { s with io := io })
      (store src (d.take (min s.ackbuffer.length s.blocksize)) { t with io := io }) := by
  have hwf := (h.wf.io io hopen).store src d
  have hs := h.wf.ackbuffer
  have ht := h.length
  obtain ⟨d', hd'⟩ : ∃ d', d' = d.take (min s.ackbuffer.length s.blocksize) := ⟨_, rfl⟩
  have hlen : d'.length = min d.length (min s.ackbuffer.length s.blocksize) := by
    rw [hd', List.length_take, min_comm]
  rw [← hd'] at hwf ⊢
  rw [← hlen] at hio
  refine ⟨?_, hwf, ?_, fun r' hr => ?_⟩
  · conv_lhs => rw [h.eq]
    rfl
  · change (d' ++ t.ackbuffer.drop d'.length).length = 4
    rw [List.length_append, List.length_drop]
    omega
  · change (r', _, _) ∈ io.received at hr
    rw [hio] at hr
    rcases List.mem_append.1 hr with hr | hr
    · rw [h.ack r' hr]
    · have h4 : opcodeLength + blockNrLength = d'.length := (Prod.mk.inj (Prod.mk.inj (List.mem_singleton.1 hr)).2).2
      change 4 = d'.length at h4
      rw [h.eq]
      simp only [store, withBuffer, List.drop_eq_nil_of_le (hs.trans h4).le, List.drop_eq_nil_of_le (ht.trans h4).le]

theorem bisim : lts.Bisim Alike := by
  intro s t e h
  obtain ⟨b, rfl⟩ : ∃ b, t = s.withBuffer b := ⟨_, h.eq⟩
  refine Proactor.step_rel (k := s.io.duration) rfl rfl fun s' t' hstep hstep' => ?_
  cases hstep with
  | start _ =>
    cases hstep' with
    | start _ =>
      have hio := h.setIo { s.io with started := true } rfl (List.Subset.refl _)
      exact hio.handler (fun b => start_withBuffer b _) (start_leaves _).arrivals hio.wf.start
  | @deliver src d r rs hr =>
    cases hstep' with
    | deliver hr' =>
      cases hr.symm.trans hr'
      have hcap : proactor.capacity (s.withBuffer b) = proactor.capacity s :=
        congrArg (min · _) (h.length.trans h.wf.ackbuffer.symm)
      rw [hcap]
      exact h.deliver src d rfl rfl
  | receiveFails hr hne =>
    cases hstep' with
    | receiveFails hr' _ =>
      cases hr.symm.trans hr'
      refine h.setIo _ rfl fun x hx => ?_
      rw [Io.arrivals, List.filter_append, List.filter_cons_of_neg (by simpa using hne), List.filter_nil,
        List.append_nil] at hx
      exact hx
  | sendCompletes hn =>
    cases hstep' with
    | sendCompletes hn' =>
      cases hn.symm.trans hn'
      exact h.setIo _ rfl (List.Subset.refl _)
  | expire _ =>
    cases hstep' with
    | expire _ => exact h.setIo _ rfl (List.Subset.refl _)
  | @runReceive i r err n hx =>
    cases hstep' with
    | runReceive hx' =>
      cases hx.symm.trans hx'
      have hio := h.setIo { s.io with received := s.io.received.eraseIdx i } rfl
        ((List.eraseIdx_sublist _ i).filter _).subset
      have hrun := hio.wf.checkAckForLastBlock err n
      change Alike (onReceive r err n _) (onReceive r err n _)
      rw [onReceive_eq, onReceive_eq]
      by_cases hack : err = .success ∧ n = opcodeLength + blockNrLength
      · obtain ⟨rfl, rfl⟩ := hack
        rw [h.ack r (List.mem_of_getElem? hx)]
        exact .refl hrun
      · exact hio.handler (fun b => checkAckForLastBlock_withBuffer b _ fun he hn => hack ⟨he, hn⟩)
          (checkAckForLastBlock_leaves _ err n).arrivals hrun
  | @runSend i err n hx =>
    cases hstep' with
    | runSend hx' =>
      cases hx.symm.trans hx'
      have hio := h.setIo { s.io with sent := s.io.sent.eraseIdx i } rfl (List.Subset.refl _)
      exact hio.handler (fun b => handleBlockSent_withBuffer b _ err n) (handleBlockSent_leaves _ err n).arrivals
        (hio.wf.handleBlockSent err n)
  | @runTimer i err hx =>
    cases hstep' with
    | runTimer hx' =>
      cases hx.symm.trans hx'
      have hio := h.setIo { s.io with waited := s.io.waited.eraseIdx i } rfl (List.Subset.refl _)
      exact hio.handler (fun b => handleReadTimeout_withBuffer b _ err) (handleReadTimeout_leaves _ err).arrivals
        (hio.wf.handleReadTimeout err)

end Alike

/-! ## The two ways -/

section
variable {file : Option Bytes} {F : Bytes} {e : Endpoint} {d past : Bytes} {t : UInt8}

theorem step_start {s : Tftpsender} (ht : s.threw = false) (hs : s.io.started = false) :
    lts.step s .start = some (start { s with io := { s.io with started := true } }) :=
  (Proactor.Step.start (P := proactor) hs).step_eq ht

/-- The sender with a peer, when it has been started. -/
def known (F : Bytes) (e : Endpoint) (t : UInt8) : Tftpsender :=
  { newConnected {} (.ofFile (some F)) e 1 512 t with io := { started := true } }

theorem known_wellFormed (F : Bytes) (e : Endpoint) (t : UInt8) : (known F e t).WellFormed :=
  ⟨rfl, List.length_replicate, Nat.zero_le _, rfl⟩

theorem known_lastsentdatacount (F : Bytes) (e : Endpoint) (t : UInt8) : (known F e t).lastsentdatacount = 1 := by
  change UInt16.ofInt 1 = 1
  decide

theorem takeAck_some : takeAck (some F) e t = (known F e t).sendNextBlock := by
  have hstart : lts.step (newConnected {} (.ofFile (some F)) e 1 512 t) .start = some (known F e t).start :=
    step_start rfl rfl
  have hf : ¬ (known F e t).input.fail = true := Bool.false_ne_true
  rw [takeAck, Lts.attempt_step hstart, Lts.attempt_nil, start, if_neg hf, if_pos (known_lastsentdatacount F e t)]

theorem takeAck_callbacks : (takeAck (some F) e t).callbacks = [] := by
  have hf : (known F e t).seeked.fail = false := seeked_fail (by change 512 ≤ 65464; omega)
    (by rw [known_lastsentdatacount]; decide)
  rw [takeAck_some, sendNextBlock_good (known_wellFormed F e t) hf]
  rfl

/-- The datagram `d` has arrived from `e` at a sender without a peer. -/
def arrived (F : Bytes) (e : Endpoint) (d : Bytes) (t : UInt8) : Tftpsender :=
  { new {} (.ofFile (some F)) 0 512 t with
    io := { started := true }
    ackbuffer := d.take 4 ++ List.replicate (4 - d.length) 0
    mLastReceivedReceiverEndpoint := e }

theorem awaitAck_some : awaitAck (some F) e d t =
    (arrived F e d t).checkAckForLastBlock .success (min d.length 4) := by
  obtain ⟨s, hs⟩ : ∃ s : Tftpsender, s = { new {} (.ofFile (some F)) 0 512 t with
    io := { started := true, receives := [.handleFirstAckkWithoutConnect] } } := ⟨_, rfl⟩
  have hstart : lts.step (new {} (.ofFile (some F)) 0 512 t) .start = some s := by
    refine (step_start rfl rfl).trans ?_
    have hcount : ¬ UInt16.ofInt 0 = 1 := by decide
    rw [hs]
    change some (if false = true then _ else if UInt16.ofInt 0 = 1 then _ else _) = _
    rw [if_neg Bool.false_ne_true, if_neg hcount]
    rfl
  have hcap : proactor.capacity s = 4 := by
    rw [hs]
    rfl
  have hbuf : d.take 4 ++ (List.replicate 4 (0 : UInt8)).drop (d.take 4).length =
      d.take 4 ++ List.replicate (4 - d.length) 0 := by
    rw [List.drop_replicate, List.length_take, ← Nat.sub_eq_sub_min]
  obtain ⟨s', hs', hdeliver, hrun⟩ := Proactor.step_deliver (P := proactor) (s := s) e d (fun _ => ⟨rfl, rfl⟩)
    (by rw [hs]; rfl) (by rw [hs]; rfl) (by rw [hs]; rfl)
  rw [hcap] at hs' hrun
  have harrived : proactor.setIo { proactor.io s with receives := [], received := [] } s' = arrived F e d t := by
    rw [hs', hs, arrived, ← hbuf]
    rfl
  rw [harrived] at hrun
  have hrun' : lts.step s' (.runReceive 0) =
      some ((arrived F e d t).checkAckForLastBlock .success (min d.length 4)) := hrun
  rw [awaitAck, Lts.attempt_step hstart, Lts.attempt_step hdeliver, Lts.attempt_step hrun', Lts.attempt_nil]

theorem arrived_wellFormed (F : Bytes) (e : Endpoint) (d : Bytes) (t : UInt8) : (arrived F e d t).WellFormed where
  isOpen := rfl
  ackbuffer := by
    change (d.take 4 ++ List.replicate (4 - d.length) (0 : UInt8)).length = 4
    rw [List.length_append, List.length_take, List.length_replicate]
    omega
  gcount := Nat.zero_le _
  lastsentdata := List.length_replicate

theorem arrived_lastsentdatacount (F : Bytes) (e : Endpoint) (d : Bytes) (t : UInt8) :
    (arrived F e d t).lastsentdatacount = 0 := by
  change UInt16.ofInt 0 = 0
  decide

/-- The sender decodes the header of the datagram. -/
theorem arrived_receivedMsg (h4 : 4 ≤ d.length) (h : TakenAsAck past d) :
    (arrived F e d t).receivedMsg = (true, (AckMessage.decode past {} d).2) := by
  have hbuf : (arrived F e d t).ackbuffer = d.take 4 := by
    change d.take 4 ++ List.replicate (4 - d.length) (0 : UInt8) = d.take 4
    rw [Nat.sub_eq_zero_of_le h4, List.replicate_zero, List.append_nil]
  have hget : ∀ i, i + 1 < 4 → ntohs (memory (d.take 4) []) i = ntohs (memory d past) i := by
    intro i hi
    rw [memory, memory, ntohs_append (by rw [List.length_take]; omega), ntohs_take hi, ntohs_append (by omega)]
  have hop : ntohs (memory d past) 0 = TftpOpcode.ack.toUInt16 := by
    have h2 := h.2
    unfold AckMessage.decode at h2
    dsimp only at h2
    split_ifs at h2 with h0
    exact not_ne_iff.1 h0
  rw [receivedMsg, hbuf, AckMessage.decode, AckMessage.decode, hget 0 (by omega), hget opcodeLength (by decide), hop]
  rfl

/-- What becomes of the datagram. -/
theorem arrived_handled (h : TakenAsAck past d) : (arrived F e d t).checkAckForLastBlock .success (min d.length 4) =
    if 4 ≤ d.length then
      if (AckMessage.decode past {} d).2.mBlockNr = 0 then (arrived F e d t).acceptAck
      else ((arrived F e d t).sendErrorMsg 4 (ascii "ACK for package that was not yet sent: expected " ++ decimal 0 ++
        ascii ", got " ++ decimal (AckMessage.decode past {} d).2.mBlockNr.toNat) default).endOperation .success
    else (arrived F e d t).sendNextBlock := by
  have hio : ({ arrived F e d t with io := (arrived F e d t).io.timerCancel } : Tftpsender) = arrived F e d t := rfl
  have hhost : (arrived F e d t).wrongRemoteHost = false := rfl
  have hcount := arrived_lastsentdatacount F e d t
  rw [checkAckForLastBlock, hio]
  by_cases h4 : 4 ≤ d.length
  · have hmsg := arrived_receivedMsg (F := F) (e := e) (t := t) h4 h
    have hb : (arrived F e d t).ackBranch .success (min d.length 4) =
        if (AckMessage.decode past {} d).2.mBlockNr = 0 then .expectedAck else .futureAck := by
      have hlt : ¬ (AckMessage.decode past {} d).2.mBlockNr < 0 := by
        rw [UInt16.lt_iff_toNat_lt]
        exact Nat.not_lt_zero _
      rw [ackBranch, if_pos ⟨rfl, min_eq_right h4, hhost⟩, hmsg, hcount, if_neg (by simp), if_neg hlt]
    rw [hb, hmsg, hcount, if_pos h4]
    split_ifs <;> rfl
  · have hb : (arrived F e d t).ackBranch .success (min d.length 4) = .retry := by
      have hn : min d.length 4 ≠ opcodeLength + blockNrLength := by
        change min d.length 4 ≠ 4
        omega
      rw [ackBranch, if_neg (fun h => hn h.2.1), if_neg (by rw [hhost]; decide), if_pos (.inr hn)]
    rw [hb, if_neg h4]

/-- ACK 0 leaves the sender as the shortcut does, but for the buffer. -/
theorem awaitAck_zero (h : TakenAsAck past d) (h4 : 4 ≤ d.length)
    (h0 : (AckMessage.decode past {} d).2.mBlockNr = 0) : Alike (takeAck (some F) e t) (awaitAck (some F) e d t) := by
  have hwf : (known F e t).sendNextBlock.WellFormed := (known_wellFormed F e t).sendNextBlock
  have hcount : (arrived F e d t).countAck = (known F e t).withBuffer (arrived F e d t).ackbuffer := by
    unfold countAck onConnect known arrived newConnected
    rfl
  have hdone : ¬ ((known F e t).withBuffer (arrived F e d t).ackbuffer).sendingdone = true := Bool.false_ne_true
  rw [awaitAck_some, arrived_handled h, if_pos h4, if_pos h0, takeAck_some, acceptAck, hcount, if_neg hdone,
    sendNextBlock_withBuffer]
  refine ⟨rfl, hwf, (arrived_wellFormed F e d t).ackbuffer, fun r hr => ?_⟩
  rw [← Io.mem_arrivals, (sendNextBlock_leaves _).arrivals] at hr
  cases hr

/-- Otherwise the sender ends the operation. -/
theorem awaitAck_other (h : TakenAsAck past d) (hn : (awaitAck (some F) e d t).callbacks = []) :
    4 ≤ d.length ∧ (AckMessage.decode past {} d).2.mBlockNr = 0 := by
  rw [awaitAck_some, arrived_handled h] at hn
  split_ifs at hn with h4 h0
  · exact ⟨h4, h0⟩
  · cases hn
  · have hseek : (arrived F e d t).seeked.fail = true := by
      refine Bool.eq_true_of_not_eq_false fun hf => ?_
      have hc := (seeked_good (by change 1 ≤ 512; omega) (by change 512 ≤ 65464; omega) hf).1
      rw [arrived_lastsentdatacount] at hc
      cases hc
    rw [sendNextBlock_bad (arrived_wellFormed F e d t) hseek] at hn
    cases hn

/-- Only block 1 is sent without an ACK 0. -/
theorem takeAck_none : (takeAck none e t).lastsentdatacount = 1 := by
  change UInt16.ofInt 1 = 1
  decide

theorem awaitAck_none : (awaitAck none e d t).lastsentdatacount = 0 := by
  change UInt16.ofInt 0 = 0
  decide

/-- The client's handler takes the datagram for an ACK and starts the sender. -/
theorem handleAnswer_takenAsAck {c : TftpClient} {n : ℕ} (hr : c.requestType = .wrq)
    (h : TakenAsAck past (c.mRecvBuffer.take n)) : c.handleAnswer past .success n =
      { c with io := c.io.timerCancel }.startSession (.sender
        (newConnected c.sock (.ofFile (c.os.content c.filepath)) c.mServerEndpoint 1 defaultBlocksize
          retransmissionTime).start) := by
  have hwrq : c.requestType ≠ .rrq := by
    rw [hr]
    decide
  rw [TftpClient.handleAnswer]
  dsimp only
  rw [if_pos rfl, h.1, if_neg Bool.false_ne_true, TftpClient.handleOther]
  dsimp only
  rw [if_neg hwrq, h.2, if_pos rfl]
  rfl

/-- **When the ACK shortcut is the ordinary path**: exactly for an ACK 0 of at least four bytes,
    and a file that can be opened. -/
theorem ack_shortcut_iff (file : Option Bytes) (e : Endpoint) (t : UInt8) {past d : Bytes} (h : TakenAsAck past d) :
    (lts.SameBehaviour view (takeAck file e t) (awaitAck file e d t) ∧
      ∀ data, (e, dataBytes 1 data) ∈ (takeAck file e t).io.wire →
        (AckMessage.decode past {} d).2.mBlockNr = 0) ↔
    file.isSome = true ∧ 4 ≤ d.length ∧ (AckMessage.decode past {} d).2.mBlockNr = 0 := by
  constructor
  · rintro ⟨hsame, -⟩
    have hv := hsame.observe
    cases file with
    | none =>
      have hcount := lastsentdatacount_of_view hv
      rw [takeAck_none, awaitAck_none] at hcount
      cases hcount
    | some F =>
      have hcall := callbacks_of_view hv
      exact ⟨rfl, awaitAck_other h (hcall.symm.trans takeAck_callbacks)⟩
  · rintro ⟨hfile, h4, h0⟩
    obtain ⟨F, rfl⟩ := Option.isSome_iff_exists.1 hfile
    exact ⟨Alike.bisim.sameBehaviour (fun _ _ => Alike.view) (awaitAck_zero h h4 h0), fun _ _ => h0⟩

end

/-- The ACK 0 of a server that ignores options. -/
theorem ack_shortcut_ack0 :
    lts.SameBehaviour view (takeAck (some [7]) ⟨1, 2⟩ 2) (awaitAck (some [7]) ⟨1, 2⟩ [0, 4, 0, 0] 2) ∧
      ∀ data, (⟨1, 2⟩, dataBytes 1 data) ∈ (takeAck (some [7]) ⟨1, 2⟩ 2).io.wire →
        (AckMessage.decode [] {} [0, 4, 0, 0]).2.mBlockNr = 0 :=
  (ack_shortcut_iff (some [7]) ⟨1, 2⟩ 2 (show TakenAsAck [] [0, 4, 0, 0] from ⟨rfl, rfl⟩)).2
    ⟨rfl, by decide, by decide⟩

/-- An ACK 5 starts the transfer, and would end it on the ordinary path. -/
theorem ack_shortcut_ack5 : ¬ ∀ file e t past d, TakenAsAck past d →
    lts.SameBehaviour view (takeAck file e t) (awaitAck file e d t) ∧
      ∀ data, (e, dataBytes 1 data) ∈ (takeAck file e t).io.wire →
        (AckMessage.decode past {} d).2.mBlockNr = 0 := by
  intro h
  have hack : TakenAsAck [] [0, 4, 0, 5] := ⟨rfl, rfl⟩
  have hcall := callbacks_of_view (h (some [7]) ⟨1, 2⟩ 2 [] _ hack).1.observe
  have hother := @awaitAck_other [7] ⟨1, 2⟩ [0, 4, 0, 5] [] 2 hack
  exact absurd (hother (hcall.symm.trans takeAck_callbacks)).2 (by decide)

end Tftpsender

end Ttftp

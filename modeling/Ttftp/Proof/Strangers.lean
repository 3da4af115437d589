/-
  Datagrams from other hosts than the peer, and senders.

  A stranger makes a sender send the current block again, which it can do only if that
  block has been sent before and is not the last one (`sender_undisturbed_iff`).
-/
import Ttftp.Proof.Inbox
import Ttftp.Proof.Foreign
import Ttftp.Proof.Watch

namespace Ttftp

open Bytes Asio

namespace Tftpsender

/-! ## The stream and the blocks that have been sent -/

/-- The bytes of the file from the offset of a block on. -/
def fileBlock (s : Tftpsender) (nr : UInt16) : Bytes :=
  (s.input.content.drop (seekOffset nr s.blocksize).toNat).take s.blocksize

/-- A sender that has not ended: its stream has failed exactly if it has read the last
    block, and what it has sent can be read again. -/
structure Rereads (s : Tftpsender) : Prop where
  fail : s.sendingdone = true → s.input.fail = true
  done : s.io.started = true → s.input.fail = true → s.sendingdone = true
  sent : ∀ dst nr d, (dst, dataBytes nr d) ∈ s.io.wire → 0 ≤ seekOffset nr s.blocksize ∧ d = s.fileBlock nr

theorem read_fileBlock {s : Tftpsender} (h : s.seeked.fail = false) :
    s.input.fail = false ∧ 0 ≤ seekOffset s.lastsentdatacount s.blocksize ∧
      (s.seeked.read s.blocksize).2 = s.fileBlock s.lastsentdatacount := by
  have hpos := IStream.seekg_pos (s := s.input) h
  have hf := h
  rw [seeked, IStream.seekg_fail, Bool.or_eq_false_iff, decide_eq_false_iff_not] at hf
  refine ⟨hf.1, not_lt.1 hf.2, ?_⟩
  have heof : s.seeked.eof = false := IStream.seekg_eof _ _
  rw [IStream.read, h, heof, Bool.or_false, if_neg Bool.false_ne_true]
  change (s.seeked.content.drop s.seeked.pos).take s.blocksize = _
  rw [seeked, hpos, IStream.seekg_content]
  rfl

namespace Rereads
variable {s t : Tftpsender}

/-- Nothing else matters. -/
theorem congr (h : s.Rereads) (hi : t.input = s.input) (hb : t.blocksize = s.blocksize)
    (hd : t.sendingdone = s.sendingdone) (hw : t.io.wire = s.io.wire)
    (hs : t.io.started = s.io.started) : t.Rereads where
  fail hdone := by rw [hi]; exact h.fail (hd.symm.trans hdone)
  done hst hf := by rw [hd]; exact h.done (hs.symm.trans hst) (by rw [← hi]; exact hf)
  sent dst nr d hm := by
    rw [hw] at hm
    rw [fileBlock, hi, hb]
    exact h.sent dst nr d hm

theorem sendErrorMsg (h : s.Rereads) (c : UInt16) (m : Bytes) (e : Endpoint) : (s.sendErrorMsg c m e).Rereads where
  fail := h.fail
  done hst := h.done ((Io.asyncSendDetached_started _ _ _).symm.trans hst)
  sent dst nr d hm := by
    refine h.sent dst nr d ?_
    simp only [Tftpsender.sendErrorMsg, Io.asyncSendDetached_wire, List.mem_append] at hm
    refine hm.resolve_right fun hm => ?_
    split_ifs at hm
    · simp [dataBytes_ne_error] at hm
    · simp at hm

theorem sendNextBlock (h : s.Rereads) (hs : s.WellFormed) (hf : s.seeked.fail = false) : s.sendNextBlock.Rereads := by
  obtain ⟨hgood, hpos, hread⟩ := read_fileBlock hf
  have hdone : s.sendingdone = false := by
    by_contra hd
    have := h.fail (Bool.eq_true_of_not_eq_false hd)
    rw [hgood] at this
    cases this
  have hfail := IStream.read_fail (n := s.blocksize) hf (IStream.seekg_eof _ _)
  rw [sendNextBlock_good hs hf]
  refine ⟨fun hd => ?_, fun _ hd => ?_, fun dst nr d hm => ?_⟩
  · rw [hdone, Bool.false_or] at hd
    exact hfail.trans hd
  · change (s.seeked.read s.blocksize).1.fail = true at hd
    rw [hdone, Bool.false_or, ← hfail]
    exact hd
  · have hcontent : (s.seeked.read s.blocksize).1.content = s.input.content := by
      rw [IStream.read_content]
      exact IStream.seekg_content _ _
    rw [fileBlock]
    dsimp only at hm ⊢
    rw [hcontent]
    rw [Io.asyncSendTo_wire] at hm
    rcases List.mem_append.1 hm with hm | hm
    · exact h.sent dst nr d hm
    · split_ifs at hm
      · obtain ⟨rfl, rfl⟩ := dataBytes_inj (Prod.mk.inj (List.mem_singleton.1 hm)).2
        exact ⟨hpos, hread⟩
      · cases hm

/-- The next block is sent, or the operation ends. -/
theorem nextBlock (h : s.Rereads) (hs : s.WellFormed) :
    s.sendNextBlock.operationEnded = true ∨ s.sendNextBlock.Rereads := by
  cases hf : s.seeked.fail with
  | false => exact .inr (h.sendNextBlock hs hf)
  | true =>
    rw [sendNextBlock_bad hs hf]
    exact .inl (inputFileError_ended s)

theorem startNextReceive (h : s.Rereads) : s.startNextReceive.Rereads :=
  h.congr rfl rfl rfl (Io.asyncReceiveFrom_wire _ _) (Io.asyncReceiveFrom_started _ _)

theorem io (h : s.Rereads) (io : Io SenderHandler Endpoint) (hw : io.wire = s.io.wire)
    (hst : io.started = s.io.started) : Rereads { s with io := io } := h.congr rfl rfl rfl hw hst

/-- A stream that has failed before the start ends the operation. -/
theorem start (h : s.Rereads) (hs : s.WellFormed) {t : Tftpsender}
    (ht : t = { s with io := { s.io with started := true } }) :
    t.start.operationEnded = true ∨ t.start.Rereads := by
  subst ht
  unfold Tftpsender.start
  split_ifs with hf hc
  · exact .inl (endOperationWith_ended _ _)
  all_goals
    obtain ⟨t, ht⟩ : ∃ t : Tftpsender, t = { s with io := { s.io with started := true } } := ⟨_, rfl⟩
    have hr : t.Rereads := by
      subst ht
      exact ⟨h.fail, fun _ hf' => absurd hf' hf, h.sent⟩
    rw [← ht]
  · exact hr.nextBlock (ht ▸ hs.io _ rfl)
  · exact .inr hr.startNextReceive

theorem countAck (h : s.Rereads) : s.countAck.Rereads := by
  unfold Tftpsender.countAck onConnect
  split_ifs <;> exact h.congr rfl rfl rfl rfl rfl

theorem checkAckForLastBlock (h : s.Rereads) (hs : s.WellFormed) (err : ErrorCode) (n : ℕ) :
    (s.checkAckForLastBlock err n).operationEnded = true ∨ (s.checkAckForLastBlock err n).Rereads := by
  have hr : Rereads { s with io := s.io.timerCancel } := h.io _ rfl rfl
  have hwf : WellFormed { s with io := s.io.timerCancel } := hs.io _ rfl
  unfold Tftpsender.checkAckForLastBlock
  dsimp only
  split
  · exact .inl (endOperation_ended _ _)
  · exact hr.nextBlock hwf
  · unfold acceptAck
    split_ifs
    · exact .inl (endOperation_ended _ _)
    · exact hr.countAck.nextBlock hwf.countAck
  · exact .inl (endOperation_ended _ _)
  · exact (hr.sendErrorMsg _ _ _).nextBlock (hwf.sendErrorMsg _ _ _)
  · exact hr.nextBlock hwf
  · exact .inl (endOperation_ended _ _)

theorem handleBlockSent (h : s.Rereads) (err : ErrorCode) (n : ℕ) : (s.handleBlockSent err n).Rereads := by
  unfold Tftpsender.handleBlockSent
  split_ifs
  · exact (h.io (s.io.expiresFromNow s.timeoutSeconds.toNat).asyncWait rfl rfl).startNextReceive
  · exact h

theorem handleReadTimeout (h : s.Rereads) (err : ErrorCode) :
    (s.handleReadTimeout err).operationEnded = true ∨ (s.handleReadTimeout err).Rereads := by
  unfold Tftpsender.handleReadTimeout Io.cancel
  split_ifs
  · exact .inr h
  · dsimp only
    split_ifs
    · exact .inr (h.congr rfl rfl rfl rfl rfl)
    · exact .inl (endOperation_ended _ _)
  · exact .inr (h.congr rfl rfl rfl rfl rfl)

theorem step (h : s.Rereads) (hs : s.WellFormed) {e : Event Endpoint} {s' : Tftpsender}
    (he : proactor.step s e = some s') : s'.operationEnded = true ∨ s'.Rereads := by
  obtain ⟨-, hstep⟩ := Proactor.step_cases he
  cases hstep with
  | start _ => exact h.start hs rfl
  | deliver _ => exact .inr (h.congr rfl rfl rfl rfl rfl)
  | receiveFails _ _ | sendCompletes _ | expire _ => exact .inr (h.congr rfl rfl rfl rfl rfl)
  | @runReceive i r err n _ =>
    have hr := (h.io { s.io with received := s.io.received.eraseIdx i } rfl rfl).checkAckForLastBlock
      (hs.io _ rfl) err n
    rw [← onReceive_eq r] at hr
    exact hr
  | @runSend i err n _ =>
    exact .inr ((h.io { s.io with sent := s.io.sent.eraseIdx i } rfl rfl).handleBlockSent err n)
  | @runTimer i err _ =>
    exact (h.io { s.io with waited := s.io.waited.eraseIdx i } rfl rfl).handleReadTimeout err

theorem init (h : Constructed s) : s.Rereads := by
  cases h with
  | unknown => exact ⟨Bool.noConfusion, Bool.noConfusion, fun _ _ _ hm => by cases hm⟩
  | known => exact ⟨Bool.noConfusion, Bool.noConfusion, fun _ _ _ hm => by cases hm⟩

/-- A sender that has not ended can read again what it has sent. -/
theorem reach (h : lts.Reach s) (he : s.operationEnded = false) : s.Rereads := by
  have key : s.ReportInv ∧ (s.operationEnded = true ∨ s.Rereads) := by
    refine h.inv (fun s => s.ReportInv ∧ (s.operationEnded = true ∨ s.Rereads))
      (fun s h => ⟨.init h, .inr (init h)⟩) fun s e s' _ hs hstep => ⟨hs.1.step hstep, ?_⟩
    rcases hs.2 with hend | hr
    · exact .inl ((step_after hstep).2 hend)
    · exact hr.step hs.1.wf hstep
  exact key.2.resolve_left (by rw [he]; exact Bool.false_ne_true)

end Rereads

/-! ## One datagram -/

theorem ackBranch_foreignHost {s : Tftpsender} (h : s.wrongRemoteHost = true) (err : ErrorCode) (n : ℕ) :
    s.ackBranch err n = .foreignHost := by
  rw [ackBranch, if_neg (by simp [h]), if_pos h]

/-- A stranger gets an error, and the peer the current block. -/
theorem checkAckForLastBlock_foreignHost {s : Tftpsender} (h : s.wrongRemoteHost = true) (err : ErrorCode)
    (n : ℕ) : s.checkAckForLastBlock err n =
      (sendErrorMsg TftpErrorCode.unknownTrId.toUInt16
        (ascii "Remote host is not the partner of the transfer on this port")
        s.mLastReceivedReceiverEndpoint { s with io := s.io.timerCancel }).sendNextBlock := by
  have hb : ackBranch err n { s with io := s.io.timerCancel } = .foreignHost := ackBranch_foreignHost h err n
  rw [checkAckForLastBlock]
  simp only [hb]

/-- The sender goes on as before, and its peer gets nothing new. -/
structure Undisturbed (s s' : Tftpsender) : Prop where
  lastsentdatacount : s'.lastsentdatacount = s.lastsentdatacount
  sendingdone : s'.sendingdone = s.sendingdone
  timeoutcount : s'.timeoutcount = s.timeoutcount
  isConnected : s'.isConnected = s.isConnected
  operationEnded : s'.operationEnded = s.operationEnded
  mReceiverEndpoint : s'.mReceiverEndpoint = s.mReceiverEndpoint
  repeats : ∃ w, s'.io.wire = s.io.wire ++ w ∧
    ∀ d, (s.mReceiverEndpoint, d) ∈ w → (s.mReceiverEndpoint, d) ∈ s.io.wire
  waits : s'.threw = false ∧ s'.io.Watched

/-- The current block has been sent to the peer. -/
def SentCurrent (s : Tftpsender) : Prop :=
  ∃ d, (s.mReceiverEndpoint, dataBytes s.lastsentdatacount d) ∈ s.io.wire

/-- The stranger gets an error, and then the current block is sent. -/
theorem step_foreign {s₀ s s' : Tftpsender} (h₀ : Constructed s₀) {es : List (Event Endpoint)}
    (h : lts.run s₀ es = some s) (hc : s.isConnected = true) (he : s.operationEnded = false) {i : ℕ}
    {src : Endpoint} {d : Bytes} (hg : Gets proactor (lts.trace s₀ es) s i src d)
    (hne : src ≠ s.mReceiverEndpoint) (hstep : proactor.step s (.runReceive i) = some s') :
    ∃ (io : Io SenderHandler Endpoint) (msg : ErrorMessage), io.isOpen = s.io.isOpen ∧
      io.wire = s.io.wire ++ [(src, msg.encode)] ∧ s' = sendNextBlock { s with io := io } := by
  have hi := inbox h₀ h
  have hopen := (ReportInv.reach ((Lts.Reach.init h₀).run h)).wf.isOpen
  rw [he] at hopen
  obtain ⟨io, n, hw, ho, hh, rfl⟩ := step_gets hi hg hstep
  have hforeign : wrongRemoteHost { s with io := io } = true := by
    rw [wrongRemoteHost, hh.source, hc, Bool.true_and]
    exact decide_eq_true hne
  obtain ⟨msg, hmsg⟩ : ∃ msg : ErrorMessage, msg = ⟨TftpErrorCode.unknownTrId.toUInt16,
    ascii "Remote host is not the partner of the transfer on this port"⟩ := ⟨_, rfl⟩
  refine ⟨io.timerCancel.asyncSendDetached src msg.encode, msg, ?_, ?_, ?_⟩
  · rw [Io.asyncSendDetached_isOpen]
    exact ho
  · rw [Io.asyncSendDetached_wire, Io.timerCancel_isOpen, Io.timerCancel_wire, ho, hopen, hw]
    rfl
  · rw [checkAckForLastBlock_foreignHost hforeign, hmsg, ← hh.source]
    rfl

/-- A block that has been sent and is not the last one is sent again. -/
theorem Rereads.again {s : Tftpsender} (h : s.Rereads) (hs : s.ReportInv) (he : s.operationEnded = false)
    (hst : s.io.started = true) (hdone : s.sendingdone = false) (hcur : s.SentCurrent) :
    s.seeked.fail = false ∧ s.blocksize ≤ (s.fileBlock s.lastsentdatacount).length ∧
      (s.mReceiverEndpoint, dataBytes s.lastsentdatacount (s.fileBlock s.lastsentdatacount)) ∈ s.io.wire := by
  obtain ⟨d, hd⟩ := hcur
  obtain ⟨hpos, rfl⟩ := h.sent _ _ _ hd
  refine ⟨?_, ?_, hd⟩
  · rw [seeked, IStream.seekg_fail, Bool.or_eq_false_iff, decide_eq_false_iff_not]
    refine ⟨?_, not_lt.2 hpos⟩
    by_contra hf
    have := h.done hst (Bool.eq_true_of_not_eq_false hf)
    rw [hdone] at this
    cases this
  · by_contra hlen
    have := (hs.short he _ _ _ hd (not_le.1 hlen)).1
    rw [hdone] at this
    cases this

/-- **When strangers do not disturb a sender.**  The datagram of another host than the peer,
    handled in any reachable state of a connected sender, leaves the transfer as it is
    exactly if the last block has not been read yet and the current block has been sent to
    the peer before. -/
theorem sender_undisturbed_iff {s₀ s s' : Tftpsender} (h₀ : Constructed s₀) {es : List (Event Endpoint)}
    (h : lts.run s₀ es = some s) (hc : s.isConnected = true) (he : s.operationEnded = false) {i : ℕ}
    {src : Endpoint} {d : Bytes} (hg : Gets proactor (lts.trace s₀ es) s i src d)
    (hne : src ≠ s.mReceiverEndpoint) (hstep : proactor.step s (.runReceive i) = some s') :
    Undisturbed s s' ↔ s.sendingdone = false ∧ s.SentCurrent := by
  have hreach : lts.Reach s := (Lts.Reach.init h₀).run h
  have hr := Rereads.reach hreach he
  have hrep := ReportInv.reach hreach
  obtain ⟨io, msg, hopen, hwire, rfl⟩ := step_foreign h₀ h hc he hg hne hstep
  have hopen' : io.isOpen = true := by rw [hopen, hrep.wf.isOpen, he]; rfl
  obtain ⟨t, ht⟩ : ∃ t : Tftpsender, t = { s with io := io } := ⟨_, rfl⟩
  have hwf : t.WellFormed := ht ▸ hrep.wf.io io hopen
  constructor
  · intro hu
    have hf : s.seeked.fail = false := by
      by_contra hf
      have hend := hu.operationEnded
      rw [← ht, sendNextBlock_bad hwf (by rw [ht]; exact Bool.eq_true_of_not_eq_false hf), he] at hend
      exact absurd ((inputFileError_ended t).symm.trans hend) (by simp)
    refine ⟨?_, (s.seeked.read s.blocksize).2, ?_⟩
    · by_contra hd
      have hfail := hr.fail (Bool.eq_true_of_not_eq_false hd)
      rw [(read_fileBlock hf).1] at hfail
      cases hfail
    · obtain ⟨w, hw, hrepeat⟩ := hu.repeats
      rw [← ht, sendNextBlock_good hwf (by rw [ht]; exact hf), ht] at hw
      dsimp only at hw
      rw [Io.asyncSendTo_wire, if_pos hopen', hwire, List.append_assoc] at hw
      obtain rfl := List.append_cancel_left hw
      exact hrepeat _ (List.mem_append_right _ (List.mem_singleton_self _))
  · rintro ⟨hd, hcur⟩
    have hst : s.io.started = true := by
      by_contra hn
      have hi := inbox h₀ h
      have h0 := hi.fresh (Bool.eq_false_iff.2 hn)
      obtain ⟨⟨r, n, hx⟩, -⟩ := hg
      have h1 := (Io.tokens_eraseIdx_received hx hi.tokens).1
      omega
    obtain ⟨hf, hlen, hmem⟩ := hr.again hrep he hst hd hcur
    have hread := (read_fileBlock hf).2.2
    have hgood := sendNextBlock_good hwf (by rw [ht]; exact hf)
    rw [ht] at hgood
    change sendNextBlock _ = { s with
      input := (s.seeked.read s.blocksize).1
      lastsentdata := (s.seeked.read s.blocksize).2 ++
        List.replicate (s.blocksize - (s.seeked.read s.blocksize).2.length) 0
      io := io.asyncSendTo s.mReceiverEndpoint (dataBytes s.lastsentdatacount (s.seeked.read s.blocksize).2)
      sendingdone := s.sendingdone || decide ((s.seeked.read s.blocksize).2.length < s.blocksize) } at hgood
    rw [hgood, hread]
    refine ⟨rfl, ?_, rfl, rfl, rfl, rfl, ⟨[(src, msg.encode), (s.mReceiverEndpoint,
      dataBytes s.lastsentdatacount (s.fileBlock s.lastsentdatacount))], ?_, fun d hd => ?_⟩,
      (Proactor.step_cases hstep).1, .inl ?_⟩
    · rw [hd, Bool.false_or]
      exact decide_eq_false (not_lt.2 hlen)
    · dsimp only
      rw [Io.asyncSendTo_wire, if_pos hopen', hwire, List.append_assoc]
      rfl
    · rcases List.mem_cons.1 hd with hd | hd
      · exact absurd (Prod.mk.inj hd).1.symm hne
      · rw [List.mem_singleton.1 hd]
        exact hmem
    · dsimp only
      rw [Io.asyncSendTo, if_pos hopen']
      exact List.append_ne_nil_of_right_ne_nil _ (List.cons_ne_nil _ _)

/-- A stranger comes before the ACK of the first of two blocks. -/
theorem sender_undisturbed_one_stranger : ∃ s s',
    lts.run (newConnected {} (.ofFile (some [1, 2, 3, 4, 5, 6, 7, 8, 9])) ⟨1, 2⟩ 1 8 2)
      [.start, .sendCompletes .success, .runSend 0, .deliver ⟨8, 9⟩ [0]] = some s ∧
    proactor.step s (.runReceive 0) = some s' ∧ Undisturbed s s' := by
  have hrun : lts.run (newConnected {} (.ofFile (some [1, 2, 3, 4, 5, 6, 7, 8, 9])) ⟨1, 2⟩ 1 8 2)
    [.start, .sendCompletes .success, .runSend 0, .deliver ⟨8, 9⟩ [0]] = some _ := rfl
  refine ⟨_, _, hrun, rfl, (sender_undisturbed_iff (.known _ _ 1 8 2) hrun rfl rfl (i := 0) ⟨⟨_, _, rfl⟩, rfl⟩
    (by decide) rfl).2 ⟨rfl, [1, 2, 3, 4, 5, 6, 7, 8], ?_⟩⟩
  exact List.mem_singleton_self _

/-- A stranger comes before the ACK of the options, and ends the transfer. -/
theorem sender_disturbed_before_data1 : ¬ ∀ s₀ s s' es i src d, Constructed s₀ → lts.run s₀ es = some s →
    s.isConnected = true → s.operationEnded = false → Gets proactor (lts.trace s₀ es) s i src d →
    src ≠ s.mReceiverEndpoint → proactor.step s (.runReceive i) = some s' → Undisturbed s s' := by
  intro h
  have hu := h (newConnected {} (.ofFile (some [7])) ⟨1, 2⟩ 0 8 2) _ _ [.start, .deliver ⟨8, 9⟩ [0]] 0 ⟨8, 9⟩ [0]
    (.known _ _ _ _ _) rfl rfl rfl ⟨⟨_, _, rfl⟩, rfl⟩ (by decide) rfl
  exact absurd hu.operationEnded (by decide)

end Tftpsender

end Ttftp

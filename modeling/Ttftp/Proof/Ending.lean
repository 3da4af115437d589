/-
  After the end: when nothing happens any more.

  No handler asks whether the operation has ended.  What a closed socket still does is
  mostly harmless, since asynchronous calls on it only fail; the exceptions are the
  handler of a late expiry, which cancels the socket, and a receiver's next block, which
  is written, and acknowledged synchronously if it is the last one.
  `quiet_after_end_iff` says that these are all.
-/
import Ttftp.Commands
import Ttftp.Proof.Watch

namespace Ttftp

open Bytes Asio

/-! ## The sender -/

namespace Tftpsender

/-- A step after which, or in the midst of which, a sender that has ended acts: the
    handler of an expiry that was ready when it ended. -/
def ActsAfterEnd (s : Tftpsender) : Event Endpoint → Prop
  | .runTimer i => s.operationEnded = true ∧ ∃ err, s.io.waited[i]? = some err ∧ err ≠ .operationAborted
  | _ => False

section
variable {s : Tftpsender}

theorem WellFormed.isOpen_of_ended (hs : s.WellFormed) (he : s.operationEnded = true) :
    s.io.isOpen = false := by
  rw [hs.isOpen, he]
  rfl

theorem sendErrorMsg_observed (hs : s.WellFormed) (he : s.operationEnded = true) (c : UInt16) (m : Bytes)
    (e : Endpoint) : (s.sendErrorMsg c m e).observed = s.observed := by
  have hw : (s.sendErrorMsg c m e).io.wire = s.io.wire := by
    change (s.io.asyncSendDetached _ _).wire = _
    rw [Io.asyncSendDetached_wire, if_neg (by simp [hs.isOpen_of_ended he]), List.append_nil]
  exact congrArg (fun w => (s.threw, w, s.callbacks)) hw

theorem endOperationWith_observed (he : s.operationEnded = true) (code : TftpUserFacingErrorCode) :
    (s.endOperationWith code).observed = s.observed := by
  rw [endOperationWith, if_pos he]

theorem sendReadBlock_observed (hs : s.WellFormed) (he : s.operationEnded = true) :
    s.sendReadBlock.operationEnded = true ∧ s.sendReadBlock.observed = s.observed := by
  rw [sendReadBlock_eq (by rw [hs.lastsentdata]; exact hs.gcount)]
  refine ⟨he, congrArg (fun w => (s.threw, w, s.callbacks)) ?_⟩
  rw [Io.asyncSendTo_wire, if_neg (by simp [hs.isOpen_of_ended he]), List.append_nil]

theorem WellFormed.readNextBlock (hs : s.WellFormed) : s.readNextBlock.WellFormed := by
  cases h : s.seeked.fail with
  | true =>
    rw [show s.readNextBlock = s.inputFileError from if_pos h]
    exact hs.inputFileError
  | false =>
    have hl := IStream.length_read_le s.blocksize s.seeked
    rw [show s.readNextBlock = _ from if_neg (Bool.eq_false_iff.1 h)]
    refine ⟨hs.isOpen, ?_, ?_, hs.ackbuffer⟩
    · change ((s.seeked.read s.blocksize).2 ++ List.replicate _ 0).length = s.blocksize
      rw [List.length_append, List.length_replicate, hs.lastsentdata]
      change (s.seeked.read s.blocksize).2.length +
        (s.blocksize - (s.seeked.read s.blocksize).2.length) = s.blocksize
      omega
    · change (s.seeked.read s.blocksize).1.gcount ≤ s.blocksize
      rw [IStream.read_gcount]
      exact hl

theorem failBody_settled (hs : s.WellFormed) (c : UInt16) (m : Tftpsender → Bytes)
    (code : TftpUserFacingErrorCode) : Command.Settled operationEnded observed (failBody c m code) s :=
  .seq (.basic fun he => ⟨he, sendErrorMsg_observed hs he _ _ _⟩)
    (.basic fun he => ⟨endOperationWith_ended _ _, endOperationWith_observed he _⟩)

theorem sendNextBlockBody_settled (hs : s.WellFormed) :
    Command.Settled operationEnded observed sendNextBlockBody s := by
  have hseek : WellFormed { s with input := s.seeked } :=
    ⟨hs.isOpen, hs.lastsentdata, by simpa [seeked] using hs.gcount, hs.ackbuffer⟩
  refine .seq (.basic fun he => ⟨he, rfl⟩) (.seq (.cond (fun _ => ?_) fun _ => .basic fun he => ⟨he, rfl⟩)
    (.basic ?_))
  · exact failBody_settled hseek _ _ _
  · simp only [Command.exec, Command.exec_cond]
    exact sendReadBlock_observed hs.readNextBlock

theorem startNextReceive_observed : s.startNextReceive.observed = s.observed :=
  congrArg (fun w => (s.threw, w, s.callbacks)) (Io.asyncReceiveFrom_wire _ _)

theorem startBody_settled (hs : s.WellFormed) : Command.Settled operationEnded observed startBody s :=
  .cond (fun _ => failBody_settled hs _ _ _) fun _ =>
    .cond (fun _ => sendNextBlockBody_settled hs) fun _ =>
      .basic fun he => ⟨he, startNextReceive_observed⟩

theorem countAck_observed : s.countAck.observed = s.observed := by
  unfold countAck
  split_ifs <;> rfl

theorem checkAckForLastBlockBody_settled (hs : s.WellFormed) (err : ErrorCode) (n : ℕ) :
    Command.Settled operationEnded observed (checkAckForLastBlockBody err n) s := by
  have h : WellFormed { s with io := s.io.timerCancel } := hs.io _ rfl
  refine .seq (.basic fun he => ⟨he, rfl⟩) (.choose ?_)
  simp only [Command.exec]
  cases ackBranch err n { s with io := s.io.timerCancel } with
  | wrongOpcode | futureAck => exact failBody_settled h _ _ _
  | olderAck | retry => exact sendNextBlockBody_settled h
  | foreignHost =>
    exact .seq (.basic fun he => ⟨he, sendErrorMsg_observed h he _ _ _⟩)
      (sendNextBlockBody_settled (h.sendErrorMsg _ _ _))
  | expectedAck =>
    refine .seq (.basic fun he => ⟨(countAck_operationEnded _).trans he, countAck_observed⟩) (.cond ?_ ?_)
    · exact fun _ => .basic fun he => ⟨endOperation_ended _ _, endOperationWith_observed he _⟩
    · exact fun _ => sendNextBlockBody_settled h.countAck
  | fatal => exact .basic fun he => ⟨endOperation_ended _ _, endOperationWith_observed he _⟩

theorem handleBlockSent_observed (err : ErrorCode) (n : ℕ) :
    (s.handleBlockSent err n).observed = s.observed := by
  unfold handleBlockSent
  split_ifs
  · exact startNextReceive_observed
  · rfl

theorem handleReadTimeoutBody_settled (hs : s.WellFormed) {err : ErrorCode}
    (h : s.operationEnded = true → err = .operationAborted) :
    Command.Settled operationEnded observed (handleReadTimeoutBody err) s := by
  unfold handleReadTimeoutBody
  by_cases ha : err = .operationAborted
  · rw [if_pos ha]
    exact .skip
  · rw [if_neg ha]
    have hrun : s.operationEnded = false := Bool.eq_false_iff.2 fun he => ha (h he)
    have hopen : s.io.isOpen = true := by rw [hs.isOpen, hrun]; rfl
    have hcancel : s.io.cancel = some s.io.abortAll := if_pos hopen
    refine .choose ?_
    simp only [hcancel]
    refine .seq (.basic fun he => ?_) (.cond (fun _ => .skip) fun _ => failBody_settled ?_ _ _ _)
    · rw [hrun] at he
      cases he
    · exact ⟨hs.isOpen, hs.lastsentdata, hs.gcount, hs.ackbuffer⟩

/-- A late expiry throws. -/
theorem handleReadTimeout_threw (hs : s.WellFormed) (he : s.operationEnded = true) {err : ErrorCode}
    (ha : err ≠ .operationAborted) : (s.handleReadTimeout err).threw = true := by
  unfold handleReadTimeout Io.cancel
  rw [if_neg ha, if_neg (by simp [hs.isOpen_of_ended he])]

theorem step_settled (hs : s.WellFormed) {e : Event Endpoint} {s' : Tftpsender}
    (h : proactor.step s e = some s') (hb : ¬ s.ActsAfterEnd e) :
    Command.Settled operationEnded observed (bodies.command e) s := by
  refine bodies.settled h (fun s io hw => ⟨rfl, ?_⟩) (fun _ _ _ => ⟨rfl, rfl⟩) ?_ ?_ ?_ ?_
  · exact congrArg (fun w => (s.threw, w, s.callbacks)) hw
  · rintro rfl
    exact startBody_settled (hs.io { s.io with started := true } rfl)
  · rintro i r err n rfl -
    exact checkAckForLastBlockBody_settled (hs.io { s.io with received := s.io.received.eraseIdx i } rfl) err n
  · rintro i err n rfl -
    exact .basic fun he => ⟨(After.handleBlockSent err n _).ended he, handleBlockSent_observed err n⟩
  · rintro i err rfl hx
    exact handleReadTimeoutBody_settled (hs.io { s.io with waited := s.io.waited.eraseIdx i } rfl) fun he =>
      by_contra fun ha => hb ⟨he, err, hx, ha⟩

theorem step_not_settled (hs : s.WellFormed) {e : Event Endpoint} {s' : Tftpsender}
    (h : proactor.step s e = some s') (hb : s.ActsAfterEnd e) :
    ¬ Command.Settled operationEnded observed (bodies.command e) s := by
  have hexec := bodies.exec_command h
  obtain ⟨hthrew, hstep⟩ := Proactor.step_cases h
  cases hstep with
  | @runTimer i err hx =>
    obtain ⟨he, err', hx', ha⟩ := hb
    cases hx.symm.trans hx'
    refine Command.Settled.not_settled (Command.first_mem _ s) he fun ho => ?_
    rw [hexec] at ho
    have ht := handleReadTimeout_threw
      (s := { s with io := { s.io with waited := s.io.waited.eraseIdx i } }) (hs.io _ rfl) he ha
    have hsame := (congrArg Prod.fst ho).symm.trans ht
    exact Bool.false_ne_true (hthrew.symm.trans hsame)
  | _ => exact hb.elim

end

end Tftpsender

/-! ## The receiver -/

namespace TftpReceiver

/-- A step after which, or in the midst of which, a receiver that has ended acts: the
    handler of an expiry that was ready when it ended; and that of a receive that brings
    the next block after the end, or to an unusable stream. -/
def ActsAfterEnd (s : TftpReceiver) : Event Endpoint → Prop
  | .runReceive i => (s.operationEnded = true ∨ s.output.fail = true) ∧
      ∃ h err n, s.io.received[i]? = some (h, err, n) ∧ s.blockBranch err n = .expectedBlock
  | .runTimer i => s.operationEnded = true ∧ ∃ err, s.io.waited[i]? = some err ∧ err ≠ .operationAborted
  | _ => False

section
variable {s : TftpReceiver}

theorem WellFormed.isOpen_of_ended (hs : s.WellFormed) (he : s.operationEnded = true) :
    s.io.isOpen = false := by
  rw [hs.isOpen, he]
  rfl

theorem sendErrorMsg_observed (hs : s.WellFormed) (he : s.operationEnded = true) (c : UInt16) (m : Bytes)
    (e : Endpoint) : (s.sendErrorMsg c m e).observed = s.observed := by
  have hw : (s.sendErrorMsg c m e).io.wire = s.io.wire := by
    change (s.io.asyncSendDetached _ _).wire = _
    rw [Io.asyncSendDetached_wire, if_neg (by simp [hs.isOpen_of_ended he]), List.append_nil]
  exact congrArg (fun w => (s.threw, s.output.writes, w, s.callbacks)) hw

theorem endOperationWith_observed (he : s.operationEnded = true) (code : TftpUserFacingErrorCode) :
    (s.endOperationWith code).observed = s.observed := by
  rw [endOperationWith, if_pos he]

theorem startNextReceive_observed : s.startNextReceive.observed = s.observed :=
  congrArg (fun w => (s.threw, s.output.writes, w, s.callbacks)) (Io.asyncReceiveFrom_wire _ _)

theorem countBlock_observed : s.countBlock.observed = s.observed := by
  unfold countBlock
  split_ifs <;> rfl

theorem handleACKsent_observed (err : ErrorCode) (n : ℕ) : (s.handleACKsent err n).observed = s.observed := by
  unfold handleACKsent
  split_ifs
  · exact startNextReceive_observed
  · rfl

theorem failBody_settled (hs : s.WellFormed) (c : UInt16) (m : TftpReceiver → Bytes)
    (code : TftpUserFacingErrorCode) : Command.Settled operationEnded observed (failBody c m code) s :=
  .seq (.basic fun he => ⟨he, sendErrorMsg_observed hs he _ _ _⟩)
    (.basic fun he => ⟨endOperationWith_ended _ _, endOperationWith_observed he _⟩)

/-- Only the last ACK must not be sent after the end. -/
theorem sendNextAckBody_settled (hs : s.WellFormed) {l : Bool} (h : l = true → s.operationEnded = false) :
    Command.Settled operationEnded observed (sendNextAckBody l) s := by
  refine .seq (.basic fun he => ⟨he, rfl⟩) (.cond (fun _ => ?_) fun _ => .basic fun he => ?_)
  · cases l with
    | true =>
      have hopen : s.io.isOpen = true := by rw [hs.isOpen, h rfl]; rfl
      have hsend : s.io.sendTo s.mSenderEndpoint (AckMessage.encode ⟨s.lastreceiveddatacount⟩) =
          some { s.io with
            wire := s.io.wire ++ [(s.mSenderEndpoint, AckMessage.encode ⟨s.lastreceiveddatacount⟩)] } :=
        if_pos hopen
      rw [if_pos rfl]
      refine .choose ?_
      simp only [Command.exec, hsend]
      refine .seq (.basic fun he => ?_) (.basic fun he => ⟨endOperation_ended _ _, endOperationWith_observed he _⟩)
      rw [show s.operationEnded = false from h rfl] at he
      cases he
    | false =>
      refine .basic fun he => ⟨he, congrArg (fun w => (s.threw, s.output.writes, w, s.callbacks)) ?_⟩
      change (s.io.asyncSendTo _ _).wire = s.io.wire
      rw [Io.asyncSendTo_wire, if_neg (by simp [hs.isOpen_of_ended he]), List.append_nil]
  · exact ⟨he, startNextReceive_observed⟩

theorem startBody_settled (hs : s.WellFormed) : Command.Settled operationEnded observed startBody s := by
  have h : WellFormed (if s.output.fail then s.outputFileError else s) := by
    split_ifs
    · exact hs.outputFileError
    · exact hs
  refine .seq (.cond (fun _ => failBody_settled hs _ _ _) fun _ => .skip) ?_
  simp only [Command.exec, Command.exec_cond]
  refine .cond (fun _ => sendNextAckBody_settled h fun hl => ?_) fun _ => .basic fun he => ?_
  · cases hl
  · exact ⟨he, startNextReceive_observed⟩

theorem acceptBlockBody_settled (hs : s.WellFormed) (he : s.operationEnded = false)
    (hf : s.output.fail = false) (d : Bytes) (l : Bool) :
    Command.Settled operationEnded observed (acceptBlockBody d l) s := by
  have hc := hs.countBlock
  have hce : s.countBlock.operationEnded = false := (countBlock_operationEnded s).trans he
  have hcf : s.countBlock.output.fail = false := by rw [countBlock_output]; exact hf
  refine .seq (.basic fun _ => ⟨(countBlock_operationEnded s).trans ‹_›, countBlock_observed⟩)
    (.seq (.cond (fun hfail => ?_) fun _ => .skip) ?_)
  · rw [Command.exec, hcf] at hfail
    cases hfail
  · have hwrite : WellFormed { s.countBlock with output := s.countBlock.output.write d } :=
      ⟨hc.isOpen, hc.databuffer⟩
    simp only [Command.exec, Command.exec_cond, hcf]
    rw [if_neg Bool.false_ne_true]
    refine .seq (.basic fun hend => ?_) (sendNextAckBody_settled hwrite fun _ => hce)
    rw [hce] at hend
    cases hend

theorem checkReceivedBlockBody_settled (hs : s.WellFormed) {err : ErrorCode} {n : ℕ}
    (h : s.blockBranch err n = .expectedBlock → s.operationEnded = false ∧ s.output.fail = false) :
    Command.Settled operationEnded observed (checkReceivedBlockBody err n) s := by
  have hw : WellFormed { s with io := s.io.timerCancel } := hs.io _ rfl
  have h' : blockBranch err n { s with io := s.io.timerCancel } = .expectedBlock →
      s.operationEnded = false ∧ s.output.fail = false := h
  have hlater : ∀ {t : TftpReceiver}, t.WellFormed →
      Command.Settled operationEnded observed (sendNextAckBody false) t :=
    fun ht => sendNextAckBody_settled ht fun hl => absurd hl Bool.false_ne_true
  refine .seq (.basic fun he => ⟨he, rfl⟩) (.choose ?_)
  simp only [Command.exec]
  cases hb : blockBranch err n { s with io := s.io.timerCancel } with
  | tooLarge | wrongOpcode | futureBlock => exact failBody_settled hw _ _ _
  | olderBlock | aborted => exact hlater hw
  | foreignHost =>
    exact .seq (.basic fun he => ⟨he, sendErrorMsg_observed hw he _ _ _⟩) (hlater (hw.sendErrorMsg _ _ _))
  | expectedBlock =>
    obtain ⟨he, hf⟩ := h' hb
    exact acceptBlockBody_settled hw he hf _ _
  | fatal => exact .basic fun he => ⟨endOperation_ended _ _, endOperationWith_observed he _⟩

theorem onReceiveBody_settled (hs : s.WellFormed) (r : ReceiverHandler) {err : ErrorCode} {n : ℕ}
    (h : s.blockBranch err n = .expectedBlock → s.operationEnded = false ∧ s.output.fail = false) :
    Command.Settled operationEnded observed (onReceiveBody r err n) s := by
  cases r with
  | checkReceivedBlock => exact checkReceivedBlockBody_settled hs h
  | handleFirstBlockWithoutConnect =>
    have hw : WellFormed { s with io := s.io.timerCancel } := hs.io _ rfl
    refine .seq (.basic fun he => ⟨he, rfl⟩) ?_
    split_ifs
    · exact checkReceivedBlockBody_settled hw h
    · exact sendNextAckBody_settled hw fun hl => absurd hl Bool.false_ne_true
    · exact .basic fun he => ⟨endOperation_ended _ _, endOperationWith_observed he _⟩

theorem handleReadTimeoutBody_settled (hs : s.WellFormed) {err : ErrorCode}
    (h : s.operationEnded = true → err = .operationAborted) :
    Command.Settled operationEnded observed (handleReadTimeoutBody err) s := by
  unfold handleReadTimeoutBody
  by_cases ha : err = .operationAborted
  · rw [if_pos ha]
    exact .skip
  · rw [if_neg ha]
    have hrun : s.operationEnded = false := Bool.eq_false_iff.2 fun he => ha (h he)
    have hopen : s.io.isOpen = true := by rw [hs.isOpen, hrun]; rfl
    have hcancel : s.io.cancel = some s.io.abortAll := if_pos hopen
    refine .choose ?_
    simp only [hcancel]
    refine .seq (.basic fun he => ?_) (.cond (fun _ => .skip) fun _ => failBody_settled ?_ _ _ _)
    · rw [hrun] at he
      cases he
    · exact ⟨hs.isOpen, hs.databuffer⟩

/-- A late expiry throws. -/
theorem handleReadTimeout_threw (hs : s.WellFormed) (he : s.operationEnded = true) {err : ErrorCode}
    (ha : err ≠ .operationAborted) : (s.handleReadTimeout err).threw = true := by
  unfold handleReadTimeout Io.cancel
  rw [if_neg ha, if_neg (by simp [hs.isOpen_of_ended he])]

/-- An unusable stream ends the operation before the block is written. -/
theorem onReceiveBody_states (r : ReceiverHandler) {err : ErrorCode} {n : ℕ}
    (hb : s.blockBranch err n = .expectedBlock) (hf : s.output.fail = true) :
    ∃ t ∈ (onReceiveBody r err n).states s, t.operationEnded = true ∧ t.output = s.output := by
  have hcheck : ∀ t : TftpReceiver, t.output = s.output → t.blockBranch err n = .expectedBlock →
      ∃ t' ∈ (checkReceivedBlockBody err n).states t, t'.operationEnded = true ∧ t'.output = s.output := by
    intro t ho hbt
    refine ⟨(countBlock { t with io := t.io.timerCancel }).outputFileError, ?_, outputFileError_ended _, ?_⟩
    · have hbt' : blockBranch err n { t with io := t.io.timerCancel } = .expectedBlock := hbt
      have hcf : (countBlock { t with io := t.io.timerCancel }).output.fail = true := by
        rw [countBlock_output, show ({ t with io := t.io.timerCancel } : TftpReceiver).output = t.output from rfl,
          ho, hf]
      refine List.mem_append_right _ ?_
      simp only [Command.states, Command.exec, hbt', acceptBlockBody]
      refine List.mem_append_right _ (List.mem_append_left _ ?_)
      rw [Command.cond, Command.states, if_pos hcf]
      exact Command.last_mem outputFileErrorBody _
    · rw [outputFileError_output, countBlock_output]
      exact ho
  cases r with
  | checkReceivedBlock => exact hcheck s rfl hb
  | handleFirstBlockWithoutConnect =>
    have herr := (blockBranch_expectedBlock hb).1
    obtain ⟨t, ht, h⟩ := hcheck { s with io := s.io.timerCancel } rfl hb
    refine ⟨t, List.mem_append_right _ ?_, h⟩
    rw [if_pos herr]
    exact ht

theorem step_settled (hs : s.WellFormed) {e : Event Endpoint} {s' : TftpReceiver}
    (h : proactor.step s e = some s') (hb : ¬ s.ActsAfterEnd e) :
    Command.Settled operationEnded observed (bodies.command e) s := by
  refine bodies.settled h (fun s io hw => ⟨rfl, ?_⟩) (fun _ _ _ => ⟨rfl, rfl⟩) ?_ ?_ ?_ ?_
  · exact congrArg (fun w => (s.threw, s.output.writes, w, s.callbacks)) hw
  · rintro rfl
    exact startBody_settled (hs.io { s.io with started := true } rfl)
  · rintro i r err n rfl hx
    refine onReceiveBody_settled (hs.io { s.io with received := s.io.received.eraseIdx i } rfl) r fun hexp => ?_
    have hno := fun hor => hb ⟨hor, r, err, n, hx, hexp⟩
    exact ⟨Bool.eq_false_iff.2 fun he => hno (.inl he), Bool.eq_false_iff.2 fun hf => hno (.inr hf)⟩
  · rintro i err n rfl -
    exact .basic fun he => ⟨(After.handleACKsent err n _).ended he, handleACKsent_observed err n⟩
  · rintro i err rfl hx
    exact handleReadTimeoutBody_settled (hs.io { s.io with waited := s.io.waited.eraseIdx i } rfl) fun he =>
      by_contra fun ha => hb ⟨he, err, hx, ha⟩

theorem step_not_settled (hs : s.WellFormed) {e : Event Endpoint} {s' : TftpReceiver}
    (h : proactor.step s e = some s') (hb : s.ActsAfterEnd e) :
    ¬ Command.Settled operationEnded observed (bodies.command e) s := by
  have hexec := bodies.exec_command h
  obtain ⟨hthrew, hstep⟩ := Proactor.step_cases h
  cases hstep with
  | @runTimer i err hx =>
    obtain ⟨he, err', hx', ha⟩ := hb
    cases hx.symm.trans hx'
    refine Command.Settled.not_settled (Command.first_mem _ s) he fun ho => ?_
    rw [hexec] at ho
    have ht := handleReadTimeout_threw
      (s := { s with io := { s.io with waited := s.io.waited.eraseIdx i } }) (hs.io _ rfl) he ha
    have hsame := (congrArg Prod.fst ho).symm.trans ht
    exact Bool.false_ne_true (hthrew.symm.trans hsame)
  | @runReceive i r err n hx =>
    obtain ⟨hor, r', err', n', hx', hexp⟩ := hb
    cases hx.symm.trans hx'
    -- there is a state at or after the end in which the block is not yet written
    obtain ⟨t, ht, hend, ho⟩ : ∃ t ∈ (bodies.command (.runReceive i)).states s,
        t.operationEnded = true ∧ t.output = s.output := by
      rcases hor with he | hf
      · exact ⟨s, Command.first_mem _ s, he, rfl⟩
      · obtain ⟨t, ht, h⟩ := onReceiveBody_states
          (s := { s with io := { s.io with received := s.io.received.eraseIdx i } }) r hexp hf
        refine ⟨t, ?_, h⟩
        have hx : (proactor.io s).received[i]? = some (r, err, n) := hx
        simp only [Proactor.Bodies.command, Command.states, hx]
        exact List.mem_append_right _ ht
    refine Command.Settled.not_settled ht hend fun hobs => ?_
    rw [hexec] at hobs
    have hw := congrArg (fun o => o.2.1.length) hobs
    have hwrites := (checkReceivedBlock_expectedBlock
      (s := { s with io := { s.io with received := s.io.received.eraseIdx i } }) hexp).1
    rw [← onReceive_eq r] at hwrites
    have hlen := ((congrArg (fun o => o.writes.length) hwrites).symm.trans hw).trans
      (congrArg (fun o => o.writes.length) ho)
    rw [OStream.length_writes_write] at hlen
    exact absurd hlen (Nat.succ_ne_self _)
  | _ => exact hb.elim

end

end TftpReceiver

/-! ## Runs -/

/-- **When nothing happens after the end.**  In a run of a sender, and in one of a
    receiver, all events are quiet from the end of the operation on, in the midst of the
    handler that ends it as in later ones, exactly if no step acts after the end. -/
theorem quiet_after_end_iff {s₀ : Tftpsender} (hs : Tftpsender.Constructed s₀) {r₀ : TftpReceiver}
    (hr : TftpReceiver.Constructed r₀) (es es' : List (Event Endpoint)) :
    ((∀ x ∈ Tftpsender.lts.trace s₀ es, Command.Settled Tftpsender.operationEnded Tftpsender.observed
        (Tftpsender.bodies.command x.2.1) x.1) ↔
      ∀ x ∈ Tftpsender.lts.trace s₀ es, ¬ Tftpsender.ActsAfterEnd x.1 x.2.1) ∧
    ((∀ x ∈ TftpReceiver.lts.trace r₀ es', Command.Settled TftpReceiver.operationEnded TftpReceiver.observed
        (TftpReceiver.bodies.command x.2.1) x.1) ↔
      ∀ x ∈ TftpReceiver.lts.trace r₀ es', ¬ TftpReceiver.ActsAfterEnd x.1 x.2.1) := by
  constructor
  · refine Lts.trace_iff (fun s e s' hs h => ?_) (Tftpsender.ReportInv.init hs).wf es
    exact ⟨fun hb => ⟨hs.step h, Tftpsender.step_settled hs h hb⟩, Tftpsender.step_not_settled hs h⟩
  · refine Lts.trace_iff (fun s e s' hs h => ?_) hr.wellFormed es'
    exact ⟨fun hb => ⟨hs.step h, TftpReceiver.step_settled hs h hb⟩, TftpReceiver.step_not_settled hs h⟩

/-- A sender is done with the ACK of its last block, and a receiver with its last block; the
    cancelled waits run after that. -/
theorem quiet_after_end_ack1 :
    (∀ x ∈ Tftpsender.lts.trace (.newConnected {} (.ofFile (some [])) ⟨1, 2⟩ 1 512 2)
        [.start, .sendCompletes .success, .runSend 0, .deliver ⟨1, 2⟩ [0, 4, 0, 1], .runReceive 0, .runTimer 0],
      Command.Settled Tftpsender.operationEnded Tftpsender.observed (Tftpsender.bodies.command x.2.1) x.1) ∧
    (∀ x ∈ TftpReceiver.lts.trace (.newConnected {} {} ⟨1, 2⟩ 8 2)
        [.start, .sendCompletes .success, .runSend 0, .deliver ⟨1, 2⟩ [0, 3, 0, 1, 5, 6, 7], .runReceive 0, .runTimer 0],
      Command.Settled TftpReceiver.operationEnded TftpReceiver.observed
        (TftpReceiver.bodies.command x.2.1) x.1) := by
  have h := quiet_after_end_iff (.known (some []) ⟨1, 2⟩ 1 512 2) (.known false (fun _ => true) ⟨1, 2⟩ 8 2)
    [.start, .sendCompletes .success, .runSend 0, .deliver ⟨1, 2⟩ [0, 4, 0, 1], .runReceive 0, .runTimer 0]
    [.start, .sendCompletes .success, .runSend 0, .deliver ⟨1, 2⟩ [0, 3, 0, 1, 5, 6, 7], .runReceive 0, .runTimer 0]
  refine ⟨h.1.2 fun x hx => ?_, h.2.2 fun x hx => ?_⟩
  · have htrace : ∃ s₁ s₂ s₃ s₄ s₅ s₆, x ∈ [(.newConnected {} (.ofFile (some [])) ⟨1, 2⟩ 1 512 2, .start, s₁),
        (s₁, .sendCompletes .success, s₂), (s₂, .runSend 0, s₃), (s₃, .deliver ⟨1, 2⟩ [0, 4, 0, 1], s₄),
        (s₄, .runReceive 0, s₅), (s₅, .runTimer 0, s₆)] ∧ s₅.io.waited = [.operationAborted] :=
      ⟨_, _, _, _, _, _, hx, rfl⟩
    obtain ⟨s₁, s₂, s₃, s₄, s₅, s₆, hx, hw⟩ := htrace
    simp only [List.mem_cons, List.not_mem_nil, or_false] at hx
    rcases hx with rfl | rfl | rfl | rfl | rfl | rfl
    · exact id
    · exact id
    · exact id
    · exact id
    · exact id
    · rintro ⟨-, err, hx, ha⟩
      rw [hw] at hx
      cases hx
      exact ha rfl
  · have htrace : ∃ s₁ s₂ s₃ s₄ s₅ s₆, x ∈ [(.newConnected {} {} ⟨1, 2⟩ 8 2, .start, s₁),
        (s₁, .sendCompletes .success, s₂), (s₂, .runSend 0, s₃),
        (s₃, .deliver ⟨1, 2⟩ [0, 3, 0, 1, 5, 6, 7], s₄), (s₄, .runReceive 0, s₅), (s₅, .runTimer 0, s₆)] ∧
        s₄.operationEnded = false ∧ s₄.output.fail = false ∧ s₅.io.waited = [.operationAborted] :=
      ⟨_, _, _, _, _, _, hx, rfl, rfl, rfl⟩
    obtain ⟨s₁, s₂, s₃, s₄, s₅, s₆, hx, he, hf, hw⟩ := htrace
    simp only [List.mem_cons, List.not_mem_nil, or_false] at hx
    rcases hx with rfl | rfl | rfl | rfl | rfl | rfl
    · exact id
    · exact id
    · exact id
    · exact id
    · rintro ⟨hended, -⟩
      simp [he, hf] at hended
    · rintro ⟨-, err, hx, ha⟩
      rw [hw] at hx
      cases hx
      exact ha rfl

/-- The timer expires before the ACK of the last block is handled: its handler runs
    after the end, and throws. -/
theorem late_expiry_after_end :
    ¬ ((∀ s₀ es, Tftpsender.Constructed s₀ → ∀ x ∈ Tftpsender.lts.trace s₀ es,
        Command.Settled Tftpsender.operationEnded Tftpsender.observed (Tftpsender.bodies.command x.2.1) x.1) ∧
      (∀ r₀ es, TftpReceiver.Constructed r₀ → ∀ x ∈ TftpReceiver.lts.trace r₀ es,
        Command.Settled TftpReceiver.operationEnded TftpReceiver.observed
          (TftpReceiver.bodies.command x.2.1) x.1)) := by
  rintro ⟨h, -⟩
  obtain ⟨s, s', hs, hx, he, hthrew, hthrew'⟩ : ∃ s s' : Tftpsender,
      Tftpsender.lts.run (.newConnected {} (.ofFile (some [])) ⟨1, 2⟩ 1 512 2)
        [.start, .sendCompletes .success, .runSend 0, .deliver ⟨1, 2⟩ [0, 4, 0, 1], .expire, .runReceive 0] =
        some s ∧ Tftpsender.proactor.step s (.runTimer 0) = some s' ∧
      s.operationEnded = true ∧ s.threw = false ∧ s'.threw = true := ⟨_, _, rfl, rfl, rfl, rfl, rfl⟩
  have hmem : (s, .runTimer 0, s') ∈ Tftpsender.lts.trace (.newConnected {} (.ofFile (some [])) ⟨1, 2⟩ 1 512 2)
      ([.start, .sendCompletes .success, .runSend 0, .deliver ⟨1, 2⟩ [0, 4, 0, 1], .expire, .runReceive 0] ++
        [.runTimer 0]) := by
    have hlast : Tftpsender.lts.trace s [.runTimer 0] = [(s, .runTimer 0, s')] := by
      rw [Lts.trace, show Tftpsender.lts.step s (.runTimer 0) = some s' from hx]
      rfl
    rw [Lts.trace_append hs, hlast]
    exact List.mem_append_right _ (List.mem_singleton_self _)
  have hsame := (h _ _ (.known (some []) ⟨1, 2⟩ 1 512 2) _ hmem s (Command.first_mem _ s) he).2
  rw [Tftpsender.bodies.exec_command hx] at hsame
  have := congrArg Prod.fst hsame
  exact Bool.false_ne_true (hthrew.symm.trans (this.symm.trans hthrew'))

end Ttftp

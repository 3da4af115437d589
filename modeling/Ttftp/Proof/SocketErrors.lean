/-
  Errors of the socket, and senders.

  A receive that has failed reports no bytes.  The handler looks at this number first and
  takes the error for a lost ACK, so that the branch for errors is never reached
  (`socket_error_not_final`).
-/
import Ttftp.Proof.Inbox

namespace Ttftp

open Bytes Asio

namespace Tftpsender

/-- `s'` is what a socket error should make of `s`: nothing is sent or waited for, and the
    operation has ended with `ERR_UNSPECIFIED`. -/
structure GivesUp (s s' : Tftpsender) : Prop where
  silent : s'.io.wire = s.io.wire
  receives : s'.io.receives = []
  ended : s'.operationEnded = true
  reported : .unspecified ∈ s'.callbacks

/-- No socket error has been reported. -/
structure Unreported (s : Tftpsender) : Prop where
  wf : s.WellFormed
  regular : s.io.Regular
  callbacks : .unspecified ∉ s.callbacks

section
variable {s : Tftpsender}

theorem endOperationWith_unreported {code : TftpUserFacingErrorCode} (h : .unspecified ∉ s.callbacks)
    (hc : code ≠ .unspecified) : .unspecified ∉ (s.endOperationWith code).callbacks := by
  rw [endOperationWith_callbacks]
  intro hm
  rcases List.mem_append.1 hm with hm | hm
  · exact h hm
  · split_ifs at hm
    · cases hm
    · exact hc (List.mem_singleton.1 hm).symm

theorem sendNextBlock_unreported (hs : s.WellFormed) (h : .unspecified ∉ s.callbacks) :
    .unspecified ∉ s.sendNextBlock.callbacks := by
  rcases sendNextBlock_callbacks hs with hc | hc
  · rw [hc]
    exact h
  · rw [hc, List.mem_append, not_or]
    exact ⟨h, by decide⟩

/-- A receive without the four bytes of an ACK is repeated, whatever the error. -/
theorem ackBranch_ne_fatal {err : ErrorCode} {n : ℕ} (h : err ≠ .success → n = 0) : s.ackBranch err n ≠ .fatal := by
  intro hb
  have hn := h (ackBranch_fatal hb)
  unfold ackBranch at hb
  split_ifs at hb with h1 h2 h3 h4 h5 h6
  exact h6 (.inr (by rw [hn]; decide))

theorem checkAckForLastBlock_unreported (hs : s.WellFormed) (h : .unspecified ∉ s.callbacks) {err : ErrorCode} {n : ℕ}
    (hn : err ≠ .success → n = 0) : .unspecified ∉ (s.checkAckForLastBlock err n).callbacks := by
  obtain ⟨t, ht⟩ : ∃ t : Tftpsender, t = { s with io := s.io.timerCancel } := ⟨_, rfl⟩
  have hwf : t.WellFormed := ht ▸ hs.io _ rfl
  have hb : t.ackBranch err n ≠ .fatal := ackBranch_ne_fatal hn
  have hc : .unspecified ∉ t.callbacks := ht ▸ h
  rw [checkAckForLastBlock]
  dsimp only
  rw [← ht]
  cases hbranch : t.ackBranch err n with
  | wrongOpcode | futureAck => exact endOperationWith_unreported hc (by decide)
  | olderAck | retry => exact sendNextBlock_unreported hwf hc
  | expectedAck =>
    dsimp only
    unfold acceptAck
    split_ifs
    · exact endOperationWith_unreported (by rw [countAck_callbacks]; exact hc) (by decide)
    · exact sendNextBlock_unreported hwf.countAck (by rw [countAck_callbacks]; exact hc)
  | foreignHost => exact sendNextBlock_unreported (hwf.sendErrorMsg _ _ _) hc
  | fatal => exact absurd hbranch hb

/-- The timer has expired when its handler ends the operation. -/
theorem handleReadTimeout_unreported (h : .unspecified ∉ s.callbacks) {err : ErrorCode}
    (he : err = .success ∨ err = .operationAborted) : .unspecified ∉ (s.handleReadTimeout err).callbacks := by
  unfold handleReadTimeout Io.cancel
  split_ifs with ha hopen
  · exact h
  · dsimp only
    split_ifs
    · exact h
    · rw [he.resolve_right ha]
      exact endOperationWith_unreported h (by decide)
  · exact h

end

namespace Unreported
variable {s s' : Tftpsender} {e : Event Endpoint}

theorem step (h : s.Unreported) (he : proactor.step s e = some s') : s'.Unreported := by
  refine ⟨h.wf.step he, single.regular_step h.regular he, ?_⟩
  obtain ⟨-, hstep⟩ := Proactor.step_cases he
  cases hstep with
  | start _ =>
    have hwf := h.wf.io { s.io with started := true } rfl
    change _ ∉ (Tftpsender.start _).callbacks
    unfold Tftpsender.start
    split_ifs
    · exact endOperationWith_unreported h.callbacks (by decide)
    · exact sendNextBlock_unreported hwf h.callbacks
    · exact h.callbacks
  | deliver _ | receiveFails _ _ | sendCompletes _ | expire _ => exact h.callbacks
  | @runReceive i r err n hx =>
    have hwf := h.wf.io { s.io with received := s.io.received.eraseIdx i } rfl
    change _ ∉ (onReceive r err n _).callbacks
    rw [onReceive_eq]
    exact checkAckForLastBlock_unreported hwf h.callbacks fun hne => h.regular.failed _ (List.mem_of_getElem? hx) hne
  | @runSend i err n _ =>
    change _ ∉ (handleBlockSent err n _).callbacks
    unfold handleBlockSent
    split_ifs <;> exact h.callbacks
  | @runTimer i err hx =>
    exact handleReadTimeout_unreported (s := { s with io := { s.io with waited := s.io.waited.eraseIdx i } })
      h.callbacks (h.regular.waited _ (List.mem_of_getElem? hx))

theorem reach (h : lts.Reach s) : s.Unreported := by
  refine h.inv Unreported (fun s h => ⟨(ReportInv.init h).wf, ?_, ?_⟩) fun _ _ _ _ hs he => hs.step he
  · cases h <;> exact .fresh
  · cases h <;> exact List.not_mem_nil

end Unreported

/-- A sender that has not ended always sends something. -/
theorem sendNextBlock_wire_lt {s : Tftpsender} (hs : s.WellFormed) (he : s.operationEnded = false) :
    s.io.wire.length < s.sendNextBlock.io.wire.length := by
  have hopen : s.io.isOpen = true := by rw [hs.isOpen, he]; rfl
  cases hf : s.seeked.fail with
  | false =>
    rw [sendNextBlock_good hs hf]
    dsimp only
    rw [Io.asyncSendTo_wire, if_pos hopen, List.length_append]
    exact Nat.lt_succ_self _
  | true =>
    have herr : s.io.wire.length < s.inputFileError.io.wire.length := by
      unfold inputFileError endOperationWith sendErrorMsg
      rw [if_neg (by rw [he]; exact Bool.false_ne_true), Io.close_wire, Io.asyncSendDetached_wire, if_pos hopen,
        List.length_append]
      exact Nat.lt_succ_self _
    rw [sendNextBlock_bad hs hf]
    dsimp only
    rw [Io.asyncSendTo_wire, List.length_append]
    exact herr.trans_le (Nat.le_add_right _ _)

/-- The handler of a failed receive sends something. -/
theorem failed_wire_lt {s : Tftpsender} (hs : s.WellFormed) (he : s.operationEnded = false) {err : ErrorCode} {n : ℕ}
    (hne : err ≠ .success) (hn : n ≠ opcodeLength + blockNrLength) :
    s.io.wire.length < (s.checkAckForLastBlock err n).io.wire.length := by
  obtain ⟨t, ht⟩ : ∃ t : Tftpsender, t = { s with io := s.io.timerCancel } := ⟨_, rfl⟩
  have hwf : t.WellFormed := ht ▸ hs.io _ rfl
  have het : t.operationEnded = false := ht ▸ he
  have hwire : t.io.wire = s.io.wire := by rw [ht]; rfl
  rw [← hwire, checkAckForLastBlock]
  dsimp only
  have hb : t.ackBranch err n = .foreignHost ∨ t.ackBranch err n = .retry := by
    have hretry : err = .operationAborted ∨ n ≠ opcodeLength + blockNrLength := .inr hn
    rw [ackBranch, if_neg fun h => hne h.1, if_pos hretry]
    split_ifs
    · exact .inl rfl
    · exact .inr rfl
  rw [← ht]
  rcases hb with hb | hb <;> rw [hb]
  · refine lt_of_le_of_lt ?_ (sendNextBlock_wire_lt (hwf.sendErrorMsg _ _ _) het)
    change _ ≤ (t.io.asyncSendDetached _ _).wire.length
    rw [Io.asyncSendDetached_wire, List.length_append]
    exact Nat.le_add_right _ _
  · exact sendNextBlock_wire_lt hwf het

/-- **No socket error is final.**  In no reachable state of a sender the handler of a receive
    that has failed gives up; as long as the operation has not ended, it sends a datagram
    instead. -/
theorem socket_error_not_final {s₀ s s' : Tftpsender} (h₀ : Constructed s₀) {es : List (Event Endpoint)}
    (h : lts.run s₀ es = some s) {i : ℕ} {r : SenderHandler} {err : ErrorCode} {n : ℕ}
    (hx : s.io.received[i]? = some (r, err, n)) (hne : err ≠ .success)
    (hstep : proactor.step s (.runReceive i) = some s') :
    ¬ GivesUp s s' ∧ (s.operationEnded = false → s.io.wire.length < s'.io.wire.length) := by
  have hu := Unreported.reach ((Lts.Reach.init h₀).run h)
  refine ⟨fun hg => (hu.step hstep).callbacks hg.reported, fun he => ?_⟩
  have hn : n = 0 := hu.regular.failed _ (List.mem_of_getElem? hx) hne
  obtain ⟨-, hcase⟩ := Proactor.step_cases hstep
  cases hcase with
  | @runReceive _ r' err' n' hx' =>
    cases hx.symm.trans hx'
    have hcheck := failed_wire_lt (s := { s with io := { s.io with received := s.io.received.eraseIdx i } })
      (hu.wf.io _ rfl) he hne (n := n) (by rw [hn]; decide)
    rw [← onReceive_eq r] at hcheck
    exact hcheck

/-- The peer's host is unreachable. -/
theorem socket_error_not_final_unreachable : ∃ s s',
    lts.run (newConnected {} (.ofFile (some [7])) ⟨1, 2⟩ 1 8 2)
      [.start, .sendCompletes .success, .runSend 0, .receiveFails (.other 113)] = some s ∧
    proactor.step s (.runReceive 0) = some s' ∧ ¬ GivesUp s s' := by
  have hrun : lts.run (newConnected {} (.ofFile (some [7])) ⟨1, 2⟩ 1 8 2)
    [.start, .sendCompletes .success, .runSend 0, .receiveFails (.other 113)] = some _ := rfl
  exact ⟨_, _, hrun, rfl, (socket_error_not_final (.known (some [7]) ⟨1, 2⟩ 1 8 2) hrun (i := 0) rfl (by decide) rfl).1⟩

/-- The block is sent again. -/
theorem socket_error_resends : ¬ ∀ s₀ s s' es i r err n, Constructed s₀ → lts.run s₀ es = some s →
    s.io.received[i]? = some (r, err, n) → err ≠ .success → err ≠ .operationAborted →
    proactor.step s (.runReceive i) = some s' → GivesUp s s' := by
  intro h
  have hg := h _ _ _ [.start, .sendCompletes .success, .runSend 0, .receiveFails (.other 113)] 0 _ (.other 113) 0
    (.known (some [7]) ⟨1, 2⟩ 1 8 2) rfl rfl (by decide) (by decide) rfl
  exact absurd hg.silent (by decide)

end Tftpsender

end Ttftp

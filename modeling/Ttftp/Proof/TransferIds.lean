/-
  The errors with the code `ERR_UNKNOWN_TR_ID` that a sender sends.

  A sender looks at the source of the last datagram also when a receive has failed or has
  been cancelled, and so can blame one datagram more than once
  (`sender_unknownTrIds_iff`).
-/
import Ttftp.Proof.Strangers

namespace Ttftp

open Bytes Asio

theorem unknownTrIds_append (w w' : List (Endpoint × Bytes)) :
    unknownTrIds (w ++ w') = unknownTrIds w + unknownTrIds w' := by
  rw [unknownTrIds, repliesOn_append, List.countP_append]
  rfl

theorem unknownTrIds_data (dest : Endpoint) (nr : UInt16) (d : Bytes) : unknownTrIds [(dest, dataBytes nr d)] = 0 := by
  have h : ntohs (dataBytes nr d) 0 = TftpOpcode.data.toUInt16 := ntohs_htons [] _ _
  have hread : Reply.read (dest, dataBytes nr d) = none := by
    rw [Reply.read, if_neg (by rw [h]; decide), if_neg (by rw [h]; decide)]
  rw [unknownTrIds, repliesOn, List.filterMap_cons, hread]
  rfl

theorem unknownTrIds_error (dest : Endpoint) (code : UInt16) (m : Bytes) :
    unknownTrIds [(dest, ErrorMessage.encode ⟨code, m⟩)] = (decide (code = TftpErrorCode.unknownTrId.toUInt16)).toNat := by
  have hread := Reply.Spells.read (r := .error dest code) (x := (dest, ErrorMessage.encode ⟨code, m⟩)) ⟨m, rfl⟩
  rw [unknownTrIds, repliesOn, List.filterMap_cons, hread]
  change List.countP Reply.isUnknownTrId [.error dest code] = _
  rw [List.countP_singleton, Reply.isUnknownTrId]
  cases decide (code = TftpErrorCode.unknownTrId.toUInt16) <;> rfl

namespace Tftpsender

/-! ## The errors of one handler -/

section
variable {s : Tftpsender}

theorem sendErrorMsg_unknownTrIds (c : UInt16) (m : Bytes) (e : Endpoint) :
    unknownTrIds (s.sendErrorMsg c m e).io.wire = unknownTrIds s.io.wire +
      (s.io.isOpen && decide (c = TftpErrorCode.unknownTrId.toUInt16)).toNat := by
  change unknownTrIds (s.io.asyncSendDetached e _).wire = _
  rw [Io.asyncSendDetached_wire, unknownTrIds_append]
  split_ifs with h
  · rw [unknownTrIds_error, h, Bool.true_and]
  · rw [Bool.eq_false_iff.2 h]
    rfl

theorem endOperationWith_wire (code : TftpUserFacingErrorCode) :
    (s.endOperationWith code).io.wire = s.io.wire := by
  unfold endOperationWith
  split_ifs <;> rfl

/-- Other errors do not count. -/
theorem fail_unknownTrIds {c : UInt16} (hc : c ≠ TftpErrorCode.unknownTrId.toUInt16) (m : Bytes) (e : Endpoint)
    (code : TftpUserFacingErrorCode) :
    unknownTrIds ((s.sendErrorMsg c m e).endOperationWith code).io.wire = unknownTrIds s.io.wire := by
  rw [endOperationWith_wire, sendErrorMsg_unknownTrIds, decide_eq_false hc, Bool.and_false]
  rfl

theorem sendNextBlock_unknownTrIds (hs : s.WellFormed) :
    unknownTrIds s.sendNextBlock.io.wire = unknownTrIds s.io.wire := by
  have hsend : ∀ (io : Io SenderHandler Endpoint) (nr : UInt16) (d : Bytes),
      unknownTrIds (io.asyncSendTo s.mReceiverEndpoint (dataBytes nr d)).wire = unknownTrIds io.wire := by
    intro io nr d
    rw [Io.asyncSendTo_wire, unknownTrIds_append]
    split_ifs
    · rw [unknownTrIds_data]
      rfl
    · rfl
  cases hf : s.seeked.fail with
  | false =>
    rw [sendNextBlock_good hs hf]
    exact hsend s.io _ _
  | true =>
    rw [sendNextBlock_bad hs hf]
    refine (hsend s.inputFileError.io _ _).trans ?_
    exact fail_unknownTrIds (s := { s with input := s.seeked }) (by decide) _ _ _

theorem start_unknownTrIds (hs : s.WellFormed) : unknownTrIds s.start.io.wire = unknownTrIds s.io.wire := by
  unfold start
  split_ifs
  · exact fail_unknownTrIds (by decide) _ _ _
  · exact sendNextBlock_unknownTrIds hs
  · exact congrArg unknownTrIds (Io.asyncReceiveFrom_wire _ _)

theorem handleBlockSent_unknownTrIds (err : ErrorCode) (n : ℕ) :
    unknownTrIds (s.handleBlockSent err n).io.wire = unknownTrIds s.io.wire := by
  unfold handleBlockSent
  split_ifs
  · exact congrArg unknownTrIds (Io.asyncReceiveFrom_wire _ _)
  · rfl

theorem handleReadTimeout_unknownTrIds (err : ErrorCode) :
    unknownTrIds (s.handleReadTimeout err).io.wire = unknownTrIds s.io.wire := by
  unfold handleReadTimeout Io.cancel
  split_ifs
  · rfl
  · dsimp only
    split_ifs
    · rfl
    · exact fail_unknownTrIds (s := { s with io := s.io.abortAll, timeoutcount := s.timeoutcount + 1 })
        (by decide) _ _ _
  · rfl

/-- The handler of a receive blames the last source, whatever it was called for. -/
theorem checkAckForLastBlock_unknownTrIds (hs : s.WellFormed) (err : ErrorCode) (n : ℕ) :
    unknownTrIds (s.checkAckForLastBlock err n).io.wire =
      unknownTrIds s.io.wire + (s.wrongRemoteHost && !s.operationEnded).toNat := by
  obtain ⟨t, ht⟩ : ∃ t : Tftpsender, t = { s with io := s.io.timerCancel } := ⟨_, rfl⟩
  have hwf : t.WellFormed := ht ▸ hs.io _ rfl
  have hwire : t.io.wire = s.io.wire := by rw [ht]; rfl
  cases hw : s.wrongRemoteHost with
  | true =>
    rw [checkAckForLastBlock_foreignHost hw, ← ht, sendNextBlock_unknownTrIds (hwf.sendErrorMsg _ _ _),
      sendErrorMsg_unknownTrIds, hwf.isOpen, hwire, decide_eq_true rfl, Bool.and_true, Bool.true_and, ht]
  | false =>
    have hb : s.ackBranch err n ≠ .foreignHost := by
      rw [ackBranch, hw, if_neg (c := false = true) Bool.false_ne_true]
      split_ifs <;> decide
    rw [Bool.false_and, Bool.toNat_false, Nat.add_zero, ← hwire]
    have hbt : t.ackBranch err n = s.ackBranch err n := by rw [ht]; rfl
    rw [checkAckForLastBlock]
    dsimp only
    rw [← ht, hbt]
    cases hb' : s.ackBranch err n with
    | wrongOpcode => exact fail_unknownTrIds (by decide) _ _ _
    | olderAck => exact sendNextBlock_unknownTrIds hwf
    | expectedAck =>
      dsimp only
      unfold acceptAck
      split_ifs
      · rw [endOperation, endOperationWith_wire, countAck_io]
      · rw [sendNextBlock_unknownTrIds hwf.countAck, countAck_io]
    | futureAck => exact fail_unknownTrIds (by decide) _ _ _
    | foreignHost => exact absurd hb' hb
    | retry => exact sendNextBlock_unknownTrIds hwf
    | fatal =>
      dsimp only
      rw [endOperation, endOperationWith_wire]

end

/-! ## The errors of a run -/

/-- The number of datagrams that have arrived from other hosts than the peer. -/
def foreignReceived (tr : List (Tftpsender × Event Endpoint × Tftpsender)) : ℕ :=
  tr.countP fun x => x.2.1.datagram.any fun y => x.1.isConnected && decide (y.1 ≠ x.1.mReceiverEndpoint)

/-- The handled event is the failure or the cancellation of a receive, the last datagram has
    come from a stranger, and the operation has not ended before. -/
def StaleSource (s : Tftpsender) : Event Endpoint → Prop
  | .runReceive i => s.operationEnded = false ∧ s.wrongRemoteHost = true ∧
      s.io.received[i]?.any (·.2.1 ≠ .success) = true
  | _ => False

instance (s : Tftpsender) : DecidablePred (StaleSource s)
  | .runReceive _ => inferInstanceAs (Decidable (_ ∧ _ ∧ _))
  | .start | .deliver _ _ | .receiveFails _ | .sendCompletes _ | .expire | .runSend _ | .runTimer _ =>
    inferInstanceAs (Decidable False)

/-- The errors that have been sent, and those that are due to datagrams not yet handled. -/
def blamed (s : Tftpsender) : ℕ :=
  unknownTrIds s.io.wire + if s.wrongRemoteHost then s.io.arrivals.length else 0

/-- After the transitions `tr` every datagram of a stranger is blamed once. -/
structure Counted (tr : List (Tftpsender × Event Endpoint × Tftpsender)) (s : Tftpsender) : Prop where
  inbox : Inbox proactor Holds tr s
  wf : s.WellFormed
  le : (∀ x ∈ tr, ¬ StaleSource x.1 x.2.1) → unknownTrIds s.io.wire ≤ foreignReceived tr
  running : (∀ x ∈ tr, ¬ StaleSource x.1 x.2.1) → s.operationEnded = false → s.blamed = foreignReceived tr

namespace Counted
variable {tr : List (Tftpsender × Event Endpoint × Tftpsender)} {s s' : Tftpsender} {e : Event Endpoint}

theorem foreignReceived_append (tr : List (Tftpsender × Event Endpoint × Tftpsender)) (s : Tftpsender)
    (e : Event Endpoint) (s' : Tftpsender) : foreignReceived (tr ++ [(s, e, s')]) = foreignReceived tr +
      (e.datagram.any fun y => s.isConnected && decide (y.1 ≠ s.mReceiverEndpoint)).toNat := by
  rw [foreignReceived, List.countP_append, List.countP_singleton]
  change foreignReceived tr + _ = _
  cases (e.datagram.any fun y => s.isConnected && decide (y.1 ≠ s.mReceiverEndpoint)) <;> rfl

/-- A sender without arrivals has nobody to blame. -/
theorem blamed_of_arrivals (h : s.io.arrivals = []) : s.blamed = unknownTrIds s.io.wire := by
  rw [blamed, h, List.length_nil, ite_self, Nat.add_zero]

theorem blamed_congr (hw : unknownTrIds s'.io.wire = unknownTrIds s.io.wire)
    (ha : s'.io.arrivals = s.io.arrivals) (hh : s'.wrongRemoteHost = s.wrongRemoteHost) :
    s'.blamed = s.blamed := by
  rw [blamed, hw, ha, hh, blamed]

theorem handleBlockSent_wrongRemoteHost (err : ErrorCode) (n : ℕ) :
    (s.handleBlockSent err n).wrongRemoteHost = s.wrongRemoteHost := by
  unfold handleBlockSent
  split_ifs <;> rfl

theorem handleReadTimeout_wrongRemoteHost (err : ErrorCode) :
    (s.handleReadTimeout err).wrongRemoteHost = s.wrongRemoteHost := by
  unfold handleReadTimeout Io.cancel
  split_ifs
  · rfl
  · dsimp only
    split_ifs
    · rfl
    · unfold endOperation endOperationWith
      split_ifs <;> rfl
  · rfl

/-- The handler of a receive blames the source of what has just arrived. -/
theorem runReceive_blamed {i : ℕ} (hi : Inbox proactor Holds tr s) (hs : s.WellFormed) {r : SenderHandler}
    {err : ErrorCode} {n : ℕ} (hx : s.io.received[i]? = some (r, err, n))
    (hs' : s' = onReceive r err n { s with io := { s.io with received := s.io.received.eraseIdx i } }) :
    (s.operationEnded = true → unknownTrIds s'.io.wire = unknownTrIds s.io.wire) ∧
      (s.operationEnded = false → ¬ StaleSource s (.runReceive i) → s'.blamed = s.blamed) := by
  obtain ⟨t, ht⟩ : ∃ t : Tftpsender, t = { s with
    io := { s.io with received := s.io.received.eraseIdx i } } := ⟨_, rfl⟩
  rw [← ht, onReceive_eq] at hs'
  have hwf : t.WellFormed := ht ▸ hs.io _ rfl
  have hcount := checkAckForLastBlock_unknownTrIds hwf err n
  have hsame : unknownTrIds t.io.wire = unknownTrIds s.io.wire ∧ t.wrongRemoteHost = s.wrongRemoteHost ∧
      t.operationEnded = s.operationEnded := by rw [ht]; exact ⟨rfl, rfl, rfl⟩
  rw [← hs', hsame.1, hsame.2.1, hsame.2.2] at hcount
  refine ⟨fun he => by rw [hcount, he, Bool.not_true, Bool.and_false]; rfl, fun he hn => ?_⟩
  rw [he, Bool.not_false, Bool.and_true] at hcount
  have ha : s'.io.arrivals = [] := by
    rw [hs', (checkAckForLastBlock_leaves t err n).arrivals, ht]
    exact Io.arrivals_eq_nil (Io.tokens_eraseIdx_received hx hi.tokens).2
  rw [blamed_of_arrivals ha, hcount, blamed, Io.arrivals, Io.received_eq_singleton hx hi.tokens]
  cases hw : s.wrongRemoteHost with
  | false => rfl
  | true =>
    have herr : err = .success := by
      by_contra herr
      refine hn ⟨he, hw, ?_⟩
      rw [hx]
      exact decide_eq_true herr
    rw [herr]
    rfl

/-- **One step**: what is blamed after it is what was blamed before it, and the datagram of a
    stranger that it delivers. -/
theorem step_blamed (hi : Inbox proactor Holds tr s) (hs : s.WellFormed) (he : proactor.step s e = some s') :
    (s.operationEnded = true → unknownTrIds s'.io.wire = unknownTrIds s.io.wire) ∧
      (s.operationEnded = false → ¬ StaleSource s e → s'.blamed = s.blamed +
        (e.datagram.any fun y => s.isConnected && decide (y.1 ≠ s.mReceiverEndpoint)).toNat) := by
  obtain ⟨-, hstep⟩ := Proactor.step_cases he
  cases hstep with
  | start hf =>
    have ha : s.io.arrivals = [] := Io.arrivals_eq_nil (hi.fresh hf)
    have hwire := start_unknownTrIds (hs.io { s.io with started := true } rfl)
    have hl := (start_leaves { s with io := { s.io with started := true } }).arrivals
    refine ⟨fun _ => hwire, fun _ _ => ?_⟩
    rw [blamed_of_arrivals ha]
    exact (blamed_of_arrivals (hl.trans ha)).trans hwire
  | @deliver src d r rs hr =>
    refine ⟨fun _ => rfl, fun _ _ => ?_⟩
    have ht := hi.tokens
    have hr' : s.io.receives = r :: rs := hr
    simp only [Io.tokens, hr, List.length_cons] at ht
    have hnil : s.io.received = [] := List.length_eq_zero_iff.1 (by simp only [proactor] at ht; omega)
    have ha : s.io.arrivals = [] := by rw [Io.arrivals, hnil]; rfl
    rw [blamed_of_arrivals ha]
    obtain ⟨n, hn⟩ : ∃ n, n = min d.length (proactor.capacity s) := ⟨_, rfl⟩
    rw [← hn]
    change unknownTrIds s.io.wire + (if (s.isConnected && decide (src ≠ s.mReceiverEndpoint)) = true then
      ((s.io.received ++ [(r, ErrorCode.success, n)]).filter (·.2.1 = .success)).length else 0) = _
    rw [hnil]
    change _ = _ + (s.isConnected && decide (src ≠ s.mReceiverEndpoint)).toNat
    cases s.isConnected && decide (src ≠ s.mReceiverEndpoint) <;> rfl
  | @receiveFails err r rs hr hne =>
    refine ⟨fun _ => rfl, fun _ _ => blamed_congr (s := s) rfl ?_ rfl⟩
    have hnone : [(r, err, 0)].filter (fun x : SenderHandler × ErrorCode × ℕ => x.2.1 = .success) = [] := by
      rw [List.filter_singleton, decide_eq_false hne]
      rfl
    exact (List.filter_append _ _).trans (by rw [hnone, List.append_nil]; rfl)
  | sendCompletes _ | expire _ => exact ⟨fun _ => rfl, fun _ _ => blamed_congr (s := s) rfl rfl rfl⟩
  | @runReceive i r err n hx => exact runReceive_blamed hi hs hx rfl
  | @runSend i err n _ =>
    obtain ⟨t, ht⟩ : ∃ t : Tftpsender, t = { s with io := { s.io with sent := s.io.sent.eraseIdx i } } := ⟨_, rfl⟩
    have hwire : unknownTrIds (t.handleBlockSent err n).io.wire = unknownTrIds s.io.wire := by
      rw [handleBlockSent_unknownTrIds, ht]
    have ha : (t.handleBlockSent err n).io.arrivals = s.io.arrivals := by
      rw [(handleBlockSent_leaves t err n).arrivals, ht]
      rfl
    have hw : (t.handleBlockSent err n).wrongRemoteHost = s.wrongRemoteHost := by
      rw [handleBlockSent_wrongRemoteHost, ht]
      rfl
    subst ht
    exact ⟨fun _ => hwire, fun _ _ => blamed_congr hwire ha hw⟩
  | @runTimer i err _ =>
    obtain ⟨t, ht⟩ : ∃ t : Tftpsender, t = { s with io := { s.io with waited := s.io.waited.eraseIdx i } } := ⟨_, rfl⟩
    have hwire : unknownTrIds (t.handleReadTimeout err).io.wire = unknownTrIds s.io.wire := by
      rw [handleReadTimeout_unknownTrIds, ht]
    have ha : (t.handleReadTimeout err).io.arrivals = s.io.arrivals := by
      rw [(handleReadTimeout_leaves t err).arrivals, ht]
      rfl
    have hw : (t.handleReadTimeout err).wrongRemoteHost = s.wrongRemoteHost := by
      rw [handleReadTimeout_wrongRemoteHost, ht]
      rfl
    subst ht
    exact ⟨fun _ => hwire, fun _ _ => blamed_congr hwire ha hw⟩

theorem init {s₀ : Tftpsender} (h₀ : Constructed s₀) : Counted [] s₀ := by
  have hnone : s₀.io.wire = [] ∧ s₀.io.arrivals = [] := by
    cases h₀ <;> exact ⟨rfl, rfl⟩
  refine ⟨Tftpsender.inbox h₀ (rfl : lts.run s₀ [] = some s₀), (ReportInv.init h₀).wf, fun _ => ?_, fun _ _ => ?_⟩
  · rw [hnone.1]
    exact le_rfl
  · rw [blamed_of_arrivals hnone.2, hnone.1]
    rfl

theorem step (h : Counted tr s) (he : proactor.step s e = some s') : Counted (tr ++ [(s, e, s')]) s' := by
  obtain ⟨hended, hrunning⟩ := step_blamed h.inbox h.wf he
  have hlast : (∀ x ∈ tr ++ [(s, e, s')], ¬ StaleSource x.1 x.2.1) →
      (∀ x ∈ tr, ¬ StaleSource x.1 x.2.1) ∧ ¬ StaleSource s e := by
    simp only [List.forall_mem_append, List.forall_mem_singleton]
    exact id
  have hkey : (∀ x ∈ tr ++ [(s, e, s')], ¬ StaleSource x.1 x.2.1) → s.operationEnded = false →
      s'.blamed = foreignReceived (tr ++ [(s, e, s')]) := by
    intro hn hrun
    rw [hrunning hrun (hlast hn).2, h.running (hlast hn).1 hrun, foreignReceived_append]
  refine ⟨single.inbox_step h.inbox he, h.wf.step he, fun hn => ?_, fun hn hrun => hkey hn ?_⟩
  · cases hend : s.operationEnded with
    | true =>
      rw [hended hend, foreignReceived_append]
      exact (h.le (hlast hn).1).trans (Nat.le_add_right _ _)
    | false =>
      rw [← hkey hn hend, blamed]
      exact Nat.le_add_right _ _
  · by_contra hend
    have := (step_after he).2 (Bool.eq_true_of_not_eq_false hend)
    rw [hrun] at this
    cases this

theorem run {s₀ : Tftpsender} (h₀ : Constructed s₀) {es : List (Event Endpoint)} (h : lts.run s₀ es = some s) :
    Counted (lts.trace s₀ es) s :=
  Lts.run_inv (L := lts) Counted (init h₀) (fun _ _ _ _ hc he => hc.step he) h

/-- A stale source is blamed once too often. -/
theorem stale (h : Counted tr s) (hn : ∀ x ∈ tr, ¬ StaleSource x.1 x.2.1) (hb : StaleSource s e)
    (he : proactor.step s e = some s') : foreignReceived (tr ++ [(s, e, s')]) < unknownTrIds s'.io.wire := by
  obtain ⟨-, hstep⟩ := Proactor.step_cases he
  cases hstep with
  | @runReceive i r err n hx =>
    have hx' : s.io.received[i]? = some (r, err, n) := hx
    obtain ⟨hrun, hw, hne⟩ := hb
    rw [hx', Option.any_some, decide_eq_true_iff] at hne
    have ha : s.io.arrivals = [] := by
      rw [Io.arrivals, Io.received_eq_singleton hx' h.inbox.tokens, List.filter_singleton, decide_eq_false hne]
      rfl
    have heq := h.running hn hrun
    rw [blamed_of_arrivals ha] at heq
    obtain ⟨t, ht⟩ : ∃ t : Tftpsender, t = { s with
      io := { s.io with received := s.io.received.eraseIdx i } } := ⟨_, rfl⟩
    have hcount := checkAckForLastBlock_unknownTrIds (s := t) (ht ▸ h.wf.io _ rfl) err n
    have hsame : unknownTrIds t.io.wire = unknownTrIds s.io.wire ∧ t.wrongRemoteHost = s.wrongRemoteHost ∧
        t.operationEnded = s.operationEnded := by rw [ht]; exact ⟨rfl, rfl, rfl⟩
    rw [← onReceive_eq r, hsame.1, hsame.2.1, hsame.2.2, hw, hrun, heq, ht] at hcount
    rw [foreignReceived_append]
    exact (Nat.lt_succ_self _).trans_eq hcount.symm
  | _ => exact hb.elim

end Counted

/-- **When a sender blames every stranger once.**  At no time of a run more errors with the
    code `ERR_UNKNOWN_TR_ID` have been sent than datagrams have arrived from other hosts than
    the peer, exactly if no receive of a sender that has not ended fails or is cancelled
    while the last datagram has come from a stranger. -/
theorem sender_unknownTrIds_iff {s₀ s : Tftpsender} (h₀ : Constructed s₀) {es : List (Event Endpoint)}
    (h : lts.run s₀ es = some s) :
    (∀ es' s', es' <+: es → lts.run s₀ es' = some s' →
      unknownTrIds s'.io.wire ≤ foreignReceived (lts.trace s₀ es')) ↔
      ∀ x ∈ lts.trace s₀ es, ¬ StaleSource x.1 x.2.1 := by
  constructor
  · intro hle x hx hbad
    obtain ⟨es', t, e, t', hpre, hrun, he, hn, hb⟩ := Lts.exists_first h ⟨x, hx, hbad⟩
    have hlt := (Counted.run h₀ hrun).stale hn hb he
    refine absurd (hle (es' ++ [e]) t' hpre ?_) (not_le.2 ?_)
    · rw [Lts.run_append, hrun, Option.bind_some, Lts.run, he]
      rfl
    · rw [Lts.trace_append hrun, Lts.trace, he]
      exact hlt
  · intro hn es' s' hpre hrun
    exact (Counted.run h₀ hrun).le fun x hx => hn x ((Lts.trace_prefix hpre hrun).subset hx)

/-- A stranger comes while the sender waits for the first ACK. -/
theorem sender_unknownTrIds_one_stranger : ∃ s,
    lts.run (newConnected {} (.ofFile (some [1, 2, 3, 4, 5, 6, 7, 8, 9])) ⟨1, 2⟩ 1 8 2) [.start,
      .sendCompletes .success, .runSend 0, .deliver ⟨8, 9⟩ [0], .runReceive 0] = some s ∧
    unknownTrIds s.io.wire ≤ 1 := by
  obtain ⟨es, hes⟩ : ∃ es : List (Event Endpoint), es = [.start, .sendCompletes .success, .runSend 0,
    .deliver ⟨8, 9⟩ [0], .runReceive 0] := ⟨_, rfl⟩
  obtain ⟨s₀, hs₀⟩ : ∃ s₀, s₀ = newConnected {} (.ofFile (some [1, 2, 3, 4, 5, 6, 7, 8, 9])) ⟨1, 2⟩ 1 8 2 :=
    ⟨_, rfl⟩
  obtain ⟨s, hs⟩ : ∃ s, lts.run s₀ es = some s := by rw [hes, hs₀]; exact ⟨_, rfl⟩
  have hone : foreignReceived (lts.trace s₀ es) = 1 := by rw [hes, hs₀]; rfl
  have hle := (sender_unknownTrIds_iff (hs₀ ▸ .known _ _ 1 8 2) hs).2 (by
    rw [hes, hs₀]
    decide) es s List.prefix_rfl hs
  refine ⟨s, by rw [← hes, ← hs₀]; exact hs, hone ▸ hle⟩

/-- The wait for the next datagram is cut off by the timer, and the stranger is blamed
    again. -/
theorem stranger_blamed_twice : ¬ ∀ s₀ es s, Constructed s₀ → lts.run s₀ es = some s →
    unknownTrIds s.io.wire ≤ foreignReceived (lts.trace s₀ es) := by
  intro h
  have hle := h (newConnected {} (.ofFile (some [1, 2, 3, 4, 5, 6, 7, 8, 9])) ⟨1, 2⟩ 1 8 2) [.start,
    .sendCompletes .success, .runSend 0, .deliver ⟨8, 9⟩ [0], .runReceive 0, .sendCompletes .success, .runSend 0,
    .expire, .runTimer 1, .runReceive 0] _ (.known _ _ _ _ _) rfl
  exact absurd hle (by decide)

end Tftpsender

end Ttftp

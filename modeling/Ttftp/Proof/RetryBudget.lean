/-
  The retry budget of a receiver whose handlers run in any order (`retry_budget_iff`).

  The receiver counts the expirations that it handles, and the fifth since the last block
  ends the operation.  An expiration only aborts the receive, whose handler repeats the
  ACK; while it waits to run there is no timer, so that each expiration repeats the ACK
  once.  Only an expiration that was still queued when the receive was started would break
  this: the timer it finds set may expire before the aborted receive is handled.
-/
import Ttftp.Proof.Countdown
import Ttftp.Proof.Reception

namespace Ttftp

open Bytes Asio

namespace TftpReceiver

/-! ## The budget -/

/-- The expirations handled in a run since its start, or since the last block was accepted. -/
def expirationsHandled (tr : List (TftpReceiver × Event Endpoint × TftpReceiver)) : ℕ :=
  tr.foldl (fun n x => if x.2.2.lastreceiveddatacount ≠ x.1.lastreceiveddatacount then 0
    else n + (x.2.1.handlesExpiry x.1.io).toNat) 0

/-- The receiver waits for the next block of its peer. -/
structure Listens (s : TftpReceiver) : Prop where
  running : s.operationEnded = false
  connected : s.isConnected = true
  receives : s.io.receives ≠ []
  timer : s.io.waits ≠ 0

/-- The run has led from `s₀` to `s` within the retry budget, and will stay so. -/
structure RetryBudget (s₀ : TftpReceiver) (es : List (Event Endpoint)) (s : TftpReceiver) : Prop where
  counted : s.operationEnded = false → s.timeoutcount.toNat = expirationsHandled (lts.trace s₀ es)
  fifth : ∀ es' e t t', es' ++ [e] <+: es → lts.run s₀ es' = some t → lts.step t e = some t' →
    t.operationEnded = false → e.handlesExpiry t.io = true →
      (t'.operationEnded = true ↔ expirationsHandled (lts.trace s₀ (es' ++ [e])) = 5)
  ended : ∀ es', es' <+: es → 5 ≤ expirationsHandled (lts.trace s₀ es') → s.operationEnded = true
  farewell : s.Listens → lts.Sends OnlyTimer (fun t => t.io.wire) s
    (List.replicate (4 - s.timeoutcount.toNat) s.currentAck ++ [s.timeoutError])

/-! ## The count -/

theorem expirationsHandled_concat (tr : List (TftpReceiver × Event Endpoint × TftpReceiver)) (s s' : TftpReceiver)
    (e : Event Endpoint) : expirationsHandled (tr ++ [(s, e, s')]) =
      if s'.lastreceiveddatacount ≠ s.lastreceiveddatacount then 0
      else expirationsHandled tr + (e.handlesExpiry s.io).toNat := by
  rw [expirationsHandled, List.foldl_append]
  rfl

/-- What a step does to the count. -/
inductive Counts (s : TftpReceiver) (e : Event Endpoint) (s' : TftpReceiver) : Prop
  | expired : e.handlesExpiry s.io = true → s'.lastreceiveddatacount = s.lastreceiveddatacount →
      s'.timeoutcount = s.timeoutcount + 1 →
      (s'.operationEnded = true ↔ retransmissionsUntilTimeout < s.timeoutcount + 1) → Counts s e s'
  | accepted : e.handlesExpiry s.io = false → s'.lastreceiveddatacount ≠ s.lastreceiveddatacount →
      s'.timeoutcount = 0 → Counts s e s'
  | other : e.handlesExpiry s.io = false → s'.lastreceiveddatacount = s.lastreceiveddatacount →
      s'.timeoutcount = s.timeoutcount → Counts s e s'

theorem handlesExpiry_completion (last : Option (Endpoint × Bytes)) (s : TftpReceiver) (e : Event Endpoint) :
    e.handlesExpiry s.io = true ↔ completion proactor last s e = some .expired := by
  cases e with
  | runTimer i =>
    change s.io.waited[i]?.any (· ≠ .operationAborted) = true ↔ s.io.waited[i]?.bind _ = _
    cases s.io.waited[i]? with
    | none => simp
    | some err => by_cases h : err = .operationAborted <;> simp [h]
  | runReceive i =>
    refine iff_of_false Bool.false_ne_true fun h => ?_
    obtain ⟨x, -, h⟩ := Option.bind_eq_some_iff.1 h
    split_ifs at h
    · obtain ⟨y, -, hy⟩ := Option.map_eq_some_iff.1 h
      cases hy
    · cases h
  | start => exact iff_of_false Bool.false_ne_true fun h => by cases h
  | deliver | receiveFails | sendCompletes | expire | runSend =>
    exact iff_of_false Bool.false_ne_true fun h => by cases h

theorem step_counts {s s' : TftpReceiver} {tr : List (TftpReceiver × Event Endpoint × TftpReceiver)}
    (hs : s.WellFormed) (hi : Inbox proactor Holds tr s) (he : s.operationEnded = false) {e : Event Endpoint}
    (h : proactor.step s e = some s') : Counts s e s' := by
  have hr := (refines hs hi h).reception
  have hexp := handlesExpiry_completion (datagrams tr).getLast? s e
  have hcount : s'.lastreceiveddatacount = s'.reception.count := rfl
  have htime : s'.timeoutcount = s'.reception.timeouts := rfl
  have hended : s'.operationEnded = s'.reception.ended := rfl
  have hrun : s.reception.ended = false := he
  cases hc : completion proactor (datagrams tr).getLast? s e with
  | none =>
    rw [hc] at hr hexp
    refine .other (Bool.eq_false_iff.2 fun hx => ?_) (hcount.trans (by rw [hr]; rfl)) (htime.trans (by rw [hr]; rfl))
    cases hexp.1 hx
  | some c =>
    rw [hc, Option.elim_some] at hr
    rw [hc, Option.some.injEq] at hexp
    cases c with
    | expired =>
      rw [Reception.handle, if_neg (by rw [hrun]; exact Bool.false_ne_true)] at hr
      refine .expired (hexp.2 rfl) (hcount.trans (by rw [hr]; rfl)) (htime.trans (by rw [hr]; rfl)) ?_
      rw [hended, hr, decide_eq_true_iff]
      rfl
    | started =>
      exact .other (Bool.eq_false_iff.2 fun hx => by cases hexp.1 hx) (hcount.trans (by rw [hr]; rfl))
        (htime.trans (by rw [hr]; rfl))
    | failed err =>
      refine .other (Bool.eq_false_iff.2 fun hx => by cases hexp.1 hx) (hcount.trans ?_) (htime.trans ?_)
      all_goals
        rw [hr, Reception.handle]
        split_ifs <;> rfl
    | datagram src d =>
      have hno : e.handlesExpiry s.io = false := Bool.eq_false_iff.2 fun hx => by cases hexp.1 hx
      rw [Reception.handle] at hr
      cases hk : s.reception.kind s.blocksize src d with
      | next =>
        rw [hk] at hr
        have hnext := Reception.toNat_count_add_one hk
        refine .accepted hno ?_ (htime.trans (by rw [hr]; rfl))
        rw [hcount, hr]
        intro heq
        have heq' : s.reception.count + 1 = s.reception.count := heq
        rw [heq'] at hnext
        omega
      | foreign | old | noData | early =>
        rw [hk] at hr
        exact .other hno (hcount.trans (by rw [hr]; rfl)) (htime.trans (by rw [hr]; rfl))

/-! ### Exceptions -/

/-- Only a receiver that has ended throws. -/
def Throws (s s' : TftpReceiver) : Prop := s'.threw = true → s.threw = true ∨ s'.operationEnded = true

namespace Throws
variable {s s' : TftpReceiver}

theorem of_ended (h : s'.operationEnded = true) : Throws s s' := fun _ => .inr h

theorem of_eq (h : s'.threw = s.threw) : Throws s s' := fun ht => .inl (h.symm.trans ht)

theorem sendNextAck (hs : s.WellFormed) (l : Bool) : Throws s (s.sendNextAck l) := by
  cases hc : s.isConnected with
  | false =>
    refine of_eq ?_
    unfold TftpReceiver.sendNextAck
    rw [if_neg (by simp [hc])]
    rfl
  | true =>
    cases l with
    | false =>
      rw [sendNextAck_false, if_pos hc]
      exact of_eq rfl
    | true =>
      rw [sendNextAck_true s hc]
      split_ifs with hopen
      · exact of_ended (endOperation_ended _ _)
      · refine of_ended ?_
        rw [hs.isOpen, Bool.not_eq_true, Bool.not_eq_false'] at hopen
        exact hopen

theorem writeBlock (d : Bytes) : Throws s (s.writeBlock d) := by
  unfold TftpReceiver.writeBlock
  split_ifs
  · exact of_ended (outputFileError_ended s)
  · exact of_eq rfl

theorem acceptBlock (hs : s.WellFormed) (n : ℕ) : Throws s (s.acceptBlock n) := by
  intro ht
  have hcount : s.countBlock.threw = s.threw := by
    unfold countBlock onConnect
    split_ifs <;> rfl
  rcases sendNextAck (hs.countBlock.writeBlock _) _ ht with ht | he
  · rcases writeBlock _ ht with ht | he
    · exact .inl (hcount.symm.trans ht)
    · exact .inr ((After.sendNextAck _ _).ended he)
  · exact .inr he

theorem checkReceivedBlock (hs : s.WellFormed) (err : ErrorCode) (n : ℕ) :
    Throws s (s.checkReceivedBlock err n) := by
  have h : WellFormed { s with io := s.io.timerCancel } := hs.io _ rfl
  unfold TftpReceiver.checkReceivedBlock
  dsimp only
  split
  · exact sendNextAck (h.sendErrorMsg _ _ _) _
  · exact of_ended (endOperationWith_ended _ _)
  · exact of_ended (endOperationWith_ended _ _)
  · exact sendNextAck h _
  · exact acceptBlock h _
  · exact of_ended (endOperationWith_ended _ _)
  · exact sendNextAck h _
  · exact of_ended (endOperation_ended _ _)

theorem handleReadTimeout (hs : s.WellFormed) (err : ErrorCode) : Throws s (s.handleReadTimeout err) := by
  unfold TftpReceiver.handleReadTimeout Io.cancel
  split_ifs with ha hopen
  · exact of_eq rfl
  · dsimp only
    split_ifs
    · exact of_eq rfl
    · exact of_ended (endOperation_ended _ _)
  · refine of_ended ?_
    rw [hs.isOpen, Bool.not_eq_true, Bool.not_eq_false'] at hopen
    exact hopen

theorem start (hs : s.WellFormed) : Throws s s.start := by
  cases hf : s.output.fail with
  | false =>
    rw [start_good s hf]
    split_ifs
    · exact sendNextAck hs _
    · exact of_eq rfl
  | true =>
    refine of_ended ?_
    unfold TftpReceiver.start
    rw [if_pos hf]
    exact (After.of_course (Course.start_rest _)).ended (outputFileError_ended s)

theorem step (hs : s.WellFormed) {e : Event Endpoint} (h : proactor.step s e = some s') : Throws s s' := by
  obtain ⟨-, hstep⟩ := Proactor.step_cases h
  cases hstep with
  | start _ => exact start (s := { s with io := { s.io with started := true } }) (hs.io _ rfl)
  | deliver _ | receiveFails _ _ | sendCompletes _ | expire _ => exact of_eq rfl
  | @runReceive i r err n _ =>
    have ht := checkReceivedBlock (s := { s with io := { s.io with received := s.io.received.eraseIdx i } })
      (hs.io _ rfl) err n
    rw [← onReceive_eq r] at ht
    exact ht
  | @runSend i err n _ =>
    change Throws s (TftpReceiver.handleACKsent err n _)
    unfold TftpReceiver.handleACKsent
    split_ifs <;> exact of_eq rfl
  | @runTimer i err _ =>
    exact handleReadTimeout (s := { s with io := { s.io with waited := s.io.waited.eraseIdx i } }) (hs.io _ rfl) err

end Throws

/-! ### Whole runs -/

/-- After the transitions `tr`, the count is that of the expirations handled. -/
structure Budgeted (tr : List (TftpReceiver × Event Endpoint × TftpReceiver)) (s : TftpReceiver) : Prop where
  inbox : Inbox proactor Holds tr s
  wf : s.WellFormed
  waits : s.io.waits ≤ 1
  threw : s.threw = true → s.operationEnded = true ∨ s.io.tokens = 0
  counted : s.operationEnded = false → s.timeoutcount.toNat = expirationsHandled tr
  within : s.operationEnded = false → s.timeoutcount.toNat ≤ 4

namespace Budgeted
variable {tr : List (TftpReceiver × Event Endpoint × TftpReceiver)} {s s' : TftpReceiver} {e : Event Endpoint}

theorem init {s₀ : TftpReceiver} (h : Constructed s₀) : Budgeted [] s₀ := by
  have hzero : s₀.timeoutcount = 0 ∧ s₀.io.waits = 0 := by
    cases h with
    | unknown => exact ⟨rfl, rfl⟩
    | known => exact ⟨rfl, rfl⟩
    | data1 =>
      unfold newConnectedData1
      dsimp only
      split_ifs <;> exact ⟨rfl, rfl⟩
  refine ⟨TftpReceiver.inbox h (rfl : lts.run s₀ [] = some s₀), h.wellFormed, by rw [hzero.2]; exact Nat.zero_le 1,
    fun _ => .inr h.idle, fun _ => ?_, fun _ => ?_⟩
  · rw [hzero.1]
    rfl
  · rw [hzero.1]
    exact Nat.zero_le 4

/-- The step of a receiver that has not ended. -/
theorem concat (h : Budgeted tr s) (he : s.operationEnded = false) (hc : Counts s e s') :
    (s'.operationEnded = false → s'.timeoutcount.toNat = expirationsHandled (tr ++ [(s, e, s')]) ∧
      s'.timeoutcount.toNat ≤ 4) ∧
    (e.handlesExpiry s.io = true →
      (s'.operationEnded = true ↔ expirationsHandled (tr ++ [(s, e, s')]) = 5)) := by
  have hcount := h.counted he
  have hle := h.within he
  rw [expirationsHandled_concat]
  cases hc with
  | expired hx hsame htime hend =>
    rw [show retransmissionsUntilTimeout < s.timeoutcount + 1 ↔ _ from lastExpiry_iff hle] at hend
    rw [if_neg (by simp [hsame]), hx, htime, toNat_timeoutcount_add_one hle, ← hcount]
    refine ⟨fun he' => ⟨rfl, ?_⟩, fun _ => ?_⟩
    · have := mt hend.2 (by rw [he']; exact Bool.false_ne_true)
      omega
    · rw [hend]
      change _ ↔ s.timeoutcount.toNat + 1 = 5
      omega
  | accepted hx hne htime =>
    rw [if_pos hne, hx, htime]
    exact ⟨fun _ => ⟨rfl, Nat.zero_le 4⟩, fun hx => absurd hx Bool.false_ne_true⟩
  | other hx hsame htime =>
    rw [if_neg (by simp [hsame]), hx, htime, ← hcount]
    exact ⟨fun _ => ⟨rfl, hle⟩, fun hx => absurd hx Bool.false_ne_true⟩

theorem step (h : Budgeted tr s) (hstep : proactor.step s e = some s') : Budgeted (tr ++ [(s, e, s')]) s' := by
  have hafter := (step_after hstep).2
  have hrun : s'.operationEnded = false → s.operationEnded = false := fun he' =>
    Bool.eq_false_iff.2 fun he => Bool.false_ne_true (he'.symm.trans (hafter he))
  refine ⟨single.inbox_step h.inbox hstep, h.wf.step hstep, handles.step_waits hstep h.waits, fun ht => ?_,
    fun he' => ?_, fun he' => ?_⟩
  · refine .inl ((Throws.step h.wf hstep ht).resolve_left fun ht' => ?_)
    have hthrew : s.threw = false := (Proactor.step_cases hstep).1
    exact Bool.false_ne_true (hthrew.symm.trans ht')
  · exact ((h.concat (hrun he') (step_counts h.wf h.inbox (hrun he') hstep)).1 he').1
  · exact ((h.concat (hrun he') (step_counts h.wf h.inbox (hrun he') hstep)).1 he').2

theorem run {s₀ : TftpReceiver} (h₀ : Constructed s₀) {es : List (Event Endpoint)} (h : lts.run s₀ es = some s) :
    Budgeted (lts.trace s₀ es) s :=
  Lts.run_inv (L := lts) Budgeted (init h₀) (fun _ _ _ _ hb he => hb.step he) h

end Budgeted

/-! ## The farewell -/

/-- A receiver that listens has nothing else to do, apart from queued waits. -/
theorem Listens.countdown {tr : List (TftpReceiver × Event Endpoint × TftpReceiver)} {s : TftpReceiver}
    (h : s.Listens) (hb : Budgeted tr s) : s.Running ∧ ∃ r n, s.io =
      { started := true, receives := [r], waits := 1, waited := s.io.waited, duration := n, wire := s.io.wire } := by
  obtain ⟨r, rs, hr⟩ := List.exists_cons_of_ne_nil h.receives
  have ht := hb.inbox.tokens
  change s.io.tokens ≤ 1 at ht
  rw [Io.tokens, hr, List.length_cons] at ht
  have htokens : s.io.tokens ≠ 0 := by
    rw [Io.tokens, hr, List.length_cons]
    omega
  have hopen : s.io.isOpen = true := by rw [hb.wf.isOpen, h.running]; rfl
  have hstarted : s.io.started = true := by
    by_contra hs
    exact htokens (hb.inbox.fresh (Bool.eq_false_iff.2 hs))
  have hthrew : s.threw = false := Bool.eq_false_iff.2 fun hthrew => by
    rcases hb.threw hthrew with he | h0
    · exact Bool.false_ne_true (h.running.symm.trans he)
    · exact htokens h0
  have hrs : rs = [] := List.length_eq_zero_iff.1 (by omega)
  have h1 : s.io.received = [] := List.length_eq_zero_iff.1 (by omega)
  have h2 : s.io.sends = [] := List.length_eq_zero_iff.1 (by omega)
  have h3 : s.io.sent = [] := List.length_eq_zero_iff.1 (by omega)
  have hw : s.io.waits = 1 := by
    have hle := hb.waits
    have hne := h.timer
    omega
  refine ⟨⟨hb.wf, h.running, hthrew, h.connected, hb.within h.running⟩, r, s.io.duration, ?_⟩
  have heta : s.io = ⟨s.io.isOpen, s.io.started, s.io.receives, s.io.received, s.io.sends, s.io.sent,
      s.io.duration, s.io.waits, s.io.waited, s.io.wire⟩ := rfl
  rw [hopen, hstarted, hr, hrs, h1, h2, h3, hw] at heta
  exact heta

theorem currentAck_ne_timeoutError (s : TftpReceiver) : s.currentAck ≠ s.timeoutError := by
  intro h
  have hopcode := congrArg (fun x => ntohs x.2 0) h
  rw [currentAck, timeoutError, AckMessage.ntohs_encode, ErrorMessage.ntohs_encode] at hopcode
  exact absurd hopcode (by decide)

/-- The last message comes too early. -/
theorem not_prefix_replicate {α : Type} {x y : α} (hne : x ≠ y) {a b : ℕ} (hab : a < b) :
    ¬ (List.replicate a x ++ [y] <+: List.replicate b x ++ [y]) := by
  rintro ⟨l, hl⟩
  have hget := congrArg (·[a]?) hl
  simp [List.getElem?_append, hab] at hget
  exact hne hget.symm

/-- With an expiration still queued, a run repeats the ACK less often: the timer expires before
    the queued expirations are handled, and they are handled together. -/
theorem late_farewell {s : TftpReceiver} {r : ReceiverHandler} {n : ℕ} (hrun : s.Running)
    (hio : s.io = {
      started := true, receives := [r], waits := 1, waited := s.io.waited, duration := n, wire := s.io.wire })
    (hlt : s.timeoutcount.toNat ≠ 4) (hws : expiries s.io.waited ≠ 0) :
    ¬ lts.Sends OnlyTimer (fun t => t.io.wire) s
      (List.replicate (4 - s.timeoutcount.toNat) s.currentAck ++ [s.timeoutError]) := by
  intro hsends
  have hle := hrun.within
  have hstep := expire_step hrun.threw (show s.io.waits ≠ 0 by rw [hio]; exact Nat.one_ne_zero)
  have hrunu := hrun.io { s.io with waits := 0, waited := s.io.waited ++ List.replicate s.io.waits .success } rfl
  have hiou : ({ s.io with waits := 0, waited := s.io.waited ++ List.replicate s.io.waits .success } : Io _ _) = {
      started := true
      receives := [r]
      waited := s.io.waited ++ List.replicate 1 .success
      duration := n
      wire := s.io.wire } := by
    rw [hio]
  have hexp := expiries_expire s.io.waited 1
  obtain ⟨es, t, hr, hw⟩ := rush hrunu hiou (.inl ⟨rfl, rfl, by omega⟩) hexp
  have hA : OnlyTimer (s, .expire, { s with
      io := { s.io with waits := 0, waited := s.io.waited ++ List.replicate s.io.waits .success } }) := by
    refine ⟨by simp, by simp, fun _ y hy => ?_⟩
    dsimp only at hy
    rw [hio] at hy
    cases hy
  have hpart := (hsends.part _ t (.cons hstep hA hr)).2
  rw [hw, List.prefix_append_right_inj] at hpart
  exact not_prefix_replicate s.currentAck_ne_timeoutError (by dsimp only; omega) hpart

/-- Without a queued expiration it will send its ACK once for each expiration that is left. -/
theorem Listens.left {tr : List (TftpReceiver × Event Endpoint × TftpReceiver)} {s : TftpReceiver}
    (h : s.Listens) (hb : Budgeted tr s) (hws : s.timeoutcount ≠ 4 → ∀ err ∈ s.io.waited, err = .operationAborted) :
    s.Countdown ∧ s.left = List.replicate (4 - s.timeoutcount.toNat) s.currentAck ++ [s.timeoutError] := by
  obtain ⟨hrun, r, n, hio⟩ := h.countdown hb
  have hfour : s.timeoutcount = 4 ↔ s.timeoutcount.toNat = 4 := by
    rw [← UInt16.toNat_inj]
    rfl
  rw [← expiries_eq_zero] at hws
  constructor
  · refine .listening hrun hio ?_
    by_cases hl : s.timeoutcount.toNat = 4
    · exact .inr ⟨hl, Nat.succ_ne_zero _⟩
    · exact .inl (by rw [hws (mt hfour.1 hl)])
  · rw [TftpReceiver.left, if_neg (by rw [hrun.running]; exact Bool.false_ne_true), hio, List.length_nil, Nat.zero_add]

theorem farewell_iff {tr : List (TftpReceiver × Event Endpoint × TftpReceiver)} {s : TftpReceiver}
    (h : s.Listens) (hb : Budgeted tr s) :
    lts.Sends OnlyTimer (fun t => t.io.wire) s
        (List.replicate (4 - s.timeoutcount.toNat) s.currentAck ++ [s.timeoutError]) ↔
      (s.timeoutcount ≠ 4 → ∀ err ∈ s.io.waited, err = .operationAborted) := by
  obtain ⟨hrun, r, n, hio⟩ := h.countdown hb
  constructor
  · intro hsends hne
    rw [← expiries_eq_zero]
    by_contra hws
    refine late_farewell hrun hio (fun hl => hne ?_) hws hsends
    rw [← UInt16.toNat_inj]
    exact hl
  · intro hws
    obtain ⟨hc, hleft⟩ := h.left hb hws
    rw [← hleft]
    exact hc.sends

/-- **The retry budget of a receiver.**  In every run the expirations since the last block
    are counted, and the fifth ends the operation; and if only the timer expires from a state
    in which the receiver listens, it sends its ACK once for each expiration that is left, and
    then an ERROR message, exactly if no earlier expiration is still queued there, or one is
    left. -/
theorem retry_budget_iff {s₀ s : TftpReceiver} (h₀ : Constructed s₀) {es : List (Event Endpoint)}
    (h : lts.run s₀ es = some s) : RetryBudget s₀ es s ↔
      (s.Listens → s.timeoutcount ≠ 4 → ∀ err ∈ s.io.waited, err = .operationAborted) := by
  have hb := Budgeted.run h₀ h
  constructor
  · intro hbudget hl
    exact (farewell_iff hl hb).1 (hbudget.farewell hl)
  · intro hlate
    refine ⟨hb.counted, fun es' e t t' hpre hrun hstep he hx => ?_, fun es' hpre hfive => ?_,
      fun hl => (farewell_iff hl hb).2 (hlate hl)⟩
    · have hbt := Budgeted.run h₀ hrun
      have htrace : lts.trace s₀ (es' ++ [e]) = lts.trace s₀ es' ++ [(t, e, t')] := by
        rw [Lts.trace_append hrun, Lts.trace, hstep]
        rfl
      rw [htrace]
      exact (hbt.concat he (step_counts hbt.wf hbt.inbox he hstep)).2 hx
    · obtain ⟨es'', rfl⟩ := hpre
      rw [Lts.run_append] at h
      obtain ⟨t, ht, hrest⟩ := Option.bind_eq_some_iff.1 h
      have hbt := Budgeted.run h₀ ht
      have hended : t.operationEnded = true := by
        by_contra hn
        have hcount := hbt.counted (Bool.eq_false_iff.2 hn)
        have hwithin := hbt.within (Bool.eq_false_iff.2 hn)
        omega
      exact handles.run_ended (I := Constructed) hended hrest

end TftpReceiver

end Ttftp

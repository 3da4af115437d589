/-
  Objects that send a bounded number of messages for each datagram that arrives.

  This is the method of potentials (`Lts.run_potential`).  The potential of an object is its
  `allowance`, what it may still spend while nothing arrives, and the `share` of each
  receive that is completed and not yet handled.  In a `Meter` the handlers spend no more
  than that: a retry is paid for by the allowance, and a datagram brings its `price`, a
  failed receive its `fee` (`Meter.step`).
-/
import Ttftp.Lib.Course
import Ttftp.Lib.Frugal
import Ttftp.Lib.Inbox
import Ttftp.Lib.Watch

universe u v

/-- **The rule of potentials**: what is spent and what may still be spent grow by no more than
    the events of a run are worth. -/
theorem Lts.run_potential {σ : Type u} {ε : Type v} {L : Lts σ ε} {I : σ → Prop} {potential : σ → ℕ}
    {worth : ε → ℕ} (hs : ∀ s e s', I s → L.step s e = some s' → I s' ∧ potential s' ≤ potential s + worth e)
    {s t : σ} {es : List ε} (h : I s) (hr : L.run s es = some t) :
    potential t ≤ potential s + (es.map worth).sum := by
  induction es generalizing s with
  | nil =>
    cases hr
    exact Nat.le_add_right _ _
  | cons e es ih =>
    obtain ⟨s', he, hr⟩ := Option.bind_eq_some_iff.1 hr
    obtain ⟨hI, hstep⟩ := hs s e s' h he
    have hrest := ih hI hr
    rw [List.map_cons, List.sum_cons]
    omega

/-- One summand is replaced. -/
theorem sum_map_set {α : Type u} (f : α → ℕ) {l : List α} {n : ℕ} {x : α} (h : l[n]? = some x) (y : α) :
    ((l.set n y).map f).sum + f x = (l.map f).sum + f y := by
  induction l generalizing n with
  | nil => cases h
  | cons z l ih =>
    cases n with
    | zero =>
      rw [List.getElem?_cons_zero, Option.some.injEq] at h
      rw [h, List.set_cons_zero, List.map_cons, List.map_cons, List.sum_cons, List.sum_cons]
      omega
    | succ n =>
      rw [List.getElem?_cons_succ] at h
      have hrest := ih h
      rw [List.set_cons_succ, List.map_cons, List.map_cons, List.sum_cons, List.sum_cons]
      omega

namespace Asio

variable {σ H A C : Type}

/-- What an object may spend while nothing arrives; nothing once it has ended. -/
def rest (ended : σ → Bool) (allowance : σ → ℕ) (s : σ) : ℕ := if ended s then 0 else allowance s

/-- What a handler leaves behind that spends `b` beside its allowance. -/
structure Affords (P : Proactor σ H A) (good : σ → Prop) (ended : σ → Bool) (cost : Bytes → ℕ)
    (allowance : σ → ℕ) (b : ℕ) (s s' : σ) : Prop where
  good : ended s' = false → good s'
  spends : ∃ c, (P.io s).Spends cost c (P.io s') ∧ c + rest ended allowance s' ≤ allowance s + b

namespace Affords
variable {P : Proactor σ H A} {good : σ → Prop} {ended : σ → Bool} {cost : Bytes → ℕ} {allowance : σ → ℕ} {b c : ℕ}
  {s s' : σ}

/-- What has ended needs no allowance. -/
theorem of_ended (he : ended s' = true) (h : (P.io s).Spends cost c (P.io s')) (hc : c ≤ allowance s + b) :
    Affords P good ended cost allowance b s s' := by
  refine ⟨fun hn => ?_, c, h, ?_⟩
  · rw [he] at hn
    cases hn
  · rw [rest, if_pos he, Nat.add_zero]
    exact hc

theorem of_le (hg : ended s' = false → good s') (h : (P.io s).Spends cost c (P.io s'))
    (hc : c + allowance s' ≤ allowance s + b) : Affords P good ended cost allowance b s s' := by
  refine ⟨hg, c, h, le_trans (Nat.add_le_add_left ?_ c) hc⟩
  unfold rest
  split_ifs
  · exact Nat.zero_le _
  · exact le_rfl

end Affords

/-- `share true` is the share of a datagram, `share false` that of a failed receive. -/
structure Meter (P : Proactor σ H A) (R : Reporter σ H A C) (wf good bare last : σ → Prop) (cost : Bytes → ℕ)
    (allowance : σ → ℕ) (share : Bool → σ → ℕ) (price fee : ℕ) : Prop where
  oneByOne : OneByOne P wf R.ended bare last
  handles : R.Handles P
  isOpen : ∀ s, wf s → (P.io s).isOpen = !R.ended s
  good_setIo : ∀ s io, good s → good (P.setIo io s)
  good_store : ∀ s a d, good s → good (P.store a d s)
  allowance_setIo : ∀ s io, allowance (P.setIo io s) = allowance s
  share_setIo : ∀ b s io, share b (P.setIo io s) = share b s
  deliver : ∀ s a d, wf s → good s →
    allowance (P.store a d s) + share true (P.store a d s) ≤ allowance s + price
  fails : ∀ s, share false s ≤ fee
  receive : ∀ h e n s, wf s → good s → R.ended s = false →
    Affords P good R.ended cost allowance (share (decide (e = .success)) s) s (P.onReceive h e n s)
  sent : ∀ e n s, wf s → good s → R.ended s = false → Affords P good R.ended cost allowance 0 s (P.onSend e n s)
  retry : ∀ e s, wf s → good s → R.ended s = false → e ≠ .operationAborted → ¬ last s →
    good (P.onTimer e s) ∧ allowance (P.onTimer e s) + share false s ≤ allowance s ∧
      ∀ b, share b (P.onTimer e s) = share b s
  giveUp : ∀ e s, wf s → good s → R.ended s = false → e ≠ .operationAborted → last s →
    (P.io s).abortAll.Spends cost (allowance s) (P.io (P.onTimer e s))

/-- The shares of the completed receives. -/
def shares (share : Bool → σ → ℕ) (s : σ) (xs : List (H × ErrorCode × ℕ)) : ℕ :=
  (xs.map fun x => share (decide (x.2.1 = .success)) s).sum

/-- What an object may spend on what has arrived, and while nothing arrives. -/
def reserve (P : Proactor σ H A) (ended : σ → Bool) (allowance : σ → ℕ) (share : Bool → σ → ℕ) (s : σ) : ℕ :=
  if ended s then 0 else allowance s + shares share s (P.io s).received

/-- What an event brings. -/
def Event.brings (price fee : ℕ) : Event A → ℕ
  | .deliver _ _ => price
  | .receiveFails _ => fee
  | _ => 0

namespace Meter
variable {P : Proactor σ H A} {R : Reporter σ H A C} {wf good bare last : σ → Prop} {cost : Bytes → ℕ}
  {allowance : σ → ℕ} {share : Bool → σ → ℕ} {price fee : ℕ} {s s' : σ} {e : Event A}

/-- A started object with one operation, unless it has ended. -/
structure Ready (P : Proactor σ H A) (R : Reporter σ H A C) (wf good : σ → Prop) (s : σ) : Prop where
  wf : wf s
  started : (P.io s).started = true
  good : R.ended s = false → good s
  tokens : R.ended s = false → (P.io s).tokens ≤ 1

/-- The balance of an event, for an object that goes on. -/
structure Balanced (P : Proactor σ H A) (R : Reporter σ H A C) (good : σ → Prop) (cost : Bytes → ℕ)
    (allowance : σ → ℕ) (share : Bool → σ → ℕ) (b : ℕ) (s s' : σ) : Prop where
  good : R.ended s' = false → good s'
  tokens : R.ended s' = false → (P.io s').tokens ≤ 1
  wire : Io.spent cost (P.io s').wire + reserve P R.ended allowance share s' ≤
    Io.spent cost (P.io s).wire + reserve P R.ended allowance share s + b

theorem reserve_ended (h : R.ended s = true) : reserve P R.ended allowance share s = 0 := if_pos h

theorem reserve_active (h : R.ended s = false) :
    reserve P R.ended allowance share s = allowance s + shares share s (P.io s).received :=
  if_neg (by simp [h])

theorem reserve_quiet (h : (P.io s).received = []) :
    reserve P R.ended allowance share s = rest R.ended allowance s := by
  rw [reserve, rest, h]
  rfl

theorem Ready.received_eq_nil (h : Ready P R wf good s) (he : R.ended s = false) {r : H} {rs : List H}
    (hr : (P.io s).receives = r :: rs) : (P.io s).received = [] := by
  have ht := h.tokens he
  rw [Io.tokens, hr, List.length_cons] at ht
  exact List.length_eq_zero_iff.1 (by omega)

variable (M : Meter P R wf good bare last cost allowance share price fee)
include M

theorem ready_of_balanced {b : ℕ} (h : Ready P R wf good s) (hs : P.step s e = some s')
    (hb : Balanced P R good cost allowance share b s s') : Ready P R wf good s' :=
  ⟨M.oneByOne.wf_step _ _ _ h.wf hs, M.oneByOne.started_step _ _ _ hs (.inr h.started), hb.good, hb.tokens⟩

/-- Nothing is sent, and nothing happens to the receives. -/
theorem balanced_setIo {io : Io H A} (h : Ready P R wf good s) (he : R.ended s = false)
    (hw : io.wire = (P.io s).wire) (hr : io.received = (P.io s).received) (ht : io.tokens = (P.io s).tokens) :
    Balanced P R good cost allowance share 0 s (P.setIo io s) := by
  have hio := M.oneByOne.io_setIo s io
  refine ⟨fun _ => M.good_setIo s io (h.good he), fun _ => ?_, ?_⟩
  · rw [hio, ht]
    exact h.tokens he
  · rw [reserve_active he, reserve_active ((M.oneByOne.ended_setIo s io).trans he), hio, hw, hr, M.allowance_setIo]
    simp only [shares, M.share_setIo]
    exact le_rfl

/-- What an object without an operation affords. -/
theorem afforded {b : ℕ} (hwf : wf s') (h0 : (P.io s).tokens = 0)
    (h : Affords P good R.ended cost allowance b s s') :
    Io.spent cost (P.io s').wire + reserve P R.ended allowance share s' ≤
      Io.spent cost (P.io s).wire + allowance s + b := by
  obtain ⟨c, hspends, hc⟩ := h.spends
  obtain ⟨w, hw, hcost, -⟩ := hspends.wire
  have hreserve : reserve P R.ended allowance share s' = rest R.ended allowance s' := by
    cases he : R.ended s' with
    | true => rw [reserve_ended he, rest, if_pos he]
    | false =>
      have hopen : (P.io s').isOpen = true := by rw [M.isOpen s' hwf, he]; rfl
      exact reserve_quiet ((hspends.received hopen).trans ((Io.tokens_eq_zero _).1 h0).2.1)
  rw [hreserve, hw, Io.spent, List.map_append, List.sum_append]
  simp only [Io.spent] at hcost ⊢
  omega

/-- The handler of the only operation has run, and is paid for. -/
theorem balanced_affords {io : Io H A} {b : ℕ} (hwf : wf s') (hw : io.wire = (P.io s).wire) (h0 : io.tokens = 0)
    (ht : R.ended s' = false → (P.io s').tokens ≤ 1)
    (h : Affords P good R.ended cost allowance b (P.setIo io s) s')
    (hb : allowance s + b ≤ reserve P R.ended allowance share s) :
    Balanced P R good cost allowance share 0 s s' := by
  have hio := M.oneByOne.io_setIo s io
  have hspent := M.afforded hwf (by rw [hio, h0]) h
  rw [hio, hw, M.allowance_setIo] at hspent
  refine ⟨h.good, ht, ?_⟩
  omega

/-- A datagram brings its price. -/
theorem balanced_deliver {src : A} {d : Bytes} {r : H} {rs : List H} (h : Ready P R wf good s)
    (he : R.ended s = false) (hr : (P.io s).receives = r :: rs) {n : ℕ} :
    Balanced P R good cost allowance share price s (P.store src d (P.setIo { P.io s with
      receives := rs, received := (P.io s).received ++ [(r, .success, n)] } s)) := by
  obtain ⟨io, hio⟩ : ∃ io : Io H A, io = { P.io s with
    receives := rs, received := (P.io s).received ++ [(r, .success, n)] } := ⟨_, rfl⟩
  rw [← hio]
  have hnil := h.received_eq_nil he hr
  have hreceived : io.received = [(r, ErrorCode.success, n)] := by rw [hio, hnil, List.nil_append]
  have hio' : P.io (P.store src d (P.setIo io s)) = io := by rw [M.oneByOne.io_store, M.oneByOne.io_setIo]
  have he' : R.ended (P.store src d (P.setIo io s)) = false := by
    rw [M.handles.ended_store, M.handles.ended_setIo, he]
  have hgood := M.good_setIo s io (h.good he)
  have hpaid := M.deliver (P.setIo io s) src d (M.oneByOne.wf_setIo s io h.wf (by rw [hio])) hgood
  rw [M.allowance_setIo] at hpaid
  refine ⟨fun _ => M.good_store _ _ _ hgood, fun _ => ?_, ?_⟩
  · have ht := h.tokens he
    rw [hio', hio]
    simp only [Io.tokens, hr, List.length_append, List.length_cons, List.length_nil] at ht ⊢
    omega
  · rw [reserve_active he, reserve_active he', hio', hreceived, hnil, show io.wire = (P.io s).wire by rw [hio]]
    simp only [shares, List.map_cons, List.map_nil, List.sum_cons, List.sum_nil, decide_true]
    omega

/-- A failed receive brings its fee. -/
theorem balanced_fails {err : ErrorCode} {r : H} {rs : List H} (h : Ready P R wf good s) (he : R.ended s = false)
    (hr : (P.io s).receives = r :: rs) (herr : err ≠ .success) :
    Balanced P R good cost allowance share fee s (P.setIo { P.io s with
      receives := rs, received := (P.io s).received ++ [(r, err, 0)] } s) := by
  obtain ⟨io, hio⟩ : ∃ io : Io H A, io = { P.io s with
    receives := rs, received := (P.io s).received ++ [(r, err, 0)] } := ⟨_, rfl⟩
  rw [← hio]
  have hnil := h.received_eq_nil he hr
  have hreceived : io.received = [(r, err, 0)] := by rw [hio, hnil, List.nil_append]
  have hio' := M.oneByOne.io_setIo s io
  refine ⟨fun _ => M.good_setIo s io (h.good he), fun _ => ?_, ?_⟩
  · have ht := h.tokens he
    rw [hio', hio]
    simp only [Io.tokens, hr, List.length_append, List.length_cons, List.length_nil] at ht ⊢
    omega
  · have hfee := M.fails s
    rw [reserve_active he, reserve_active ((M.handles.ended_setIo s io).trans he), hio', hreceived, hnil,
      show io.wire = (P.io s).wire by rw [hio]]
    simp only [shares, List.map_cons, List.map_nil, List.sum_cons, List.sum_nil, herr, decide_false,
      M.share_setIo, M.allowance_setIo]
    omega

/-- An expiration is paid for by the allowance: it ends the operation, or the handler of the
    receive that it aborts gets a share. -/
theorem balanced_expired {io : Io H A} {err : ErrorCode} (h : Ready P R wf good s) (he : R.ended s = false)
    (ha : err ≠ .operationAborted) (hw : io.wire = (P.io s).wire) (ho : io.isOpen = (P.io s).isOpen)
    (hr : io.received = (P.io s).received) (ht : io.tokens = (P.io s).tokens) :
    Balanced P R good cost allowance share 0 s (P.onTimer err (P.setIo io s)) := by
  have hio := M.oneByOne.io_setIo s io
  have hwf := M.oneByOne.wf_setIo s io h.wf ho
  have he' := (M.oneByOne.ended_setIo s io).trans he
  have hgood := M.good_setIo s io (h.good he)
  by_cases hlast : last (P.setIo io s)
  · have hend := M.oneByOne.expired_last err _ hwf he' ha hlast
    have hspends := M.giveUp err _ hwf hgood he' ha hlast
    rw [hio, M.allowance_setIo] at hspends
    obtain ⟨w, hw', hcost, -⟩ := hspends.wire
    refine ⟨fun hn => ?_, fun hn => ?_, ?_⟩
    · rw [hend] at hn
      cases hn
    · rw [hend] at hn
      cases hn
    · rw [reserve_ended hend, reserve_active he, hw', Io.abortAll_wire, hw, Io.spent, List.map_append,
        List.sum_append]
      simp only [Io.spent] at hcost ⊢
      omega
  · obtain ⟨hgood', hpaid, hshare⟩ := M.retry err _ hwf hgood he' ha hlast
    obtain ⟨hend, hio'⟩ := M.oneByOne.expired err _ hwf he' ha hlast
    rw [hio] at hio'
    have htok := h.tokens he
    refine ⟨fun _ => hgood', fun _ => ?_, ?_⟩
    · rw [hio', Io.abortAll_tokens, ht]
      exact htok
    · have hlen : io.receives.length ≤ 1 := by
        rw [← ht, Io.tokens] at htok
        omega
      have haborted : (io.receives.map fun _ => share false s).sum ≤ share false s := by
        cases hr' : io.receives with
        | nil => exact Nat.zero_le _
        | cons r rs =>
          rw [hr', List.length_cons] at hlen
          rw [List.length_eq_zero_iff.1 (by omega : rs.length = 0)]
          exact (Nat.add_zero _).le
      rw [reserve_active hend, reserve_active he, hio', Io.abortAll_wire, hw, ← hr]
      rw [M.allowance_setIo, M.share_setIo] at hpaid
      simp only [shares, hshare, M.share_setIo, Io.abortAll, List.map_append, List.map_map, List.sum_append]
      change _ + (_ + (_ + (io.receives.map fun _ => share false s).sum)) ≤ _
      omega

/-- **The balance of an event.** -/
theorem step (h : Ready P R wf good s) (hs : P.step s e = some s') : Ready P R wf good s' ∧
    Io.spent cost (P.io s').wire + reserve P R.ended allowance share s' ≤
      Io.spent cost (P.io s).wire + reserve P R.ended allowance share s + e.brings price fee := by
  have hwf' := M.oneByOne.wf_step _ _ _ h.wf hs
  cases he : R.ended s with
  | true =>
    -- what has ended sends nothing
    have hend := (M.handles.step_after hs).2 he
    have hwire := (M.handles.step_silent hs (by rw [M.isOpen s h.wf, he]; rfl)).2
    refine ⟨⟨hwf', M.oneByOne.started_step _ _ _ hs (.inr h.started), fun hn => ?_, fun hn => ?_⟩, ?_⟩
    · rw [hend] at hn
      cases hn
    · rw [hend] at hn
      cases hn
    · rw [reserve_ended hend, hwire]
      omega
  | false =>
    suffices hb : Balanced P R good cost allowance share (e.brings price fee) s s' from
      ⟨M.ready_of_balanced h hs hb, hb.wire⟩
    have hrun : ∀ {b : ℕ} {t : σ}, Balanced P R good cost allowance share 0 s t →
        Balanced P R good cost allowance share b s t := fun hb =>
      ⟨hb.good, hb.tokens, hb.wire.trans (Nat.le_add_right _ _)⟩
    obtain ⟨-, hstep⟩ := Proactor.step_cases hs
    cases hstep with
    | start h0 => exact absurd (h.started.symm.trans h0) (by decide)
    | deliver hr => exact M.balanced_deliver h he hr
    | receiveFails hr herr => exact M.balanced_fails h he hr herr
    | sendCompletes hn =>
      refine hrun (M.balanced_setIo h he rfl rfl ?_)
      simp only [Io.tokens, hn, List.length_append, List.length_cons, List.length_nil]
      omega
    | expire _ => exact hrun (M.balanced_setIo h he rfl rfl rfl)
    | @runReceive i r err n hx =>
      have h0 := (Io.tokens_eraseIdx_received hx (h.tokens he)).2
      have hx' := Io.received_eq_singleton hx (h.tokens he)
      obtain ⟨io, hio⟩ : ∃ io : Io H A, io = { P.io s with received := (P.io s).received.eraseIdx i } := ⟨_, rfl⟩
      rw [← hio] at hwf' h0 ⊢
      have hwf := M.oneByOne.wf_setIo s io h.wf (by rw [hio])
      have hend := (M.oneByOne.ended_setIo s io).trans he
      refine hrun (M.balanced_affords hwf' (by rw [hio]) h0 (fun hn => ?_)
        (M.receive r err n _ hwf (M.good_setIo s io (h.good he)) hend) ?_)
      · refine ((M.oneByOne.receive r err n _ hwf hend ?_).resolve_left (by simp [hn])).tokens.le
        rw [M.oneByOne.io_setIo, h0]
      · rw [reserve_active he, hx', M.share_setIo]
        simp [shares]
    | @runSend i err n hx =>
      have h0 := (Io.tokens_eraseIdx_sent hx (h.tokens he)).2
      obtain ⟨io, hio⟩ : ∃ io : Io H A, io = { P.io s with sent := (P.io s).sent.eraseIdx i } := ⟨_, rfl⟩
      rw [← hio] at hwf' h0 ⊢
      have hwf := M.oneByOne.wf_setIo s io h.wf (by rw [hio])
      have hend := (M.oneByOne.ended_setIo s io).trans he
      refine hrun (M.balanced_affords hwf' (by rw [hio]) h0 (fun hn => ?_)
        (M.sent err n _ hwf (M.good_setIo s io (h.good he)) hend) ?_)
      · by_cases hok : err = .success ∧ n ≠ 0
        · rw [hok.1]
          exact (M.oneByOne.sent n _ (by rw [M.oneByOne.io_setIo, h0]) hok.2).tokens.le
        · rw [M.oneByOne.failed err n _ hok, M.oneByOne.io_setIo, h0]
          exact Nat.zero_le 1
      · rw [reserve_active he, Nat.add_zero]
        exact Nat.le_add_right _ _
    | @runTimer i err hx =>
      by_cases ha : err = .operationAborted
      · rw [ha, M.oneByOne.cancelled]
        exact hrun (M.balanced_setIo h he rfl rfl rfl)
      · exact hrun (M.balanced_expired h he ha rfl rfl rfl rfl)

/-- An object that has just been started. -/
theorem started {b : ℕ} (hwf : wf s') (h0 : (P.io s).tokens = 0) (hs : (P.io s).started = true)
    (hl : (P.io s).Leaves 1 (P.io s')) (h : Affords P good R.ended cost allowance b s s') :
    Ready P R wf good s' ∧ Io.spent cost (P.io s').wire + reserve P R.ended allowance share s' ≤
      Io.spent cost (P.io s).wire + allowance s + b := by
  have htokens : (P.io s').tokens ≤ 1 := hl.tokens.trans (by rw [h0])
  exact ⟨⟨hwf, hl.started.trans hs, h.good, fun _ => htokens⟩, M.afforded hwf h0 h⟩

end Meter

end Asio

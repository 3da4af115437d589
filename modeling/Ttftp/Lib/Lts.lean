/-
  Labelled transition systems given by a partial step function.

  * `Reach` is reachability from the initial states, `Reach.inv` the rule of
    invariants, and `exists_rest` and `run_length_le` those of termination;
  * `trace` lists the transitions a sequence of events takes, each of them from
    a reachable state (`mem_trace`); `run_inv` is the rule of invariants about a
    state and its past, and `trace_iff` that of exact conditions on runs;
    `exists_first` finds the first bad step of a run;
  * `total` systems take all events;
  * `attempt` runs a script: it takes the events that are enabled (`run_attempt`);
  * `Bisim` relates states of the same behaviour (`Bisim.sameBehaviour`);
  * `Sim` is a forward simulation by an abstract relation: one step is matched
    by finitely many abstract ones, so that every reachable state is related to
    a reachable abstract one (`Sim.reach`).
-/
import Mathlib.Data.List.Induction
import Mathlib.Data.Nat.Notation
import Mathlib.Data.Option.Basic
import Mathlib.Logic.Relation

universe u v w

/-- A labelled transition system. -/
structure Lts (σ : Type u) (ε : Type v) where
  init : σ → Prop
  step : σ → ε → Option σ

namespace Lts
variable {σ : Type u} {ε : Type v} {τ : Type w} {L : Lts σ ε}

/-- The state reached by a sequence of events, if each of them is enabled. -/
def run (L : Lts σ ε) : σ → List ε → Option σ
  | s, [] => some s
  | s, e :: es => (L.step s e).bind fun s' => L.run s' es

/-- The states reached from the initial ones. -/
inductive Reach (L : Lts σ ε) : σ → Prop
  | init {s : σ} : L.init s → Reach L s
  | step {s s' : σ} {e : ε} : Reach L s → L.step s e = some s' → Reach L s'

theorem run_append (s : σ) (es es' : List ε) :
    L.run s (es ++ es') = (L.run s es).bind fun s' => L.run s' es' := by
  induction es generalizing s with
  | nil => rfl
  | cons e es ih =>
    simp only [List.cons_append, run]
    cases L.step s e with
    | none => rfl
    | some s' => exact ih s'

theorem Reach.run {s : σ} (h : L.Reach s) {s' : σ} :
    ∀ {es : List ε}, L.run s es = some s' → L.Reach s' := by
  intro es
  induction es generalizing s with
  | nil => intro hr; cases hr; exact h
  | cons e es ih =>
    intro hr
    obtain ⟨t, ht, hr⟩ := Option.bind_eq_some_iff.1 hr
    exact ih (h.step ht) hr

/-- **The rule of invariants.** -/
theorem Reach.inv (I : σ → Prop) (h0 : ∀ s, L.init s → I s)
    (hs : ∀ s e s', L.Reach s → I s → L.step s e = some s' → I s') {s : σ} (h : L.Reach s) : I s := by
  induction h with
  | init h => exact h0 _ h
  | step h he ih => exact hs _ _ _ h ih he

/-- The transitions a sequence of events takes, up to the first event that is
    not enabled. -/
def trace (L : Lts σ ε) : σ → List ε → List (σ × ε × σ)
  | _, [] => []
  | s, e :: es => match L.step s e with
    | none => []
    | some s' => (s, e, s') :: L.trace s' es

theorem mem_trace {s : σ} (h : L.Reach s) {es : List ε} {x : σ × ε × σ} (hx : x ∈ L.trace s es) :
    L.Reach x.1 ∧ L.step x.1 x.2.1 = some x.2.2 := by
  induction es generalizing s with
  | nil => simp [trace] at hx
  | cons e es ih =>
    rw [trace] at hx
    split at hx
    · simp at hx
    · rename_i s' hs'
      rcases List.mem_cons.1 hx with rfl | hx
      · exact ⟨h, hs'⟩
      · exact ih (h.step hs') hx

theorem trace_append {s : σ} {es es' : List ε} {s' : σ} (h : L.run s es = some s') :
    L.trace s (es ++ es') = L.trace s es ++ L.trace s' es' := by
  induction es generalizing s with
  | nil => cases h; rfl
  | cons e es ih =>
    obtain ⟨t, ht, hr⟩ := Option.bind_eq_some_iff.1 h
    simp only [List.cons_append, trace, ht, ih hr]

/-- **The rule of invariants, with history**: `I tr s` relates a state to the
    transitions that have led to it. -/
theorem run_inv (I : List (σ × ε × σ) → σ → Prop) {s₀ : σ} (h0 : I [] s₀)
    (hs : ∀ tr s e s', I tr s → L.step s e = some s' → I (tr ++ [(s, e, s')]) s') {es : List ε} {s : σ}
    (h : L.run s₀ es = some s) : I (L.trace s₀ es) s := by
  induction es using List.reverseRecOn generalizing s with
  | nil => cases h; exact h0
  | append_singleton es e ih =>
    rw [run_append] at h
    obtain ⟨t, ht, hr⟩ := Option.bind_eq_some_iff.1 h
    obtain ⟨s', he, hr⟩ := Option.bind_eq_some_iff.1 hr
    cases hr
    rw [trace_append ht, trace, he]
    exact hs _ _ _ _ (ih ht) he

/-- The first bad step of a run. -/
theorem exists_first {s₀ s : σ} {es : List ε} (h : L.run s₀ es = some s) {Bad : σ → ε → Prop}
    (hb : ∃ x ∈ L.trace s₀ es, Bad x.1 x.2.1) : ∃ es' t e t', es' ++ [e] <+: es ∧ L.run s₀ es' = some t ∧
      L.step t e = some t' ∧ (∀ x ∈ L.trace s₀ es', ¬ Bad x.1 x.2.1) ∧ Bad t e := by
  induction es using List.reverseRecOn generalizing s with
  | nil =>
    obtain ⟨x, hx, -⟩ := hb
    cases hx
  | append_singleton es e ih =>
    rw [run_append] at h
    obtain ⟨t, ht, hr⟩ := Option.bind_eq_some_iff.1 h
    obtain ⟨s', he, -⟩ := Option.bind_eq_some_iff.1 hr
    by_cases hbefore : ∃ x ∈ L.trace s₀ es, Bad x.1 x.2.1
    · obtain ⟨es', u, e', u', hpre, hrest⟩ := ih ht hbefore
      exact ⟨es', u, e', u', hpre.trans (List.prefix_append _ _), hrest⟩
    · refine ⟨es, t, e, s', List.prefix_rfl, ht, he, fun x hx hbad => hbefore ⟨x, hx, hbad⟩, ?_⟩
      obtain ⟨x, hx, hbad⟩ := hb
      rw [trace_append ht, trace, he] at hx
      rcases List.mem_append.1 hx with hx | hx
      · exact absurd ⟨x, hx, hbad⟩ hbefore
      · rw [List.mem_singleton.1 hx] at hbad
        exact hbad

/-- The transitions of a part of a run. -/
theorem trace_prefix {s₀ : σ} {es es' : List ε} (h : es' <+: es) {s' : σ} (hr : L.run s₀ es' = some s') :
    L.trace s₀ es' <+: L.trace s₀ es := by
  obtain ⟨es'', rfl⟩ := h
  rw [trace_append hr]
  exact List.prefix_append _ _

/-! ### Total systems -/

/-- A system in which every event is enabled everywhere. -/
def total (init : σ → Prop) (f : σ → ε → σ) : Lts σ ε := ⟨init, fun s e => some (f s e)⟩

variable {init : σ → Prop} {f : σ → ε → σ}

/-- All events are taken. -/
theorem trace_total (s : σ) (es : List ε) : ((total init f).trace s es).map (·.2.1) = es := by
  induction es generalizing s with
  | nil => rfl
  | cons e es ih => exact congrArg (e :: ·) (ih (f s e))

/-- A condition on the steps that speaks of their events only. -/
theorem forall_trace_total {P : ε → Prop} (s : σ) (es : List ε) :
    (∀ x ∈ (total init f).trace s es, P x.2.1) ↔ ∀ e ∈ es, P e := by
  conv_rhs => rw [← @trace_total _ _ init f s es]
  exact List.forall_mem_map.symm

/-! ### Scripts -/

/-- Take the events that are enabled, and leave out the others. -/
def attempt (L : Lts σ ε) (s : σ) (es : List ε) : σ := es.foldl (fun s e => (L.step s e).getD s) s

theorem attempt_nil (s : σ) : L.attempt s [] = s := rfl

theorem attempt_cons (s : σ) (e : ε) (es : List ε) :
    L.attempt s (e :: es) = L.attempt ((L.step s e).getD s) es := rfl

theorem attempt_append (s : σ) (es es' : List ε) : L.attempt s (es ++ es') = L.attempt (L.attempt s es) es' :=
  List.foldl_append

theorem attempt_step {s s' : σ} {e : ε} (h : L.step s e = some s') (es : List ε) :
    L.attempt s (e :: es) = L.attempt s' es := by
  rw [attempt_cons, h]
  rfl

theorem attempt_skip {s : σ} {e : ε} (h : L.step s e = none) (es : List ε) :
    L.attempt s (e :: es) = L.attempt s es := by
  rw [attempt_cons, h]
  rfl

/-- A script is the run of some of its events. -/
theorem run_attempt (s : σ) (es : List ε) : ∃ es', es'.Sublist es ∧ L.run s es' = some (L.attempt s es) := by
  induction es generalizing s with
  | nil => exact ⟨[], .slnil, rfl⟩
  | cons e es ih =>
    cases h : L.step s e with
    | none =>
      obtain ⟨es', hsub, hrun⟩ := ih s
      exact ⟨es', hsub.cons e, by rw [attempt_skip h]; exact hrun⟩
    | some s' =>
      obtain ⟨es', hsub, hrun⟩ := ih s'
      exact ⟨e :: es', hsub.cons_cons e, by rw [run, h, attempt_step h]; exact hrun⟩

/-- What every step keeps, a script keeps. -/
theorem attempt_inv {I : σ → Prop} (hs : ∀ s e s', I s → L.step s e = some s' → I s') {s : σ} (h : I s)
    (es : List ε) : I (L.attempt s es) := by
  induction es generalizing s with
  | nil => exact h
  | cons e es ih =>
    cases he : L.step s e with
    | none => rw [attempt_skip he]; exact ih h
    | some s' => rw [attempt_step he]; exact ih (hs s e s' h he)

/-- **The rule of exact conditions**: if a step from an invariant state has the
    property `P` and keeps the invariant unless it is a bad one, and lacks `P` if
    it is, then all steps of a run have `P` exactly if none of them is bad. -/
theorem trace_iff {I : σ → Prop} {P : σ × ε × σ → Prop} {Bad : σ → ε → Prop}
    (hs : ∀ s e s', I s → L.step s e = some s' →
      (¬ Bad s e → I s' ∧ P (s, e, s')) ∧ (Bad s e → ¬ P (s, e, s'))) {s : σ} (h : I s) (es : List ε) :
    (∀ x ∈ L.trace s es, P x) ↔ ∀ x ∈ L.trace s es, ¬ Bad x.1 x.2.1 := by
  induction es generalizing s with
  | nil => simp [trace]
  | cons e es ih =>
    rw [trace]
    cases he : L.step s e with
    | none => simp
    | some s' =>
      obtain ⟨hgood, hbad⟩ := hs s e s' h he
      simp only [List.forall_mem_cons]
      by_cases hb : Bad s e
      · exact iff_of_false (fun hp => hbad hb hp.1) fun hn => hn.1 hb
      · obtain ⟨hI, hP⟩ := hgood hb
        rw [ih hI]
        exact and_congr_left fun _ => iff_of_true hP hb

/-- **A system comes to rest**, if it can make a step towards it wherever it is
    not at rest; `I s n` says that at most `n` steps are left. -/
theorem exists_rest {I : σ → ℕ → Prop} {Rest : σ → Prop}
    (hs : ∀ s n, I s n → ¬ Rest s → ∃ e s' n', L.step s e = some s' ∧ I s' n' ∧ n' < n) {s : σ} {n : ℕ}
    (hI : I s n) : ∃ es s' n', L.run s es = some s' ∧ I s' n' ∧ Rest s' := by
  induction n using Nat.strongRecOn generalizing s with
  | ind n ih =>
    by_cases hr : Rest s
    · exact ⟨[], s, n, rfl, hI, hr⟩
    · obtain ⟨e, s', n', he, hI', hlt⟩ := hs s n hI hr
      obtain ⟨es, s'', n'', hrun, hI'', hr'⟩ := ih n' hlt hI'
      exact ⟨e :: es, s'', n'', by rw [run, he]; exact hrun, hI'', hr'⟩

/-- The number of steps that are left bounds the runs. -/
theorem run_length_le {I : σ → ℕ → Prop}
    (hs : ∀ s n e s', I s n → L.step s e = some s' → ∃ n', I s' n' ∧ n' < n) {s s' : σ} {n : ℕ} (hI : I s n)
    {es : List ε} (h : L.run s es = some s') : es.length ≤ n := by
  induction es generalizing s n with
  | nil => exact Nat.zero_le n
  | cons e es ih =>
    obtain ⟨t, ht, hrun⟩ := Option.bind_eq_some_iff.1 h
    obtain ⟨n', hI', hlt⟩ := hs s n e t hI ht
    exact Nat.lt_of_le_of_lt (ih hI' hrun) hlt

/-! ## Bisimulations -/

/-- States that are related by `R` have the same events, which keep them related. -/
def Bisim (L : Lts σ ε) (R : σ → σ → Prop) : Prop :=
  ∀ s t e, R s t → Option.Rel R (L.step s e) (L.step t e)

theorem Bisim.run {R : σ → σ → Prop} (h : L.Bisim R) {s t : σ} (hr : R s t) (es : List ε) :
    Option.Rel R (L.run s es) (L.run t es) := by
  induction es generalizing s t with
  | nil => exact .some hr
  | cons e es ih =>
    have he := h s t e hr
    rw [Lts.run, Lts.run]
    cases hs : L.step s e with
    | none =>
      rw [hs] at he
      cases ht : L.step t e with
      | none => exact .none
      | some t' => rw [ht] at he; cases he
    | some s' =>
      rw [hs] at he
      cases ht : L.step t e with
      | none => rw [ht] at he; cases he
      | some t' =>
        rw [ht] at he
        cases he with
        | some hr' => exact ih hr'

/-- The same can be observed of two states, now and after any events. -/
def SameBehaviour {α : Type w} (L : Lts σ ε) (observe : σ → α) (s t : σ) : Prop :=
  ∀ es, (L.run s es).map observe = (L.run t es).map observe

theorem SameBehaviour.observe {α : Type w} {observe : σ → α} {s t : σ} (h : L.SameBehaviour observe s t) :
    observe s = observe t := Option.some.inj (h [])

/-- **The rule of equivalent states.** -/
theorem Bisim.sameBehaviour {R : σ → σ → Prop} (h : L.Bisim R) {α : Type w} {observe : σ → α}
    (ho : ∀ s t, R s t → observe s = observe t) {s t : σ} (hr : R s t) : L.SameBehaviour observe s t := by
  intro es
  have hrun := h.run hr es
  cases hs : L.run s es with
  | none =>
    rw [hs] at hrun
    cases ht : L.run t es with
    | none => rfl
    | some t' => rw [ht] at hrun; cases hrun
  | some s' =>
    rw [hs] at hrun
    cases ht : L.run t es with
    | none => rw [ht] at hrun; cases hrun
    | some t' =>
      rw [ht] at hrun
      cases hrun with
      | some hr' => exact congrArg some (ho _ _ hr')

/-! ## Simulations -/

/-- `rel` is a forward simulation of `L` by the abstract system with initial
    states `I` and steps `R`. -/
structure Sim (L : Lts σ ε) (I : τ → Prop) (R : τ → τ → Prop) (rel : σ → τ → Prop) : Prop where
  init : ∀ s, L.init s → ∃ t, I t ∧ rel s t
  step : ∀ s e s' t₀ t, I t₀ → Relation.ReflTransGen R t₀ t → rel s t → L.step s e = some s' →
    ∃ t', Relation.ReflTransGen R t t' ∧ rel s' t'

/-- **Simulations preserve reachability.** -/
theorem Sim.reach {I : τ → Prop} {R : τ → τ → Prop} {rel : σ → τ → Prop} (hS : L.Sim I R rel)
    {s : σ} (h : L.Reach s) : ∃ t₀ t, I t₀ ∧ Relation.ReflTransGen R t₀ t ∧ rel s t := by
  induction h with
  | init h =>
    obtain ⟨t, ht, hr⟩ := hS.init _ h
    exact ⟨t, t, ht, .refl, hr⟩
  | step _ he ih =>
    obtain ⟨t₀, t, h0, ht, hr⟩ := ih
    obtain ⟨t', ht', hr'⟩ := hS.step _ _ _ t₀ t h0 ht hr he
    exact ⟨t₀, t', h0, ht.trans ht', hr'⟩

end Lts

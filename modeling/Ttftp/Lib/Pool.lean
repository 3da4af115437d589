/-
  Pools: a base that starts components, which then run beside it on events of their own.

  A component reads and changes nothing but itself, and the base does not look at its
  components; a part that has failed stops the whole pool.  Therefore

  * the base of a run has taken its own events alone, and each component its own ones
    from the state in which it was started (`run_parts`, `run_started`);
  * the order in which the events of different parts interleave makes no difference
    (`run_interleaving`);
  * the events of some components can be left out, and the other parts do not notice
    (`run_without`).
-/
import Ttftp.Lib.Lts

universe u v w z

/-- A base that starts components, and the steps of both. -/
structure Pool (β : Type u) (γ : Type v) (δ : Type w) (ε : Type z) where
  /-- a step of the base, with the components that it starts -/
  base : β → δ → Option (β × List γ)
  component : γ → ε → Option γ
  baseFailed : β → Bool
  failed : γ → Bool
  base_failed : ∀ b d, baseFailed b = true → base b d = none
  component_failed : ∀ x e, failed x = true → component x e = none

inductive PoolEvent (δ : Type w) (ε : Type z) where
  | base (d : δ)
  | component (n : ℕ) (e : ε)

namespace PoolEvent
variable {δ : Type w} {ε : Type z}

def call? : PoolEvent δ ε → Option δ
  | base d => some d
  | component _ _ => none

/-- The event, if it is one of the component `n`. -/
def own? (n : ℕ) : PoolEvent δ ε → Option ε
  | base _ => none
  | component m e => if m = n then some e else none

/-- The events of the base. -/
def calls (es : List (PoolEvent δ ε)) : List δ := es.filterMap call?

/-- The events of the component `n`. -/
def own (n : ℕ) (es : List (PoolEvent δ ε)) : List ε := es.filterMap (own? n)

/-- Whether an event is one of the components `K`. -/
def isOf (K : ℕ → Bool) : PoolEvent δ ε → Bool
  | base _ => false
  | component n _ => K n

variable (d : δ) (n m : ℕ) (e : ε) (es : List (PoolEvent δ ε))

@[simp] theorem calls_base : calls (base d :: es) = d :: calls es := rfl
@[simp] theorem calls_component : calls (component n e :: es) = calls es := rfl
@[simp] theorem own_base : own n (base d :: es) = own n es := rfl

@[simp] theorem own_component : own n (component n e :: es) = e :: own n es :=
  List.filterMap_cons_some (if_pos rfl)

theorem own_component_ne (h : m ≠ n) : own n (component m e :: es) = own n es :=
  List.filterMap_cons_none (if_neg h)

end PoolEvent

namespace Pool
variable {β : Type u} {γ : Type v} {δ : Type w} {ε : Type z} (P : Pool β γ δ ε)

open PoolEvent

structure State (β : Type u) (γ : Type v) where
  base : β
  components : List γ

/-- Some part has failed. -/
def stopped (s : State β γ) : Bool := P.baseFailed s.base || s.components.any P.failed

def step (s : State β γ) (a : PoolEvent δ ε) : Option (State β γ) :=
  if P.stopped s then none
  else match a with
    | .base d => (P.base s.base d).map fun r => ⟨r.1, s.components ++ r.2⟩
    | .component n e => s.components[n]?.bind fun x =>
        (P.component x e).map fun x' => { s with components := s.components.set n x' }

def system (b : β) : Lts (State β γ) (PoolEvent δ ε) where
  init s := s = ⟨b, []⟩
  step := P.step

/-- A component without the others. -/
def alone : Lts γ ε where
  init _ := True
  step := P.component

/-- The base without its components, and those that it has started. -/
def launch (P : Pool β γ δ ε) : β → List δ → Option (β × List γ)
  | b, [] => some (b, [])
  | b, d :: ds => (P.base b d).bind fun r => (P.launch r.1 ds).map fun r' => (r'.1, r.2 ++ r'.2)

variable {P}

/-- What a step of the pool is. -/
theorem step_cases {s t : State β γ} {a : PoolEvent δ ε} (h : P.step s a = some t) : P.stopped s = false ∧
    ((∃ d b new, a = .base d ∧ P.base s.base d = some (b, new) ∧ t = ⟨b, s.components ++ new⟩) ∨
      ∃ n e x x', a = .component n e ∧ s.components[n]? = some x ∧ P.component x e = some x' ∧
        t = { s with components := s.components.set n x' }) := by
  unfold step at h
  split_ifs at h with hstop
  refine ⟨Bool.eq_false_iff.2 hstop, ?_⟩
  cases a with
  | base d =>
    obtain ⟨⟨b, new⟩, hb, rfl⟩ := Option.map_eq_some_iff.1 h
    exact .inl ⟨d, b, new, rfl, hb, rfl⟩
  | component n e =>
    obtain ⟨x, hx, h⟩ := Option.bind_eq_some_iff.1 h
    obtain ⟨x', hx', rfl⟩ := Option.map_eq_some_iff.1 h
    exact .inr ⟨n, e, x, x', rfl, hx, hx', rfl⟩

theorem step_base {s : State β γ} {d : δ} {b : β} {new : List γ} (hs : P.stopped s = false)
    (h : P.base s.base d = some (b, new)) : P.step s (.base d) = some ⟨b, s.components ++ new⟩ := by
  rw [step, hs, if_neg Bool.false_ne_true]
  exact Option.map_eq_some_iff.2 ⟨_, h, rfl⟩

theorem step_component {s : State β γ} {n : ℕ} {e : ε} {x x' : γ} (hs : P.stopped s = false)
    (hx : s.components[n]? = some x) (h : P.component x e = some x') :
    P.step s (.component n e) = some { s with components := s.components.set n x' } := by
  rw [step, hs, if_neg Bool.false_ne_true]
  exact Option.bind_eq_some_iff.2 ⟨x, hx, Option.map_eq_some_iff.2 ⟨x', h, rfl⟩⟩

/-! ## The parts of a run -/

/-- The state of a component, from the one it was started in. -/
theorem run_parts {s t : State β γ} {b₀ : β} {es : List (PoolEvent δ ε)}
    (h : (P.system b₀).run s es = some t) : ∃ new, P.launch s.base (calls es) = some (t.base, new) ∧
      ∀ n, t.components[n]? = (s.components ++ new)[n]?.bind fun x => P.alone.run x (own n es) := by
  induction es generalizing s with
  | nil =>
    cases h
    refine ⟨[], rfl, fun n => ?_⟩
    rw [List.append_nil]
    cases t.components[n]? <;> rfl
  | cons a es ih =>
    obtain ⟨s', hs', hr⟩ := Option.bind_eq_some_iff.1 h
    obtain ⟨new, hlaunch, hown⟩ := ih hr
    obtain ⟨-, ⟨d, b, first, rfl, hb, rfl⟩ | ⟨m, e, x, x', rfl, hx, hx', rfl⟩⟩ := step_cases hs'
    · refine ⟨first ++ new, ?_, fun n => ?_⟩
      · rw [calls_base, launch, hb, Option.bind_some, hlaunch]
        rfl
      · rw [hown, own_base, List.append_assoc]
    · refine ⟨new, hlaunch, fun n => ?_⟩
      have hlt := (List.getElem?_eq_some_iff.1 hx).1
      rw [hown]
      dsimp only
      by_cases hn : m = n
      · subst hn
        have hself : (s.components.set m x' ++ new)[m]? = some x' := by
          rw [List.getElem?_append_left (by rw [List.length_set]; exact hlt), List.getElem?_set_self hlt]
        have hbefore : (s.components ++ new)[m]? = some x := by rw [List.getElem?_append_left hlt, hx]
        have hrun : P.alone.run x (e :: own m es) = P.alone.run x' (own m es) := by
          rw [Lts.run, show P.alone.step x e = some x' from hx', Option.bind_some]
        rw [hself, hbefore, own_component, Option.bind_some, Option.bind_some, hrun]
      · have hother : (s.components.set m x' ++ new)[n]? = (s.components ++ new)[n]? := by
          rw [List.getElem?_append, List.getElem?_append, List.length_set, List.getElem?_set_ne hn]
        rw [hother, own_component_ne _ _ _ _ hn]

/-- A component that has been started in a run, by the base, has since then taken its own
    events alone. -/
theorem run_started {s t : State β γ} {b₀ : β} {es : List (PoolEvent δ ε)} (h : (P.system b₀).run s es = some t)
    {n : ℕ} (hn : s.components.length ≤ n) {x : γ} (hx : t.components[n]? = some x) :
    ∃ es₁ d es₂ u b first x₀, es = es₁ ++ .base d :: es₂ ∧ (P.system b₀).run s es₁ = some u ∧
      P.stopped u = false ∧ P.base u.base d = some (b, first) ∧ u.components.length ≤ n ∧
      first[n - u.components.length]? = some x₀ ∧ P.alone.run x₀ (own n es₂) = some x := by
  induction es generalizing s with
  | nil =>
    cases h
    rw [List.getElem?_eq_none hn] at hx
    cases hx
  | cons a es ih =>
    obtain ⟨s', hs', hr⟩ := Option.bind_eq_some_iff.1 h
    by_cases hn' : s'.components.length ≤ n
    · obtain ⟨es₁, d, es₂, u, b, first, x₀, rfl, hu, hrest⟩ := ih hr hn'
      exact ⟨a :: es₁, d, es₂, u, b, first, x₀, rfl, Option.bind_eq_some_iff.2 ⟨s', hs', hu⟩, hrest⟩
    · obtain ⟨hs, ⟨d, b, first, rfl, hb, rfl⟩ | ⟨m, e, y, y', rfl, -, -, rfl⟩⟩ := step_cases hs'
      · obtain ⟨new, -, hown⟩ := run_parts hr
        dsimp only at hn' hown
        rw [hown, List.getElem?_append_left (Nat.not_le.1 hn'), List.getElem?_append_right hn] at hx
        obtain ⟨x₀, hx₀, hx⟩ := Option.bind_eq_some_iff.1 hx
        exact ⟨[], d, es, s, b, first, x₀, rfl, rfl, hs, hb, hn, hx₀, hx⟩
      · exact absurd hn (by rwa [← @List.length_set _ s.components m y'])

/-- Every component that has been started is still there. -/
theorem length_components {s t : State β γ} {b₀ : β} {es : List (PoolEvent δ ε)}
    (h : (P.system b₀).run s es = some t) {new : List γ} (hnew : P.launch s.base (calls es) = some (t.base, new)) :
    t.components.length = s.components.length + new.length := by
  induction es generalizing s new with
  | nil =>
    cases h
    cases hnew
    rfl
  | cons a es ih =>
    obtain ⟨s', hs', hr⟩ := Option.bind_eq_some_iff.1 h
    obtain ⟨-, ⟨d, b, first, rfl, hb, rfl⟩ | ⟨m, e, x, x', rfl, -, -, rfl⟩⟩ := step_cases hs'
    · rw [calls_base, launch, hb, Option.bind_some] at hnew
      obtain ⟨⟨b', later⟩, hlater, heq⟩ := Option.map_eq_some_iff.1 hnew
      obtain ⟨rfl, rfl⟩ := Prod.mk.inj heq
      rw [ih hr hlater, List.length_append, List.length_append, Nat.add_assoc]
    · rw [ih hr hnew, List.length_set]

/-- What has not been started has not had any events. -/
theorem own_eq_nil {s t : State β γ} {b₀ : β} {es : List (PoolEvent δ ε)} (h : (P.system b₀).run s es = some t)
    {n : ℕ} (hn : t.components.length ≤ n) : own n es = [] := by
  induction es generalizing s with
  | nil => rfl
  | cons a es ih =>
    obtain ⟨s', hs', hr⟩ := Option.bind_eq_some_iff.1 h
    obtain ⟨-, ⟨d, b, new, rfl, -, -⟩ | ⟨m, e, x, x', rfl, hx, -, rfl⟩⟩ := step_cases hs'
    · rw [own_base]
      exact ih hr
    · obtain ⟨new, hlaunch, -⟩ := run_parts hr
      have hlen := length_components hr hlaunch
      have hlt := (List.getElem?_eq_some_iff.1 hx).1
      rw [List.length_set] at hlen
      rw [own_component_ne _ _ _ _ (by omega)]
      exact ih hr

/-! ## Failed parts -/

theorem base_alive {b : β} {ds : List δ} {r : β × List γ} (h : P.launch b ds = some r)
    (ha : P.baseFailed r.1 = false) : P.baseFailed b = false := by
  cases ds with
  | nil =>
    cases h
    exact ha
  | cons d ds =>
    obtain ⟨r', hr', -⟩ := Option.bind_eq_some_iff.1 h
    by_contra hb
    rw [P.base_failed b d (Bool.not_eq_false _ ▸ hb)] at hr'
    cases hr'

theorem component_alive {x y : γ} {es : List ε} (h : P.alone.run x es = some y) (ha : P.failed y = false) :
    P.failed x = false := by
  cases es with
  | nil =>
    cases h
    exact ha
  | cons e es =>
    obtain ⟨x', hx', -⟩ := Option.bind_eq_some_iff.1 h
    by_contra hx
    have hnone : P.alone.step x e = none := P.component_failed x e (Bool.not_eq_false _ ▸ hx)
    rw [hnone] at hx'
    cases hx'

theorem stopped_eq_false {s : State β γ} : P.stopped s = false ↔
    P.baseFailed s.base = false ∧ ∀ (n : ℕ) x, s.components[n]? = some x → P.failed x = false := by
  rw [stopped, Bool.or_eq_false_iff, List.any_eq_false]
  refine and_congr_right fun _ => ⟨fun h n x hx => ?_, fun h x hx => ?_⟩
  · exact Bool.eq_false_iff.2 (h x (List.mem_of_getElem? hx))
  · obtain ⟨n, hn⟩ := List.getElem?_of_mem hx
    exact Bool.eq_false_iff.1 (h n x hn)

/-! ## Interleavings -/

/-- Whether the events of a component come after its start; `k` components have been started. -/
def admissible (P : Pool β γ δ ε) : β → ℕ → List (PoolEvent δ ε) → Bool
  | _, _, [] => true
  | b, k, .base d :: es => (P.base b d).all fun r => P.admissible r.1 (k + r.2.length) es
  | b, k, .component n _ :: es => decide (n < k) && P.admissible b k es

/-- The parts that `es` leads to, if none of them fails. -/
structure Survives (P : Pool β γ δ ε) (s : State β γ) (es : List (PoolEvent δ ε)) (b : β) (new : List γ) : Prop where
  launch : P.launch s.base (calls es) = some (b, new)
  base : P.baseFailed b = false
  components : ∀ (n : ℕ) x, (s.components ++ new)[n]? = some x →
    ∃ y, P.alone.run x (own n es) = some y ∧ P.failed y = false

theorem Survives.alive {s : State β γ} {es : List (PoolEvent δ ε)} {b : β} {new : List γ}
    (h : P.Survives s es b new) : P.stopped s = false := by
  refine stopped_eq_false.2 ⟨base_alive h.launch h.base, fun n x hx => ?_⟩
  have hx' : (s.components ++ new)[n]? = some x := by
    rw [List.getElem?_append_left (List.getElem?_eq_some_iff.1 hx).1, hx]
  obtain ⟨y, hy, ha⟩ := h.components n x hx'
  exact component_alive hy ha

/-- Parts that do not fail make a run of the pool. -/
theorem run_of_parts {s : State β γ} {b₀ b : β} {es : List (PoolEvent δ ε)} {new : List γ}
    (h : P.Survives s es b new) (ha : P.admissible s.base s.components.length es = true) :
    ∃ t, (P.system b₀).run s es = some t := by
  induction es generalizing s new with
  | nil => exact ⟨s, rfl⟩
  | cons a es ih =>
    have hs := h.alive
    cases a with
    | base d =>
      obtain ⟨⟨b', first⟩, hb, hlaunch⟩ := Option.bind_eq_some_iff.1 h.launch
      obtain ⟨⟨b'', later⟩, hlater, heq⟩ := Option.map_eq_some_iff.1 hlaunch
      obtain ⟨rfl, rfl⟩ := Prod.mk.inj heq
      have hrest : P.Survives ⟨b', s.components ++ first⟩ es b'' later := by
        refine ⟨hlater, h.base, fun n x hx => ?_⟩
        rw [List.append_assoc] at hx
        exact h.components n x hx
      have hadm : P.admissible b' (s.components ++ first).length es = true := by
        rw [admissible, hb] at ha
        rw [List.length_append]
        exact ha
      obtain ⟨t, ht⟩ := ih hrest hadm
      exact ⟨t, Option.bind_eq_some_iff.2 ⟨_, step_base hs hb, ht⟩⟩
    | component n e =>
      obtain ⟨hlt, hadm⟩ := Bool.and_eq_true_iff.1 ha
      have hlt := of_decide_eq_true hlt
      have hx : s.components[n]? = some s.components[n] := List.getElem?_eq_getElem hlt
      have hall : (s.components ++ new)[n]? = some s.components[n] := by rw [List.getElem?_append_left hlt, hx]
      obtain ⟨y, hy, hya⟩ := h.components n _ hall
      rw [own_component] at hy
      obtain ⟨x', hx', hy⟩ := Option.bind_eq_some_iff.1 hy
      have hrest : P.Survives { s with components := s.components.set n x' } es b new := by
        refine ⟨h.launch, h.base, fun m x hm => ?_⟩
        by_cases hn : n = m
        · subst hn
          rw [List.getElem?_append_left (by rw [List.length_set]; exact hlt), List.getElem?_set_self hlt,
            Option.some.injEq] at hm
          subst hm
          exact ⟨y, hy, hya⟩
        · rw [List.getElem?_append, List.length_set, List.getElem?_set_ne hn, ← List.getElem?_append] at hm
          have hm' := h.components m x hm
          rwa [own_component_ne _ _ _ _ hn] at hm'
      obtain ⟨t, ht⟩ := ih hrest (by rw [List.length_set]; exact hadm)
      exact ⟨t, Option.bind_eq_some_iff.2 ⟨_, step_component hs hx hx', ht⟩⟩

/-- The parts of a run that does not stop the pool. -/
theorem survives_of_run {s t : State β γ} {b₀ : β} {es : List (PoolEvent δ ε)}
    (h : (P.system b₀).run s es = some t) (ht : P.stopped t = false) : ∃ new, P.Survives s es t.base new := by
  obtain ⟨new, hlaunch, hown⟩ := run_parts h
  obtain ⟨hb, hc⟩ := stopped_eq_false.1 ht
  refine ⟨new, hlaunch, hb, fun n x hx => ?_⟩
  have hn := hown n
  rw [hx, Option.bind_some] at hn
  have hlt : n < t.components.length := by
    rw [length_components h hlaunch, ← List.length_append]
    exact (List.getElem?_eq_some_iff.1 hx).1
  rw [List.getElem?_eq_getElem hlt] at hn
  exact ⟨_, hn.symm, hc n _ (List.getElem?_eq_getElem hlt)⟩

/-- **The interleaving makes no difference**: a run that does not stop the pool can take
    the events of its parts in any other order, with the same result. -/
theorem run_interleaving {s t : State β γ} {b₀ : β} {es es' : List (PoolEvent δ ε)}
    (h : (P.system b₀).run s es = some t) (ht : P.stopped t = false) (hcalls : calls es' = calls es)
    (hown : ∀ n, own n es' = own n es) (ha : P.admissible s.base s.components.length es' = true) :
    (P.system b₀).run s es' = some t := by
  obtain ⟨new, hs⟩ := survives_of_run h ht
  have hs' : P.Survives s es' t.base new := by
    refine ⟨by rw [hcalls]; exact hs.launch, hs.base, fun n x hx => ?_⟩
    rw [hown]
    exact hs.components n x hx
  obtain ⟨t', ht'⟩ := @run_of_parts _ _ _ _ P _ b₀ _ _ _ hs' ha
  obtain ⟨new₁, hlaunch₁, hparts₁⟩ := run_parts h
  obtain ⟨new₂, hlaunch₂, hparts₂⟩ := run_parts ht'
  rw [hcalls, hlaunch₁] at hlaunch₂
  obtain ⟨hbase, rfl⟩ := Prod.mk.inj (Option.some.inj hlaunch₂)
  have hcomp : t'.components = t.components := List.ext_getElem? fun n => by rw [hparts₂, hparts₁, hown]
  rw [ht']
  obtain ⟨b', c'⟩ := t'
  obtain ⟨b, c⟩ := t
  simp only at hbase hcomp
  rw [hbase, hcomp]

/-! ## Runs without some components -/

/-- The same parts, but for the components `K`, which are as they were started. -/
structure Without (P : Pool β γ δ ε) (K : ℕ → Bool) (s s' : State β γ) : Prop where
  base : s'.base = s.base
  length : s'.components.length = s.components.length
  others : ∀ n : ℕ, K n = false → s'.components[n]? = s.components[n]?
  started : ∀ (n : ℕ) x', s'.components[n]? = some x' → ∃ x es, s.components[n]? = some x ∧ P.alone.run x' es = some x

namespace Without
variable {K : ℕ → Bool} {s s' t : State β γ}

theorem refl (s : State β γ) : P.Without K s s := ⟨rfl, rfl, fun _ _ => rfl, fun _ x hx => ⟨x, [], hx, rfl⟩⟩

theorem alive (h : P.Without K s s') (hs : P.stopped s = false) : P.stopped s' = false := by
  obtain ⟨hb, hc⟩ := stopped_eq_false.1 hs
  refine stopped_eq_false.2 ⟨by rw [h.base]; exact hb, fun n x' hx' => ?_⟩
  obtain ⟨x, es, hx, hr⟩ := h.started n x' hx'
  exact component_alive hr (hc n x hx)

/-- An event of the others is taken on both sides, one of `K` on the one side only. -/
theorem step (h : P.Without K s s') {a : PoolEvent δ ε} (ha : P.step s a = some t) :
    if a.isOf K then P.Without K t s' else ∃ t', P.step s' a = some t' ∧ P.Without K t t' := by
  obtain ⟨hs, ⟨d, b, new, rfl, hb, rfl⟩ | ⟨n, e, x, x', rfl, hx, hx', rfl⟩⟩ := step_cases ha
  · refine ⟨_, step_base (h.alive hs) (by rw [h.base]; exact hb), rfl, ?_, fun m hm => ?_, fun m y hy => ?_⟩
    · simp only [List.length_append, h.length]
    · simp only [List.getElem?_append, h.length, h.others m hm]
    · simp only [List.getElem?_append, h.length] at hy ⊢
      split_ifs at hy ⊢
      · exact h.started m y hy
      · exact ⟨y, [], hy, rfl⟩
  · have hlt := (List.getElem?_eq_some_iff.1 hx).1
    have hset : ∀ m, n ≠ m → (s.components.set n x')[m]? = s.components[m]? := fun m hm =>
      List.getElem?_set_ne hm
    rw [isOf]
    split_ifs with hK
    · refine ⟨h.base, by simp only [List.length_set, h.length], fun m hm => ?_, fun m y hy => ?_⟩
      · have hne : n ≠ m := fun heq => by rw [heq, hm] at hK; cases hK
        rw [h.others m hm]
        exact (hset m hne).symm
      · obtain ⟨z, es, hz, hr⟩ := h.started m y hy
        by_cases hn : n = m
        · subst hn
          rw [hx, Option.some.injEq] at hz
          subst hz
          refine ⟨x', es ++ [e], List.getElem?_set_self hlt, ?_⟩
          rw [Lts.run_append, hr, Option.bind_some, Lts.run]
          exact Option.bind_eq_some_iff.2 ⟨x', hx', rfl⟩
        · exact ⟨z, es, by rw [← hz]; exact hset m hn, hr⟩
    · have hK : K n = false := Bool.eq_false_iff.2 hK
      have hx₂ : s'.components[n]? = some x := by rw [h.others n hK, hx]
      have hlt' : n < s'.components.length := by rw [h.length]; exact hlt
      refine ⟨_, step_component (h.alive hs) hx₂ hx', h.base, ?_, fun m hm => ?_, fun m y hy => ?_⟩
      · simp only [List.length_set, h.length]
      · by_cases hn : n = m
        · subst hn
          simp only [List.getElem?_set_self hlt', List.getElem?_set_self hlt]
        · simp only [List.getElem?_set_ne hn, h.others m hm]
      · by_cases hn : n = m
        · subst hn
          simp only [List.getElem?_set_self hlt', Option.some.injEq] at hy
          exact ⟨x', [], List.getElem?_set_self hlt, by rw [hy]; rfl⟩
        · simp only [List.getElem?_set_ne hn] at hy ⊢
          exact h.started m y hy

end Without

/-- **The others do not notice**: without the events of the components `K`, a run leads to
    the same base and the same other components. -/
theorem run_without (K : ℕ → Bool) {s t : State β γ} {b₀ : β} {es : List (PoolEvent δ ε)}
    (h : (P.system b₀).run s es = some t) : ∃ t', (P.system b₀).run s (es.filter fun a => !a.isOf K) = some t' ∧
      P.Without K t t' := by
  have key : ∀ {s s' : State β γ} {es : List (PoolEvent δ ε)}, P.Without K s s' →
      (P.system b₀).run s es = some t →
        ∃ t', (P.system b₀).run s' (es.filter fun a => !a.isOf K) = some t' ∧ P.Without K t t' := by
    intro s s' es hw h
    induction es generalizing s s' with
    | nil =>
      cases h
      exact ⟨s', rfl, hw⟩
    | cons a es ih =>
      obtain ⟨u, hu, hr⟩ := Option.bind_eq_some_iff.1 h
      have hstep := hw.step hu
      split_ifs at hstep with ha
      · rw [List.filter_cons_of_neg (by simp [ha])]
        exact ih hstep hr
      · obtain ⟨u', hu', hw'⟩ := hstep
        obtain ⟨t', ht', hw''⟩ := ih hw' hr
        rw [List.filter_cons_of_pos (by simp [ha])]
        exact ⟨t', Option.bind_eq_some_iff.2 ⟨u', hu', ht'⟩, hw''⟩
  exact key (.refl s) h

end Pool

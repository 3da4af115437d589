/-
  Two parties side by side.

  An event of a party may depend on the state of the other one, such as the arrival of
  what the other one has sent.  If what is allowed once stays allowed, all that has
  happened in a run is allowed at its end, and the steps of a party may use it (`run_inv`).
-/
import Ttftp.Lib.Lts
import Mathlib.Data.Sum.Basic

structure Parties (σ τ α β : Type) where
  left : Lts σ α
  right : Lts τ β
  allowsLeft : σ → τ → α → Bool
  allowsRight : σ → τ → β → Bool

namespace Parties
variable {σ τ α β : Type} (P : Parties σ τ α β)

def step (x : σ × τ) : α ⊕ β → Option (σ × τ)
  | .inl a => if P.allowsLeft x.1 x.2 a then (P.left.step x.1 a).map fun s => (s, x.2) else none
  | .inr b => if P.allowsRight x.1 x.2 b then (P.right.step x.2 b).map fun t => (x.1, t) else none

def system : Lts (σ × τ) (α ⊕ β) where
  init x := P.left.init x.1 ∧ P.right.init x.2
  step := P.step

/-- The events of the right party. -/
def rights (es : List (α ⊕ β)) : List β := es.filterMap Sum.getRight?

variable {P} {s s' : σ} {t t' : τ} {es : List (α ⊕ β)}

theorem rights_append (es es' : List (α ⊕ β)) : rights (es ++ es') = rights es ++ rights es' :=
  List.filterMap_append

/-- A step is one of the left party, or one of the right one. -/
theorem step_cases {e : α ⊕ β} (h : P.step (s, t) e = some (s', t')) :
    (∃ a, e = .inl a ∧ P.allowsLeft s t a = true ∧ P.left.step s a = some s' ∧ t' = t) ∨
      ∃ b, e = .inr b ∧ P.allowsRight s t b = true ∧ P.right.step t b = some t' ∧ s' = s := by
  cases e with
  | inl a =>
    obtain ⟨ha, h⟩ := Option.ite_none_right_eq_some.1 h
    obtain ⟨u, hu, heq⟩ := Option.map_eq_some_iff.1 h
    obtain ⟨rfl, rfl⟩ := Prod.mk.inj heq
    exact .inl ⟨a, rfl, ha, hu, rfl⟩
  | inr b =>
    obtain ⟨hb, h⟩ := Option.ite_none_right_eq_some.1 h
    obtain ⟨u, hu, heq⟩ := Option.map_eq_some_iff.1 h
    obtain ⟨rfl, rfl⟩ := Prod.mk.inj heq
    exact .inr ⟨b, rfl, hb, hu, rfl⟩

/-- A run of both parties is a run of the right one. -/
theorem run_right (h : P.system.run (s, t) es = some (s', t')) : P.right.run t (rights es) = some t' := by
  induction es generalizing s t with
  | nil =>
    cases h
    rfl
  | cons e es ih =>
    obtain ⟨⟨u, v⟩, he, hr⟩ := Option.bind_eq_some_iff.1 h
    rcases step_cases he with ⟨a, rfl, -, -, rfl⟩ | ⟨b, rfl, -, hb, rfl⟩
    · exact ih hr
    · exact Option.bind_eq_some_iff.2 ⟨v, hb, ih hr⟩

/-- **The rule of invariants** for the left party: each of its steps may use what has happened
    to the right one.  All of that is still allowed, as no step withdraws anything. -/
theorem run_inv (I : σ → Prop) {s₀ : σ} {t₀ : τ} (h0 : I s₀)
    (hs : ∀ es s t a s', P.system.run (s₀, t₀) es = some (s, t) → (∀ b ∈ rights es, P.allowsRight s t b = true) →
      I s → P.allowsLeft s t a = true → P.left.step s a = some s' →
        I s' ∧ ∀ b, P.allowsRight s t b = true → P.allowsRight s' t b = true)
    (hright : ∀ es s t b' t' b, P.system.run (s₀, t₀) es = some (s, t) → P.right.step t b' = some t' →
      P.allowsRight s t b = true → P.allowsRight s t' b = true)
    (h : P.system.run (s₀, t₀) es = some (s, t)) : I s ∧ ∀ b ∈ rights es, P.allowsRight s t b = true := by
  induction es using List.reverseRecOn generalizing s t with
  | nil =>
    cases h
    exact ⟨h0, fun b hb => by cases hb⟩
  | append_singleton es e ih =>
    rw [Lts.run_append] at h
    obtain ⟨⟨u, v⟩, hu, hr⟩ := Option.bind_eq_some_iff.1 h
    obtain ⟨⟨u', v'⟩, he, hr⟩ := Option.bind_eq_some_iff.1 hr
    cases hr
    obtain ⟨hi, hallowed⟩ := ih hu
    rw [rights_append]
    rcases step_cases he with ⟨a, rfl, hallow, ha, rfl⟩ | ⟨b', rfl, hallow, hb', rfl⟩
    · obtain ⟨hi', hkeep⟩ := hs es _ _ a _ hu hallowed hi hallow ha
      refine ⟨hi', fun b hb => ?_⟩
      rcases List.mem_append.1 hb with hb | hb
      · exact hkeep b (hallowed b hb)
      · cases hb
    · refine ⟨hi, fun b hb => ?_⟩
      rcases List.mem_append.1 hb with hb | hb
      · exact hright es _ _ _ _ _ hu hb' (hallowed b hb)
      · rw [List.mem_singleton.1 hb]
        exact hright es _ _ _ _ _ hu hb' hallow

end Parties

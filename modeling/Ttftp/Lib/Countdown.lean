/-
  Systems that have a fixed list of messages left to send.

  `L.Sends A out s l` says that if only steps in `A` follow the state `s`, the messages of
  `l` are put out, in their order and nothing else: a run has put out a first part of
  them, and all of them if it cannot be continued, and the lengths of the runs are
  bounded.  `Sends.of_left` is the rule to prove it, by what is left to send in each
  state; by `Sends.exists_whole` there is a run that puts out the whole list.
-/
import Ttftp.Lib.Lts

universe u v w

namespace Lts
variable {σ : Type u} {ε : Type v} {α : Type w} {L : Lts σ ε} {A : σ × ε × σ → Prop} {out : σ → List α}
  {s t u : σ}

/-- A run of steps in `A`. -/
structure RunIn (L : Lts σ ε) (A : σ × ε × σ → Prop) (s : σ) (es : List ε) (t : σ) : Prop where
  run : L.run s es = some t
  steps : ∀ x ∈ L.trace s es, A x

/-- No step in `A` is left. -/
def Rests (L : Lts σ ε) (A : σ × ε × σ → Prop) (s : σ) : Prop := ∀ e t, L.step s e = some t → ¬ A (s, e, t)

structure Sends (L : Lts σ ε) (A : σ × ε × σ → Prop) (out : σ → List α) (s : σ) (l : List α) : Prop where
  bounded : ∃ n, ∀ es t, L.RunIn A s es t → es.length ≤ n
  part : ∀ es t, L.RunIn A s es t → out s <+: out t ∧ out t <+: out s ++ l
  whole : ∀ es t, L.RunIn A s es t → L.Rests A t → out t = out s ++ l

namespace RunIn
variable {es es' : List ε} {e : ε}

theorem nil (s : σ) : L.RunIn A s [] s := ⟨rfl, fun _ hx => absurd hx List.not_mem_nil⟩

theorem cons (h : L.step s e = some t) (hA : A (s, e, t)) (hr : L.RunIn A t es u) : L.RunIn A s (e :: es) u := by
  constructor
  · rw [Lts.run, h]
    exact hr.run
  · intro x hx
    rw [trace, h] at hx
    rcases List.mem_cons.1 hx with rfl | hx
    · exact hA
    · exact hr.steps x hx

theorem single (h : L.step s e = some t) (hA : A (s, e, t)) : L.RunIn A s [e] t := cons h hA (nil t)

theorem uncons (h : L.RunIn A s (e :: es) u) :
    ∃ t, L.step s e = some t ∧ A (s, e, t) ∧ L.RunIn A t es u := by
  obtain ⟨t, ht, hr⟩ := Option.bind_eq_some_iff.1 h.run
  have hsteps := h.steps
  rw [trace, ht] at hsteps
  exact ⟨t, ht, hsteps _ List.mem_cons_self, hr, fun x hx => hsteps x (List.mem_cons_of_mem _ hx)⟩

theorem trans (h : L.RunIn A s es t) (h' : L.RunIn A t es' u) : L.RunIn A s (es ++ es') u := by
  induction es generalizing s with
  | nil =>
    cases h.run
    exact h'
  | cons e es ih =>
    obtain ⟨v, hv, hA, hr⟩ := h.uncons
    exact cons hv hA (ih hr)

end RunIn

namespace Sends
variable {l : List α}

/-- **The rule**: `left` is what is left to send, and `μ` bounds the steps that are left. -/
theorem of_left {I : σ → Prop} {left : σ → List α} {μ : σ → ℕ}
    (hs : ∀ s e t, I s → L.step s e = some t → A (s, e, t) →
      I t ∧ μ t < μ s ∧ ∃ w, out t = out s ++ w ∧ left s = w ++ left t)
    (hrest : ∀ s, I s → L.Rests A s → left s = []) (h : I s) : L.Sends A out s (left s) := by
  have key : ∀ es s t, I s → L.RunIn A s es t →
      I t ∧ es.length + μ t ≤ μ s ∧ ∃ w, out t = out s ++ w ∧ left s = w ++ left t := by
    intro es
    induction es with
    | nil =>
      intro s t hI hr
      cases hr.run
      exact ⟨hI, Nat.le_of_eq (Nat.zero_add _), [], (List.append_nil _).symm, rfl⟩
    | cons e es ih =>
      intro s t hI hr
      obtain ⟨v, hv, hA, hr⟩ := hr.uncons
      obtain ⟨hIv, hlt, w, hw, hl⟩ := hs s e v hI hv hA
      obtain ⟨hIt, hle, w', hw', hl'⟩ := ih v t hIv hr
      refine ⟨hIt, ?_, w ++ w', by rw [hw', hw, List.append_assoc], by rw [hl, hl', List.append_assoc]⟩
      rw [List.length_cons]
      omega
  refine ⟨⟨μ s, fun es t hr => ?_⟩, fun es t hr => ?_, fun es t hr hrests => ?_⟩
  · have := (key es s t h hr).2.1
    omega
  · obtain ⟨-, -, w, hw, hl⟩ := key es s t h hr
    rw [hw, hl]
    exact ⟨List.prefix_append _ _, List.prefix_append_right_inj _ |>.2 (List.prefix_append _ _)⟩
  · obtain ⟨hI, -, w, hw, hl⟩ := key es s t h hr
    rw [hw, hl, hrest t hI hrests, List.append_nil]

/-- A run to the end. -/
theorem exists_whole (h : L.Sends A out s l) : ∃ es t, L.RunIn A s es t ∧ out t = out s ++ l := by
  obtain ⟨n, hn⟩ := h.bounded
  -- a run that can be continued is, as long as the bound admits it
  have key : ∀ k es t, L.RunIn A s es t → es.length + k = n → ∃ es t, L.RunIn A s es t ∧ L.Rests A t := by
    intro k
    induction k with
    | zero =>
      intro es t hr hlen
      refine ⟨es, t, hr, fun e u hu hA => ?_⟩
      have := hn _ _ (hr.trans (.single hu hA))
      rw [List.length_append, List.length_singleton] at this
      omega
    | succ k ih =>
      intro es t hr hlen
      by_cases hrests : L.Rests A t
      · exact ⟨es, t, hr, hrests⟩
      · obtain ⟨e, u, hu, hA⟩ : ∃ e u, L.step t e = some u ∧ A (t, e, u) := by
          by_contra hno
          exact hrests fun e u hu hA => hno ⟨e, u, hu, hA⟩
        refine ih _ u (hr.trans (.single hu hA)) ?_
        rw [List.length_append, List.length_singleton]
        omega
  obtain ⟨es, t, hr, hrests⟩ := key n [] s (.nil s) (Nat.zero_add n)
  exact ⟨es, t, hr, h.whole es t hr hrests⟩

end Sends

end Lts

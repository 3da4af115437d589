/-
  Lists that register the elements of a changing set, each once.

  `Registers l S` is kept by pushing a new element (`Registers.push`) and by removing all
  occurrences of one (`Registers.remove`).
-/
import Mathlib.Data.List.Nodup
import Mathlib.Data.Set.Insert

variable {α : Type*}

/-- The list holds each element of the set once, and nothing else. -/
structure Registers (l : List α) (S : Set α) : Prop where
  nodup : l.Nodup
  mem : ∀ a, a ∈ l ↔ a ∈ S

namespace Registers
variable {l : List α} {S T : Set α}

theorem nil : Registers ([] : List α) ∅ := ⟨List.nodup_nil, fun a => by simp⟩

theorem congr (h : Registers l S) (hST : ∀ a, a ∈ S ↔ a ∈ T) : Registers l T :=
  ⟨h.nodup, fun a => (h.mem a).trans (hST a)⟩

theorem push (h : Registers l S) {a : α} (ha : a ∉ S) : Registers (l ++ [a]) (insert a S) := by
  constructor
  · rw [List.nodup_append]
    refine ⟨h.nodup, List.nodup_singleton a, fun b hb c hc => ?_⟩
    rintro rfl
    rw [List.mem_singleton.1 hc] at hb
    exact ha ((h.mem a).1 hb)
  · intro b
    rw [List.mem_append, List.mem_singleton, h.mem, Set.mem_insert_iff, or_comm]

theorem remove [DecidableEq α] (h : Registers l S) (a : α) : Registers (l.filter (· ≠ a)) (S \ {a}) := by
  refine ⟨h.nodup.filter _, fun b => ?_⟩
  rw [List.mem_filter, h.mem, decide_eq_true_eq]
  rfl

end Registers

/-
  A file that several writers append to.

  The log lists the chunks in the order in which they have reached the file, each
  with its writer.  `part i` is what writer `i` has appended; nothing is ever taken
  back, so that the file is the part of one writer only if there is nothing else
  (`content_eq_part_iff`).
-/
import Mathlib.Data.Nat.Notation
import Mathlib.Tactic.Common

universe u v

namespace Append
variable {ι : Type u} {α : Type v}

/-- The file, if it held `prior` before. -/
def content (prior : List α) (log : List (ι × List α)) : List α := prior ++ log.flatMap (·.2)

variable [DecidableEq ι]

/-- What a writer has appended. -/
def part (i : ι) (log : List (ι × List α)) : List α := (log.filter (·.1 = i)).flatMap (·.2)

variable {i j : ι} {c : List α} {log : List (ι × List α)} {prior : List α}

theorem part_cons_self (i : ι) (c : List α) (log : List (ι × List α)) :
    part i ((i, c) :: log) = c ++ part i log := by
  simp [part]

theorem part_cons_of_ne (h : j ≠ i) (c : List α) (log : List (ι × List α)) :
    part i ((j, c) :: log) = part i log := by
  simp [part, h]

theorem part_append (i : ι) (log log' : List (ι × List α)) :
    part i (log ++ log') = part i log ++ part i log' := by
  simp [part]

/-- The chunk of a writer is appended to its part. -/
theorem part_chunk_self (i : ι) (c : List α) (log : List (ι × List α)) :
    part i (log ++ [(i, c)]) = part i log ++ c := by
  rw [part_append, part_cons_self]
  exact congrArg _ (List.append_nil c)

theorem part_chunk_of_ne (h : j ≠ i) (c : List α) (log : List (ι × List α)) :
    part i (log ++ [(j, c)]) = part i log := by
  rw [part_append, part_cons_of_ne h]
  exact List.append_nil _

/-- A part is not longer than the log. -/
theorem length_part_le (i : ι) (log : List (ι × List α)) :
    (part i log).length ≤ (log.flatMap (·.2)).length := by
  induction log with
  | nil => exact Nat.le_refl _
  | cons x log ih =>
    obtain ⟨j, c⟩ := x
    simp only [List.flatMap_cons, List.length_append]
    by_cases h : j = i
    · subst h
      rw [part_cons_self, List.length_append]
      omega
    · rw [part_cons_of_ne h]
      omega

/-- Two parts do not overlap. -/
theorem length_part_add_le (h : i ≠ j) (log : List (ι × List α)) :
    (part i log).length + (part j log).length ≤ (log.flatMap (·.2)).length := by
  induction log with
  | nil => exact Nat.le_refl _
  | cons x log ih =>
    obtain ⟨k, c⟩ := x
    simp only [List.flatMap_cons, List.length_append]
    by_cases hi : k = i
    · subst hi
      rw [part_cons_self, part_cons_of_ne h, List.length_append]
      omega
    · by_cases hj : k = j
      · subst hj
        rw [part_cons_self, part_cons_of_ne hi, List.length_append]
        omega
      · rw [part_cons_of_ne hi, part_cons_of_ne hj]
        omega

/-- A writer that is alone has written the whole log. -/
theorem flatMap_eq_part (h : ∀ i, i ≠ j → part i log = []) : log.flatMap (·.2) = part j log := by
  induction log with
  | nil => rfl
  | cons x log ih =>
    obtain ⟨k, c⟩ := x
    rw [List.flatMap_cons]
    by_cases hk : k = j
    · subst hk
      rw [part_cons_self, ih fun i hi => by rw [← h i hi, part_cons_of_ne hi.symm]]
    · have hc := h k hk
      rw [part_cons_self, List.append_eq_nil_iff] at hc
      rw [part_cons_of_ne hk, hc.1, List.nil_append]
      refine ih fun i hi => ?_
      by_cases hik : k = i
      · exact hik ▸ hc.2
      · rw [← h i hi, part_cons_of_ne hik]

/-- **When the file is the part of one writer.** -/
theorem content_eq_part_iff :
    content prior log = part j log ↔ prior = [] ∧ ∀ i, i ≠ j → part i log = [] := by
  constructor
  · intro h
    have hlen := congrArg List.length h
    rw [content, List.length_append] at hlen
    have hj := length_part_le j log
    refine ⟨List.length_eq_zero_iff.1 (by omega), fun i hi => List.length_eq_zero_iff.1 ?_⟩
    have := length_part_add_le hi log
    omega
  · rintro ⟨rfl, h⟩
    exact flatMap_eq_part h

end Append

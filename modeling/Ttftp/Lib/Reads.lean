/-
  Programs that read a memory, with the indices they read at.

  A `Reads α` is a result together with the indices of the bytes that were read on the way
  to it, in order.  `byteAt`, `ntohsAt`, `cstrAt` and `bytesAt` read a memory; `Within n`
  says that no index above `n` was read, and follows the structure of a program
  (`within_pure`, `within_bind`, `within_ite`).
-/
import Ttftp.Lib.Bytes

/-- A result, and the indices that were read. -/
structure Reads (α : Type) where
  value : α
  indices : List ℕ

namespace Reads

variable {α β : Type}

instance : Monad Reads where
  pure a := ⟨a, []⟩
  bind x f := ⟨(f x.value).value, x.indices ++ (f x.value).indices⟩

@[simp] theorem pure_value (a : α) : (pure a : Reads α).value = a := rfl

@[simp] theorem bind_value (x : Reads α) (f : α → Reads β) : (x >>= f).value = (f x.value).value := rfl

theorem ite_value (c : Prop) [Decidable c] (x y : Reads α) :
    (if c then x else y).value = if c then x.value else y.value := apply_ite ..

/-- No index above `n` was read. -/
def Within (n : ℕ) (x : Reads α) : Prop := ∀ i ∈ x.indices, i ≤ n

instance (n : ℕ) (x : Reads α) : Decidable (x.Within n) := inferInstanceAs (Decidable (∀ i ∈ x.indices, i ≤ n))

@[simp] theorem within_pure (n : ℕ) (a : α) : (pure a : Reads α).Within n := fun _ h => (List.not_mem_nil h).elim

@[simp] theorem within_bind {n : ℕ} {x : Reads α} {f : α → Reads β} :
    (x >>= f).Within n ↔ x.Within n ∧ (f x.value).Within n := List.forall_mem_append

theorem within_ite {n : ℕ} {c : Prop} [Decidable c] {x y : Reads α} :
    (if c then x else y).Within n ↔ (c → x.Within n) ∧ (¬ c → y.Within n) := by
  split_ifs with h <;> simp [h]

/-! ## Reading a memory -/

variable (m : List UInt8)

/-- One byte; what lies behind `m` reads as NUL. -/
def byteAt (i : ℕ) : Reads UInt8 := ⟨m.getD i 0, [i]⟩

@[simp] theorem byteAt_value (i : ℕ) : (byteAt m i).value = m.getD i 0 := rfl

@[simp] theorem within_byteAt {n i : ℕ} : (byteAt m i).Within n ↔ i ≤ n := List.forall_mem_singleton

/-- A number in network byte order. -/
def ntohsAt (i : ℕ) : Reads UInt16 := do
  let high ← byteAt m i
  let low ← byteAt m (i + 1)
  pure (UInt16.ofNat (high.toNat * 256 + low.toNat))

@[simp] theorem ntohsAt_value (i : ℕ) : (ntohsAt m i).value = Bytes.ntohs m i := rfl

@[simp] theorem within_ntohsAt {n i : ℕ} : (ntohsAt m i).Within n ↔ i + 1 ≤ n := by
  simp only [ntohsAt, within_bind, within_byteAt, within_pure, and_true]
  omega

/-- The bytes of `m` up to a NUL, the first of them at index `i`. -/
def scan : List UInt8 → ℕ → Reads Bytes
  | [], i => ⟨[], [i]⟩
  | b :: m, i => if b = 0 then ⟨[], [i]⟩ else ⟨b :: (scan m (i + 1)).value, i :: (scan m (i + 1)).indices⟩

/-- The NUL-terminated string at index `i`. -/
def cstrAt (i : ℕ) : Reads Bytes := scan (m.drop i) i

theorem scan_value : ∀ (m : List UInt8) (i : ℕ), (scan m i).value = m.takeWhile (· ≠ 0)
  | [], _ => rfl
  | b :: m, i => by
    rw [scan, List.takeWhile_cons]
    by_cases h : b = 0
    · simp [h]
    · simp [h, scan_value m]

theorem within_scan {n : ℕ} : ∀ (m : List UInt8) (i : ℕ),
    (scan m i).Within n ↔ i + (m.takeWhile (· ≠ 0)).length ≤ n
  | [], _ => List.forall_mem_singleton
  | b :: m, i => by
    rw [scan, List.takeWhile_cons]
    by_cases h : b = 0
    · simp [h, Within]
    · have ih := within_scan (n := n) m (i + 1)
      simp only [Within] at ih ⊢
      simp [h, ih]
      omega

@[simp] theorem cstrAt_value (i : ℕ) : (cstrAt m i).value = Bytes.cstr m i := scan_value _ _

@[simp] theorem within_cstrAt {n i : ℕ} : (cstrAt m i).Within n ↔ i + (Bytes.cstr m i).length ≤ n := within_scan _ _

/-- The bytes from index `i` on, before index `j`. -/
def bytesAt (i j : ℕ) : Reads Bytes := ⟨(m.take j).drop i, List.range' i (j - i)⟩

@[simp] theorem bytesAt_value (i j : ℕ) : (bytesAt m i j).value = (m.take j).drop i := rfl

theorem within_bytesAt (i j : ℕ) : (bytesAt m i j).Within j := by
  intro k hk
  obtain ⟨hle, hlt⟩ := List.mem_range'_1.1 hk
  omega

end Reads

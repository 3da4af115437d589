/-
  Byte strings: numbers in network order, NUL-terminated strings inside a
  buffer, and the decimal conversions of the C library.

  * `memory s past` is what the data pointer of a string `s` points to: the
    bytes of `s`, the terminating NUL, and then whatever happens to follow;
  * `cstr m i` is the NUL-terminated string that starts at index `i` of `m`;
  * `decimal` prints a number, `atoi` reads one (blanks and a sign skipped, the
    digits up to the first other character, saturation to 64 bits, truncation
    to 32 bits); `atoi_decimal` is their composition.
-/
import Mathlib.Algebra.Group.Nat.Defs
import Mathlib.Algebra.Ring.Int.Defs
import Mathlib.Data.Int.Order.Basic
import Mathlib.Data.List.TakeWhile

abbrev Bytes := List UInt8

namespace Bytes

/-- The bytes of an ASCII text. -/
def ascii (s : String) : Bytes := s.toList.map fun c => UInt8.ofNat c.toNat

/-! ## Numbers in network byte order -/

/-- `htons`: the two bytes of `n`, high byte first. -/
def htons (n : UInt16) : Bytes := [UInt8.ofNat (n.toNat / 256), UInt8.ofNat (n.toNat % 256)]

/-- `ntohs` of the two bytes at index `i`. -/
def ntohs (m : Bytes) (i : ℕ) : UInt16 :=
  UInt16.ofNat ((m.getD i 0).toNat * 256 + (m.getD (i + 1) 0).toNat)

@[simp] theorem length_htons (n : UInt16) : (htons n).length = 2 := rfl

theorem ntohs_htons (pre rest : Bytes) (n : UInt16) :
    ntohs (pre ++ (htons n ++ rest)) pre.length = n := by
  have hn := n.toNat_lt
  have h1 : n.toNat / 256 % 256 = n.toNat / 256 := Nat.mod_eq_of_lt (by omega)
  have h2 : n.toNat / 256 * 256 + n.toNat % 256 = n.toNat := by omega
  rw [← UInt16.toNat_inj]
  simp [ntohs, htons, h1, h2]

theorem ntohs_append {d : Bytes} {i : ℕ} (h : i + 1 < d.length) (rest : Bytes) :
    ntohs (d ++ rest) i = ntohs d i := by
  have h0 : i < d.length := by omega
  simp [ntohs, List.getElem?_append_left h0, List.getElem?_append_left h]

theorem ntohs_take {n i : ℕ} (h : i + 1 < n) (d : Bytes) : ntohs (d.take n) i = ntohs d i := by
  have h0 : i < n := by omega
  simp [ntohs, h, h0]

/-- The bytes at the front of a string are those of the number read there. -/
theorem htons_ntohs {s : Bytes} (h : 2 ≤ s.length) : htons (ntohs s 0) ++ s.drop 2 = s := by
  obtain ⟨a, b, t, rfl⟩ : ∃ a b t, s = a :: b :: t := by
    match s, h with
    | a :: b :: t, _ => exact ⟨a, b, t, rfl⟩
  have ha := a.toNat_lt
  have hb := b.toNat_lt
  have hn : (ntohs (a :: b :: t) 0).toNat = a.toNat * 256 + b.toNat := by
    change (UInt16.ofNat (a.toNat * 256 + b.toNat)).toNat = _
    rw [UInt16.toNat_ofNat_of_lt' (by change _ < 65536; omega)]
  have h1 : UInt8.ofNat ((a.toNat * 256 + b.toNat) / 256) = a := by
    rw [show (a.toNat * 256 + b.toNat) / 256 = a.toNat by omega, UInt8.ofNat_toNat]
  have h2 : UInt8.ofNat ((a.toNat * 256 + b.toNat) % 256) = b := by
    rw [show (a.toNat * 256 + b.toNat) % 256 = b.toNat by omega, UInt8.ofNat_toNat]
  rw [htons, hn, h1, h2]
  rfl

/-- So are the next two those of the number behind it. -/
theorem htons_ntohs_two {s : Bytes} (h : 4 ≤ s.length) :
    htons (ntohs s 0) ++ (htons (ntohs s 2) ++ s.drop 4) = s := by
  have hrest : htons (ntohs (s.drop 2) 0) ++ (s.drop 2).drop 2 = s.drop 2 :=
    htons_ntohs (by rw [List.length_drop]; omega)
  have hnr : ntohs (s.drop 2) 0 = ntohs s 2 := by simp [ntohs]
  rw [hnr, List.drop_drop] at hrest
  rw [hrest, htons_ntohs (by omega)]

/-! ## NUL-terminated strings -/

/-- The memory at the data pointer of a string: its bytes, the NUL that the
    string guarantees, and the bytes that happen to follow. -/
def memory (s past : Bytes) : Bytes := s ++ 0 :: past

/-- The NUL-terminated string at index `i`. -/
def cstr (m : Bytes) (i : ℕ) : Bytes := (m.drop i).takeWhile (· ≠ 0)

/-- No byte of the string is NUL. -/
def NulFree (s : Bytes) : Prop := 0 ∉ s

instance (s : Bytes) : Decidable (NulFree s) := inferInstanceAs (Decidable (0 ∉ s))

theorem takeWhile_nulFree {a : Bytes} (ha : NulFree a) (rest : Bytes) :
    (a ++ 0 :: rest).takeWhile (· ≠ 0) = a := by
  have h : ∀ b ∈ a, decide (b ≠ 0) = true := fun b hb => decide_eq_true fun h => ha (h ▸ hb)
  rw [List.takeWhile_append_of_pos h]
  simp

/-- A number in the string is read back by its index. -/
theorem ntohs_memory (pre rest past : Bytes) (n : UInt16) :
    ntohs (memory (pre ++ (htons n ++ rest)) past) pre.length = n := by
  rw [memory, List.append_assoc, List.append_assoc]
  exact ntohs_htons _ _ _

/-- So is the field at the end of the string. -/
theorem cstr_memory_last {a : Bytes} (ha : NulFree a) (pre past : Bytes) :
    cstr (memory (pre ++ a) past) pre.length = a := by
  rw [cstr, memory, List.append_assoc, List.drop_left, takeWhile_nulFree ha]

/-- Up to its terminating NUL a string is read without looking past it. -/
theorem cstr_memory (s past : Bytes) {i : ℕ} (hi : i ≤ s.length) :
    cstr (memory s past) i = cstr (memory s []) i := by
  have key : ∀ (t : Bytes), (t ++ 0 :: past).takeWhile (· ≠ 0) = (t ++ [0]).takeWhile (· ≠ 0) := by
    intro t
    induction t with
    | nil => simp
    | cons b t ih => simp only [List.cons_append, List.takeWhile_cons, ih]
  rw [cstr, cstr, memory, memory, List.drop_append_of_le_length hi, List.drop_append_of_le_length hi,
    key]

theorem length_cstr_memory (s past : Bytes) {i : ℕ} (hi : i ≤ s.length) :
    i + (cstr (memory s past) i).length ≤ s.length := by
  have key : ∀ t : Bytes, ((t ++ [0]).takeWhile (· ≠ 0)).length ≤ t.length := by
    intro t
    induction t with
    | nil => simp
    | cons b t ih =>
      rw [List.cons_append, List.takeWhile_cons]
      split
      · simpa using ih
      · simp
  rw [cstr_memory s past hi, cstr, memory, List.drop_append_of_le_length hi]
  have := key (s.drop i)
  rw [List.length_drop] at this
  omega

/-- A string has no NUL, or begins with a terminated field. -/
theorem nulFree_or_field (s : Bytes) : NulFree s ∨ ∃ a rest, NulFree a ∧ s = a ++ 0 :: rest := by
  by_cases h : 0 ∈ s
  · obtain ⟨a, rest, hs, ha⟩ := List.eq_append_cons_of_mem h
    exact .inr ⟨a, rest, ha, hs⟩
  · exact .inl h

/-- A field that is left of the string is read, and the index moves behind it. -/
theorem cstr_memory_field {s a rest : Bytes} {i : ℕ} (ha : NulFree a) (h : s.drop i = a ++ 0 :: rest)
    (past : Bytes) :
    cstr (memory s past) i = a ∧ s.drop (i + a.length + 1) = rest ∧ s.length = i + a.length + 1 + rest.length := by
  have hi : i < s.length := by
    by_contra hi
    rw [List.drop_eq_nil_of_le (by omega)] at h
    simp at h
  have hlen := congrArg List.length h
  rw [List.length_drop, List.length_append, List.length_cons] at hlen
  refine ⟨?_, ?_, by omega⟩
  · rw [cstr, memory, List.drop_append_of_le_length hi.le, h, List.append_assoc, List.cons_append,
      takeWhile_nulFree ha]
  · rw [Nat.add_assoc, ← List.drop_drop, h, ← List.drop_drop, List.drop_left]
    rfl

/-- So is the rest of the string without a NUL. -/
theorem cstr_memory_nulFree {s : Bytes} {i : ℕ} (hi : i ≤ s.length) (h : NulFree (s.drop i)) (past : Bytes) :
    cstr (memory s past) i = s.drop i := by
  rw [cstr, memory, List.drop_append_of_le_length hi, takeWhile_nulFree h]

/-- Behind the terminating NUL, other memory is read. -/
theorem cstr_memory_past (s past : Bytes) : cstr (memory s past) (s.length + 1) = cstr past 0 := by
  rw [cstr, cstr, memory, ← List.drop_drop, List.drop_left]
  rfl

/-! ## Decimal numbers -/

/-- `std::to_string` of an unsigned number. -/
def decimal (n : ℕ) : Bytes := (Nat.toDigits 10 n).map fun c => UInt8.ofNat c.toNat

def isBlank (b : UInt8) : Bool := b = 32 || (9 ≤ b && b ≤ 13)

def isDigit (b : UInt8) : Bool := 48 ≤ b && b ≤ 57

/-- The number a string of digits denotes. -/
def digitsVal (ds : Bytes) : ℕ := ds.foldl (fun n b => 10 * n + (b.toNat - 48)) 0

/-- `strtol` to base ten: saturating at the bounds of a 64-bit number. -/
def strtol (s : Bytes) : ℤ :=
  match s.dropWhile isBlank with
  | 45 :: t => max (-(digitsVal (t.takeWhile isDigit) : ℤ)) (-2 ^ 63)
  | 43 :: t => min (digitsVal (t.takeWhile isDigit) : ℤ) (2 ^ 63 - 1)
  | t => min (digitsVal (t.takeWhile isDigit) : ℤ) (2 ^ 63 - 1)

/-- `atoi`: the low 32 bits of `strtol`, as a signed number. -/
def atoi (s : Bytes) : ℤ := Int.bmod (strtol s) (2 ^ 32)

theorem atoi_lt (s : Bytes) : atoi s < 2 ^ 31 := (Int.bmod_lt (by decide)).trans_le (by decide)

theorem digit_toNat {c : Char} (hc : c.isDigit) :
    48 ≤ c.toNat ∧ c.toNat ≤ 57 ∧ (UInt8.ofNat c.toNat).toNat = c.toNat := by
  simp only [Char.isDigit, Bool.and_eq_true, decide_eq_true_eq, UInt32.le_iff_toNat_le] at hc
  have h1 : c.toNat = c.val.toNat := rfl
  have h2 : ('0' : Char).val.toNat = 48 := rfl
  have h3 : ('9' : Char).val.toNat = 57 := rfl
  refine ⟨by omega, by omega, ?_⟩
  simp only [UInt8.toNat_ofNat']
  omega

theorem isDigit_of_mem_decimal {n : ℕ} {b : UInt8} (hb : b ∈ decimal n) : 48 ≤ b.toNat ∧ b.toNat ≤ 57 := by
  obtain ⟨c, hc, rfl⟩ := List.mem_map.1 hb
  obtain ⟨h1, h2, h3⟩ := digit_toNat (Nat.isDigit_of_mem_toDigits (by omega) (Nat.le_refl 10) hc)
  omega

theorem decimal_nulFree (n : ℕ) : NulFree (decimal n) := fun h => by
  simpa using (isDigit_of_mem_decimal h).1

theorem digitsVal_decimal (n : ℕ) : digitsVal (decimal n) = n := by
  have key : ∀ (cs : List Char) (k : ℕ), (∀ c ∈ cs, c.isDigit) →
      (cs.map fun c => UInt8.ofNat c.toNat).foldl (fun n b => 10 * n + (b.toNat - 48)) k =
        Nat.ofDigitChars 10 cs k := by
    intro cs
    induction cs with
    | nil => intro k _; simp
    | cons c cs ih =>
      intro k h
      have hc := (digit_toNat (h c (by simp))).2.2
      rw [List.map_cons, List.foldl_cons, ih _ fun c' hc' => h c' (by simp [hc']),
        Nat.ofDigitChars_cons, hc]
      rfl
  rw [digitsVal, decimal, key _ _ fun c hc => Nat.isDigit_of_mem_toDigits (by omega) (Nat.le_refl 10) hc]
  exact Nat.ofDigitChars_ten_toDigits

/-- A non-empty string of digits. -/
def IsNumeral (s : Bytes) : Prop := s ≠ [] ∧ ∀ b ∈ s, isDigit b = true

instance (s : Bytes) : Decidable (IsNumeral s) := decidable_of_iff (s ≠ [] ∧ s.all isDigit = true) (by simp [IsNumeral])

theorem isDigit_iff {b : UInt8} : isDigit b = true ↔ 48 ≤ b.toNat ∧ b.toNat ≤ 57 := by
  simp [isDigit, UInt8.le_iff_toNat_le]

theorem isNumeral_decimal (n : ℕ) : IsNumeral (decimal n) :=
  ⟨by simp [decimal], fun _ hb => isDigit_iff.2 (isDigit_of_mem_decimal hb)⟩

/-- A numeral is read to its end, saturated and truncated. -/
theorem atoi_numeral {s : Bytes} (h : IsNumeral s) :
    atoi s = Int.bmod (min (digitsVal s : ℤ) (2 ^ 63 - 1)) (2 ^ 32) := by
  obtain ⟨hne, hdig⟩ := h
  have htake : s.takeWhile isDigit = s := List.takeWhile_eq_self_iff.2 hdig
  obtain ⟨b, bs, rfl⟩ := List.exists_cons_of_ne_nil hne
  obtain ⟨h1, h2⟩ := isDigit_iff.1 (hdig b List.mem_cons_self)
  have hblank : isBlank b = false := by
    simp only [isBlank, Bool.or_eq_false_iff, decide_eq_false_iff_not, Bool.and_eq_false_iff,
      UInt8.le_iff_toNat_le, ← UInt8.toNat_inj]
    have h3 : (32 : UInt8).toNat = 32 := rfl
    have h4 : (13 : UInt8).toNat = 13 := rfl
    omega
  have hdrop : (b :: bs).dropWhile isBlank = b :: bs := by
    rw [List.dropWhile_cons, hblank]; rfl
  have h45 : b ≠ 45 := by rintro rfl; simp at h1
  have h43 : b ≠ 43 := by rintro rfl; simp at h1
  have hstr : strtol (b :: bs) = min (digitsVal ((b :: bs).takeWhile isDigit) : ℤ) (2 ^ 63 - 1) := by
    rw [strtol, hdrop]
    split
    · rename_i t ht; exact absurd (List.cons.inj ht).1 h45
    · rename_i t ht; exact absurd (List.cons.inj ht).1 h43
    · rfl
  rw [atoi, hstr, htake]

/-- A small one is read exactly. -/
theorem atoi_numeral_of_lt {s : Bytes} (h : IsNumeral s) (hlt : digitsVal s < 2 ^ 31) : atoi s = digitsVal s := by
  rw [atoi_numeral h, min_eq_left (by omega), Int.bmod_eq_of_le (by omega) (by omega)]

/-- A printed number is read back, saturated and truncated. -/
theorem atoi_decimal (n : ℕ) : atoi (decimal n) = Int.bmod (min (n : ℤ) (2 ^ 63 - 1)) (2 ^ 32) := by
  rw [atoi_numeral (isNumeral_decimal n), digitsVal_decimal]

/-- Small numbers are read back exactly. -/
theorem atoi_decimal_of_lt {n : ℕ} (h : n < 2 ^ 31) : atoi (decimal n) = n := by
  rw [atoi_decimal, min_eq_left (by omega), Int.bmod_eq_of_le (by omega) (by omega)]

/-- The printed numbers that are not read as negative ones. -/
theorem atoi_decimal_nonneg_iff (n : ℕ) : 0 ≤ atoi (decimal n) ↔ n < 2 ^ 63 ∧ n % 2 ^ 32 < 2 ^ 31 := by
  rw [atoi_decimal]
  rcases Nat.lt_or_ge n (2 ^ 63) with h | h
  · rw [min_eq_left (by omega), Int.bmod_def]
    split_ifs <;> omega
  · rw [min_eq_right (by omega)]
    exact iff_of_false (by decide) (by omega)

end Bytes

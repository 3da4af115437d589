/-
  How far the values of an option map are read independently and exactly.

  * `Parsed` says how far `setOptionsFromMap` comes with a map, and what it has
    stored by then;
  * `options_independent_iff`: the timeout is read from the entry of `blksize`, so
    that it is independent of the other entries, and printed options are read
    back, only where the two values agree;
  * `values_exact_iff`: `atoi` also reads strings that are no numerals, and takes
    a size modulo `2 ^ 32`.
-/
import Ttftp.Proof.Options

namespace Ttftp

open Bytes

namespace TransactionOptionValues

/-! ## What is stored by a call -/

/-- The result of a call on a fresh object: the section that has refused its value,
    if any, and what the sections before it have stored. -/
inductive Parsed (m : OptMap) : Bool → TransactionOptionValues → Prop
  | refusedBlksize {s : Bytes} : m[blksizeName]? = some s → ¬ (8 ≤ atoi s ∧ atoi s ≤ 65464) → Parsed m false {}
  | refusedTimeout {s : Bytes} : timeoutName ∈ m → m[blksizeName]? = some s → 8 ≤ atoi s → atoi s ≤ 65464 →
      255 < atoi s → Parsed m false { mBlocksize := (optionsOf m).mBlocksize }
  | refusedTsize {s : Bytes} : m[tsizeName]? = some s → atoi s < 0 →
      (∀ s, m[blksizeName]? = some s → 8 ≤ atoi s ∧ atoi s ≤ 65464) →
      (timeoutName ∈ m → ∃ s, m[blksizeName]? = some s ∧ atoi s ≤ 255) →
      Parsed m false { optionsOf m with mTransferSize := none }
  | accepted : Acceptable m → Parsed m true (optionsOf m)

theorem parsed {m : OptMap} {b : Bool} {v : TransactionOptionValues} (h : setOptionsFromMap m {} = .ok (b, v)) :
    Parsed m b v := by
  have hthrow : ¬ (timeoutName ∈ m ∧ blksizeName ∉ m) := fun hn => by
    rw [setOptionsFromMap_error_iff.2 ⟨rfl, hn⟩] at h
    cases h
  by_cases hb : ∀ s, m[blksizeName]? = some s → 8 ≤ atoi s ∧ atoi s ≤ 65464
  · have h₁ : setBlksize m {} = some { mBlocksize := (optionsOf m).mBlocksize } :=
      setBlksize_eq_some_iff.2 ⟨hb, rfl⟩
    by_cases ht : timeoutName ∈ m → ∃ s, m[blksizeName]? = some s ∧ atoi s ≤ 255
    · have h₂ : setTimeout m { mBlocksize := (optionsOf m).mBlocksize } =
          .ok (some { optionsOf m with mTransferSize := none }) :=
        (setTimeout_eq_ok_iff rfl).2 ⟨fun hm => (ht hm).imp fun s hs =>
          ⟨hs.1, le_trans (by norm_num) (hb s hs.1).1, hs.2⟩, rfl⟩
      by_cases hz : ∀ s, m[tsizeName]? = some s → 0 ≤ atoi s
      · have hok := setOptionsFromMap_eq_true_iff.2 ⟨⟨hb, ht, hz⟩, rfl⟩
        rw [hok] at h
        cases h
        exact .accepted ⟨hb, ht, hz⟩
      · simp only [not_forall, not_le] at hz
        obtain ⟨s, hs, hneg⟩ := hz
        have h₃ : setTsize m { optionsOf m with mTransferSize := none } = none := by
          simp only [setTsize, hs, if_pos hneg]
        simp only [setOptionsFromMap, h₁, h₂, h₃] at h
        cases h
        exact .refusedTsize hs hneg hb ht
    · simp only [Classical.not_imp, not_exists, not_and, not_le] at ht
      obtain ⟨hm, hlarge⟩ := ht
      cases hs : m[blksizeName]? with
      | none => exact absurd ⟨hm, notMem_of_getElem? hs⟩ hthrow
      | some s =>
        have h₂ : setTimeout m { mBlocksize := (optionsOf m).mBlocksize } = .ok none := by
          rw [setTimeout, if_pos hm, at_of_getElem? hs]
          exact congrArg Except.ok (if_pos (.inr (hlarge s hs)))
        simp only [setOptionsFromMap, h₁, h₂] at h
        cases h
        exact .refusedTimeout hm hs (hb s hs).1 (hb s hs).2 (hlarge s hs)
  · simp only [not_forall] at hb
    obtain ⟨s, hs, hrange⟩ := hb
    have h₁ : setBlksize m {} = none := by
      simp only [setBlksize, hs, if_neg hrange]
    simp only [setOptionsFromMap, h₁] at h
    cases h
    exact .refusedBlksize hs hrange

/-- With a block size the call returns. -/
theorem exists_parsed {m : OptMap} (h : timeoutName ∈ m → blksizeName ∈ m) :
    ∃ b v, setOptionsFromMap m {} = .ok (b, v) ∧ Parsed m b v := by
  cases hr : setOptionsFromMap m {} with
  | error e =>
    obtain ⟨-, ht, hb⟩ := setOptionsFromMap_error_iff.1 hr
    exact absurd (h ht) hb
  | ok r => exact ⟨r.1, r.2, rfl, parsed hr⟩

/-! ## Each option on its own -/

/-- Each value that is stored is the number in its own entry. -/
structure OwnEntries (m : OptMap) (v : TransactionOptionValues) : Prop where
  blksize : ∀ n, v.mBlocksize = some n → ∃ s, m[blksizeName]? = some s ∧ atoi s = n
  timeout : ∀ t, v.mTimeout = some t → ∃ s, m[timeoutName]? = some s ∧ atoi s = t.toNat
  tsize : ∀ n, v.mTransferSize = some n → ∃ s, m[tsizeName]? = some s ∧ atoi s = n.toNat

/-- So is each value that a call on a fresh object stores. -/
def Independent (m : OptMap) : Prop := ∀ b v, setOptionsFromMap m {} = .ok (b, v) → OwnEntries m v

/-- The options that an object may hold. -/
structure InRange (v : TransactionOptionValues) : Prop where
  blksize : ∀ n ∈ v.mBlocksize, 8 ≤ n ∧ n ≤ 65464
  timeout : ∀ t ∈ v.mTimeout, 1 ≤ t.toNat ∧ t.toNat ≤ 255
  tsize : ∀ n ∈ v.mTransferSize, n.toNat ≤ 2 ^ 31 - 1

/-- The printed options are read back. -/
def RoundTrips (v : TransactionOptionValues) : Prop :=
  setOptionsFromMap v.getOptionsAsMap {} = .ok (true, { v with wasSetByClient := false })

/-- A stored block size is the number in its entry. -/
theorem optionsOf_mBlocksize {m : OptMap} (h : ∀ s, m[blksizeName]? = some s → 8 ≤ atoi s ∧ atoi s ≤ 65464) {n : ℕ}
    (hn : (optionsOf m).mBlocksize = some n) : ∃ s, m[blksizeName]? = some s ∧ atoi s = n := by
  obtain ⟨s, hs, rfl⟩ := Option.map_eq_some_iff.1 hn
  have := h s hs
  exact ⟨s, hs, by omega⟩

/-- A stored timeout is the number in the entry of `blksize`. -/
theorem optionsOf_mTimeout {m : OptMap} (h : ∀ s, m[blksizeName]? = some s → 8 ≤ atoi s ∧ atoi s ≤ 65464)
    (ht : timeoutName ∈ m → ∃ s, m[blksizeName]? = some s ∧ atoi s ≤ 255) {t : UInt8}
    (hv : (optionsOf m).mTimeout = some t) :
    ∃ s' s, m[timeoutName]? = some s' ∧ m[blksizeName]? = some s ∧ 8 ≤ atoi s ∧ atoi s ≤ 255 ∧ atoi s = t.toNat := by
  simp only [optionsOf] at hv
  split_ifs at hv with hm
  obtain ⟨s, hs, hle⟩ := ht hm
  obtain ⟨s', hs'⟩ := Option.isSome_iff_exists.1 (Std.ExtTreeMap.mem_iff_isSome_getElem?.1 hm)
  have hge := (h s hs).1
  rw [hs, Option.map_some, Option.some.injEq] at hv
  have hnat : t.toNat = (atoi s).toNat := by
    rw [← hv, UInt8.toNat_ofNat_of_lt' (by change _ < 256; omega)]
  exact ⟨s', s, hs', hs, hge, hle, by omega⟩

/-- A stored size is the number in its entry. -/
theorem optionsOf_mTransferSize {m : OptMap} (h : ∀ s, m[tsizeName]? = some s → 0 ≤ atoi s) {n : UInt64}
    (hn : (optionsOf m).mTransferSize = some n) : ∃ s, m[tsizeName]? = some s ∧ atoi s = n.toNat := by
  obtain ⟨s, hs, rfl⟩ := Option.map_eq_some_iff.1 hn
  have hge := h s hs
  have hlt := atoi_lt s
  refine ⟨s, hs, ?_⟩
  rw [UInt64.toNat_ofNat_of_lt' (by change _ < 18446744073709551616; omega)]
  omega

/-- **The options are independent** exactly if a timeout that is stored says the same as
    the block size. -/
theorem independent_iff (m : OptMap) : Independent m ↔ ∀ s' s, m[timeoutName]? = some s' →
    m[blksizeName]? = some s → 8 ≤ atoi s → atoi s ≤ 255 → atoi s' = atoi s := by
  constructor
  · intro h s' s hs' hs hge hle
    obtain ⟨b, v, hok, hp⟩ := exists_parsed fun _ => mem_of_getElem? hs
    have htime : (optionsOf m).mTimeout = some (UInt8.ofNat (atoi s).toNat) := by
      simp [optionsOf, mem_of_getElem? hs', hs]
    have hv : v.mTimeout = some (UInt8.ofNat (atoi s).toNat) := by
      cases hp with
      | refusedBlksize hs₁ hrange =>
        cases hs.symm.trans hs₁
        omega
      | refusedTimeout _ hs₁ _ _ hlarge =>
        cases hs.symm.trans hs₁
        omega
      | refusedTsize => exact htime
      | accepted => exact htime
    obtain ⟨s₁, hs₁, heq⟩ := (h b v hok).timeout _ hv
    cases hs'.symm.trans hs₁
    rw [UInt8.toNat_ofNat_of_lt' (by change _ < 256; omega)] at heq
    omega
  · intro h b v hok
    have htimeout : ∀ t, (∀ s, m[blksizeName]? = some s → 8 ≤ atoi s ∧ atoi s ≤ 65464) →
        (timeoutName ∈ m → ∃ s, m[blksizeName]? = some s ∧ atoi s ≤ 255) → (optionsOf m).mTimeout = some t →
        ∃ s, m[timeoutName]? = some s ∧ atoi s = t.toNat := by
      intro t hb ht hv
      obtain ⟨s', s, hs', hs, hge, hle, heq⟩ := optionsOf_mTimeout hb ht hv
      exact ⟨s', hs', (h s' s hs' hs hge hle).trans heq⟩
    cases parsed hok with
    | refusedBlksize => exact ⟨by simp, by simp, by simp⟩
    | refusedTimeout _ hs hge hle =>
      have hb : ∀ s, m[blksizeName]? = some s → 8 ≤ atoi s ∧ atoi s ≤ 65464 := fun s₁ hs₁ => by
        cases hs.symm.trans hs₁
        exact ⟨hge, hle⟩
      exact ⟨fun n hn => optionsOf_mBlocksize hb hn, by simp, by simp⟩
    | refusedTsize _ _ hb ht =>
      exact ⟨fun n hn => optionsOf_mBlocksize hb hn, fun t hv => htimeout t hb ht hv, by simp⟩
    | accepted ha =>
      exact ⟨fun n hn => optionsOf_mBlocksize ha.blksize hn, fun t hv => htimeout t ha.blksize ha.timeout hv,
        fun n hn => optionsOf_mTransferSize ha.tsize hn⟩

/-- **Printed options are read back** exactly if the timeout is the block size. -/
theorem roundTrips_iff {v : TransactionOptionValues} (h : v.InRange) :
    RoundTrips v ↔ ∀ t ∈ v.mTimeout, v.mBlocksize = some t.toNat := by
  constructor
  · intro hr
    obtain ⟨ha, heq⟩ := setOptionsFromMap_eq_true_iff.1 hr
    have hf := ha.fromMap
    rw [← heq] at hf
    exact hf.timeout
  · intro ht
    have hf : v.FromMap := ⟨h.blksize, ht⟩
    have hsize : ∀ n ∈ v.mTransferSize, n.toNat < 2 ^ 31 := fun n hn => by
      have := h.tsize n hn
      omega
    rw [RoundTrips, setOptionsFromMap_eq_true_iff]
    exact ⟨hf.acceptable_of_lt hsize, (hf.optionsOf_eq hsize).symm⟩

/-- **Independent options.**  Each value that is stored is the number in its own entry, and
    printed options are read back, exactly where the timeout and the block size agree: of
    a map, if both are there and the block size is a possible timeout; of printed options, if
    there is a timeout. -/
theorem options_independent_iff (m : OptMap) (v : TransactionOptionValues) (h : v.InRange) :
    (Independent m ↔ ∀ s' s, m[timeoutName]? = some s' → m[blksizeName]? = some s → 8 ≤ atoi s → atoi s ≤ 255 →
      atoi s' = atoi s) ∧
    (RoundTrips v ↔ ∀ t ∈ v.mTimeout, v.mBlocksize = some t.toNat) :=
  ⟨independent_iff m, roundTrips_iff h⟩

/-- A block size and a timeout of nine. -/
theorem options_independent_nine :
    Independent (getOptionsAsMap { mBlocksize := some 9, mTimeout := some 9 }) ∧
      RoundTrips { mBlocksize := some 9, mTimeout := some 9 } := by
  have h := options_independent_iff (getOptionsAsMap { mBlocksize := some 9, mTimeout := some 9 })
    { mBlocksize := some 9, mTimeout := some 9 } ⟨by simp, by simp, by simp⟩
  refine ⟨h.1.2 fun s' s hs' hs _ _ => ?_, h.2.2 (by simp)⟩
  rw [getElem?_getOptionsAsMap, value_timeoutName] at hs'
  rw [getElem?_getOptionsAsMap, value_blksizeName] at hs
  exact congrArg atoi (Option.some.inj (hs'.symm.trans hs))

/-- Printed with a block size up to 255, any timeout is read back as the block size. -/
theorem setOptionsFromMap_pair {n : ℕ} (hge : 8 ≤ n) (hle : n ≤ 255) (t : UInt8) :
    setOptionsFromMap (getOptionsAsMap { mBlocksize := some n, mTimeout := some t }) {} =
      .ok (true, { mBlocksize := some n, mTimeout := some (UInt8.ofNat n) }) := by
  obtain ⟨m, hm⟩ : ∃ m, m = getOptionsAsMap { mBlocksize := some n, mTimeout := some t } := ⟨_, rfl⟩
  have hb : m[blksizeName]? = some (decimal n) := by rw [hm, getElem?_getOptionsAsMap]; rfl
  have ht : timeoutName ∈ m := by rw [hm, mem_getOptionsAsMap]; rfl
  have hz : m[tsizeName]? = none := by rw [hm, getElem?_getOptionsAsMap]; rfl
  have hatoi : atoi (decimal n) = n := atoi_decimal_of_lt (by omega)
  rw [← hm, setOptionsFromMap_eq_true_iff]
  refine ⟨⟨fun s hs => ?_, fun _ => ⟨_, hb, by omega⟩, fun s hs => ?_⟩, ?_⟩
  · cases hb.symm.trans hs
    omega
  · cases hz.symm.trans hs
  · simp only [optionsOf, hb, hz, if_pos ht, Option.map_some, Option.map_none, hatoi, Int.toNat_natCast]

/-- The same timeout is stored as eight with one block size and as nine with another; without
    a block size the call throws. -/
theorem timeout_not_independent :
    (¬ ∃ f : Bytes → UInt8, ∀ m b v t, setOptionsFromMap m {} = .ok (b, v) → v.mTimeout = some t →
      ∃ s, m[timeoutName]? = some s ∧ t = f s) ∧
    setOptionsFromMap (getOptionsAsMap { mTimeout := some 5 }) {} = .error .outOfRange := by
  refine ⟨?_, setOptionsFromMap_error_iff.2 ⟨rfl, ?_, ?_⟩⟩
  · rintro ⟨f, hf⟩
    have h8 := hf (getOptionsAsMap { mBlocksize := some 8, mTimeout := some 5 }) true
      { mBlocksize := some 8, mTimeout := some 8 } 8 (setOptionsFromMap_pair le_rfl (by decide) 5) rfl
    have h9 := hf (getOptionsAsMap { mBlocksize := some 9, mTimeout := some 5 }) true
      { mBlocksize := some 9, mTimeout := some 9 } 9 (setOptionsFromMap_pair (by decide) (by decide) 5) rfl
    obtain ⟨s, hs, h8⟩ := h8
    obtain ⟨s', hs', h9⟩ := h9
    rw [getElem?_getOptionsAsMap] at hs hs'
    cases hs.symm.trans hs'
    cases h8.trans h9.symm
  · rw [mem_getOptionsAsMap]
    rfl
  · rw [mem_getOptionsAsMap]
    decide

/-! ## Each value as a number -/

/-- The other options of a map are none that the block size could be refused with. -/
def Undisturbed (m : OptMap) : Prop := timeoutName ∉ m ∧ ∀ s, m[tsizeName]? = some s → 0 ≤ atoi s

/-- A numeral in the range of the block size is stored, any other string is refused. -/
def BlksizeExact (m : OptMap) (s : Bytes) : Prop :=
  ∃ b v, setOptionsFromMap (m.insert blksizeName s) {} = .ok (b, v) ∧
    if IsNumeral s ∧ 8 ≤ digitsVal s ∧ digitsVal s ≤ 65464 then
      v.mBlocksize = some (digitsVal s) ∧ (Undisturbed m → b = true)
    else v.mBlocksize = none ∧ b = false

/-- A numeral of a 64-bit size is stored, any other string is refused. -/
def TsizeExact (m : OptMap) (s : Bytes) : Prop :=
  ∃ b v, setOptionsFromMap (m.insert tsizeName s) {} = .ok (b, v) ∧
    if IsNumeral s ∧ digitsVal s < 2 ^ 64 then b = true ∧ v.mTransferSize = some (UInt64.ofNat (digitsVal s))
    else b = false

theorem getElem?_insert_self (m : OptMap) (k s : Bytes) : (m.insert k s)[k]? = some s :=
  Std.ExtTreeMap.getElem?_insert_self

theorem getElem?_insert_of_ne (m : OptMap) {k k' : Bytes} (s : Bytes) (h : k ≠ k') : (m.insert k s)[k']? = m[k']? := by
  rw [Std.ExtTreeMap.getElem?_insert, if_neg (by rw [Std.compare_eq_eq_iff_eq]; exact h)]

theorem mem_insert_of_ne (m : OptMap) {k k' : Bytes} (s : Bytes) (h : k ≠ k') : k' ∈ m.insert k s ↔ k' ∈ m := by
  rw [Std.ExtTreeMap.mem_iff_isSome_getElem?, getElem?_insert_of_ne m s h, ← Std.ExtTreeMap.mem_iff_isSome_getElem?]

/-- What becomes of an entry for the block size. -/
theorem Parsed.blksize {m : OptMap} {b : Bool} {v : TransactionOptionValues} {s : Bytes} (h : Parsed m b v)
    (hs : m[blksizeName]? = some s) :
    ((8 ≤ atoi s ∧ atoi s ≤ 65464) ∧ v.mBlocksize = some (atoi s).toNat ∧ (Undisturbed m → b = true)) ∨
    (¬ (8 ≤ atoi s ∧ atoi s ≤ 65464) ∧ v.mBlocksize = none ∧ b = false) := by
  have hopt : (optionsOf m).mBlocksize = some (atoi s).toNat := by rw [optionsOf, hs, Option.map_some]
  cases h with
  | refusedBlksize hs₁ hrange =>
    cases hs.symm.trans hs₁
    exact .inr ⟨hrange, rfl, rfl⟩
  | refusedTimeout hm hs₁ hge hle =>
    cases hs.symm.trans hs₁
    exact .inl ⟨⟨hge, hle⟩, hopt, fun hu => absurd hm hu.1⟩
  | refusedTsize hz hneg hb => exact .inl ⟨hb s hs, hopt, fun hu => absurd (hu.2 _ hz) (not_le.2 hneg)⟩
  | accepted ha => exact .inl ⟨ha.blksize s hs, hopt, fun _ => rfl⟩

/-- What becomes of an entry for the size, if the others are acceptable. -/
theorem Parsed.tsize {m : OptMap} {b : Bool} {v : TransactionOptionValues} {s : Bytes} (h : Parsed m b v)
    (hs : m[tsizeName]? = some s) (hb : ∀ s, m[blksizeName]? = some s → 8 ≤ atoi s ∧ atoi s ≤ 65464)
    (ht : timeoutName ∈ m → ∃ s, m[blksizeName]? = some s ∧ atoi s ≤ 255) :
    (0 ≤ atoi s ∧ b = true ∧ v.mTransferSize = some (UInt64.ofNat (atoi s).toNat)) ∨ (atoi s < 0 ∧ b = false) := by
  cases h with
  | refusedBlksize hs₁ hrange => exact absurd (hb _ hs₁) hrange
  | refusedTimeout hm hs₁ _ _ hlarge =>
    obtain ⟨s₂, hs₂, hle⟩ := ht hm
    cases hs₁.symm.trans hs₂
    omega
  | refusedTsize hz hneg =>
    cases hs.symm.trans hz
    exact .inr ⟨hneg, rfl⟩
  | accepted ha => exact .inl ⟨ha.tsize s hs, rfl, by rw [optionsOf, hs, Option.map_some]⟩

/-- **The block size is read exactly** unless a string that is no numeral up to the largest
    block size is read as a number in its range. -/
theorem blksizeExact_iff (m : OptMap) (s : Bytes) : BlksizeExact m s ↔
    (8 ≤ atoi s → atoi s ≤ 65464 → IsNumeral s ∧ digitsVal s ≤ 65464) := by
  have hs := getElem?_insert_self m blksizeName s
  have hother : Undisturbed m → Undisturbed (m.insert blksizeName s) := fun hu =>
    ⟨fun hm => hu.1 ((mem_insert_of_ne m s (by decide)).1 hm), fun s₁ hs₁ =>
      hu.2 s₁ (by rwa [getElem?_insert_of_ne m s (by decide)] at hs₁)⟩
  obtain ⟨b, v, hok, hp⟩ := exists_parsed (m := m.insert blksizeName s) fun _ => mem_of_getElem? hs
  have hread := hp.blksize hs
  by_cases hvalid : IsNumeral s ∧ 8 ≤ digitsVal s ∧ digitsVal s ≤ 65464
  · obtain ⟨hnum, hge, hle⟩ := hvalid
    have hatoi : atoi s = digitsVal s := atoi_numeral_of_lt hnum (by omega)
    refine iff_of_true ⟨b, v, hok, ?_⟩ fun _ _ => ⟨hnum, hle⟩
    rw [if_pos ⟨hnum, hge, hle⟩]
    rcases hread with ⟨-, hv, hb⟩ | ⟨hrange, -⟩
    · exact ⟨by rw [hv, hatoi, Int.toNat_natCast], fun hu => hb (hother hu)⟩
    · omega
  · constructor
    · rintro ⟨b', v', hok', hexact⟩ hge hle
      cases hok.symm.trans hok'
      rw [if_neg hvalid] at hexact
      rcases hread with ⟨-, hv, -⟩ | ⟨hrange, -⟩
      · cases hexact.1.symm.trans hv
      · exact absurd ⟨hge, hle⟩ hrange
    · intro h
      refine ⟨b, v, hok, ?_⟩
      rw [if_neg hvalid]
      rcases hread with ⟨⟨hge, hle⟩, -⟩ | ⟨-, hv, hb⟩
      · obtain ⟨hnum, hd⟩ := h hge hle
        have hatoi : atoi s = digitsVal s := atoi_numeral_of_lt hnum (by omega)
        exact absurd ⟨hnum, by omega, hd⟩ hvalid
      · exact ⟨hv, hb⟩

/-- **The size is read exactly** if it is below `2 ^ 31`; what is no size must be read as a
    negative number. -/
theorem tsizeExact_iff {m : OptMap} (ha : Acceptable m) (s : Bytes) : TsizeExact m s ↔
    if IsNumeral s ∧ digitsVal s < 2 ^ 64 then digitsVal s < 2 ^ 31 else atoi s < 0 := by
  have hs := getElem?_insert_self m tsizeName s
  have hb : ∀ s₁, (m.insert tsizeName s)[blksizeName]? = some s₁ → 8 ≤ atoi s₁ ∧ atoi s₁ ≤ 65464 := by
    intro s₁ hs₁
    rw [getElem?_insert_of_ne m s (by decide)] at hs₁
    exact ha.blksize s₁ hs₁
  have ht : timeoutName ∈ m.insert tsizeName s →
      ∃ s₁, (m.insert tsizeName s)[blksizeName]? = some s₁ ∧ atoi s₁ ≤ 255 := by
    intro hm
    rw [getElem?_insert_of_ne m s (by decide)]
    exact ha.timeout ((mem_insert_of_ne m s (by decide)).1 hm)
  obtain ⟨b, v, hok, hp⟩ := exists_parsed (m := m.insert tsizeName s) fun hm =>
    let ⟨_, hs₁, _⟩ := ht hm
    mem_of_getElem? hs₁
  have hread := hp.tsize hs hb ht
  have hexact : TsizeExact m s ↔
      if IsNumeral s ∧ digitsVal s < 2 ^ 64 then b = true ∧ v.mTransferSize = some (UInt64.ofNat (digitsVal s))
      else b = false := by
    constructor
    · rintro ⟨b', v', hok', h⟩
      cases hok.symm.trans hok'
      exact h
    · exact fun h => ⟨b, v, hok, h⟩
  rw [hexact]
  split_ifs with hvalid
  · obtain ⟨hnum, hlt⟩ := hvalid
    constructor
    · rintro ⟨rfl, hv⟩
      rcases hread with ⟨hge, -, hv'⟩ | ⟨-, hf⟩
      · have hval := UInt64.toNat_inj.2 (Option.some.inj (hv.symm.trans hv'))
        have hatoi := atoi_lt s
        rw [UInt64.toNat_ofNat_of_lt' hlt, UInt64.toNat_ofNat_of_lt' (by change _ < 18446744073709551616; omega)] at hval
        omega
      · cases hf
    · intro hsmall
      have hatoi : atoi s = digitsVal s := atoi_numeral_of_lt hnum hsmall
      rcases hread with ⟨-, hb, hv⟩ | ⟨hneg, -⟩
      · exact ⟨hb, by rw [hv, hatoi, Int.toNat_natCast]⟩
      · omega
  · rcases hread with ⟨hge, rfl, -⟩ | ⟨hneg, rfl⟩
    · exact iff_of_false (by decide) (not_lt.2 hge)
    · exact iff_of_true rfl hneg

/-- A printed size is read back if it is below `2 ^ 31`. -/
theorem roundTrips_size_iff (n : UInt64) : RoundTrips { mTransferSize := some n } ↔ n.toNat < 2 ^ 31 := by
  constructor
  · intro h
    obtain ⟨ha, heq⟩ := setOptionsFromMap_eq_true_iff.1 h
    obtain ⟨s, -, hs⟩ := optionsOf_mTransferSize ha.tsize (congrArg mTransferSize heq).symm
    have := atoi_lt s
    omega
  · intro h
    refine (roundTrips_iff ⟨by simp, by simp, ?_⟩).2 (by simp)
    rintro _ ⟨⟩
    omega

/-- **Numeric option values**, of every map: the block size `s` is read exactly unless it is no
    numeral up to 65464 and is read as one; the size `s'` is, if it is a numeral below
    `2 ^ 31`, or no numeral of 64 bits and read as a negative number. -/
theorem values_exact_iff (m : OptMap) {m' : OptMap} (ha : Acceptable m') (s s' : Bytes) (n : UInt64) :
    (BlksizeExact m s ↔ (8 ≤ atoi s → atoi s ≤ 65464 → IsNumeral s ∧ digitsVal s ≤ 65464)) ∧
    (TsizeExact m' s' ↔
      if IsNumeral s' ∧ digitsVal s' < 2 ^ 64 then digitsVal s' < 2 ^ 31 else atoi s' < 0) ∧
    (RoundTrips { mTransferSize := some n } ↔ n.toNat < 2 ^ 31) :=
  ⟨blksizeExact_iff m s, tsizeExact_iff ha s', roundTrips_size_iff n⟩

/-- The block size 512 and the size 7 are read exactly. -/
theorem values_exact_small :
    BlksizeExact ∅ (ascii "512") ∧ TsizeExact ∅ (ascii "7") ∧ RoundTrips { mTransferSize := some 7 } := by
  have h := @values_exact_iff ∅ ∅ ⟨by simp, by simp, by simp⟩ (ascii "512") (ascii "7") 7
  exact ⟨h.1.2 (by decide), h.2.1.2 (by decide), h.2.2.2 (by decide)⟩

/-- Trailing letters, an empty text and a size of two gigabytes are not. -/
theorem values_not_exact :
    ¬ BlksizeExact ∅ (ascii "512abc") ∧ ¬ TsizeExact ∅ [] ∧ ¬ RoundTrips { mTransferSize := some 0x80000000 } := by
  have ha : Acceptable ∅ := ⟨by simp, by simp, by simp⟩
  refine ⟨fun h => ?_, fun h => ?_, fun h => ?_⟩
  · have := (blksizeExact_iff ∅ _).1 h (by decide) (by decide)
    exact absurd this (by decide)
  · exact absurd ((tsizeExact_iff ha []).1 h) (by decide)
  · exact absurd ((roundTrips_size_iff _).1 h) (by decide)

end TransactionOptionValues

end Ttftp

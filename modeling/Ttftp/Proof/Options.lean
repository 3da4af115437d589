/-
  The options of a request: which maps `setOptionsFromMap` accepts, what it makes of
  them, and what `getOptionsAsMap` makes of that.

  `Acceptable` says what is checked, `optionsOf` what is stored.  The timeout is
  read from the value of `blksize`, so that `timeout` alone makes the lookup throw
  (`setOptionsFromMap_error_iff`).
-/
import Mathlib.Algebra.Order.BigOperators.Group.List
import Ttftp.Proof.Messages

namespace Ttftp

open Bytes

namespace TransactionOptionValues

/-! ## Setting options from a map -/

/-- What `setOptionsFromMap` requires of the values of a map. -/
structure Acceptable (m : OptMap) : Prop where
  blksize : ∀ s, m[blksizeName]? = some s → 8 ≤ atoi s ∧ atoi s ≤ 65464
  timeout : timeoutName ∈ m → ∃ s, m[blksizeName]? = some s ∧ atoi s ≤ 255
  tsize : ∀ s, m[tsizeName]? = some s → 0 ≤ atoi s

/-- The values that it stores. -/
def optionsOf (m : OptMap) : TransactionOptionValues where
  mBlocksize := m[blksizeName]?.map fun s => (atoi s).toNat
  mTimeout := if timeoutName ∈ m then m[blksizeName]?.map fun s => UInt8.ofNat (atoi s).toNat else none
  mTransferSize := m[tsizeName]?.map fun s => UInt64.ofNat (atoi s).toNat

/-- What `parseOptionFields` returns for them. -/
def fromClient (m : OptMap) : TransactionOptionValues := { optionsOf m with wasSetByClient := true }

theorem mem_of_getElem? {m : OptMap} {k s : Bytes} (h : m[k]? = some s) : k ∈ m :=
  Std.ExtTreeMap.mem_iff_isSome_getElem?.2 (by rw [h]; rfl)

theorem notMem_of_getElem? {m : OptMap} {k : Bytes} (h : m[k]? = none) : k ∉ m := fun hk => by
  simpa [h] using Std.ExtTreeMap.mem_iff_isSome_getElem?.1 hk

theorem at_of_getElem? {m : OptMap} {k s : Bytes} (h : m[k]? = some s) : m.at k = .ok s := by
  rw [OptMap.at, h]

theorem at_of_none {m : OptMap} {k : Bytes} (h : m[k]? = none) : m.at k = .error .outOfRange := by
  rw [OptMap.at, h]

/-- The block size is stored if it is in its range. -/
theorem setBlksize_eq_some_iff {m : OptMap} {v : TransactionOptionValues} :
    setBlksize m {} = some v ↔ (∀ s, m[blksizeName]? = some s → 8 ≤ atoi s ∧ atoi s ≤ 65464) ∧
      v = { mBlocksize := (optionsOf m).mBlocksize } := by
  unfold setBlksize optionsOf
  cases hb : m[blksizeName]? with
  | none => simp [eq_comm]
  | some s =>
    dsimp only
    split_ifs with h
    · simp [h, eq_comm]
    · simp [h]

/-- The timeout is stored if the block size is a possible one. -/
theorem setTimeout_eq_ok_iff {m : OptMap} {v v' : TransactionOptionValues} (hv : v.mTimeout = none) :
    setTimeout m v = .ok (some v') ↔
      (timeoutName ∈ m → ∃ s, m[blksizeName]? = some s ∧ 0 ≤ atoi s ∧ atoi s ≤ 255) ∧
      v' = { v with mTimeout := (optionsOf m).mTimeout } := by
  unfold setTimeout optionsOf
  by_cases ht : timeoutName ∈ m
  · cases hb : m[blksizeName]? with
    | none => simp [ht, at_of_none hb, Except.map]
    | some s =>
      simp only [ht, if_true, at_of_getElem? hb, Except.map, Except.ok.injEq, true_imp_iff,
        Option.some.injEq, exists_eq_left', Option.map_some]
      split_ifs with h
      · simp only [false_iff, not_and]
        omega
      · rw [Option.some.injEq, eq_comm]
        exact (and_iff_right (by omega)).symm
  · simp only [ht, if_false, false_imp_iff, true_and, Except.ok.injEq, Option.some.injEq]
    rw [← hv]
    exact eq_comm

/-- The size is stored if it is not negative. -/
theorem setTsize_eq_some_iff {m : OptMap} {v v' : TransactionOptionValues} (hv : v.mTransferSize = none) :
    setTsize m v = some v' ↔ (∀ s, m[tsizeName]? = some s → 0 ≤ atoi s) ∧
      v' = { v with mTransferSize := (optionsOf m).mTransferSize } := by
  unfold setTsize optionsOf
  cases hb : m[tsizeName]? with
  | none =>
    simp only [Option.some.injEq, Option.map_none]
    rw [← hv]
    exact ⟨fun h => ⟨by simp, h.symm⟩, fun h => h.2.symm⟩
  | some s =>
    dsimp only
    split_ifs with h
    · simp [not_le.2 h]
    · simp [not_lt.1 h, eq_comm]

/-- **The maps that are accepted**, and what is stored. -/
theorem setOptionsFromMap_eq_true_iff {m : OptMap} {v : TransactionOptionValues} :
    setOptionsFromMap m {} = .ok (true, v) ↔ Acceptable m ∧ v = optionsOf m := by
  constructor
  · intro h
    unfold setOptionsFromMap at h
    split at h
    · simp at h
    · rename_i v₁ h₁
      obtain ⟨hb, rfl⟩ := setBlksize_eq_some_iff.1 h₁
      split at h
      · cases h
      · simp at h
      · rename_i v₂ h₂
        obtain ⟨ht, rfl⟩ := (setTimeout_eq_ok_iff rfl).1 h₂
        split at h
        · simp at h
        · rename_i v₃ h₃
          obtain ⟨hz, rfl⟩ := (setTsize_eq_some_iff rfl).1 h₃
          cases h
          exact ⟨⟨hb, fun hm => (ht hm).imp fun s hs => ⟨hs.1, hs.2.2⟩, hz⟩, rfl⟩
  · rintro ⟨⟨hb, ht, hz⟩, rfl⟩
    have h₁ : setBlksize m {} = some { mBlocksize := (optionsOf m).mBlocksize } :=
      setBlksize_eq_some_iff.2 ⟨hb, rfl⟩
    have h₂ : setTimeout m { mBlocksize := (optionsOf m).mBlocksize } =
        .ok (some { optionsOf m with mTransferSize := none }) :=
      (setTimeout_eq_ok_iff rfl).2 ⟨fun hm => (ht hm).imp fun s hs =>
        ⟨hs.1, le_trans (by norm_num) (hb s hs.1).1, hs.2⟩, rfl⟩
    have h₃ : setTsize m { optionsOf m with mTransferSize := none } = some (optionsOf m) :=
      (setTsize_eq_some_iff rfl).2 ⟨hz, rfl⟩
    simp only [setOptionsFromMap, h₁, h₂, h₃]

/-- **The lookup throws** exactly if there is a timeout and no block size. -/
theorem setOptionsFromMap_error_iff {m : OptMap} {v : TransactionOptionValues} {e : Exn} :
    setOptionsFromMap m v = .error e ↔ e = .outOfRange ∧ timeoutName ∈ m ∧ blksizeName ∉ m := by
  unfold setOptionsFromMap
  cases hb : m[blksizeName]? with
  | none =>
    have hk := notMem_of_getElem? hb
    simp only [setBlksize, hb, setTimeout]
    by_cases ht : timeoutName ∈ m
    · simp [ht, at_of_none hb, hk, Except.map, eq_comm]
    · simp only [ht, if_false, false_and, and_false, iff_false]
      cases setTsize m v <;> simp
  | some s =>
    refine iff_of_false ?_ (by simp [mem_of_getElem? hb])
    simp only [setBlksize, hb, setTimeout, at_of_getElem? hb, Except.map]
    split
    · simp
    · split
      · rename_i h
        split_ifs at h
      · simp
      · split <;> simp

/-! ## Printing options to a map -/

/-- The value that is printed under a name. -/
def value (v : TransactionOptionValues) (k : Bytes) : Option ℕ :=
  if k = tsizeName then v.mTransferSize.map (·.toNat)
  else if k = timeoutName then v.mTimeout.map (·.toNat)
  else if k = blksizeName then v.mBlocksize
  else none

theorem getElem?_insertOpt (name k : Bytes) (o : Option ℕ) (m : OptMap) :
    (insertOpt name o m)[k]? = if k = name then (o.map decimal).or m[k]? else m[k]? := by
  cases o with
  | none => simp [insertOpt]
  | some n =>
    rw [insertOpt, Std.ExtTreeMap.getElem?_insert]
    simp only [Std.compare_eq_eq_iff_eq, Option.map_some, Option.some_or]
    exact if_congr eq_comm rfl rfl

/-- **The map holds the values in decimal.** -/
theorem getElem?_getOptionsAsMap (v : TransactionOptionValues) (k : Bytes) :
    v.getOptionsAsMap[k]? = (v.value k).map decimal := by
  have h1 : tsizeName ≠ timeoutName := by decide
  have h2 : tsizeName ≠ blksizeName := by decide
  have h3 : timeoutName ≠ blksizeName := by decide
  simp only [getOptionsAsMap, getElem?_insertOpt, value]
  split_ifs <;> simp_all

theorem mem_getOptionsAsMap {v : TransactionOptionValues} {k : Bytes} :
    k ∈ v.getOptionsAsMap ↔ (v.value k).isSome := by
  rw [Std.ExtTreeMap.mem_iff_isSome_getElem?, getElem?_getOptionsAsMap, Option.isSome_map]

theorem value_name {v : TransactionOptionValues} {k : Bytes} {n : ℕ} (h : v.value k = some n) :
    k = tsizeName ∨ k = timeoutName ∨ k = blksizeName := by
  unfold value at h
  split_ifs at h with h1 h2 h3
  · exact .inl h1
  · exact .inr (.inl h2)
  · exact .inr (.inr h3)

theorem nulFree_getOptionsAsMap (v : TransactionOptionValues) : v.getOptionsAsMap.NulFree := by
  intro k s h
  rw [getElem?_getOptionsAsMap] at h
  obtain ⟨n, hn, rfl⟩ := Option.map_eq_some_iff.1 h
  refine ⟨?_, decimal_nulFree n⟩
  rcases value_name hn with rfl | rfl | rfl <;> decide

/-- A block size that fits into a datagram; all block sizes that are stored do. -/
def Small (v : TransactionOptionValues) : Prop := ∀ n ∈ v.mBlocksize, n < 10 ^ 20

theorem value_lt {v : TransactionOptionValues} (hv : v.Small) {k : Bytes} {n : ℕ}
    (h : v.value k = some n) : n < 10 ^ 20 := by
  unfold value at h
  split_ifs at h
  · obtain ⟨t, -, rfl⟩ := Option.map_eq_some_iff.1 h
    exact t.toNat_lt.trans (by decide)
  · obtain ⟨t, -, rfl⟩ := Option.map_eq_some_iff.1 h
    exact t.toNat_lt.trans (by decide)
  · exact hv n h

theorem size_insertOpt_le (name : Bytes) (o : Option ℕ) (m : OptMap) :
    (insertOpt name o m).size ≤ m.size + 1 := by
  cases o with
  | none => exact Nat.le_succ _
  | some n => exact Std.ExtTreeMap.size_insert_le

/-- **The OACK of an option object is short enough to be encoded.** -/
theorem messageLength_le {v : TransactionOptionValues} (hv : v.Small) :
    OptionACKMessage.messageLength ⟨v.getOptionsAsMap⟩ ≤ 512 := by
  have hsize : v.getOptionsAsMap.toList.length ≤ 3 := by
    rw [Std.ExtTreeMap.length_toList]
    refine (size_insertOpt_le _ _ _).trans (Nat.succ_le_succ ?_)
    refine (size_insertOpt_le _ _ _).trans (Nat.succ_le_succ ?_)
    exact size_insertOpt_le _ _ _
  have hpair : ∀ n ∈ v.getOptionsAsMap.toList.map fun p => p.1.length + 1 + p.2.length + 1, n ≤ 29 := by
    intro n hn
    obtain ⟨⟨k, s⟩, hp, rfl⟩ := List.mem_map.1 hn
    have hk := Std.ExtTreeMap.mem_toList_iff_getElem?_eq_some.1 hp
    rw [getElem?_getOptionsAsMap] at hk
    obtain ⟨i, hi, rfl⟩ := Option.map_eq_some_iff.1 hk
    have hdec : (decimal i).length ≤ 20 := by
      rw [decimal, List.length_map]
      exact (Nat.length_toDigits_le_iff (by omega) (by omega)).2 (value_lt hv hi)
    have hname : k.length ≤ 7 := by
      rcases value_name hi with rfl | rfl | rfl <;> decide
    dsimp only
    omega
  have hsum := List.sum_le_card_nsmul _ 29 hpair
  rw [List.length_map, nsmul_eq_mul, Nat.cast_id] at hsum
  simp only [OptionACKMessage.messageLength, optionValLength, opcodeLength]
  omega

/-- The bytes of the OACK of an option object. -/
def oackBytes (v : TransactionOptionValues) : Bytes :=
  htons TftpOpcode.oack.toUInt16 ++ encodeOptions v.getOptionsAsMap

theorem encode_getOptionsAsMap {v : TransactionOptionValues} (hv : v.Small) :
    OptionACKMessage.encode ⟨v.getOptionsAsMap⟩ = .ok v.oackBytes :=
  if_neg (Nat.not_lt.2 (messageLength_le hv))

theorem opcode_oackBytes (v : TransactionOptionValues) :
    ntohs v.oackBytes 0 = TftpOpcode.oack.toUInt16 := ntohs_htons [] _ _

/-- **The OACK is decoded to the map**, if there is anything in it. -/
theorem decode_oackBytes {v : TransactionOptionValues} (hv : v.Small) (hne : v.getOptionsAsMap ≠ ∅)
    (past : Bytes) (self : OptionACKMessage) :
    OptionACKMessage.decode past self v.oackBytes = (true, ⟨v.getOptionsAsMap⟩) := by
  obtain ⟨s, hs, hd⟩ := @OptionACKMessage.decode_encode ⟨v.getOptionsAsMap⟩ hne
    (nulFree_getOptionsAsMap v) (messageLength_le hv)
  rw [encode_getOptionsAsMap hv] at hs
  cases hs
  exact hd past self

/-- An OACK without options is not decoded. -/
theorem decode_oackBytes_empty {v : TransactionOptionValues} (hv : v.getOptionsAsMap = ∅) (past : Bytes)
    (self : OptionACKMessage) : OptionACKMessage.decode past self v.oackBytes = (false, {}) := by
  have hl : v.oackBytes = htons TftpOpcode.oack.toUInt16 := by
    rw [oackBytes, hv]
    rfl
  rw [hl]
  exact if_pos (by decide)

/-! ## Reading a printed map -/

@[simp] theorem value_blksizeName (v : TransactionOptionValues) : v.value blksizeName = v.mBlocksize := rfl

@[simp] theorem value_timeoutName (v : TransactionOptionValues) :
    v.value timeoutName = v.mTimeout.map (·.toNat) := rfl

@[simp] theorem value_tsizeName (v : TransactionOptionValues) :
    v.value tsizeName = v.mTransferSize.map (·.toNat) := rfl

/-- What holds of all option objects that are set from a map: the block size is in
    its range, and is the timeout where there is one. -/
structure FromMap (v : TransactionOptionValues) : Prop where
  blksize : ∀ n ∈ v.mBlocksize, 8 ≤ n ∧ n ≤ 65464
  timeout : ∀ t ∈ v.mTimeout, v.mBlocksize = some t.toNat

theorem Acceptable.fromMap {m : OptMap} (h : Acceptable m) : (optionsOf m).FromMap where
  blksize n hn := by
    obtain ⟨s, hs, rfl⟩ := Option.map_eq_some_iff.1 hn
    have := h.blksize s hs
    omega
  timeout t ht := by
    simp only [optionsOf] at ht ⊢
    split_ifs at ht with hm
    · obtain ⟨s, hs, hle⟩ := h.timeout hm
      have := h.blksize s hs
      simp only [hs, Option.map_some, Option.mem_def, Option.some.injEq] at ht ⊢
      rw [← ht, UInt8.toNat_ofNat_of_lt' (by change _ < 256; omega)]
    · cases ht

theorem Acceptable.fromMap_fromClient {m : OptMap} (h : Acceptable m) : (fromClient m).FromMap :=
  ⟨h.fromMap.blksize, h.fromMap.timeout⟩

/-- The options that are stored are the recognised ones. -/
theorem Acceptable.isSome_value {m : OptMap} (h : Acceptable m) (k : Bytes) :
    ((optionsOf m).value k).isSome ↔ k ∈ m ∧ (k = blksizeName ∨ k = timeoutName ∨ k = tsizeName) := by
  have hsize : ((optionsOf m).mTransferSize.map (·.toNat)).isSome ↔ tsizeName ∈ m := by
    rw [Option.isSome_map, optionsOf, Option.isSome_map, Std.ExtTreeMap.mem_iff_isSome_getElem?]
  have htime : ((optionsOf m).mTimeout.map (·.toNat)).isSome ↔ timeoutName ∈ m := by
    rw [Option.isSome_map, optionsOf]
    dsimp only
    split_ifs with hm
    · obtain ⟨s, hs, -⟩ := h.timeout hm
      simp [hs, hm]
    · simp [hm]
  have hblk : (optionsOf m).mBlocksize.isSome ↔ blksizeName ∈ m := by
    rw [optionsOf, Option.isSome_map, Std.ExtTreeMap.mem_iff_isSome_getElem?]
  unfold value
  split_ifs with h1 h2 h3
  · rw [hsize, h1]
    simp
  · rw [htime, h2]
    simp
  · rw [hblk, h3]
    simp
  · simp [h1, h2, h3]

namespace FromMap
variable {v : TransactionOptionValues}

theorem small (h : v.FromMap) : v.Small := fun n hn => by
  have := h.blksize n hn
  omega

theorem atoi_blksize (h : v.FromMap) {s : Bytes} (hs : v.getOptionsAsMap[blksizeName]? = some s) :
    ∃ n, v.mBlocksize = some n ∧ atoi s = n ∧ 8 ≤ n ∧ n ≤ 65464 := by
  rw [getElem?_getOptionsAsMap, value_blksizeName] at hs
  obtain ⟨n, hn, rfl⟩ := Option.map_eq_some_iff.1 hs
  have hr := h.blksize n hn
  exact ⟨n, hn, atoi_decimal_of_lt (by omega), hr⟩

/-- **The other end accepts the printed map**, unless it takes the size for a
    negative number. -/
theorem acceptable_iff (h : v.FromMap) : Acceptable v.getOptionsAsMap ↔
    ∀ t ∈ v.mTransferSize, t.toNat < 2 ^ 63 ∧ t.toNat % 2 ^ 32 < 2 ^ 31 := by
  constructor
  · intro ha t ht
    refine (atoi_decimal_nonneg_iff _).1 (ha.tsize _ ?_)
    rw [getElem?_getOptionsAsMap, value_tsizeName, show v.mTransferSize = some t from ht]
    rfl
  · intro ht
    refine ⟨fun s hs => ?_, fun hm => ?_, fun s hs => ?_⟩
    · obtain ⟨n, -, ha, hn⟩ := h.atoi_blksize hs
      omega
    · rw [mem_getOptionsAsMap, value_timeoutName, Option.isSome_map] at hm
      obtain ⟨t, ht⟩ := Option.isSome_iff_exists.1 hm
      have hb := h.timeout t ht
      have hlt := t.toNat_lt
      refine ⟨decimal t.toNat, by rw [getElem?_getOptionsAsMap, value_blksizeName, hb]; rfl, ?_⟩
      rw [atoi_decimal_of_lt (by omega)]
      omega
    · rw [getElem?_getOptionsAsMap, value_tsizeName, Option.map_map] at hs
      obtain ⟨t, ht', rfl⟩ := Option.map_eq_some_iff.1 hs
      exact (atoi_decimal_nonneg_iff _).2 (ht t ht')

/-- **It then has the same block size and the same timeout.** -/
theorem optionsOf_blocksize (h : v.FromMap) : (optionsOf v.getOptionsAsMap).mBlocksize = v.mBlocksize := by
  unfold optionsOf
  cases hs : v.getOptionsAsMap[blksizeName]? with
  | none =>
    rw [getElem?_getOptionsAsMap, value_blksizeName, Option.map_eq_none_iff] at hs
    exact hs.symm
  | some s =>
    obtain ⟨n, hn, ha, -⟩ := h.atoi_blksize hs
    rw [hn, Option.map_some, ha, Int.toNat_natCast]

theorem optionsOf_timeout (h : v.FromMap) : (optionsOf v.getOptionsAsMap).mTimeout = v.mTimeout := by
  have hb : v.getOptionsAsMap[blksizeName]?.map (fun s => (atoi s).toNat) = v.mBlocksize :=
    h.optionsOf_blocksize
  have hm : timeoutName ∈ v.getOptionsAsMap ↔ v.mTimeout.isSome := by
    rw [mem_getOptionsAsMap, value_timeoutName, Option.isSome_map]
  unfold optionsOf
  cases ht : v.mTimeout with
  | none => exact if_neg (by rw [hm, ht]; decide)
  | some t =>
    rw [h.timeout t ht] at hb
    obtain ⟨s, hs, ha⟩ := Option.map_eq_some_iff.1 hb
    refine (if_pos (by rw [hm, ht]; rfl)).trans ?_
    rw [hs, Option.map_some, ha, UInt8.ofNat_toNat]

theorem optionsOf_transferSize (hs : ∀ t ∈ v.mTransferSize, t.toNat < 2 ^ 31) :
    (optionsOf v.getOptionsAsMap).mTransferSize = v.mTransferSize := by
  change v.getOptionsAsMap[tsizeName]?.map (fun s => UInt64.ofNat (atoi s).toNat) = v.mTransferSize
  rw [getElem?_getOptionsAsMap, value_tsizeName]
  cases ht : v.mTransferSize with
  | none => rfl
  | some t =>
    simp only [Option.map_some, Option.some.injEq]
    rw [atoi_decimal_of_lt (hs t ht), Int.toNat_natCast, UInt64.ofNat_toNat]

/-- **A printed map with a small size is read back as it was.** -/
theorem optionsOf_eq (h : v.FromMap) (hs : ∀ t ∈ v.mTransferSize, t.toNat < 2 ^ 31) :
    optionsOf v.getOptionsAsMap = { v with wasSetByClient := false } := by
  have heta : optionsOf v.getOptionsAsMap = ⟨false, (optionsOf v.getOptionsAsMap).mBlocksize,
      (optionsOf v.getOptionsAsMap).mTimeout, (optionsOf v.getOptionsAsMap).mTransferSize⟩ := rfl
  rw [heta, h.optionsOf_blocksize, h.optionsOf_timeout, optionsOf_transferSize hs]

theorem acceptable_of_lt (h : v.FromMap) (hs : ∀ t ∈ v.mTransferSize, t.toNat < 2 ^ 31) :
    Acceptable v.getOptionsAsMap :=
  h.acceptable_iff.2 fun t ht => by
    have := hs t ht
    omega

end FromMap

end TransactionOptionValues

end Ttftp

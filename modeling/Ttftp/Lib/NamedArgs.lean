/-
  Arguments that name what they set.

  A table lists keys with their values.  An argument is tried on the keys in their order, and
  sets the value of the first one that it names; that value must still be unset.

  * `settle` gives a value one new value after the other, of which each replaces an unset one;
  * `assignAll_eq_some_iff`: reading the arguments settles each key on its own, with the values
    that the arguments have for it (`valuesFor`).

  Arguments are often a key and a value in one byte string, in which the key is looked up
  (`find`); `infix_append` says where another key can occur in it.
-/
import Mathlib.Data.List.Forall2
import Mathlib.Data.List.Infix
import Mathlib.Data.List.TakeDrop

namespace NamedArgs

/-! ## Substrings -/

/-- An infix of two strings lies in the second one, or starts in the first one. -/
theorem infix_append {γ : Type} {p a b : List γ} (h : p <:+: a ++ b) :
    p <:+: b ∨ ∃ i < a.length, p <+: a.drop i ∨ a.drop i <+: p := by
  obtain ⟨u, v, huv⟩ := h
  rw [List.append_assoc] at huv
  rcases List.append_eq_append_iff.1 huv with ⟨w, rfl, hw⟩ | ⟨w, rfl, rfl⟩
  · rcases w with - | ⟨c, w⟩
    · exact .inl ⟨[], v, by simpa using hw⟩
    · refine .inr ⟨u.length, by simp, ?_⟩
      rw [List.drop_left]
      exact List.prefix_or_prefix_of_prefix ⟨v, hw⟩ (List.prefix_append _ b)
  · exact .inl ⟨w, v, List.append_assoc _ _ _⟩

section
variable {γ : Type} [DecidableEq γ] {s p : List γ}

/-- The position of the first occurrence of `p` in `s`. -/
def find (s p : List γ) : Option ℕ := (List.range (s.length + 1)).find? fun i => p.isPrefixOf (s.drop i)

theorem find_of_prefix (h : p <+: s) : find s p = some 0 := by
  rw [find, List.range_succ_eq_map]
  exact List.find?_cons_of_pos (by simpa using h)

theorem find_eq_none : find s p = none ↔ ¬ p <:+: s := by
  rw [find, List.find?_eq_none]
  simp only [List.mem_range, List.isPrefixOf_iff_prefix]
  constructor
  · rintro h ⟨u, v, rfl⟩
    refine h u.length (by simp only [List.length_append]; omega) ?_
    rw [List.append_assoc, List.drop_left]
    exact List.prefix_append _ _
  · rintro h i - ⟨v, hv⟩
    exact h ⟨s.take i, v, by rw [List.append_assoc, hv, List.take_append_drop]⟩

end

variable {κ α β : Type} (names : α → κ → Option β)

/-! ## Tables -/

section
variable (unset : β) [DecidableEq β]

/-- An argument is tried on the keys in their order. -/
def assign (a : α) : List (κ × β) → Option (List (κ × β))
  | [] => some []
  | (k, v) :: m => match names a k with
    | some w => if v = unset then some ((k, w) :: m) else none
    | none => (assign a m).map ((k, v) :: ·)

def assignAll (args : List α) (m : List (κ × β)) : Option (List (κ × β)) :=
  args.foldlM (fun m a => assign names unset a m) m

/-- A value that is given new values, one after the other. -/
def settle : β → List β → Option β
  | v, [] => some v
  | v, w :: ws => if v = unset then settle w ws else none

/-- The value of a key in one table is settled to that in another. -/
def Settles (vs : κ → List β) (x y : κ × β) : Prop := x.1 = y.1 ∧ settle unset x.2 (vs x.1) = some y.2

theorem settle_append (v : β) (ws ws' : List β) :
    settle unset v (ws ++ ws') = (settle unset v ws).bind fun w => settle unset w ws' := by
  induction ws generalizing v with
  | nil => rfl
  | cons w ws ih =>
    rw [List.cons_append, settle, settle]
    split_ifs
    · exact ih w
    · rfl

variable {unset}

/-- All values but the last one were unset. -/
theorem settle_eq_some_iff {v w : β} {ws : List β} :
    settle unset v ws = some w ↔ (∀ x ∈ (v :: ws).dropLast, x = unset) ∧ (v :: ws).getLast? = some w := by
  induction ws generalizing v with
  | nil => simp [settle]
  | cons u ws ih =>
    rw [settle, List.dropLast_cons_cons, List.forall_mem_cons, List.getLast?_cons_cons, and_assoc, ← ih]
    split_ifs with h
    · exact (and_iff_right h).symm
    · exact iff_of_false (fun hn => by cases hn) fun hn => h hn.1

/-- A value that is unset takes the last one, if the others were unset. -/
theorem settle_unset {w : β} {ws : List β} :
    settle unset unset ws = some w ↔ (∀ x ∈ ws.dropLast, x = unset) ∧ w = ws.getLastD unset := by
  rw [settle_eq_some_iff, List.getLast?_cons, Option.some.injEq, List.getLastD_eq_getLast?, eq_comm (a := w)]
  refine and_congr_left fun _ => ?_
  cases ws with
  | nil => simp
  | cons v ws => rw [List.dropLast_cons_cons, List.forall_mem_cons, and_iff_right rfl]

/-- Any other value is never replaced. -/
theorem settle_of_ne {v w : β} {ws : List β} (h : v ≠ unset) : settle unset v ws = some w ↔ ws = [] ∧ w = v := by
  cases ws with
  | nil => simp [settle, eq_comm]
  | cons u ws => simp [settle, h]

theorem forall₂_settles_keys {vs : κ → List β} {m m' : List (κ × β)} (h : List.Forall₂ (Settles unset vs) m m') :
    m.map Prod.fst = m'.map Prod.fst := by
  induction h with
  | nil => rfl
  | cons hx _ ih => rw [List.map_cons, List.map_cons, hx.1, ih]

/-- Keys without values keep what they have. -/
theorem forall₂_settles_nil {vs : κ → List β} {m m' : List (κ × β)} (h : ∀ x ∈ m, vs x.1 = []) :
    List.Forall₂ (Settles unset vs) m m' ↔ m = m' := by
  induction m generalizing m' with
  | nil => simp [eq_comm]
  | cons x m ih =>
    obtain ⟨hx, hm⟩ := List.forall_mem_cons.1 h
    rw [List.forall₂_cons_left_iff]
    constructor
    · rintro ⟨y, l, ⟨h1, h2⟩, hl, rfl⟩
      rw [hx] at h2
      rw [(ih hm).1 hl, Prod.ext h1 (Option.some.inj h2)]
    · rintro rfl
      exact ⟨x, m, ⟨rfl, by rw [hx]; rfl⟩, (ih hm).2 rfl, rfl⟩

/-- The values after the arguments, where it is known which keys can be settled, and how. -/
theorem forall₂_settles_iff_map {vs : κ → List β} {P : κ × β → Prop} {g : κ × β → β} {m m' : List (κ × β)}
    (h : ∀ x ∈ m, ∀ v, settle unset x.2 (vs x.1) = some v ↔ P x ∧ v = g x) :
    List.Forall₂ (Settles unset vs) m m' ↔ (∀ x ∈ m, P x) ∧ m' = m.map fun x => (x.1, g x) := by
  induction m generalizing m' with
  | nil => simp [List.forall₂_nil_left_iff]
  | cons x m ih =>
    obtain ⟨hx, hm⟩ := List.forall_mem_cons.1 h
    rw [List.forall₂_cons_left_iff, List.forall_mem_cons, List.map_cons]
    constructor
    · rintro ⟨⟨j, v⟩, l, ⟨rfl, hv⟩, hl, rfl⟩
      obtain ⟨hP, rfl⟩ := (hx v).1 hv
      obtain ⟨hPs, rfl⟩ := (ih hm).1 hl
      exact ⟨⟨hP, hPs⟩, rfl⟩
    · rintro ⟨⟨hP, hPs⟩, rfl⟩
      exact ⟨(x.1, g x), _, ⟨rfl, (hx _).2 ⟨hP, rfl⟩⟩, (ih hm).2 ⟨hPs, rfl⟩, rfl⟩

theorem forall₂_settles_append {vs vs' : κ → List β} {m m' : List (κ × β)} :
    List.Forall₂ (Settles unset fun k => vs k ++ vs' k) m m' ↔
      ∃ l, List.Forall₂ (Settles unset vs) m l ∧ List.Forall₂ (Settles unset vs') l m' := by
  induction m generalizing m' with
  | nil => simp [List.forall₂_nil_left_iff]
  | cons x m ih =>
    constructor
    · intro h
      obtain ⟨y, l', ⟨hk, hv⟩, hl, rfl⟩ := List.forall₂_cons_left_iff.1 h
      obtain ⟨v, hv, hv'⟩ := Option.bind_eq_some_iff.1 ((settle_append ..).symm.trans hv)
      obtain ⟨l, h1, h2⟩ := ih.1 hl
      exact ⟨(x.1, v) :: l, .cons ⟨rfl, hv⟩ h1, .cons ⟨hk, hv'⟩ h2⟩
    · rintro ⟨l, h1, h2⟩
      obtain ⟨y, t, ⟨hk, hv⟩, ht, rfl⟩ := List.forall₂_cons_left_iff.1 h1
      obtain ⟨z, t', ⟨hk', hv'⟩, ht', rfl⟩ := List.forall₂_cons_left_iff.1 h2
      refine .cons ⟨hk.trans hk', ?_⟩ (ih.2 ⟨t, ht, ht'⟩)
      rw [settle_append, hv, hk]
      exact hv'

end

/-! ## What the arguments have for a key -/

/-- The first of the keys that an argument names. -/
def keyOf (ks : List κ) (a : α) : Option κ := ks.find? fun k => (names a k).isSome

variable [DecidableEq κ]

/-- The value that an argument has for a key. -/
def valueFor (ks : List κ) (a : α) (k : κ) : Option β :=
  if keyOf names ks a = some k then names a k else none

/-- The values that the arguments have for a key, in their order. -/
def valuesFor (ks : List κ) (args : List α) (k : κ) : List β := args.filterMap fun a => valueFor names ks a k

variable {names}

theorem valueFor_of_notMem {ks : List κ} {a : α} {k : κ} (h : k ∉ ks) : valueFor names ks a k = none :=
  if_neg fun hk => h (List.mem_of_find?_eq_some hk)

/-- An argument that names a key, and none before it. -/
theorem valueFor_of_first {ks : List κ} {a : α} {k : κ} {w : β} (hk : k ∈ ks) (hw : names a k = some w)
    (h : ∀ j ∈ ks.takeWhile (· ≠ k), names a j = none) (j : κ) :
    valueFor names ks a j = if j = k then some w else none := by
  have hkey : keyOf names ks a = some k := by
    induction ks with
    | nil => cases hk
    | cons i ks ih =>
      by_cases hi : i = k
      · rw [hi]
        exact List.find?_cons_of_pos (by rw [hw]; rfl)
      · rw [List.takeWhile_cons_of_pos (by simpa using hi)] at h
        obtain ⟨hn, h⟩ := List.forall_mem_cons.1 h
        exact (List.find?_cons_of_neg (by rw [hn]; exact Bool.false_ne_true)).trans
          (ih ((List.mem_cons.1 hk).resolve_left (Ne.symm hi)) h)
  rw [valueFor, hkey]
  simp only [Option.some.injEq]
  split_ifs with h1 h2 h2
  · rw [h2, hw]
  · exact absurd h1.symm h2
  · exact absurd h2.symm h1
  · rfl

/-- One that names none. -/
theorem valueFor_eq_none {ks : List κ} {a : α} (h : ∀ j ∈ ks, names a j = none) (k : κ) :
    valueFor names ks a k = none := by
  refine if_neg fun hk => ?_
  have hsome := List.find?_some hk
  rw [h k (List.mem_of_find?_eq_some hk)] at hsome
  cases hsome

/-- An argument that names the first key has a value for no other one. -/
theorem valueFor_cons_of_some {ks : List κ} {a : α} {j k : κ} {w : β} (h : names a j = some w) :
    valueFor names (j :: ks) a k = if k = j then some w else none :=
  valueFor_of_first List.mem_cons_self h (fun i hi => by simp at hi) k

theorem valueFor_cons_of_none {ks : List κ} {a : α} {j k : κ} (h : names a j = none) :
    valueFor names (j :: ks) a k = valueFor names ks a k := by
  have hkey : keyOf names (j :: ks) a = keyOf names ks a := List.find?_cons_of_neg (by rw [h]; exact Bool.false_ne_true)
  rw [valueFor, valueFor, hkey]

theorem valuesFor_cons (ks : List κ) (a : α) (args : List α) (k : κ) :
    valuesFor names ks (a :: args) k = (valueFor names ks a k).toList ++ valuesFor names ks args k := by
  rw [valuesFor, valuesFor, List.filterMap_cons]
  cases valueFor names ks a k <;> rfl

/-- Arguments in any order, of which each key is named by at most one. -/
theorem valuesFor_of_perm [BEq κ] [LawfulBEq κ] {render : κ × β → α} {ks : List κ} {opts : List (κ × β)} {others args : List α}
    (hnd : (opts.map Prod.fst).Nodup)
    (hopts : ∀ x ∈ opts, ∀ k, valueFor names ks (render x) k = if k = x.1 then some x.2 else none)
    (hothers : ∀ a ∈ others, ∀ k, valueFor names ks a k = none) (hargs : args.Perm (opts.map render ++ others))
    (k : κ) : valuesFor names ks args k = (opts.lookup k).toList := by
  have hopts' : valuesFor names ks (opts.map render) k = (opts.lookup k).toList := by
    clear hargs
    induction opts with
    | nil => rfl
    | cons x opts ih =>
      obtain ⟨hx, hnd⟩ : x.1 ∉ opts.map Prod.fst ∧ (opts.map Prod.fst).Nodup := List.nodup_cons.1 hnd
      obtain ⟨hx', hopts⟩ := List.forall_mem_cons.1 hopts
      rw [List.map_cons, valuesFor_cons, hx', ih hnd hopts, List.lookup_cons]
      split_ifs with hk
      · subst hk
        have hnone : opts.lookup x.1 = none := List.lookup_eq_none_iff.2 fun y hy => by
          exact bne_iff_ne.2 fun hxy => hx (hxy ▸ List.mem_map_of_mem hy)
        simp [hnone]
      · rw [beq_eq_false_iff_ne.2 hk]
        rfl
  have hothers' : valuesFor names ks others k = [] := List.filterMap_eq_nil_iff.2 fun a ha => hothers a ha k
  have hperm : (valuesFor names ks args k).Perm (opts.lookup k).toList := by
    have h := hargs.filterMap fun a => valueFor names ks a k
    rwa [List.filterMap_append, show List.filterMap _ (opts.map render) = _ from hopts',
      show List.filterMap _ others = _ from hothers', List.append_nil] at h
  cases hl : opts.lookup k with
  | none =>
    rw [hl] at hperm
    exact List.perm_nil.1 hperm
  | some v =>
    rw [hl] at hperm
    exact List.perm_singleton.1 hperm

/-! ## Reading the arguments -/

variable {unset : β} [DecidableEq β]

/-- One argument. -/
theorem assign_eq_some_iff {a : α} {m m' : List (κ × β)} (hm : (m.map Prod.fst).Nodup) :
    assign names unset a m = some m' ↔
      List.Forall₂ (Settles unset fun k => (valueFor names (m.map Prod.fst) a k).toList) m m' := by
  induction m generalizing m' with
  | nil => simp [assign, eq_comm]
  | cons x m ih =>
    obtain ⟨k, v⟩ := x
    obtain ⟨hk, hm⟩ : k ∉ m.map Prod.fst ∧ (m.map Prod.fst).Nodup := List.nodup_cons.1 hm
    have hne : ∀ x ∈ m, k ≠ x.1 := fun x hx hkx => hk (hkx ▸ List.mem_map_of_mem hx)
    rw [assign, List.map_cons, List.forall₂_cons_left_iff]
    cases hn : names a k with
    | some w =>
      have hkeep : ∀ x ∈ m, (valueFor names (k :: m.map Prod.fst) a x.1).toList = [] := fun x hx => by
        rw [valueFor_cons_of_some hn, if_neg (hne x hx).symm]
        rfl
      have hnil : ∀ l, List.Forall₂ (Settles unset fun j => (valueFor names (k :: m.map Prod.fst) a j).toList) m l ↔
          m = l := fun l => forall₂_settles_nil hkeep
      simp only [hnil]
      simp only [Settles, valueFor_cons_of_some hn, if_true, Option.toList_some, settle]
      split_ifs with hv
      · constructor
        · rintro ⟨⟩
          exact ⟨_, _, ⟨rfl, rfl⟩, rfl, rfl⟩
        · rintro ⟨⟨j, u⟩, l, ⟨rfl, h⟩, rfl, rfl⟩
          cases h
          rfl
      · refine iff_of_false (fun h => by cases h) ?_
        rintro ⟨y, l, ⟨-, h2⟩, -⟩
        cases h2
    | none =>
      have hk' : valueFor names (m.map Prod.fst) a k = none := valueFor_of_notMem hk
      simp only [Settles, valueFor_cons_of_none hn, hk', Option.toList_none, settle, Option.map_eq_some_iff, ih hm]
      constructor
      · rintro ⟨l, hl, rfl⟩
        exact ⟨_, l, ⟨rfl, rfl⟩, hl, rfl⟩
      · rintro ⟨⟨j, u⟩, l, ⟨rfl, h⟩, hl, rfl⟩
        cases h
        exact ⟨l, hl, rfl⟩

/-- **Each key is settled on its own.** -/
theorem assignAll_eq_some_iff {args : List α} {m m' : List (κ × β)} (hm : (m.map Prod.fst).Nodup) :
    assignAll names unset args m = some m' ↔
      List.Forall₂ (Settles unset (valuesFor names (m.map Prod.fst) args)) m m' := by
  induction args generalizing m with
  | nil =>
    rw [forall₂_settles_nil fun _ _ => rfl]
    exact Option.some_inj
  | cons a args ih =>
    have hvs : valuesFor names (m.map Prod.fst) (a :: args) = fun k =>
        (valueFor names (m.map Prod.fst) a k).toList ++ valuesFor names (m.map Prod.fst) args k :=
      funext fun k => valuesFor_cons _ _ _ _
    rw [hvs, forall₂_settles_append]
    refine Option.bind_eq_some_iff.trans (exists_congr fun l => ?_)
    rw [assign_eq_some_iff hm]
    refine and_congr_right fun hl => ?_
    have hkeys := forall₂_settles_keys hl
    rw [hkeys] at hm ⊢
    exact ih hm

end NamedArgs

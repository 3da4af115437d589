/-
  Paths, resolved lexically.

  A path is read from left to right; at a separator the segment that has been read is
  entered.  An empty segment and `.` lead nowhere, and `..` leads up, from the root of
  the file system to itself.  Relative paths start at a working directory.

  For a path that is a root folder with a name appended to it, `inside_append_iff` says
  when it leads into the root folder.
-/
import Mathlib.Data.List.Infix
import Mathlib.Data.List.TakeDrop
import Mathlib.Data.Nat.Notation
import Mathlib.Tactic.SplitIfs
import Ttftp.Lib.Bytes

namespace Path

/-- The separator `/`. -/
def sep : UInt8 := 47

/-- The byte `.`. -/
def dot : UInt8 := 46

/-- Enter a segment, from a folder given by its names from the top. -/
def enter (dir : List Bytes) (seg : Bytes) : List Bytes :=
  if seg = [] ∨ seg = [dot] then dir
  else if seg = [dot, dot] then dir.dropLast
  else dir ++ [seg]

/-- Read one byte, in a folder and with the part of a segment that has been read. -/
def read (x : List Bytes × Bytes) (b : UInt8) : List Bytes × Bytes :=
  if b = sep then (enter x.1 x.2, []) else (x.1, x.2 ++ [b])

/-- Where a path starts. -/
def start (cwd : List Bytes) (p : Bytes) : List Bytes := if p.head? = some sep then [] else cwd

/-- Where a path leads. -/
def resolve (cwd : List Bytes) (p : Bytes) : List Bytes :=
  let x := p.foldl read (start cwd p, [])
  enter x.1 x.2

/-- A path leads to a folder, or to something in it. -/
def Inside (cwd : List Bytes) (folder p : Bytes) : Prop := resolve cwd folder <+: resolve cwd p

instance (cwd : List Bytes) (folder p : Bytes) : Decidable (Inside cwd folder p) :=
  inferInstanceAs (Decidable (_ <+: _))

/-! ## The way from a folder -/

/-- So many folders up, and then down. -/
structure Way where
  up : ℕ := 0
  down : List Bytes := []

namespace Way

def enter (w : Way) (seg : Bytes) : Way :=
  if seg = [] ∨ seg = [dot] then w
  else if seg = [dot, dot] then
    if w.down = [] then { w with up := w.up + 1 } else { w with down := w.down.dropLast }
  else { w with down := w.down ++ [seg] }

def read (x : Way × Bytes) (b : UInt8) : Way × Bytes :=
  if b = sep then (x.1.enter x.2, []) else (x.1, x.2 ++ [b])

/-- The way on which a path leads, if it follows on the segment `rest`. -/
def of (rest name : Bytes) : Way :=
  let x := name.foldl read ({}, rest)
  x.1.enter x.2

/-- The folder to which it leads. -/
def target (w : Way) (dir : List Bytes) : List Bytes := dir.take (dir.length - w.up) ++ w.down

theorem enter_target (w : Way) (dir : List Bytes) (seg : Bytes) :
    Path.enter (w.target dir) seg = (w.enter seg).target dir := by
  unfold Path.enter enter
  split_ifs with h1 h2 h3
  · rfl
  · simp only [target, h3, List.append_nil, List.dropLast_eq_take, List.take_take, List.length_take]
    congr 1
    omega
  · exact List.dropLast_append_of_ne_nil h3
  · exact List.append_assoc _ _ _

theorem foldl_read (name : Bytes) (dir : List Bytes) (x : Way × Bytes) :
    name.foldl Path.read (x.1.target dir, x.2) =
      ((name.foldl read x).1.target dir, (name.foldl read x).2) := by
  induction name generalizing x with
  | nil => rfl
  | cons b name ih =>
    have hread : Path.read (x.1.target dir, x.2) b = ((read x b).1.target dir, (read x b).2) := by
      unfold Path.read read
      split_ifs
      · exact congrArg (·, []) (enter_target _ _ _)
      · rfl
    rw [List.foldl_cons, List.foldl_cons, hread, ih]

end Way

variable {cwd : List Bytes} {root name : Bytes}

/-- The last separator of a root folder: the folder up to there, and what follows. -/
def lastSep (cwd : List Bytes) (root name : Bytes) : List Bytes × Bytes :=
  root.foldl read (start cwd (root ++ name), [])

theorem resolve_append (cwd : List Bytes) (root name : Bytes) : resolve cwd (root ++ name) =
    (Way.of (lastSep cwd root name).2 name).target (lastSep cwd root name).1 := by
  have h := Way.foldl_read name (lastSep cwd root name).1 ({}, (lastSep cwd root name).2)
  simp only [Way.target, Nat.sub_zero, List.take_length, List.append_nil] at h
  simp only [resolve, List.foldl_append]
  rw [show root.foldl read (start cwd (root ++ name), []) =
    ((lastSep cwd root name).1, (lastSep cwd root name).2) from rfl, h]
  exact Way.enter_target _ _ _

/-- A name stays in a root folder: what it leaves of the root folder, going up from the
    last separator, it enters again. -/
def Stays (cwd : List Bytes) (root name : Bytes) : Prop :=
  (resolve cwd root).drop ((lastSep cwd root name).1.length - (Way.of (lastSep cwd root name).2 name).up) <+:
    (Way.of (lastSep cwd root name).2 name).down

instance (cwd : List Bytes) (root name : Bytes) : Decidable (Stays cwd root name) :=
  inferInstanceAs (Decidable (_ <+: _))

/-- A folder that is entered agrees with the one it is entered from, as far as that is
    not left again. -/
theorem enter_prefix_iff (dir : List Bytes) (seg : Bytes) {k : ℕ} (hk : k ≤ dir.length) (down : List Bytes) :
    enter dir seg <+: dir.take k ++ down ↔ (enter dir seg).drop k <+: down := by
  have key : ∀ l : List Bytes, l.take k = dir.take k → (l <+: dir.take k ++ down ↔ l.drop k <+: down) := by
    intro l hl
    have h : l.take k ++ l.drop k <+: l.take k ++ down ↔ l.drop k <+: down :=
      List.prefix_append_right_inj (l.take k)
    rwa [List.take_append_drop, hl] at h
  unfold enter
  split_ifs
  · exact key dir rfl
  · by_cases hlt : k < dir.length
    · refine key dir.dropLast ?_
      rw [List.dropLast_eq_take, List.take_take, Nat.min_eq_left (by omega)]
    · -- the last folder is left, and with it nothing that the way could leave
      obtain rfl : k = dir.length := by omega
      rw [List.take_length, List.drop_eq_nil_of_le (by simp)]
      exact iff_of_true ((List.dropLast_prefix dir).trans (List.prefix_append _ _)) List.nil_prefix
  · exact key _ (List.take_append_of_le_length hk)

/-- **When a name that is appended to a root folder stays in it.** -/
theorem inside_append_iff (cwd : List Bytes) (root name : Bytes) :
    Inside cwd root (root ++ name) ↔ Stays cwd root name := by
  rw [Inside, resolve_append, Way.target, Stays]
  cases root with
  | nil =>
    -- nothing is read of an empty root folder
    by_cases hs : start cwd name = cwd
    · have hdir : lastSep cwd [] name = (cwd, []) := congrArg (·, []) hs
      rw [hdir]
      exact enter_prefix_iff cwd [] (Nat.sub_le _ _) _
    · have hnil : start cwd name = [] := by
        unfold start at hs ⊢
        split_ifs at hs ⊢
        · rfl
        · exact absurd rfl hs
      have hdir : lastSep cwd [] name = ([], []) := congrArg (·, []) hnil
      rw [hdir]
      simp only [List.take_nil, List.nil_append, List.length_nil, Nat.zero_sub, List.drop_zero]
  | cons b root => exact enter_prefix_iff _ _ (Nat.sub_le _ _) _

/-- A root folder that ends in a separator is left only upwards. -/
theorem stays_of_up_eq_zero (cwd : List Bytes) (root : Bytes) {name : Bytes} (hup : (Way.of [] name).up = 0) :
    Stays cwd (root ++ [sep]) name := by
  have hstart : start cwd (root ++ [sep] ++ name) = start cwd (root ++ [sep]) := by
    unfold start
    cases root <;> rfl
  have hrest : (lastSep cwd (root ++ [sep]) name).2 = [] := by
    rw [lastSep, List.foldl_append]
    rfl
  have hdir : resolve cwd (root ++ [sep]) = (lastSep cwd (root ++ [sep]) name).1 := by
    rw [resolve, ← hstart]
    change enter (lastSep cwd (root ++ [sep]) name).1 (lastSep cwd (root ++ [sep]) name).2 = _
    rw [hrest]
    exact if_pos (.inl rfl)
  rw [Stays, hrest, hdir, hup, Nat.sub_zero, List.drop_length]
  exact List.nil_prefix

end Path

/-
  The command line.

  The named arguments are read as the library reads them (`readArgs_eq_assignAll`), so that each
  key is settled on its own: `readArgs_eq_some_iff` says which command lines are read, and what
  they mean.  No command line can name a root folder, as the working directory is there already.
-/
import Ttftp.CommandLine
import Ttftp.Proof.Service

namespace Ttftp

open Bytes Asio NamedArgs

namespace CommandLine

/-! ## The named arguments -/

/-- What an argument has for a key that occurs in it. -/
def names (currArg key : Bytes) : Option Bytes :=
  (find currArg key).map fun namedArgPos => currArg.drop (namedArgPos + key.length)

theorem readArg_eq_assign (currArg : Bytes) (m : List (Bytes × Bytes)) :
    readArg currArg m = assign names [] currArg m := by
  induction m with
  | nil => rfl
  | cons x m ih =>
    rw [readArg, assign, names]
    cases find currArg x.1 with
    | none => rw [ih]; rfl
    | some pos => rfl

theorem readArgs_eq_assignAll (argv : List Bytes) (m : List (Bytes × Bytes)) :
    readArgs argv m = assignAll names [] argv m := by
  induction argv generalizing m with
  | nil => rfl
  | cons a argv ih =>
    rw [readArgs, readArg_eq_assign]
    exact congrArg _ (funext ih)

def keys : List Bytes := [blksizeArg, fileArg, portArg, requestArg, rootArg, timeoutArg, typeArg]

/-- The values that the arguments have for a key, each behind the first key that occurs. -/
def given (argv : List Bytes) (key : Bytes) : List Bytes := valuesFor names keys argv key

/-- No root folder is given, and of each other key no value after one that is not empty. -/
structure Clear (argv : List Bytes) : Prop where
  root : given argv rootArg = []
  once : ∀ key ∈ keys, ∀ v ∈ (given argv key).dropLast, v = []

/-- What the arguments mean in a working directory. -/
def meaning (cwd : Bytes) (argv : List Bytes) (key : Bytes) : Bytes :=
  if key = rootArg then cwd else (given argv key).getLastD []

/-- **Which command lines are read**, and what they mean. -/
theorem readArgs_eq_some_iff {cwd : Bytes} (hcwd : cwd ≠ []) {argv : List Bytes} {m : List (Bytes × Bytes)} :
    readArgs argv (namedArgValues cwd) = some m ↔ Clear argv ∧ m = keys.map fun key => (key, meaning cwd argv key) := by
  have hkeys : (namedArgValues cwd).map Prod.fst = keys := rfl
  have hvalue : ∀ x ∈ namedArgValues cwd, x.2 = if x.1 = rootArg then cwd else [] := by
    have hne : ∀ key, key ≠ rootArg → ([] : Bytes) = if key = rootArg then cwd else [] := fun key h => (if_neg h).symm
    simp only [namedArgValues, List.forall_mem_cons, List.not_mem_nil, false_implies, implies_true, and_true]
    exact ⟨hne _ (by decide), hne _ (by decide), hne _ (by decide), hne _ (by decide), (if_pos trivial).symm,
      hne _ (by decide), hne _ (by decide)⟩
  have hsettle : ∀ x ∈ namedArgValues cwd, ∀ v, settle [] x.2 (given argv x.1) = some v ↔
      ((x.1 = rootArg → given argv x.1 = []) ∧ ∀ v ∈ (given argv x.1).dropLast, v = []) ∧ v = meaning cwd argv x.1 := by
    intro x hx v
    rw [hvalue x hx, meaning]
    split_ifs with hroot
    · rw [settle_of_ne hcwd]
      refine and_congr_left fun _ => ⟨fun h => ⟨fun _ => h, by simp [h]⟩, fun h => h.1 hroot⟩
    · rw [settle_unset]
      exact and_congr_left fun _ => (and_iff_right fun h => absurd h hroot).symm
  rw [readArgs_eq_assignAll, assignAll_eq_some_iff (by rw [hkeys]; decide), hkeys]
  refine (forall₂_settles_iff_map hsettle).trans (and_congr ⟨fun h => ⟨?_, fun key hkey => ?_⟩, fun h x hx => ?_⟩ ?_)
  · exact (h (rootArg, cwd) (by simp [namedArgValues])).1 rfl
  · rw [← hkeys] at hkey
    obtain ⟨x, hx, rfl⟩ := List.mem_map.1 hkey
    exact (h x hx).2
  · exact ⟨fun hroot => hroot ▸ h.root, h.once x.1 (hkeys ▸ List.mem_map_of_mem hx)⟩
  · rw [← hkeys, List.map_map]
    rfl

/-- The map that is read. -/
def table (cwd : Bytes) (argv : List Bytes) : List (Bytes × Bytes) := keys.map fun key => (key, meaning cwd argv key)

theorem lookup_cons_ite (key v : Bytes) (l : List (Bytes × Bytes)) (j : Bytes) :
    ((key, v) :: l).lookup j = if j = key then some v else l.lookup j := by
  rw [List.lookup_cons]
  split_ifs with h
  · rw [beq_iff_eq.2 h]
  · rw [beq_eq_false_iff_ne.2 h]

theorem value_table {cwd : Bytes} {argv : List Bytes} {key : Bytes} (h : key ∈ keys) :
    value (table cwd argv) key = meaning cwd argv key := by
  have hlookup : ∀ ks : List Bytes, key ∈ ks →
      (ks.map fun key => (key, meaning cwd argv key)).lookup key = some (meaning cwd argv key) := by
    intro ks hks
    induction ks with
    | nil => cases hks
    | cons k ks ih =>
      rw [List.map_cons, lookup_cons_ite]
      split_ifs with hk
      · rw [hk]
      · exact ih ((List.mem_cons.1 hks).resolve_left hk)
  rw [value, table, hlookup keys h]
  rfl

theorem meaning_root (cwd : Bytes) (argv : List Bytes) : meaning cwd argv rootArg = cwd := if_pos rfl

section
variable {os : OperatingSystem} {address : Option Address} {m : List (Bytes × Bytes)}

theorem launch_eq_client_iff {c : TftpClient} : launch os address m = .client c ↔ value m typeArg = ascii "client" ∧
    ∃ a v, address = some a ∧ clientTransValues m = some v ∧ c = (TftpClient.new os (value m rootArg)).start
      ⟨a, port m⟩ (requestType m) (value m fileArg) v .octet := by
  unfold launch
  split_ifs with h1 h2 h3
  · rw [and_iff_right h1]
    cases address with
    | none => simp
    | some a => cases clientTransValues m <;> simp [eq_comm]
  all_goals exact iff_of_false (fun h => by cases h) fun h => h1 h.1

end

section
variable {os : OperatingSystem} {makeAddress : Bytes → Option Address} {cwd : Bytes} {argv : List Bytes}

/-- What is run, once it is known that the arguments can be read. -/
theorem run_eq (hos : os.absolute (ascii "./") = some cwd) (hcwd : cwd ≠ []) (hclear : Clear argv) {argIP : Bytes}
    (hlast : argv.getLast? = some argIP) :
    run os makeAddress argv = launch os (makeAddress argIP) (table cwd argv) := by
  have hread := (@readArgs_eq_some_iff cwd hcwd argv (table cwd argv)).2 ⟨hclear, rfl⟩
  rw [run, hlast]
  simp only [hos, hread]

theorem run_eq_usage (hos : os.absolute (ascii "./") = some cwd) (hcwd : cwd ≠ []) (h : ¬ (Clear argv ∧ argv ≠ [])) :
    run os makeAddress argv = .print_usage_msg := by
  rw [run]
  cases hlast : argv.getLast? with
  | none => rfl
  | some argIP =>
    simp only [hos]
    cases hm : readArgs argv (namedArgValues cwd) with
    | none => rfl
    | some m =>
      refine absurd ⟨((readArgs_eq_some_iff hcwd).1 hm).1, fun hempty => ?_⟩ h
      rw [hempty] at hlast
      cases hlast

/-- Without a working directory nothing is started. -/
theorem run_no_directory (hos : os.absolute (ascii "./") = none) :
    run os makeAddress argv = if argv = [] then .print_usage_msg else .threw := by
  rw [run]
  cases argv with
  | nil => rfl
  | cons a argv => simp only [List.getLast?_cons, hos, if_neg (List.cons_ne_nil a argv)]

/-- What is started depends on the arguments alone, apart from the working directory. -/
theorem run_eq_iff (hcwd : os.absolute (ascii "./") ≠ some []) {x : Program}
    (hx : x ≠ .print_usage_msg ∧ x ≠ .threw) :
    run os makeAddress argv = x ↔ ∃ cwd argIP, os.absolute (ascii "./") = some cwd ∧ argv.getLast? = some argIP ∧
      Clear argv ∧ launch os (makeAddress argIP) (table cwd argv) = x := by
  cases hos : os.absolute (ascii "./") with
  | none =>
    rw [run_no_directory hos]
    refine iff_of_false ?_ fun ⟨_, _, h, _⟩ => by cases h
    split_ifs
    · exact hx.1.symm
    · exact hx.2.symm
  | some cwd =>
    have hne : cwd ≠ [] := fun h => hcwd (by rw [hos, h])
    by_cases h : Clear argv ∧ argv ≠ []
    · obtain ⟨hclear, hargv⟩ := h
      have hlast := List.getLast?_eq_some_getLast hargv
      rw [run_eq hos hne hclear hlast]
      constructor
      · exact fun h => ⟨cwd, _, rfl, hlast, hclear, h⟩
      · rintro ⟨_, _, heq, hlast', -, h⟩
        obtain rfl := Option.some.inj heq
        rw [hlast, Option.some.injEq] at hlast'
        rw [hlast']
        exact h
    · rw [run_eq_usage hos hne h]
      refine iff_of_false hx.1.symm ?_
      rintro ⟨-, argIP, -, hlast, hclear, -⟩
      refine h ⟨hclear, fun hempty => ?_⟩
      rw [hempty] at hlast
      cases hlast

theorem run_eq_client_iff (hcwd : os.absolute (ascii "./") ≠ some []) {c : TftpClient} :
    run os makeAddress argv = .client c ↔ ∃ cwd argIP address v, os.absolute (ascii "./") = some cwd ∧
      argv.getLast? = some argIP ∧ Clear argv ∧ meaning cwd argv typeArg = ascii "client" ∧
        makeAddress argIP = some address ∧ clientTransValues (table cwd argv) = some v ∧
          c = (TftpClient.new os cwd).start ⟨address, port (table cwd argv)⟩ (requestType (table cwd argv))
            (meaning cwd argv fileArg) v .octet := by
  rw [run_eq_iff hcwd ⟨(fun h => by cases h), fun h => by cases h⟩]
  constructor
  · rintro ⟨cwd, argIP, hos, hlast, hclear, h⟩
    obtain ⟨htype, address, v, haddress, hv, rfl⟩ := launch_eq_client_iff.1 h
    rw [value_table (by decide)] at htype
    refine ⟨cwd, argIP, address, v, hos, hlast, hclear, htype, haddress, hv, ?_⟩
    rw [value_table (by decide), value_table (by decide), meaning_root]
  · rintro ⟨cwd, argIP, address, v, hos, hlast, hclear, htype, haddress, hv, rfl⟩
    refine ⟨cwd, argIP, hos, hlast, hclear, launch_eq_client_iff.2 ⟨?_, address, v, haddress, hv, ?_⟩⟩
    · rw [value_table (by decide)]
      exact htype
    · rw [value_table (by decide), value_table (by decide), meaning_root]

end

/-- No key can begin in the last bytes of another one. -/
theorem keys_apart : ∀ k ∈ keys, ∀ j ∈ keys, j ≠ k → ∀ i < k.length, ¬ (j <+: k.drop i ∨ k.drop i <+: j) := by
  decide +kernel

/-- A key with a value that contains no key before it. -/
theorem valueFor_argument {k v : Bytes} (hk : k ∈ keys) (hv : ∀ j ∈ keys.takeWhile (· ≠ k), ¬ j <:+: v) (j : Bytes) :
    valueFor names keys (k ++ v) j = if j = k then some v else none := by
  refine valueFor_of_first hk ?_ (fun j hj => ?_) j
  · rw [names, find_of_prefix (List.prefix_append k v), Option.map_some, Nat.zero_add, List.drop_left]
  · have hjk : j ≠ k := by simpa using List.mem_takeWhile_imp hj
    have hmem : j ∈ keys := (List.takeWhile_sublist _).subset hj
    rw [names, find_eq_none.2, Option.map_none]
    intro hin
    rcases infix_append hin with hin | ⟨i, hi, hover⟩
    · exact hv j hj hin
    · exact keys_apart k hk j hmem hjk i hi hover

theorem valueFor_of_no_key {a : Bytes} (h : ∀ key ∈ keys, ¬ key <:+: a) (j : Bytes) :
    valueFor names keys a j = none :=
  valueFor_eq_none (fun k hk => by rw [names, find_eq_none.2 (h k hk)]; rfl) j

/-- What a user asks of a client. -/
structure Request where
  write : Bool
  file : Bytes
  blksize : Option ℕ := none
  timeout : Option ℕ := none
  port : Option UInt16 := none

/-- The argument for a number, if there is one. -/
def numberArg (key : Bytes) (n : Option ℕ) : List (Bytes × Bytes) := (n.map fun n => (key, decimal n)).toList

theorem numberArg_keys (key : Bytes) (n : Option ℕ) : ((numberArg key n).map Prod.fst).Sublist [key] := by
  cases n with
  | none => exact List.nil_sublist _
  | some n => exact List.Sublist.refl _

theorem lookup_numberArg (key : Bytes) (n : Option ℕ) (j : Bytes) :
    (numberArg key n).lookup j = if j = key then n.map decimal else none := by
  cases n with
  | none => exact (ite_self none).symm
  | some n => exact lookup_cons_ite _ _ _ _

theorem not_infix_decimal {key : Bytes} (h : key ∈ keys) (n : ℕ) : ¬ key <:+: decimal n := by
  intro hin
  have hdash : ∀ key ∈ keys, (45 : UInt8) ∈ key := by decide +kernel
  have h45 := (isDigit_of_mem_decimal (hin.subset (hdash key h))).1
  exact absurd h45 (by decide)

theorem inRange_decimal {low high : ℤ} {o : Option ℕ} (hhigh : high < 2 ^ 31) (h : ∀ n ∈ o, low ≤ n ∧ (n : ℤ) ≤ high) :
    inRange low high ((o.map decimal).getD []) = some (o.map Int.ofNat) := by
  cases o with
  | none => rfl
  | some n =>
    obtain ⟨h1, h2⟩ := h n rfl
    rw [inRange, Option.map_some, Option.getD_some, if_neg (isNumeral_decimal n).1, atoi_decimal_of_lt (by omega),
      if_neg (by omega)]
    rfl

namespace Request

/-- The named arguments, with their values. -/
def named (x : Request) : List (Bytes × Bytes) :=
  [(typeArg, ascii "client"), (requestArg, if x.write then ascii "write" else ascii "read"), (fileArg, x.file)] ++
    (numberArg blksizeArg x.blksize ++ (numberArg timeoutArg x.timeout ++ numberArg portArg (x.port.map UInt16.toNat)))

def optionVals (x : Request) : TransactionOptionValues where
  mBlocksize := x.blksize
  mTimeout := x.timeout.map UInt8.ofNat

/-- The options are in their ranges, and the name of the file is not taken for another argument. -/
structure Valid (x : Request) : Prop where
  blksize : ∀ n ∈ x.blksize, 8 ≤ n ∧ n ≤ 65464
  timeout : ∀ n ∈ x.timeout, 1 ≤ n ∧ n ≤ 255
  file : ¬ blksizeArg <:+: x.file

variable {x : Request}

theorem named_keys (x : Request) : (x.named.map Prod.fst).Nodup := by
  have hsub : (x.named.map Prod.fst).Sublist [typeArg, requestArg, fileArg, blksizeArg, timeoutArg, portArg] := by
    rw [named, List.map_append, List.map_append, List.map_append]
    exact (List.Sublist.refl [typeArg, requestArg, fileArg]).append ((numberArg_keys _ _).append
      ((numberArg_keys _ _).append (numberArg_keys _ _)))
  exact hsub.nodup (by decide)

/-- The values contain no key that could be taken first. -/
theorem named_values (h : x.Valid) : ∀ y ∈ x.named, y.1 ∈ keys ∧ ∀ j ∈ keys.takeWhile (· ≠ y.1), ¬ j <:+: y.2 := by
  have hearlier : ∀ {k j : Bytes}, j ∈ keys.takeWhile (· ≠ k) → j ∈ keys := fun hj =>
    (List.takeWhile_sublist _).subset hj
  have hword : ∀ j ∈ keys, ¬ j <:+: ascii "client" ∧ ¬ j <:+: ascii "write" ∧ ¬ j <:+: ascii "read" := by
    decide +kernel
  have hnumber : ∀ key ∈ keys, ∀ n, ∀ y ∈ numberArg key n,
      y.1 ∈ keys ∧ ∀ j ∈ keys.takeWhile (· ≠ y.1), ¬ j <:+: y.2 := by
    intro key hkey n y hy
    obtain ⟨n, rfl, rfl⟩ := Option.map_eq_some_iff.1 (Option.mem_toList.1 hy)
    exact ⟨hkey, fun j hj => not_infix_decimal (hearlier hj) n⟩
  intro y hy
  rw [named, List.mem_append, List.mem_append, List.mem_append] at hy
  rcases hy with hy | hy | hy | hy
  · simp only [List.mem_cons, List.not_mem_nil, or_false] at hy
    rcases hy with rfl | rfl | rfl
    · exact ⟨by decide, fun j hj => (hword j (hearlier hj)).1⟩
    · refine ⟨show requestArg ∈ keys by decide, fun j hj => ?_⟩
      have hj' := hword j (hearlier hj)
      dsimp only
      split_ifs
      · exact hj'.2.1
      · exact hj'.2.2
    · refine ⟨show fileArg ∈ keys by decide, fun j hj => ?_⟩
      have hfirst : keys.takeWhile (· ≠ fileArg) = [blksizeArg] := by decide
      rw [hfirst, List.mem_singleton] at hj
      rw [hj]
      exact h.file
  · exact hnumber _ (by decide) _ _ hy
  · exact hnumber _ (by decide) _ _ hy
  · exact hnumber _ (by decide) _ _ hy

/-- A command line for the request: the named arguments in any order, among others that contain no key. -/
structure Line (x : Request) (argv : List Bytes) : Prop where
  args : ∃ others, argv.Perm (x.named.map (fun y => y.1 ++ y.2) ++ others) ∧ ∀ a ∈ others, ∀ key ∈ keys, ¬ key <:+: a

theorem Line.given {argv : List Bytes} (h : x.Line argv) (hx : x.Valid) (key : Bytes) :
    given argv key = (x.named.lookup key).toList := by
  obtain ⟨others, hperm, hothers⟩ := h.args
  refine valuesFor_of_perm x.named_keys (fun y hy k => ?_) (fun a ha k => valueFor_of_no_key (hothers a ha) k) hperm key
  obtain ⟨hkey, hvalue⟩ := named_values hx y hy
  exact valueFor_argument hkey hvalue k

theorem lookup_named (x : Request) (j : Bytes) : x.named.lookup j =
    if j = typeArg then some (ascii "client")
    else if j = requestArg then some (if x.write then ascii "write" else ascii "read")
    else if j = fileArg then some x.file
    else if j = blksizeArg then x.blksize.map decimal
    else if j = timeoutArg then x.timeout.map decimal
    else if j = portArg then x.port.map fun n => decimal n.toNat
    else none := by
  rw [named, List.cons_append, List.cons_append, List.cons_append, List.nil_append, lookup_cons_ite, lookup_cons_ite,
    lookup_cons_ite, List.lookup_append, List.lookup_append, lookup_numberArg, lookup_numberArg, lookup_numberArg]
  congr 3
  by_cases hb : j = blksizeArg
  · rw [hb, if_pos rfl, if_pos rfl, if_neg (by decide), if_neg (by decide)]
    exact Option.or_none
  rw [if_neg hb, if_neg hb, Option.none_or]
  by_cases ht : j = timeoutArg
  · rw [ht, if_pos rfl, if_pos rfl, if_neg (by decide)]
    exact Option.or_none
  rw [if_neg ht, if_neg ht, Option.none_or, Option.map_map]
  rfl

theorem Line.meaning {argv : List Bytes} (h : x.Line argv) (hx : x.Valid) (cwd : Bytes) {key : Bytes}
    (hkey : key ≠ rootArg) : meaning cwd argv key = (x.named.lookup key).getD [] := by
  rw [CommandLine.meaning, if_neg hkey, h.given hx]
  cases x.named.lookup key <;> rfl

theorem Line.clear {argv : List Bytes} (h : x.Line argv) (hx : x.Valid) : Clear argv where
  root := by
    rw [h.given hx, lookup_named]
    rfl
  once key _ v hv := by
    rw [h.given hx] at hv
    cases hl : x.named.lookup key with
    | none =>
      rw [hl] at hv
      cases hv
    | some w =>
      rw [hl] at hv
      cases hv

/-- **The client that was asked for is started**, whatever the order of the arguments. -/
theorem run_line {os : OperatingSystem} {cwd : Bytes} (hos : os.absolute (ascii "./") = some cwd) (hcwd : cwd ≠ [])
    {makeAddress : Bytes → Option Address} {argv : List Bytes} {argIP : Bytes} {address : Address} (hx : x.Valid)
    (h : x.Line argv) (hlast : argv.getLast? = some argIP) (haddress : makeAddress argIP = some address) :
    run os makeAddress argv = .client ((TftpClient.new os cwd).start
      ⟨address, x.port.getD serverListenPort⟩ (if x.write then .wrq else .rrq) x.file x.optionVals .octet) := by
  have hv : ∀ {key}, key ∈ keys → key ≠ rootArg → value (table cwd argv) key = (x.named.lookup key).getD [] :=
    fun hkey hne => (value_table hkey).trans (h.meaning hx cwd hne)
  have htype : value (table cwd argv) typeArg = ascii "client" := by
    rw [hv (by decide) (by decide), lookup_named, if_pos rfl]
    rfl
  have hrequest : value (table cwd argv) requestArg = if x.write then ascii "write" else ascii "read" := by
    rw [hv (by decide) (by decide), lookup_named, if_neg (by decide), if_pos rfl]
    rfl
  have hfile : value (table cwd argv) fileArg = x.file := by
    rw [hv (by decide) (by decide), lookup_named, if_neg (by decide), if_neg (by decide), if_pos rfl]
    rfl
  have hblksize : value (table cwd argv) blksizeArg = (x.blksize.map decimal).getD [] := by
    rw [hv (by decide) (by decide), lookup_named, if_neg (by decide), if_neg (by decide), if_neg (by decide), if_pos rfl]
  have htimeout : value (table cwd argv) timeoutArg = (x.timeout.map decimal).getD [] := by
    rw [hv (by decide) (by decide), lookup_named, if_neg (by decide), if_neg (by decide), if_neg (by decide),
      if_neg (by decide), if_pos rfl]
  have hport : value (table cwd argv) portArg = (x.port.map fun n => decimal n.toNat).getD [] := by
    rw [hv (by decide) (by decide), lookup_named, if_neg (by decide), if_neg (by decide), if_neg (by decide),
      if_neg (by decide), if_neg (by decide), if_pos rfl]
  have hrequest' : requestType (table cwd argv) = if x.write then .wrq else .rrq := by
    rw [requestType, hrequest]
    cases x.write <;> decide
  have hport' : CommandLine.port (table cwd argv) = x.port.getD serverListenPort := by
    rw [CommandLine.port, hport]
    cases x.port with
    | none => rfl
    | some n =>
      have hn := n.toNat_lt
      have hmod : ((n.toNat : ℤ) % 2 ^ 16).toNat = n.toNat := by omega
      rw [Option.map_some, Option.getD_some, if_neg (isNumeral_decimal _).1, atoi_decimal_of_lt (by omega), UInt16.ofInt,
        hmod]
      exact UInt16.ofNat_toNat
  have hoptions : clientTransValues (table cwd argv) = some x.optionVals := by
    have h1 : ∀ n ∈ x.blksize, (8 : ℤ) ≤ n ∧ (n : ℤ) ≤ 65464 := fun n hn => by have := hx.blksize n hn; omega
    have h2 : ∀ n ∈ x.timeout, (1 : ℤ) ≤ n ∧ (n : ℤ) ≤ 255 := fun n hn => by have := hx.timeout n hn; omega
    rw [clientTransValues, hblksize, htimeout, inRange_decimal (by decide) h1, inRange_decimal (by decide) h2]
    have e1 : (x.blksize.map Int.ofNat).map Int.toNat = x.blksize := by cases x.blksize <;> rfl
    have e2 : (x.timeout.map Int.ofNat).map (fun t => UInt8.ofNat t.toNat) = x.timeout.map UInt8.ofNat := by
      cases x.timeout <;> rfl
    dsimp only
    rw [e1, e2]
    rfl
  rw [run_eq hos hcwd (h.clear hx) hlast]
  refine launch_eq_client_iff.2 ⟨htype, address, x.optionVals, haddress, hoptions, ?_⟩
  rw [hrequest', hfile, hport', value_table (by decide), meaning_root]

/-- A download in blocks of 16 bytes. -/
def sixteen : Request where
  write := false
  file := [102]
  blksize := some 16

def sixteenLine : List Bytes := [ascii "ttftp", ascii "--file=f", ascii "--blksize=16", ascii "--request=read",
  ascii "--type=client", ascii "10.0.0.1"]

theorem run_line_sixteen : run TftpServer.oneFile (fun _ => some 7) sixteenLine =
    .client ((TftpClient.new TftpServer.oneFile (ascii "/./")).start ⟨7, serverListenPort⟩ .rrq [102]
      { mBlocksize := some 16 } .octet) :=
  @run_line sixteen TftpServer.oneFile (ascii "/./") (by decide) (by decide) (fun _ => some 7) sixteenLine
    (ascii "10.0.0.1") 7
    ⟨(fun n hn => by cases hn; decide), (fun n hn => by cases hn), by decide⟩
    ⟨[ascii "ttftp", ascii "10.0.0.1"], by decide +kernel, by decide +kernel⟩ rfl rfl

end Request

end CommandLine

end Ttftp

/-
  The decoders of requests and OACKs against the grammar of their messages.

  `Denotes s msg` says that the string is a message of the grammar and `msg` what it stands
  for.  A decoder accepts these strings, and also those that lack the last terminator
  (`Unterminated`); the one for requests, those without any terminator for which it finds a
  mode in the memory behind (`Overread`).
-/
import Mathlib.Data.List.Basic
import Ttftp.Proof.Messages

namespace Ttftp

open Bytes

/-! ## Option lists -/

/-- A string ends as what follows its first field. -/
theorem getLast?_field (a : Bytes) {t : Bytes} (h : t ≠ []) : (a ++ 0 :: t).getLast? = t.getLast? := by
  rw [List.append_cons, List.getLast?_append_of_ne_nil _ h]

/-- A list of pairs has more than one terminator. -/
theorem ne_nil_of_flatMap {t : Bytes} {ps : List (Bytes × Bytes)} (h : t ++ [0] = ps.flatMap optionField) : t ≠ [] := by
  rintro rfl
  have hlen := congrArg List.length h
  cases ps with
  | nil => cases h
  | cons p ps =>
    simp only [List.flatMap_cons, optionField, List.length_append, List.length_cons, List.length_nil] at hlen
    omega

/-- What is read is a list of pairs, or one whose last terminator is missing. -/
theorem Scanned.pairs {t : Bytes} {ps : List (Bytes × Bytes)} (h : Scanned t ps) :
    (∀ p ∈ ps, NulFree p.1 ∧ NulFree p.2) ∧
      (t = ps.flatMap optionField ∨ t.getLast? ≠ some 0 ∧ t ++ [0] = ps.flatMap optionField) := by
  induction h with
  | nil => exact ⟨fun p hp => (List.not_mem_nil hp).elim, .inl rfl⟩
  | @last n v hn hv hne =>
    refine ⟨fun p hp => ?_, .inr ⟨fun hlast => hv ?_, by simp [optionField]⟩⟩
    · rw [List.mem_singleton.1 hp]
      exact ⟨hn, hv⟩
    · rw [getLast?_field n hne] at hlast
      exact List.mem_of_getLast? hlast
  | @cons n v t ps hn hv _ ih =>
    obtain ⟨hps, ht⟩ := ih
    refine ⟨List.forall_mem_cons.2 ⟨⟨hn, hv⟩, hps⟩, ?_⟩
    rcases ht with rfl | ⟨hlast, ht⟩
    · exact .inl (by simp [optionField])
    · have hne : t ≠ [] := ne_nil_of_flatMap ht
      refine .inr ⟨?_, by simp [optionField, ← ht]⟩
      rwa [getLast?_field n (by simp), getLast?_field v hne]

/-- A list of pairs leaves a terminator at the end. -/
theorem getLast?_flatMap : ∀ (ps : List (Bytes × Bytes)) (pre : Bytes),
    (pre ++ 0 :: ps.flatMap optionField).getLast? = some 0
  | [], pre => List.getLast?_concat
  | (n, v) :: ps, pre => by
    have hsplit : pre ++ 0 :: ((n, v) :: ps).flatMap optionField =
        (pre ++ 0 :: (n ++ 0 :: v)) ++ 0 :: ps.flatMap optionField := by simp [optionField]
    rw [hsplit]
    exact getLast?_flatMap ps _

/-- The last terminator of a string is that of its last part. -/
theorem split_end {s pre r : Bytes} (h : s ++ [0] = pre ++ r) (hr : r ≠ []) : ∃ t, r = t ++ [0] ∧ s = pre ++ t := by
  obtain ⟨t, x, rfl⟩ := (List.eq_nil_or_concat r).resolve_left hr
  rw [List.concat_eq_append, ← List.append_assoc] at h
  obtain ⟨hs, h0⟩ := List.append_inj' h rfl
  cases h0
  exact ⟨t, List.concat_eq_append, hs⟩

theorem split_last {s pre r : Bytes} (h : s ++ [0] = pre ++ 0 :: r) :
    r = [] ∧ s = pre ∨ ∃ t, r = t ++ [0] ∧ s = pre ++ 0 :: t := by
  by_cases hr : r = []
  · rw [hr] at h
    exact .inl ⟨hr, List.append_cancel_right h⟩
  · obtain ⟨t, ht, hs⟩ := split_end (h.trans (List.append_cons _ _ _)) hr
    exact .inr ⟨t, ht, hs.trans (List.append_cons _ _ _).symm⟩

/-- Both can be scanned. -/
theorem Scanned.of_truncated : ∀ {ps : List (Bytes × Bytes)} {t : Bytes},
    (∀ p ∈ ps, NulFree p.1 ∧ NulFree p.2) → t.getLast? ≠ some 0 → t ++ [0] = ps.flatMap optionField → Scanned t ps
  | [], t, _, _, ht => absurd ht (by simp)
  | (n, v) :: ps, t, h, hlast, ht => by
    obtain ⟨⟨hn, hv⟩, hps⟩ := List.forall_mem_cons.1 h
    have ht' : t ++ [0] = (n ++ 0 :: v) ++ 0 :: ps.flatMap optionField := by
      rw [ht]
      simp [optionField]
    rcases split_last ht' with ⟨hnil, rfl⟩ | ⟨t', hflat, rfl⟩
    · have hne : v ≠ [] := by
        rintro rfl
        exact hlast List.getLast?_concat
      cases ps with
      | nil => exact .last hn hv hne
      | cons p ps => simp [optionField] at hnil
    · have hne : t' ≠ [] := ne_nil_of_flatMap hflat.symm
      rw [getLast?_field _ hne] at hlast
      rw [List.append_assoc, List.cons_append]
      exact .cons hn hv (of_truncated hps hlast hflat.symm)

/-! ## Requests -/

namespace RequestMessage

/-- **The grammar of requests**: an opcode, a file name, the mode octet and pairs of a name
    and a value, all terminated. -/
def Denotes (s : Bytes) (msg : RequestMessage) : Prop :=
  (msg.mOpCode = .rrq ∨ msg.mOpCode = .wrq) ∧ Bytes.NulFree msg.mFilename ∧ msg.mMode = .octet ∧
    ∃ ps : List (Bytes × Bytes), (∀ p ∈ ps, Bytes.NulFree p.1 ∧ Bytes.NulFree p.2) ∧
      msg.mOptionValues = (∅ : OptMap).insertMany ps ∧
      s = htons msg.mOpCode.toUInt16 ++ (msg.mFilename ++ 0 :: (mode2str .octet ++ 0 :: ps.flatMap optionField))

/-- Only the last terminator is missing. -/
def Unterminated (s : Bytes) (msg : RequestMessage) : Prop := s.getLast? ≠ some 0 ∧ Denotes (s ++ [0]) msg

/-- The file name is not terminated, and `octet` follows in memory. -/
def Overread (past s : Bytes) (msg : RequestMessage) : Prop :=
  (msg.mOpCode = .rrq ∨ msg.mOpCode = .wrq) ∧ Bytes.NulFree msg.mFilename ∧ 2 ≤ msg.mFilename.length ∧
    msg.mMode = .octet ∧ msg.mOptionValues = ∅ ∧ s = htons msg.mOpCode.toUInt16 ++ msg.mFilename ∧
    cstr past 0 = mode2str .octet

section
variable {s past : Bytes} {msg msg' : RequestMessage}

theorem Denotes.getLast? (h : Denotes s msg) : s.getLast? = some 0 := by
  obtain ⟨-, -, -, ps, -, -, rfl⟩ := h
  have hlast := getLast?_flatMap ps (htons msg.mOpCode.toUInt16 ++ (msg.mFilename ++ 0 :: mode2str .octet))
  rwa [List.append_assoc, List.append_assoc, List.cons_append] at hlast

theorem Denotes.not_unterminated (h : Denotes s msg) : ¬ Unterminated s msg' := fun hu => hu.1 h.getLast?

theorem Denotes.not_overread (h : Denotes s msg) : ¬ Overread past s msg' := by
  obtain ⟨-, -, -, ps, -, -, rfl⟩ := h
  rintro ⟨-, hname, -, -, -, hs, -⟩
  have htail := congrArg (List.drop 2) hs
  change msg.mFilename ++ 0 :: _ = msg'.mFilename at htail
  exact hname (htail ▸ List.mem_append_right _ List.mem_cons_self)

theorem Denotes.decode (h : Denotes s msg) (past : Bytes) (self : RequestMessage) :
    RequestMessage.decode past self s = (true, msg) := by
  obtain ⟨op, name, md, opts⟩ := msg
  obtain ⟨hop, hname, rfl, ps, hps, rfl, rfl⟩ := h
  exact decode_scanned past self hop hname (.of_flatMap hps)

/-- The terminator of the mode may be missing. -/
theorem decode_bare {op : TftpOpcode} {name : Bytes} (past : Bytes) (self : RequestMessage)
    (hop : op = .rrq ∨ op = .wrq) (hname : Bytes.NulFree name) :
    RequestMessage.decode past self (htons op.toUInt16 ++ (name ++ 0 :: mode2str .octet)) =
      (true, ⟨op, name, .octet, ∅⟩) := by
  obtain ⟨s, hs⟩ : ∃ s, s = htons op.toUInt16 ++ (name ++ 0 :: mode2str .octet) := ⟨_, rfl⟩
  have hdrop : s.drop opcodeLength = name ++ 0 :: mode2str .octet := by
    rw [hs]
    rfl
  obtain ⟨hfile, hdrop', hlen⟩ := cstr_memory_field hname hdrop past
  have h5 : (mode2str .octet).length = 5 := by decide
  have hmode : cstr (memory s past) (opcodeLength + name.length + 1) = mode2str .octet := by
    rw [cstr_memory_nulFree (by omega) (by rw [hdrop']; exact octet_nulFree), hdrop']
  rw [← hs, decode_true_iff]
  refine ⟨by omega, hop, ?_, hfile, hmode, rfl, ?_⟩
  · rw [hs]
    exact ntohs_memory [] _ _ _
  · rw [decodeOptions_eq, if_neg (by dsimp only; omega)]

theorem Unterminated.decode (h : Unterminated s msg) (past : Bytes) (self : RequestMessage) :
    RequestMessage.decode past self s = (true, msg) := by
  obtain ⟨op, name, md, opts⟩ := msg
  obtain ⟨hlast, hop, hname, rfl, ps, hps, rfl, hs⟩ := h
  dsimp only at hop hname hs
  have hs' : s ++ [0] = (htons op.toUInt16 ++ (name ++ 0 :: mode2str .octet)) ++ 0 :: ps.flatMap optionField := by
    rw [hs]
    simp
  rcases split_last hs' with ⟨hnil, rfl⟩ | ⟨t, hflat, rfl⟩
  · cases ps with
    | nil => exact decode_bare past self hop hname
    | cons p ps => simp [optionField] at hnil
  · have hne : t ≠ [] := ne_nil_of_flatMap hflat.symm
    rw [getLast?_field _ hne] at hlast
    rw [List.append_assoc, List.append_assoc, List.cons_append]
    exact decode_scanned past self hop hname (.of_truncated hps hlast hflat.symm)

theorem Overread.decode (h : Overread past s msg) (self : RequestMessage) :
    RequestMessage.decode past self s = (true, msg) := by
  obtain ⟨op, name, md, opts⟩ := msg
  obtain ⟨hop, hname, hlen, rfl, rfl, rfl, hmode⟩ := h
  dsimp only at hop hname hlen ⊢
  obtain ⟨s, hs⟩ : ∃ s, s = htons op.toUInt16 ++ name := ⟨_, rfl⟩
  have hdrop : s.drop opcodeLength = name := by
    rw [hs]
    rfl
  have hsize : s.length = opcodeLength + name.length := by
    rw [hs]
    simp [opcodeLength]
  rw [← hs, decode_true_iff]
  refine ⟨by omega, hop, ?_, ?_, ?_, rfl, ?_⟩
  · rw [hs, ← List.append_nil name]
    exact ntohs_memory [] _ _ _
  · rw [cstr_memory_nulFree (by omega) (by rw [hdrop]; exact hname), hdrop]
  · dsimp only
    rw [← hsize, cstr_memory_past, hmode]
  · rw [decodeOptions_eq, if_neg (by dsimp only; omega)]

/-- **What the decoder accepts.** -/
theorem decode_accepts (past : Bytes) (self : RequestMessage) (s : Bytes) (msg : RequestMessage) :
    RequestMessage.decode past self s = (true, msg) ↔ Denotes s msg ∨ Unterminated s msg ∨ Overread past s msg := by
  refine ⟨fun h => ?_, ?_⟩
  · obtain ⟨op, name, md, opts⟩ := msg
    obtain ⟨hlen, hop, hnr, hname, hmode, rfl, hopts⟩ := decode_true_iff.1 h
    dsimp only at hop hnr hname hmode hopts
    have hs : s = htons op.toUInt16 ++ s.drop opcodeLength := by
      rw [memory, ntohs_append (by omega)] at hnr
      rw [← hnr]
      exact (htons_ntohs (by omega)).symm
    have hsize : (s.drop opcodeLength).length = s.length - opcodeLength := List.length_drop
    rcases nulFree_or_field (s.drop opcodeLength) with hfree | ⟨a, r, ha, hr⟩
    · -- no terminator at all
      rw [cstr_memory_nulFree (by omega) hfree] at hname
      rw [hname] at hs hfree hsize
      have hend : opcodeLength + name.length + 1 = s.length + 1 := by omega
      rw [hend, cstr_memory_past] at hmode
      rw [decodeOptions_eq, if_neg (by omega)] at hopts
      exact .inr (.inr ⟨hop, hfree, by dsimp only; omega, rfl, (Prod.mk.inj hopts).2.symm, hs, hmode⟩)
    · obtain ⟨hfile, hdrop, hlen'⟩ := cstr_memory_field ha hr past
      obtain rfl := hfile.symm.trans hname
      rcases nulFree_or_field r with hfree | ⟨m, t, hm, ht⟩
      · -- the mode ends the string
        rw [cstr_memory_nulFree (by omega) (by rw [hdrop]; exact hfree), hdrop] at hmode
        rw [decodeOptions_eq, if_neg (by rw [hlen', hmode]; omega)] at hopts
        rw [hr, hmode] at hs
        refine .inr (.inl ⟨?_, hop, ha, rfl, [], by simp, (Prod.mk.inj hopts).2.symm, ?_⟩)
        · rw [hs, ← List.append_assoc, getLast?_field _ (by decide)]
          decide
        · rw [hs]
          simp
      · rw [ht] at hdrop
        obtain ⟨hfield, hdrop', hlen''⟩ := cstr_memory_field hm hdrop past
        obtain rfl := hfield.symm.trans hmode
        obtain ⟨ps, hps, hmap⟩ := decodeOptions_scanned hopts
        rw [hdrop'] at hps
        obtain ⟨hfree, hpairs⟩ := hps.pairs
        rw [hr, ht] at hs
        rcases hpairs with hpairs | ⟨hlast, hpairs⟩
        · exact .inl ⟨hop, ha, rfl, ps, hfree, hmap, by rw [hs, hpairs]⟩
        · refine .inr (.inl ⟨?_, hop, ha, rfl, ps, hfree, hmap, ?_⟩)
          · have hne : t ≠ [] := ne_nil_of_flatMap hpairs
            rw [hs, ← List.append_assoc, getLast?_field _ (by simp), getLast?_field _ hne]
            exact hlast
          · rw [hs, ← hpairs]
            simp
  · rintro (h | h | h)
    · exact h.decode past self
    · exact h.decode past self
    · exact h.decode self

/-- **When the decoder accepts exactly the grammar.** -/
theorem decode_grammar_iff (past : Bytes) (self : RequestMessage) (s : Bytes) :
    (∀ msg, RequestMessage.decode past self s = (true, msg) ↔ Denotes s msg) ↔
      ∀ msg, ¬ Unterminated s msg ∧ ¬ Overread past s msg := by
  constructor
  · intro h msg
    constructor
    · exact fun hu => ((h msg).1 (hu.decode past self)).not_unterminated hu
    · exact fun ho => ((h msg).1 (ho.decode self)).not_overread ho
  · intro h msg
    rw [decode_accepts, or_iff_left]
    rintro (hu | ho)
    · exact (h msg).1 hu
    · exact (h msg).2 ho

end

end RequestMessage

/-! ## OACKs -/

namespace OptionACKMessage

/-- **The grammar of OACKs**: at least one pair follows the opcode. -/
def Denotes (s : Bytes) (msg : OptionACKMessage) : Prop :=
  ∃ ps : List (Bytes × Bytes), ps ≠ [] ∧ (∀ p ∈ ps, NulFree p.1 ∧ NulFree p.2) ∧
    msg.mOptionValues = (∅ : OptMap).insertMany ps ∧
    s = htons TftpOpcode.oack.toUInt16 ++ ps.flatMap optionField

/-- Only the last terminator is missing. -/
def Unterminated (s : Bytes) (msg : OptionACKMessage) : Prop := s.getLast? ≠ some 0 ∧ Denotes (s ++ [0]) msg

section
variable {s past : Bytes} {msg msg' : OptionACKMessage}

theorem Denotes.getLast? (h : Denotes s msg) : s.getLast? = some 0 := by
  obtain ⟨ps, hne, -, -, rfl⟩ := h
  cases ps with
  | nil => exact absurd rfl hne
  | cons p ps =>
    have hsplit : htons TftpOpcode.oack.toUInt16 ++ (p :: ps).flatMap optionField =
        (htons TftpOpcode.oack.toUInt16 ++ (p.1 ++ 0 :: p.2)) ++ 0 :: ps.flatMap optionField := by
      simp [optionField]
    rw [hsplit]
    exact getLast?_flatMap ps _

/-- When the decoder succeeds, and with what. -/
theorem decode_true_iff {self : OptionACKMessage} : decode past self s = (true, msg) ↔
    opcodeLength + 2 ≤ s.length ∧ ntohs (memory s past) 0 = TftpOpcode.oack.toUInt16 ∧
      decodeOptions (memory s past) s.length opcodeLength ∅ = (true, msg.mOptionValues) := by
  obtain ⟨opts⟩ := msg
  rw [decode]
  dsimp only
  constructor
  · intro h
    split_ifs at h with hlen hop
    · cases h
    · cases h
    · obtain ⟨hopts, hmsg⟩ := Prod.mk.inj h
      exact ⟨not_lt.1 hlen, not_ne_iff.1 hop, Prod.ext hopts (OptionACKMessage.mk.inj hmsg)⟩
  · rintro ⟨hlen, hop, hopts⟩
    rw [if_neg (not_lt.2 hlen), if_neg (not_ne_iff.2 hop), hopts]

theorem decode_scanned {t : Bytes} {ps : List (Bytes × Bytes)} (past : Bytes) (self : OptionACKMessage)
    (h : Scanned t ps) (hne : ps ≠ []) :
    decode past self (htons TftpOpcode.oack.toUInt16 ++ t) = (true, ⟨(∅ : OptMap).insertMany ps⟩) := by
  have hlen : 2 ≤ t.length := by
    cases h with
    | nil => exact absurd rfl hne
    | last _ _ hv =>
      have hpos := List.length_pos_iff.2 hv
      rw [List.length_append, List.length_cons]
      omega
    | cons _ _ _ =>
      rw [List.length_append, List.length_cons, List.length_append, List.length_cons]
      omega
  rw [decode_true_iff]
  refine ⟨?_, ntohs_memory [] _ _ _, h.decodeOptions past ∅ rfl⟩
  rw [List.length_append, length_htons, opcodeLength]
  omega

/-- **What the decoder accepts.** -/
theorem decode_accepts (past : Bytes) (self : OptionACKMessage) (s : Bytes) (msg : OptionACKMessage) :
    decode past self s = (true, msg) ↔ Denotes s msg ∨ Unterminated s msg := by
  obtain ⟨opts⟩ := msg
  constructor
  · intro h
    obtain ⟨hlen, hop, hopts⟩ := decode_true_iff.1 h
    have hs : s = htons TftpOpcode.oack.toUInt16 ++ s.drop opcodeLength := by
      rw [memory, ntohs_append (by omega)] at hop
      rw [← hop]
      exact (htons_ntohs (by omega)).symm
    have hdrop : s.drop opcodeLength ≠ [] := by
      rw [ne_eq, List.drop_eq_nil_iff]
      omega
    obtain ⟨ps, hps, hmap⟩ := decodeOptions_scanned hopts
    have hne : ps ≠ [] := by
      rintro rfl
      rcases hps.pairs.2 with h0 | ⟨-, h0⟩
      · exact hdrop h0
      · exact absurd h0 (by simp)
    obtain ⟨hfree, hpairs⟩ := hps.pairs
    rcases hpairs with hpairs | ⟨hlast, hpairs⟩
    · exact .inl ⟨ps, hne, hfree, hmap, by rw [← hpairs]; exact hs⟩
    · refine .inr ⟨?_, ps, hne, hfree, hmap, ?_⟩
      · rw [hs, List.getLast?_append_of_ne_nil _ hdrop]
        exact hlast
      · rw [← hpairs, ← List.append_assoc, ← hs]
  · rintro (⟨ps, hne, hfree, rfl, rfl⟩ | ⟨hlast, ps, hne, hfree, rfl, hs⟩)
    · exact decode_scanned past self (.of_flatMap hfree) hne
    · have hflat : ps.flatMap optionField ≠ [] := by
        cases ps with
        | nil => exact absurd rfl hne
        | cons p ps => simp [optionField]
      obtain ⟨t, ht, rfl⟩ := split_end hs hflat
      have htne : t ≠ [] := ne_nil_of_flatMap ht.symm
      rw [List.getLast?_append_of_ne_nil _ htne] at hlast
      exact decode_scanned past self (.of_truncated hfree hlast ht.symm) hne

/-- **When the decoder accepts exactly the grammar.** -/
theorem decode_grammar_iff (past : Bytes) (self : OptionACKMessage) (s : Bytes) :
    (∀ msg, decode past self s = (true, msg) ↔ Denotes s msg) ↔ ∀ msg, ¬ Unterminated s msg := by
  constructor
  · exact fun h msg hu => hu.1 ((h msg).1 ((decode_accepts past self s msg).2 (.inr hu))).getLast?
  · intro h msg
    rw [decode_accepts, or_iff_left (h msg)]

end

end OptionACKMessage

/-- **When the parsers accept exactly their grammar.** -/
theorem parsers_grammar_iff (past : Bytes) (self : RequestMessage) (self' : OptionACKMessage) (s : Bytes) :
    ((∀ msg, RequestMessage.decode past self s = (true, msg) ↔ RequestMessage.Denotes s msg) ↔
      ∀ msg, ¬ RequestMessage.Unterminated s msg ∧ ¬ RequestMessage.Overread past s msg) ∧
    ((∀ msg, OptionACKMessage.decode past self' s = (true, msg) ↔ OptionACKMessage.Denotes s msg) ↔
      ∀ msg, ¬ OptionACKMessage.Unterminated s msg) :=
  ⟨RequestMessage.decode_grammar_iff past self s, OptionACKMessage.decode_grammar_iff past self' s⟩

/-- The mode of this request for the file `a` is not terminated. -/
theorem parser_accepts_unterminated : ¬ ∀ past s,
    (∀ self msg, RequestMessage.decode past self s = (true, msg) ↔ RequestMessage.Denotes s msg) ∧
      ∀ self msg, OptionACKMessage.decode past self s = (true, msg) ↔ OptionACKMessage.Denotes s msg := by
  intro h
  have hdecode := @RequestMessage.decode_bare .rrq (ascii "a") [] {} (.inl rfl) (by decide)
  exact absurd (((h [] _).1 {} _).1 hdecode).getLast? (by decide)

end Ttftp

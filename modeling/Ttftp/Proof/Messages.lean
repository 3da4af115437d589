/-
  Decoding inverts encoding, for each of the five message formats.
-/
import Ttftp.Messages
import Ttftp.Lib.Stream

namespace Ttftp

open Bytes

/-! ## Option lists -/

theorem decodeOptionsFuel_eq (m : Bytes) (size : ℕ) : ∀ (fuel idx : ℕ) (opts : OptMap),
    size - idx ≤ fuel → decodeOptionsFuel m size fuel idx opts = decodeOptions m size idx opts := by
  have key : ∀ (f f' idx : ℕ) (opts : OptMap), size - idx ≤ f → size - idx ≤ f' →
      decodeOptionsFuel m size f idx opts = decodeOptionsFuel m size f' idx opts := by
    intro f
    induction f with
    | zero =>
      intro f' idx opts hf hf'
      cases f' with
      | zero => rfl
      | succ f' => rw [decodeOptionsFuel, decodeOptionsFuel, if_neg (by omega)]
    | succ f ih =>
      intro f' idx opts hf hf'
      cases f' with
      | zero => rw [decodeOptionsFuel, decodeOptionsFuel, if_neg (by omega)]
      | succ f' =>
        simp only [decodeOptionsFuel]
        split_ifs with h1 h2
        · rfl
        · exact ih _ _ _ (by omega) (by omega)
        · rfl
  exact fun fuel idx opts h => key _ _ _ _ h le_rfl

/-- The loop, without its bound. -/
theorem decodeOptions_eq (m : Bytes) (size idx : ℕ) (opts : OptMap) :
    decodeOptions m size idx opts =
      if idx < size then
        if size ≤ idx + (cstr m idx).length + 1 then (false, opts)
        else
          decodeOptions m size
            (idx + (cstr m idx).length + 1 + (cstr m (idx + (cstr m idx).length + 1)).length + 1)
            (opts.insert (cstr m idx) (cstr m (idx + (cstr m idx).length + 1)))
      else (true, opts) := by
  conv_lhs => rw [decodeOptions]
  by_cases h : idx < size
  · obtain ⟨f, hf⟩ : ∃ f, size - idx = f + 1 := ⟨size - idx - 1, by omega⟩
    rw [hf, decodeOptionsFuel, if_pos h, if_pos h]
    dsimp only
    split_ifs with h2
    · rfl
    · exact decodeOptionsFuel_eq _ _ _ _ _ (by omega)
  · rw [if_neg h, show size - idx = 0 by omega, decodeOptionsFuel]

theorem length_encodeOptions (opts : OptMap) : (encodeOptions opts).length = optionValLength opts := by
  rw [encodeOptions, optionValLength, List.length_flatMap]
  congr 1
  refine List.map_congr_left fun p _ => ?_
  simp only [optionField, List.length_append, List.length_cons, List.length_nil]
  omega

/-- What the loop reads: pairs of terminated fields.  The terminator of the last value may be
    missing. -/
inductive Scanned : Bytes → List (Bytes × Bytes) → Prop
  | nil : Scanned [] []
  | last {n v : Bytes} : NulFree n → NulFree v → v ≠ [] → Scanned (n ++ 0 :: v) [(n, v)]
  | cons {n v t : Bytes} {ps : List (Bytes × Bytes)} : NulFree n → NulFree v → Scanned t ps →
      Scanned (n ++ 0 :: (v ++ 0 :: t)) ((n, v) :: ps)

theorem Scanned.of_flatMap : ∀ {ps : List (Bytes × Bytes)}, (∀ p ∈ ps, NulFree p.1 ∧ NulFree p.2) →
    Scanned (ps.flatMap optionField) ps
  | [], _ => .nil
  | (n, v) :: ps, h => by
    have hps : Scanned (ps.flatMap optionField) ps := of_flatMap fun p hp => h p (List.mem_cons_of_mem _ hp)
    obtain ⟨hn, hv⟩ := h _ List.mem_cons_self
    have hfield : ((n, v) :: ps).flatMap optionField = n ++ 0 :: (v ++ 0 :: ps.flatMap optionField) := by
      simp [optionField]
    rw [hfield]
    exact .cons hn hv hps

/-- **What can be scanned is decoded**, to the map of its pairs. -/
theorem Scanned.decodeOptions {t : Bytes} {ps : List (Bytes × Bytes)} (h : Scanned t ps) {s : Bytes} (past : Bytes) :
    ∀ {idx : ℕ} (opts : OptMap), s.drop idx = t →
      Ttftp.decodeOptions (memory s past) s.length idx opts = (true, opts.insertMany ps) := by
  induction h with
  | nil =>
    intro idx opts hs
    rw [decodeOptions_eq, if_neg (by rw [List.drop_eq_nil_iff] at hs; omega), Std.ExtTreeMap.insertMany_nil]
  | @last n v hn hv hne =>
    intro idx opts hs
    obtain ⟨hname, hrest, hlen⟩ := cstr_memory_field hn hs past
    have hpos := List.length_pos_iff.2 hne
    have hvalue : cstr (memory s past) (idx + n.length + 1) = v := by
      rw [cstr_memory_nulFree (by omega) (by rw [hrest]; exact hv), hrest]
    rw [decodeOptions_eq, if_pos (by omega), hname, if_neg (by omega), hvalue, decodeOptions_eq, if_neg (by omega),
      Std.ExtTreeMap.insertMany_cons, Std.ExtTreeMap.insertMany_nil]
  | @cons n v t ps hn hv _ ih =>
    intro idx opts hs
    obtain ⟨hname, hrest, hlen⟩ := cstr_memory_field hn hs past
    obtain ⟨hvalue, hrest', hlen'⟩ := cstr_memory_field hv hrest past
    rw [decodeOptions_eq, if_pos (by omega), hname, if_neg (by omega), hvalue, ih _ hrest',
      Std.ExtTreeMap.insertMany_cons]

/-- **What is decoded can be scanned.** -/
theorem decodeOptions_scanned {s past : Bytes} : ∀ {idx : ℕ} {opts opts' : OptMap},
    decodeOptions (memory s past) s.length idx opts = (true, opts') →
      ∃ ps, Scanned (s.drop idx) ps ∧ opts' = opts.insertMany ps := by
  intro idx
  induction hk : s.length - idx using Nat.strong_induction_on generalizing idx with
  | _ k ih =>
    intro opts opts' h
    rw [decodeOptions_eq] at h
    by_cases hidx : idx < s.length
    · rw [if_pos hidx] at h
      rcases nulFree_or_field (s.drop idx) with hfree | ⟨n, rest, hn, hs⟩
      · -- no value follows
        have hlen : (s.drop idx).length = s.length - idx := List.length_drop
        rw [cstr_memory_nulFree hidx.le hfree, if_pos (by omega)] at h
        cases h
      · obtain ⟨hname, hrest, hlen⟩ := cstr_memory_field hn hs past
        rw [hname] at h
        split_ifs at h with hend
        · cases h
        have hne : rest ≠ [] := by
          rintro rfl
          rw [List.length_nil] at hlen
          omega
        rcases nulFree_or_field rest with hfree | ⟨v, t, hv, hr⟩
        · have hvalue : cstr (memory s past) (idx + n.length + 1) = rest := by
            rw [cstr_memory_nulFree (by omega) (by rw [hrest]; exact hfree), hrest]
          rw [hvalue, decodeOptions_eq, if_neg (by omega)] at h
          refine ⟨[(n, rest)], ?_, ?_⟩
          · rw [hs]
            exact .last hn hfree hne
          · rw [Std.ExtTreeMap.insertMany_cons, Std.ExtTreeMap.insertMany_nil]
            exact (Prod.mk.inj h).2.symm
        · rw [hr] at hrest
          obtain ⟨hvalue, hrest', hlen'⟩ := cstr_memory_field hv hrest past
          rw [hvalue] at h
          obtain ⟨ps, hps, hopts⟩ := ih _ (by omega) rfl h
          rw [hrest'] at hps
          refine ⟨(n, v) :: ps, ?_, ?_⟩
          · rw [hs, hr]
            exact .cons hn hv hps
          · rw [Std.ExtTreeMap.insertMany_cons, hopts]
    · rw [if_neg hidx] at h
      refine ⟨[], ?_, ?_⟩
      · rw [List.drop_eq_nil_of_le (by omega)]
        exact .nil
      · rw [Std.ExtTreeMap.insertMany_nil]
        exact (Prod.mk.inj h).2.symm

/-- **An encoded list of options is decoded to the map of its pairs.** -/
theorem decodeOptions_flatMap (past : Bytes) (l : List (Bytes × Bytes)) (pre : Bytes) (opts : OptMap)
    (h : ∀ p ∈ l, NulFree p.1 ∧ NulFree p.2) :
    decodeOptions (memory (pre ++ l.flatMap optionField) past) (pre ++ l.flatMap optionField).length
      pre.length opts = (true, opts.insertMany l) :=
  (Scanned.of_flatMap h).decodeOptions past opts List.drop_left

/-- Inserting the pairs of a map into the empty one gives the map back. -/
theorem insertMany_toList (opts : OptMap) : (∅ : OptMap).insertMany opts.toList = opts := by
  refine Std.ExtTreeMap.ext_getElem? fun {k} => ?_
  cases hk : opts[k]? with
  | none =>
    rw [Std.ExtTreeMap.getElem?_insertMany_list_of_contains_eq_false]
    · simp
    · refine Bool.eq_false_iff.2 fun h => ?_
      obtain ⟨⟨k', v⟩, hm, rfl⟩ := List.mem_map.1 (List.contains_iff_mem.1 h)
      rw [Std.ExtTreeMap.mem_toList_iff_getElem?_eq_some.1 hm] at hk
      cases hk
  | some v =>
    exact Std.ExtTreeMap.getElem?_insertMany_list_of_mem Std.ReflCmp.compare_self
      Std.ExtTreeMap.distinct_keys_toList (Std.ExtTreeMap.mem_toList_iff_getElem?_eq_some.2 hk)

/-- No name and no value of the map contains a NUL. -/
def OptMap.NulFree (opts : OptMap) : Prop :=
  ∀ k v, opts[k]? = some v → Bytes.NulFree k ∧ Bytes.NulFree v

theorem OptMap.NulFree.toList {opts : OptMap} (h : opts.NulFree) :
    ∀ p ∈ opts.toList, Bytes.NulFree p.1 ∧ Bytes.NulFree p.2 :=
  fun p hp => h p.1 p.2 (Std.ExtTreeMap.mem_toList_iff_getElem?_eq_some.1 hp)

/-- **The encoded options of a map are decoded to the map.** -/
theorem decodeOptions_encodeOptions (past pre : Bytes) {opts : OptMap} (h : opts.NulFree) :
    decodeOptions (memory (pre ++ encodeOptions opts) past) (pre ++ encodeOptions opts).length
      pre.length ∅ = (true, opts) := by
  rw [encodeOptions, decodeOptions_flatMap past _ pre ∅ h.toList, insertMany_toList]

/-! ## Requests -/

namespace RequestMessage

/-- The requests of the program's wire format: opcode RRQ or WRQ, mode octet,
    and no NUL in a name or a value. -/
structure WellFormed (msg : RequestMessage) : Prop where
  opcode : msg.mOpCode = .rrq ∨ msg.mOpCode = .wrq
  mode : msg.mMode = .octet
  filename : Bytes.NulFree msg.mFilename
  options : msg.mOptionValues.NulFree

/-- The bytes of a request. -/
def wire (msg : RequestMessage) : Bytes :=
  htons msg.mOpCode.toUInt16 ++ (msg.mFilename ++ 0 :: (mode2str msg.mMode ++ 0 ::
    encodeOptions msg.mOptionValues))

/-- The computed message length is the number of bytes written. -/
theorem length_wire (msg : RequestMessage) : msg.wire.length = msg.messageLength := by
  simp only [wire, messageLength, opcodeLength, List.length_append, List.length_cons, length_htons,
    length_encodeOptions]
  omega

theorem encode_wire {msg : RequestMessage} (h : msg.WellFormed) (hl : msg.messageLength ≤ 512) :
    msg.encode = .ok msg.wire := by
  have h1 : ¬ (msg.mMode = .invalid ∨ msg.mOpCode = .invalid) := by
    rcases h.opcode with ho | ho <;> simp [h.mode, ho]
  rw [encode, if_neg h1, if_neg (by omega), wire]

theorem octet_nulFree : Bytes.NulFree (mode2str .octet) := by decide

/-- When the decoder succeeds, and with what. -/
theorem decode_true_iff {past s : Bytes} {self msg : RequestMessage} : decode past self s = (true, msg) ↔
    opcodeLength + 2 ≤ s.length ∧ (msg.mOpCode = .rrq ∨ msg.mOpCode = .wrq) ∧
      ntohs (memory s past) 0 = msg.mOpCode.toUInt16 ∧ cstr (memory s past) opcodeLength = msg.mFilename ∧
      cstr (memory s past) (opcodeLength + msg.mFilename.length + 1) = mode2str .octet ∧ msg.mMode = .octet ∧
      decodeOptions (memory s past) s.length (opcodeLength + msg.mFilename.length + 1 +
        (mode2str .octet).length + 1) ∅ = (true, msg.mOptionValues) := by
  have hmode : ∀ m, str2mode m = if m = mode2str .octet then .octet else .invalid := fun _ => rfl
  rw [decode]
  dsimp only
  constructor
  · intro h
    by_cases hlen : s.length < opcodeLength + 2
    · rw [if_pos hlen] at h
      cases h
    by_cases hop : ntohs (memory s past) 0 ≠ TftpOpcode.rrq.toUInt16 ∧
        ntohs (memory s past) 0 ≠ TftpOpcode.wrq.toUInt16
    · rw [if_neg hlen, if_pos hop] at h
      cases h
    by_cases hoctet : cstr (memory s past) (opcodeLength + (cstr (memory s past) opcodeLength).length + 1) =
        mode2str .octet
    · rw [if_neg hlen, if_neg hop, hmode, if_pos hoctet, if_neg (by decide), hoctet] at h
      obtain ⟨hopts, rfl⟩ := Prod.mk.inj h
      refine ⟨not_lt.1 hlen, ?_, ?_, rfl, hoctet, rfl, Prod.ext hopts rfl⟩
      · dsimp only
        split_ifs
        · exact .inl rfl
        · exact .inr rfl
      · dsimp only
        split_ifs with h1
        · exact h1
        · exact not_ne_iff.1 fun h2 => hop ⟨h1, h2⟩
    · rw [if_neg hlen, if_neg hop, hmode, if_neg hoctet, if_pos rfl] at h
      cases h
  · obtain ⟨op, fn, md, opts⟩ := msg
    rintro ⟨hlen, hop, hnr, hname, hoctet, hmd, hopts⟩
    dsimp only at hop hnr hname hoctet hmd hopts
    have hcode : ¬ (op.toUInt16 ≠ TftpOpcode.rrq.toUInt16 ∧ op.toUInt16 ≠ TftpOpcode.wrq.toUInt16) ∧
        (if op.toUInt16 = TftpOpcode.rrq.toUInt16 then TftpOpcode.rrq else .wrq) = op := by
      rcases hop with rfl | rfl <;> decide
    rw [if_neg (not_lt.2 hlen), hnr, if_neg hcode.1, hname, hoctet, hmode, if_pos rfl, if_neg (by decide), hopts,
      hcode.2, hmd]

/-- A request without its last terminator is decoded as well. -/
theorem decode_scanned {op : TftpOpcode} {name t : Bytes} {ps : List (Bytes × Bytes)} (past : Bytes)
    (self : RequestMessage) (hop : op = .rrq ∨ op = .wrq) (hname : Bytes.NulFree name) (h : Scanned t ps) :
    decode past self (htons op.toUInt16 ++ (name ++ 0 :: (mode2str .octet ++ 0 :: t))) =
      (true, ⟨op, name, .octet, (∅ : OptMap).insertMany ps⟩) := by
  obtain ⟨s, hs⟩ : ∃ s, s = htons op.toUInt16 ++ (name ++ 0 :: (mode2str .octet ++ 0 :: t)) := ⟨_, rfl⟩
  have hdrop : s.drop opcodeLength = name ++ 0 :: (mode2str .octet ++ 0 :: t) := by
    rw [hs]
    rfl
  obtain ⟨hfile, hdrop', hlen⟩ := cstr_memory_field hname hdrop past
  obtain ⟨hmode, hdrop'', hlen'⟩ := cstr_memory_field octet_nulFree hdrop' past
  rw [← hs, decode_true_iff]
  refine ⟨?_, hop, ?_, hfile, hmode, rfl, h.decodeOptions past ∅ hdrop''⟩
  · have h5 : (mode2str .octet).length = 5 := by decide
    omega
  · rw [hs]
    exact ntohs_memory [] _ _ _

/-- **Decoding inverts the encoding of a request.** -/
theorem decode_wire (past : Bytes) (self : RequestMessage) {msg : RequestMessage}
    (h : msg.WellFormed) : decode past self msg.wire = (true, msg) := by
  obtain ⟨op, fn, md, opts⟩ := msg
  obtain ⟨hop, rfl, hfn, hopts⟩ := h
  dsimp only at hop hfn hopts
  have hps : (∅ : OptMap).insertMany opts.toList = opts := insertMany_toList opts
  rw [wire, encodeOptions, decode_scanned past self hop hfn (.of_flatMap hopts.toList), hps]

/-- A message that is no request is not decoded, and leaves no options. -/
theorem decode_no_request {past s : Bytes} (h : ¬ ((decode past {} s).2.isRRQ ∨ (decode past {} s).2.isWRQ)) :
    (decode past {} s).1 = false ∧ (decode past {} s).2.mOptionValues = ∅ := by
  unfold decode at h ⊢
  dsimp only at h ⊢
  split_ifs at h ⊢
  · exact ⟨rfl, rfl⟩
  · exact ⟨rfl, rfl⟩
  all_goals exact absurd (by simp [isRRQ, isWRQ]) h

/-- Neither is a message that is too short. -/
theorem decode_short {past s : Bytes} (h : s.length < 2) :
    ¬ ((decode past {} s).2.isRRQ ∨ (decode past {} s).2.isWRQ) := by
  have hs : decode past {} s = (false, {}) := if_pos (by simp only [opcodeLength]; omega)
  rw [hs]
  decide

end RequestMessage

/-! ## The other messages -/

theorem OptionACKMessage.decode_encode {msg : OptionACKMessage} (hne : msg.mOptionValues ≠ ∅)
    (h : msg.mOptionValues.NulFree) (hl : msg.messageLength ≤ 512) :
    ∃ s, msg.encode = .ok s ∧ ∀ past self, decode past self s = (true, msg) := by
  obtain ⟨opts⟩ := msg
  refine ⟨_, by rw [encode, if_neg (by omega)], fun past self => ?_⟩
  have hlen : 2 ≤ (encodeOptions opts).length := by
    obtain ⟨p, l, hp⟩ := List.exists_cons_of_ne_nil (mt Std.ExtTreeMap.toList_eq_nil_iff.1 hne)
    rw [length_encodeOptions, optionValLength, hp, List.map_cons, List.sum_cons]
    omega
  have hopcode := ntohs_memory [] (encodeOptions opts) past TftpOpcode.oack.toUInt16
  have hopts := decodeOptions_encodeOptions past (htons TftpOpcode.oack.toUInt16) h
  rw [List.nil_append, List.length_nil] at hopcode
  rw [decode, if_neg (by simp [opcodeLength]; omega), if_neg (by simp [hopcode])]
  change ((decodeOptions _ _ 2 ∅).1, (⟨(decodeOptions _ _ 2 ∅).2⟩ : OptionACKMessage)) = _
  rw [length_htons] at hopts
  rw [hopts]

/-- The bytes of a DATA message. -/
def dataBytes (nr : UInt16) (d : Bytes) : Bytes := htons TftpOpcode.data.toUInt16 ++ (htons nr ++ d)

@[simp] theorem length_dataBytes (nr : UInt16) (d : Bytes) : (dataBytes nr d).length = d.length + 4 := by
  simp [dataBytes]; omega

theorem ntohs_dataBytes (nr : UInt16) (d : Bytes) : ntohs (dataBytes nr d) 0 = TftpOpcode.data.toUInt16 :=
  ntohs_htons [] _ _

namespace DataMessage

/-- A message of the size of its data is encoded. -/
theorem encode_new (nr : UInt16) (d : Bytes) :
    (((new d.length).setData d).setBlockNr nr).encode = some (dataBytes nr d) := by
  simp [new, setData, setBlockNr, encode, dataBytes]

theorem decode_dataBytes (self : DataMessage) (nr : UInt16) (d : Bytes) :
    self.decode (dataBytes nr d) =
      if d.length ≤ self.mBlocksize then (true, { self with mBlockNr := nr, mData := d })
      else (false, self) := by
  have h0 : ntohs (dataBytes nr d) 0 = TftpOpcode.data.toUInt16 := ntohs_htons [] _ _
  have h2 : ntohs (dataBytes nr d) opcodeLength = nr := ntohs_htons (htons _) _ _
  have hd : (dataBytes nr d).drop controlBytes = d := rfl
  rw [decode, length_dataBytes, h0, h2, hd, controlBytes]
  by_cases h : d.length ≤ self.mBlocksize
  · rw [if_neg (by omega), if_neg (by simp), if_pos h]
  · rw [if_pos (by omega), if_neg h]

/-- What a decoder accepts is the encoding of what it then holds. -/
theorem decode_true {self : DataMessage} {s : Bytes} (h : (self.decode s).1 = true) :
    4 ≤ s.length ∧ s.length ≤ self.mBlocksize + 4 ∧ (self.decode s).2.mData = s.drop 4 := by
  unfold decode at h ⊢
  simp only [controlBytes, ne_eq, ite_not] at h ⊢
  split_ifs at h ⊢ with h1 h2
  obtain ⟨h3, h4⟩ := not_or.1 h1
  exact ⟨by omega, by omega, rfl⟩

end DataMessage

namespace AckMessage

@[simp] theorem length_encode (msg : AckMessage) : msg.encode.length = 4 := rfl

theorem ntohs_encode (msg : AckMessage) : ntohs msg.encode 0 = TftpOpcode.ack.toUInt16 := ntohs_htons [] _ _

theorem decode_encode (past : Bytes) (self msg : AckMessage) :
    decode past self msg.encode = (true, msg) := by
  have h0 := ntohs_memory [] (htons msg.mBlockNr) past TftpOpcode.ack.toUInt16
  have h2 := ntohs_memory (htons TftpOpcode.ack.toUInt16) [] past msg.mBlockNr
  rw [List.append_nil] at h2
  rw [List.nil_append, List.length_nil] at h0
  rw [decode, encode, if_neg (by rw [h0]; simp)]
  exact Prod.ext rfl (congrArg AckMessage.mk h2)

end AckMessage

namespace ErrorMessage

theorem ntohs_encode (msg : ErrorMessage) : ntohs msg.encode 0 = TftpOpcode.error.toUInt16 := ntohs_htons [] _ _

theorem opcode_encode (past : Bytes) (msg : ErrorMessage) :
    ntohs (memory msg.encode past) 0 = TftpOpcode.error.toUInt16 :=
  ntohs_memory [] _ _ _

theorem decode_encode (past : Bytes) (self : ErrorMessage) {msg : ErrorMessage}
    (h : NulFree msg.mErrorMessage) : decode past self msg.encode = (true, msg) := by
  have h0 := opcode_encode past msg
  have h2 := ntohs_memory (htons TftpOpcode.error.toUInt16) msg.mErrorMessage past msg.mErrorCode
  have h4 := cstr_memory_last h (htons TftpOpcode.error.toUInt16 ++ htons msg.mErrorCode) past
  rw [List.append_assoc] at h4
  rw [decode, if_neg (by rw [h0]; simp)]
  exact Prod.ext rfl (congrArg₂ ErrorMessage.mk h2 h4)

end ErrorMessage

/-! ## The datagrams of a file -/

/-- The datagram of the block with number `i`. -/
def dataOf (F : Bytes) (bs i : ℕ) : Bytes := dataBytes (UInt16.ofNat i) (block F bs (i - 1))

/-- The datagram of the acknowledgement of block `i`. -/
def ackOf (i : ℕ) : Bytes := AckMessage.encode ⟨UInt16.ofNat i⟩

/-! ## All formats -/

/-- **Wire round trip.**  Decoding the encoding of a message succeeds and gives
    the message back, whatever object decodes it and whatever follows it in
    memory: for requests and OACKs of at most 512 bytes, for ACK and ERROR
    messages, and for DATA messages of `k` bytes decoded with a blocksize of at
    least `k` (a smaller one rejects them). -/
theorem wire_round_trip :
    (∀ msg : RequestMessage, msg.WellFormed → msg.messageLength ≤ 512 →
      ∃ s, msg.encode = .ok s ∧ ∀ past self, RequestMessage.decode past self s = (true, msg)) ∧
    (∀ msg : OptionACKMessage, msg.mOptionValues ≠ ∅ → msg.mOptionValues.NulFree →
      msg.messageLength ≤ 512 →
      ∃ s, msg.encode = .ok s ∧ ∀ past self, OptionACKMessage.decode past self s = (true, msg)) ∧
    (∀ (msg : AckMessage) past self, AckMessage.decode past self msg.encode = (true, msg)) ∧
    (∀ msg : ErrorMessage, NulFree msg.mErrorMessage →
      ∀ past self, ErrorMessage.decode past self msg.encode = (true, msg)) ∧
    (∀ (nr : UInt16) (d : Bytes), ∃ s,
      (((DataMessage.new d.length).setData d).setBlockNr nr).encode = some s ∧
      ∀ self : DataMessage,
        (d.length ≤ self.mBlocksize →
          self.decode s = (true, { self with mBlockNr := nr, mData := d })) ∧
        (self.mBlocksize < d.length → (self.decode s).1 = false)) := by
  refine ⟨fun msg h hl => ?_, fun msg hne h hl => OptionACKMessage.decode_encode hne h hl,
    fun msg past self => AckMessage.decode_encode past self msg,
    fun msg h past self => ErrorMessage.decode_encode past self h, fun nr d => ?_⟩
  · exact ⟨_, RequestMessage.encode_wire h hl, fun past self => RequestMessage.decode_wire past self h⟩
  · refine ⟨_, DataMessage.encode_new nr d, fun self => ⟨fun h => ?_, fun h => ?_⟩⟩
    · rw [DataMessage.decode_dataBytes, if_pos h]
    · rw [DataMessage.decode_dataBytes, if_neg (by omega)]

/-- A read request for the file `f` with an empty option name and value. -/
theorem wire_round_trip_request :
    RequestMessage.decode [] {} [0, 1, 102, 0, 111, 99, 116, 101, 116, 0, 0, 0] =
      (true, { mOpCode := .rrq, mFilename := [102], mMode := .octet,
               mOptionValues := (∅ : OptMap).insert [] [] }) := by
  have hopts : OptMap.NulFree ((∅ : OptMap).insert [] []) := by
    intro k v h
    have hm := Std.ExtTreeMap.mem_toList_iff_getElem?_eq_some.2 h
    have hl : ((∅ : OptMap).insert [] []).toList = [([], [])] := rfl
    rw [hl, List.mem_singleton, Prod.mk.injEq] at hm
    obtain ⟨rfl, rfl⟩ := hm
    decide
  obtain ⟨s, hs, hd⟩ := wire_round_trip.1
    { mOpCode := .rrq, mFilename := [102], mMode := .octet, mOptionValues := (∅ : OptMap).insert [] [] }
    ⟨Or.inl rfl, rfl, by decide, hopts⟩ (by decide)
  cases hs
  exact hd [] {}

end Ttftp

/-
  Which bytes the decoders read.

  The string's own terminator, at index `s.length`, may be read.  What lies behind it is read
  by three decoders, `reads_within_iff`: by that of requests where the file name is not
  terminated, and by those of ACK and ERROR where the message is too short for its header.
-/
import Ttftp.Reading
import Ttftp.Proof.Messages

namespace Ttftp

open Bytes Reads

/-! ## Option lists -/

theorem decodeOptionsReadsFuel_value (m : Bytes) (size : ℕ) : ∀ (fuel idx : ℕ) (opts : OptMap),
    (decodeOptionsReadsFuel m size fuel idx opts).value = decodeOptionsFuel m size fuel idx opts
  | 0, _, _ => rfl
  | fuel + 1, idx, opts => by
    rw [decodeOptionsReadsFuel, decodeOptionsFuel]
    simp [ite_value, decodeOptionsReadsFuel_value m size fuel]

@[simp] theorem decodeOptionsReads_value (m : Bytes) (size idx : ℕ) (opts : OptMap) :
    (decodeOptionsReads m size idx opts).value = decodeOptions m size idx opts :=
  decodeOptionsReadsFuel_value _ _ _ _ _

/-- Each field that is read begins in the string. -/
theorem within_decodeOptionsReads (s past : Bytes) (idx : ℕ) (opts : OptMap) :
    (decodeOptionsReads (memory s past) s.length idx opts).Within s.length := by
  have hfuel : ∀ (fuel idx : ℕ) (opts : OptMap),
      (decodeOptionsReadsFuel (memory s past) s.length fuel idx opts).Within s.length := by
    intro fuel
    induction fuel with
    | zero => exact fun _ _ => within_pure _ _
    | succ fuel ih =>
      intro idx opts
      rw [decodeOptionsReadsFuel, within_ite]
      refine ⟨fun hidx => ?_, fun _ => within_pure _ _⟩
      simp only [within_bind, within_cstrAt, cstrAt_value, within_ite]
      exact ⟨length_cstr_memory s past hidx.le, fun _ => within_pure _ _, fun hval =>
        ⟨length_cstr_memory s past (by omega), ih _ _⟩⟩
  exact hfuel _ _ _

/-! ## The messages -/

section
variable (past s : Bytes)

theorem RequestMessage.decodeReads_value (self : RequestMessage) :
    (decodeReads past self s).value = decode past self s := by
  -- the conditions stay as they are, with their instances
  simp only [decodeReads, decode, ite_value, bind_value, pure_value]
  simp only [cstrAt_value, decodeOptionsReads_value]
  rfl

theorem DataMessage.decodeReads_value (self : DataMessage) : (decodeReads past self s).value = self.decode s := by
  have hdata : (bytesAt (memory s past) controlBytes s.length).value = s.drop controlBytes := by
    rw [bytesAt_value, memory, List.take_left]
  simp only [decodeReads, decode, ite_value, bind_value, pure_value]
  by_cases h : self.mBlocksize + controlBytes < s.length ∨ s.length < controlBytes
  · rw [if_pos h, if_pos h]
  · have h4 : 4 ≤ s.length := not_lt.1 (not_or.1 h).2
    have hop : ntohs (memory s past) 0 = ntohs s 0 := ntohs_append (by omega) _
    have hnr : ntohs (memory s past) opcodeLength = ntohs s opcodeLength := ntohs_append (by change 2 + 1 < _; omega) _
    rw [if_neg h, if_neg h, hdata, ← hnr, ← hop]
    rfl

theorem AckMessage.decodeReads_value (self : AckMessage) : (decodeReads past self s).value = decode past self s := by
  simp only [decodeReads, decode, ite_value, bind_value, pure_value]
  rfl

theorem ErrorMessage.decodeReads_value (self : ErrorMessage) :
    (decodeReads past self s).value = decode past self s := by
  simp only [decodeReads, decode, ite_value, bind_value, pure_value]
  simp only [cstrAt_value]
  rfl

theorem OptionACKMessage.decodeReads_value (self : OptionACKMessage) :
    (decodeReads past self s).value = decode past self s := by
  simp only [decodeReads, decode, ite_value, bind_value, pure_value]
  simp only [decodeOptionsReads_value]
  rfl

/-- A string of one byte has no such opcode, as its terminator is read for the low byte. -/
theorem two_le_length {past s : Bytes} {n : UInt16} (hs : s ≠ []) (h : ntohs (memory s past) 0 = n)
    (hn : n.toNat % 256 ≠ 0) : 2 ≤ s.length := by
  have hpos := List.length_pos_iff.2 hs
  by_contra hlt
  obtain ⟨b, rfl⟩ := List.length_eq_one_iff.1 (show s.length = 1 by omega)
  have hb := b.toNat_lt
  have hone : ntohs (memory [b] past) 0 = UInt16.ofNat (b.toNat * 256) := by
    simp [ntohs, memory]
  have hval : (UInt16.ofNat (b.toNat * 256)).toNat = b.toNat * 256 :=
    UInt16.toNat_ofNat_of_lt' (by rw [UInt16.size]; omega)
  rw [← h, hone, hval] at hn
  omega

/-- A string is its opcode and the rest. -/
theorem htons_opcode {past s : Bytes} {n : UInt16} (hs : 2 ≤ s.length) (h : ntohs (memory s past) 0 = n) :
    htons n ++ s.drop 2 = s := by
  rw [memory, ntohs_append (by omega)] at h
  rw [← h, htons_ntohs hs]

/-- The mode is looked for behind the string where the file name does not end in it. -/
theorem within_mode (h2 : 2 ≤ s.length) : (cstrAt (memory s past) opcodeLength).Within s.length ∧
    (cstrAt (memory s past) (opcodeLength + (cstr (memory s past) opcodeLength).length + 1)).Within s.length ↔
      0 ∈ s.drop 2 := by
  rw [within_cstrAt, within_cstrAt]
  refine (and_iff_right (length_cstr_memory s past h2)).trans ?_
  rcases nulFree_or_field (s.drop opcodeLength) with hfree | ⟨a, rest, ha, hs⟩
  · have hlen : (s.drop opcodeLength).length = s.length - opcodeLength := List.length_drop
    rw [cstr_memory_nulFree (i := opcodeLength) h2 hfree]
    exact iff_of_false (by change 2 ≤ s.length at h2; omega) hfree
  · obtain ⟨hname, -, hlen⟩ := cstr_memory_field ha hs past
    rw [hname]
    refine iff_of_true (length_cstr_memory s past (by omega)) ?_
    change 0 ∈ s.drop opcodeLength
    rw [hs]
    exact List.mem_append_right _ List.mem_cons_self

theorem RequestMessage.within_decodeReads (self : RequestMessage) : (decodeReads past self s).Within s.length ↔
    s.length < 4 ∨ ntohs s 0 ≠ TftpOpcode.rrq.toUInt16 ∧ ntohs s 0 ≠ TftpOpcode.wrq.toUInt16 ∨ 0 ∈ s.drop 2 := by
  simp only [decodeReads, within_ite, within_bind, within_pure, within_ntohsAt, within_decodeOptionsReads,
    cstrAt_value, and_true, implies_true, true_and]
  simp only [ntohsAt_value]
  by_cases h4 : s.length < 4
  · exact iff_of_true (fun h => absurd h4 h) (.inl h4)
  have hop : ntohs (memory s past) 0 = ntohs s 0 := ntohs_append (by omega) _
  rw [hop, within_mode past s (by omega), or_iff_right h4, or_iff_not_imp_left]
  exact ⟨fun h => (h h4).2, fun h _ => ⟨by omega, h⟩⟩

/-- Each of the following fields is looked for only in the string. -/
theorem OptionACKMessage.within_decodeReads (self : OptionACKMessage) :
    (decodeReads past self s).Within s.length := by
  have hl : ¬ s.length < opcodeLength + 2 → 0 + 1 ≤ s.length := by omega
  simpa only [decodeReads, within_ite, within_bind, within_pure, within_ntohsAt, within_decodeOptionsReads, and_true,
    implies_true, true_and] using hl

theorem DataMessage.within_decodeReads (self : DataMessage) : (decodeReads past self s).Within s.length := by
  simp only [decodeReads, within_ite, within_bind, within_pure, within_ntohsAt, within_bytesAt, and_true, implies_true,
    true_and]
  intro h
  have h4 : 4 ≤ s.length := not_lt.1 (not_or.1 h).2
  refine ⟨by omega, fun _ => ?_⟩
  change 2 + 1 ≤ s.length
  omega

/-- The two numbers of an ACK are read whatever its length. -/
theorem AckMessage.within_decodeReads (self : AckMessage) :
    (decodeReads past self s).Within s.length ↔ s ≠ [] ∧ s ≠ [0, 4] := by
  simp only [decodeReads, within_ite, within_bind, within_pure, within_ntohsAt, and_true, implies_true, true_and,
    zero_add]
  simp only [ntohsAt_value, not_ne_iff]
  rw [show 1 ≤ s.length ↔ s ≠ [] from List.length_pos_iff]
  refine and_congr_right fun hs => ?_
  constructor
  · rintro h rfl
    exact absurd (h (ntohs_memory [] [] past TftpOpcode.ack.toUInt16)) (by decide)
  · intro h hop
    have h2 := two_le_length hs hop (by decide)
    change 2 + 1 ≤ s.length
    by_contra hlt
    refine h ?_
    rw [← htons_opcode h2 hop, List.drop_eq_nil_of_le (by omega)]
    rfl

/-- So are those of an ERROR message, and then the text. -/
theorem ErrorMessage.within_decodeReads (self : ErrorMessage) :
    (decodeReads past self s).Within s.length ↔ s ≠ [] ∧ ¬ (s.length < 4 ∧ s.take 2 = [0, 5]) := by
  simp only [decodeReads, within_ite, within_bind, within_pure, within_ntohsAt, within_cstrAt, and_true, implies_true,
    true_and, zero_add]
  simp only [ntohsAt_value, not_ne_iff]
  rw [show 1 ≤ s.length ↔ s ≠ [] from List.length_pos_iff]
  refine and_congr_right fun hs => ?_
  constructor
  · rintro h ⟨hlt, htake⟩
    have h2 : 2 ≤ s.length := by
      have hlen := congrArg List.length htake
      rw [List.length_take] at hlen
      change min 2 s.length = 2 at hlen
      omega
    have hop : ntohs (memory s past) 0 = TftpOpcode.error.toUInt16 := by
      rw [memory, ntohs_append (by omega), ← ntohs_take (n := 2) (by omega), htake]
      rfl
    have hcstr := (h hop).2
    omega
  · intro h hop
    have h2 := two_le_length hs hop (by decide)
    have htake : s.take 2 = [0, 5] := by
      rw [← htons_opcode h2 hop]
      rfl
    have h4 : 4 ≤ s.length := not_lt.1 fun hlt => h ⟨hlt, htake⟩
    exact ⟨by change 2 + 1 ≤ s.length; omega, length_cstr_memory s past h4⟩

/-- **When the decoders read nothing behind the string's terminator.** -/
theorem reads_within_iff (request : RequestMessage) (oack : OptionACKMessage) (data : DataMessage) (ack : AckMessage)
    (error : ErrorMessage) :
    ((RequestMessage.decodeReads past request s).Within s.length ↔ s.length < 4 ∨
      ntohs s 0 ≠ TftpOpcode.rrq.toUInt16 ∧ ntohs s 0 ≠ TftpOpcode.wrq.toUInt16 ∨ 0 ∈ s.drop 2) ∧
    (OptionACKMessage.decodeReads past oack s).Within s.length ∧
    (DataMessage.decodeReads past data s).Within s.length ∧
    ((AckMessage.decodeReads past ack s).Within s.length ↔ s ≠ [] ∧ s ≠ [0, 4]) ∧
    ((ErrorMessage.decodeReads past error s).Within s.length ↔ s ≠ [] ∧ ¬ (s.length < 4 ∧ s.take 2 = [0, 5])) :=
  ⟨RequestMessage.within_decodeReads past s request, OptionACKMessage.within_decodeReads past s oack,
    DataMessage.within_decodeReads past s data, AckMessage.within_decodeReads past s ack,
    ErrorMessage.within_decodeReads past s error⟩

end

/-- An ACK that is cut off behind the opcode. -/
theorem ack_reads_behind : ¬ ∀ past s request oack data ack error,
    (RequestMessage.decodeReads past request s).Within s.length ∧
    (OptionACKMessage.decodeReads past oack s).Within s.length ∧
    (DataMessage.decodeReads past data s).Within s.length ∧
    (AckMessage.decodeReads past ack s).Within s.length ∧
    (ErrorMessage.decodeReads past error s).Within s.length := by
  intro h
  obtain ⟨-, -, -, hack, -⟩ := h [] [0, 4] {} {} (.new 512) {} {}
  exact ((AckMessage.within_decodeReads _ _ _).1 hack).2 rfl

end Ttftp

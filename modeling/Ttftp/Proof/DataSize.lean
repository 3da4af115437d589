/-
  The size of a DATA message over its life.

  `Op` are the operations on a `DataMessage`, `operations` their runs.  `setData`
  compares with the payload and keeps its size, but `decode` replaces the payload
  by what has arrived, which may be shorter than the blocksize: only then does
  the assertion of `encode` fail (`encodes_iff`).
-/
import Ttftp.Lib.Lts
import Ttftp.Proof.Messages

namespace Ttftp

open Bytes

namespace DataMessage

/-- An operation on a message. -/
inductive Op where
  | setData (databuf : Bytes)
  | setBlockNr (nr : UInt16)
  | decode (s : Bytes)

def apply (msg : DataMessage) : Op → DataMessage
  | .setData databuf => msg.setData databuf
  | .setBlockNr nr => msg.setBlockNr nr
  | .decode s => (msg.decode s).2

/-- The sequences of operations on a message of any blocksize. -/
def operations : Lts DataMessage Op := .total (fun msg => ∃ bs, msg = new bs) apply

/-- The message has as much data as it has room for. -/
def Full (msg : DataMessage) : Prop := msg.mData.length = msg.mBlocksize

/-- A DATA message with less data than the blocksize. -/
def Short (bs : ℕ) (s : Bytes) : Prop :=
  controlBytes ≤ s.length ∧ s.length < bs + controlBytes ∧ ntohs s 0 = TftpOpcode.data.toUInt16

/-- The operation decodes such a message. -/
def Truncates (bs : ℕ) (op : Op) : Prop := ∃ s, op = .decode s ∧ Short bs s

/-- The step has decoded its string. -/
def Decoded (msg : DataMessage) (op : Op) (s : Bytes) : Prop := op = .decode s ∧ (msg.decode s).1 = true

/-- After the step, the assertion of `encode` holds, and what has been decoded is encoded again. -/
def EncodesAfter (x : DataMessage × Op × DataMessage) : Prop :=
  x.2.2.encode ≠ none ∧ ∀ s, Decoded x.1 x.2.1 s → x.2.2.encode = some s

/-- So it is in every state of a sequence of operations. -/
def Encodes (bs : ℕ) (ops : List Op) : Prop :=
  (new bs).encode ≠ none ∧ ∀ x ∈ operations.trace (new bs) ops, EncodesAfter x

theorem encode_ne_none_iff {msg : DataMessage} : msg.encode ≠ none ↔ msg.Full := by
  unfold encode Full
  split_ifs with h <;> simp [h]

@[simp] theorem mBlocksize_apply (msg : DataMessage) (op : Op) : (msg.apply op).mBlocksize = msg.mBlocksize := by
  cases op with
  | setData databuf =>
    change (if _ then msg else _).mBlocksize = _
    split_ifs <;> rfl
  | setBlockNr nr => rfl
  | decode s =>
    change (msg.decode s).2.mBlocksize = _
    unfold decode
    split_ifs <;> rfl

/-- `setData` and `setBlockNr` keep the size. -/
theorem length_mData_setData (databuf : Bytes) (msg : DataMessage) :
    (msg.setData databuf).mData.length = msg.mData.length := by
  unfold setData
  split_ifs with h
  · rfl
  · exact not_ne_iff.1 h

/-- What `decode` accepts has the opcode, and at most the blocksize as data. -/
theorem decode_true_iff {msg : DataMessage} {s : Bytes} : (msg.decode s).1 = true ↔
    controlBytes ≤ s.length ∧ s.length ≤ msg.mBlocksize + controlBytes ∧ ntohs s 0 = TftpOpcode.data.toUInt16 := by
  unfold decode
  split_ifs with h1 h2
  · exact iff_of_false (by decide) (by omega)
  · exact iff_of_false (by decide) fun h => h2 h.2.2
  · exact iff_of_true rfl ⟨by omega, by omega, not_ne_iff.1 h2⟩

/-- What it rejects leaves the message as it was. -/
theorem decode_false {msg : DataMessage} {s : Bytes} (h : (msg.decode s).1 = false) : (msg.decode s).2 = msg := by
  unfold decode at h ⊢
  split_ifs at h ⊢ <;> rfl

/-- **What it accepts is encoded again** exactly if it fills the message. -/
theorem encode_decode {msg : DataMessage} {s : Bytes} (h : (msg.decode s).1 = true) :
    (msg.decode s).2.encode = if s.length = msg.mBlocksize + controlBytes then some s else none := by
  obtain ⟨h1, h2, h3⟩ := decode_true_iff.1 h
  have hd : (msg.decode s).2 = { msg with mBlockNr := ntohs s opcodeLength, mData := s.drop controlBytes } := by
    rw [decode, if_neg (by omega), if_neg (not_ne_iff.2 h3)]
  rw [hd, encode]
  dsimp only
  rw [List.length_drop, ← h3]
  exact if_congr (by omega) (congrArg some (htons_ntohs_two h1)) rfl

/-- A step keeps the size unless it decodes a short message. -/
theorem apply_full {msg : DataMessage} (h : msg.Full) {op : Op}
    (hshort : ∀ s, op = .decode s → ¬ Short msg.mBlocksize s) :
    (msg.apply op).Full ∧ ∀ s, Decoded msg op s → (msg.apply op).encode = some s := by
  cases op with
  | setData databuf =>
    refine ⟨?_, fun s hs => by cases hs.1⟩
    rw [Full, mBlocksize_apply]
    exact (length_mData_setData databuf msg).trans h
  | setBlockNr nr => exact ⟨h, fun s hs => by cases hs.1⟩
  | decode s =>
    cases hd : (msg.decode s).1 with
    | false =>
      have hkept : msg.apply (.decode s) = msg := decode_false hd
      refine ⟨by rw [hkept]; exact h, ?_⟩
      rintro s' ⟨heq, hd'⟩
      cases heq
      cases hd.symm.trans hd'
    | true =>
      obtain ⟨h1, h2, h3⟩ := decode_true_iff.1 hd
      have hlen : s.length = msg.mBlocksize + controlBytes := by
        by_contra hne
        exact hshort s rfl ⟨h1, by omega, h3⟩
      have hencode : (msg.apply (.decode s)).encode = some s := (encode_decode hd).trans (if_pos hlen)
      refine ⟨encode_ne_none_iff.1 (by rw [hencode]; simp), ?_⟩
      rintro s' ⟨heq, -⟩
      cases heq
      exact hencode

/-- After a short message the assertion fails. -/
theorem encode_decode_short {msg : DataMessage} {s : Bytes} (h : Short msg.mBlocksize s) :
    (msg.decode s).2.encode = none := by
  obtain ⟨h1, h2, h3⟩ := h
  rw [encode_decode (decode_true_iff.2 ⟨h1, h2.le, h3⟩), if_neg (by omega)]

/-- **The size of a DATA message.**  In a sequence of operations on a message, the
    assertion of `encode` holds in every state, and a decoded string is encoded
    again, exactly if no short DATA message is decoded. -/
theorem encodes_iff (bs : ℕ) (ops : List Op) : Encodes bs ops ↔ ∀ s, Op.decode s ∈ ops → ¬ Short bs s := by
  have hstep : ∀ msg op msg', (msg.Full ∧ msg.mBlocksize = bs) → operations.step msg op = some msg' →
      (¬ Truncates bs op → (msg'.Full ∧ msg'.mBlocksize = bs) ∧ EncodesAfter (msg, op, msg')) ∧
      (Truncates bs op → ¬ EncodesAfter (msg, op, msg')) := by
    rintro msg op msg' ⟨hfull, rfl⟩ he
    cases he
    constructor
    · intro hshort
      obtain ⟨hfull', hencode⟩ := apply_full hfull fun s hs h => hshort ⟨s, hs, h⟩
      exact ⟨⟨hfull', mBlocksize_apply msg op⟩, encode_ne_none_iff.2 hfull', hencode⟩
    · rintro ⟨s, rfl, hshort⟩ hafter
      exact hafter.1 (encode_decode_short hshort)
  have hnew : (new bs).Full := List.length_replicate
  have htrace := Lts.trace_iff (P := EncodesAfter) hstep ⟨hnew, rfl⟩ ops
  rw [Encodes, and_iff_right (encode_ne_none_iff.2 hnew), htrace, operations,
    Lts.forall_trace_total (P := fun op => ¬ Truncates bs op)]
  constructor
  · exact fun h s hs hshort => h _ hs ⟨s, rfl, hshort⟩
  · rintro h _ hs ⟨s, rfl, hshort⟩
    exact h s hs hshort

/-- A last block of one byte, decoded at the default blocksize. -/
theorem not_encodes_last_block : ¬ ∀ bs ops, Encodes bs ops := fun h => by
  have hlast := (h defaultBlocksize [.decode [0, 3, 0, 1, 7]]).2 _ List.mem_cons_self
  exact hlast.1 (by decide)

end DataMessage

end Ttftp

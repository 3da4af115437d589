/-
  Standard streams over byte sequences, as far as block-wise file access uses
  them, and the blocks of a byte sequence.

  * a read that meets the end sets the end-of-file and the fail bit;
    `seekg` clears the end-of-file bit only, does nothing while the fail bit is
    set, and fails on a negative position;
  * an output stream records every write with its outcome, which `accept`
    decides; after a failed write all further ones fail;
  * `block F n i` is the `i`-th block of `n` bytes of `F` (shorter, or empty, at
    the end): `IStream.read_block` and `take_append_block` are the two ends of a
    block-wise copy.
-/
import Ttftp.Lib.Bytes

/-! ## Blocks -/

section
variable {α : Type}

/-- The `i`-th block of `n` elements. -/
def block (F : List α) (n i : ℕ) : List α := (F.drop (i * n)).take n

theorem length_block (F : List α) (n i : ℕ) : (block F n i).length = min n (F.length - i * n) := by
  simp [block]

theorem length_block_le (F : List α) (n i : ℕ) : (block F n i).length ≤ n := by
  rw [length_block]; exact min_le_left _ _

/-- A block is short exactly if the sequence ends in it (or before). -/
theorem length_block_lt (F : List α) {n : ℕ} (hn : 0 < n) (i : ℕ) :
    (block F n i).length < n ↔ F.length < (i + 1) * n := by
  rw [length_block, Nat.add_mul, Nat.one_mul]
  omega

theorem take_append_block (F : List α) (n i : ℕ) :
    F.take (i * n) ++ block F n i = F.take ((i + 1) * n) := by
  rw [block, Nat.add_mul, Nat.one_mul, List.take_add]

end

/-! ## Input streams -/

structure IStream where
  content : Bytes
  pos : ℕ := 0
  eof : Bool := false
  /-- the fail bit or the bad bit -/
  fail : Bool := false
  /-- the number of bytes of the last read -/
  gcount : ℕ := 0
  deriving DecidableEq, Repr

namespace IStream

/-- An input stream on a file, failed if there is no such file. -/
def ofFile : Option Bytes → IStream
  | some F => { content := F }
  | none => { content := [], fail := true }

def seekg (p : ℤ) (s : IStream) : IStream :=
  if s.fail then { s with eof := false }
  else if p < 0 then { s with eof := false, fail := true }
  else { s with eof := false, pos := p.toNat }

/-- Read `n` bytes: the stream afterwards and the bytes it delivered. -/
def read (n : ℕ) (s : IStream) : IStream × Bytes :=
  if s.fail || s.eof then ({ s with fail := true, gcount := 0 }, [])
  else
    let d := (s.content.drop s.pos).take n
    ({ s with pos := s.pos + d.length, eof := d.length < n, fail := d.length < n, gcount := d.length }, d)

@[simp] theorem seekg_content (p : ℤ) (s : IStream) : (s.seekg p).content = s.content := by
  unfold seekg; split_ifs <;> rfl

@[simp] theorem seekg_eof (p : ℤ) (s : IStream) : (s.seekg p).eof = false := by
  unfold seekg; split_ifs <;> rfl

@[simp] theorem seekg_gcount (p : ℤ) (s : IStream) : (s.seekg p).gcount = s.gcount := by
  unfold seekg; split_ifs <;> rfl

theorem seekg_fail (p : ℤ) (s : IStream) : (s.seekg p).fail = (s.fail || decide (p < 0)) := by
  unfold seekg
  split_ifs with h1 h2
  · simp [h1]
  · simp [h2]
  · simp [h1, h2]

theorem seekg_pos {p : ℤ} {s : IStream} (h : (s.seekg p).fail = false) : (s.seekg p).pos = p.toNat := by
  rw [seekg_fail, Bool.or_eq_false_iff, decide_eq_false_iff_not] at h
  simp [seekg, h.1, h.2]

@[simp] theorem read_content (n : ℕ) (s : IStream) : (s.read n).1.content = s.content := by
  unfold read; split_ifs <;> rfl

theorem read_gcount (n : ℕ) (s : IStream) : (s.read n).1.gcount = (s.read n).2.length := by
  unfold read; split_ifs <;> rfl

theorem length_read_le (n : ℕ) (s : IStream) : (s.read n).2.length ≤ n := by
  unfold read
  split_ifs
  · exact Nat.zero_le _
  · exact List.length_take_le _ _

theorem read_fail {n : ℕ} {s : IStream} (h : s.fail = false) (he : s.eof = false) :
    (s.read n).1.fail = decide ((s.read n).2.length < n) := by
  simp [read, h, he]

/-- Reading after a successful `seekg` to a block boundary yields the block. -/
theorem read_block {s : IStream} {n i : ℕ} {p : ℤ} (hp : p = (i * n : ℕ))
    (h : (s.seekg p).fail = false) : ((s.seekg p).read n).2 = block s.content n i := by
  have hpos : (s.seekg p).pos = i * n := by rw [seekg_pos h, hp, Int.toNat_natCast]
  simp [read, h, hpos, block]

end IStream

/-! ## Output streams -/

structure OStream where
  /-- the fail bit or the bad bit -/
  fail : Bool := false
  /-- whether the device takes the write of this number -/
  accept : ℕ → Bool := fun _ => true
  /-- the writes so far, each with its outcome -/
  writes : List (Bytes × Bool) := []

namespace OStream

/-- What the stream has written. -/
def content (s : OStream) : Bytes := (s.writes.filter (·.2)).flatMap (·.1)

def write (d : Bytes) (s : OStream) : OStream :=
  let ok := !s.fail && s.accept s.writes.length
  { s with fail := s.fail || !ok, writes := s.writes ++ [(d, ok)] }

@[simp] theorem write_accept (d : Bytes) (s : OStream) : (s.write d).accept = s.accept := rfl

@[simp] theorem length_writes_write (d : Bytes) (s : OStream) :
    (s.write d).writes.length = s.writes.length + 1 := by
  simp [write]

theorem write_fail (d : Bytes) (s : OStream) :
    (s.write d).fail = (s.fail || !s.accept s.writes.length) := by
  simp only [write]
  cases s.fail <;> simp

/-- The last write has succeeded exactly if the stream is still good. -/
theorem writes_write (d : Bytes) (s : OStream) :
    (s.write d).writes = s.writes ++ [(d, !(s.write d).fail)] := by
  simp only [write]
  cases s.fail <;> simp

theorem content_write (d : Bytes) (s : OStream) :
    (s.write d).content = s.content ++ (if !s.fail && s.accept s.writes.length then d else []) := by
  simp only [content, write, List.filter_append, List.flatMap_append]
  split_ifs with h <;> simp [h]

end OStream

/-! ## The operating system -/

/-- What the operating system has to offer: the streams that can be opened, the sizes that
    can be queried, and sockets. -/
structure OperatingSystem where
  /-- what can be read from the file of this name, if it can be opened -/
  content : Bytes → Option Bytes
  /-- the result of `file_size`, which is `2 ^ 64 - 1` in case of an error -/
  fileSize : Bytes → UInt64
  /-- the stream that opening the file for output gives -/
  output : Bytes → OStream
  /-- the free space where a folder is; `space` throws if there is no such folder -/
  available : Bytes → Option UInt64
  /-- the absolute form of a path; `absolute` throws if there is none -/
  absolute : Bytes → Option Bytes
  /-- whether a socket can be opened -/
  sockets : Bool := true
  /-- whether a socket can be opened at this port -/
  listens : UInt16 → Bool := fun _ => true

/-
  The decoders of `tftpmessages` once more, with the bytes they read.

  Each `decodeReads` follows the same source function as `decode`, reading the memory at the
  string's data pointer step by step; its result is that of `decode` (`decodeReads_value`).
-/
import Ttftp.Lib.Reads
import Ttftp.Messages

namespace Ttftp

open Bytes Reads

/-- The loop over the option-value pairs, from index `idx` on, as long as `fuel` lasts. -/
def decodeOptionsReadsFuel (m : Bytes) (size : ℕ) : ℕ → ℕ → OptMap → Reads (Bool × OptMap)
  | 0, _, opts => pure (true, opts)
  | fuel + 1, idx, opts =>
    if idx < size then do
      let option ← cstrAt m idx
      let idx := idx + option.length + 1
      -- the value is missing for this option
      if size ≤ idx then pure (false, opts)
      else do
        let value ← cstrAt m idx
        decodeOptionsReadsFuel m size fuel (idx + value.length + 1) (opts.insert option value)
    else pure (true, opts)

def decodeOptionsReads (m : Bytes) (size idx : ℕ) (opts : OptMap) : Reads (Bool × OptMap) :=
  decodeOptionsReadsFuel m size (size - idx) idx opts

def RequestMessage.decodeReads (past : Bytes) (self : RequestMessage) (s : Bytes) : Reads (Bool × RequestMessage) :=
  let self := { self with mOptionValues := ∅ }
  if s.length < opcodeLength + 2 then pure (false, self)
  else do
    let m := memory s past
    let opcode ← ntohsAt m 0
    if opcode ≠ TftpOpcode.rrq.toUInt16 ∧ opcode ≠ TftpOpcode.wrq.toUInt16 then pure (false, self)
    else do
      let mFilename ← cstrAt m opcodeLength
      let self := { self with
        mOpCode := if opcode = TftpOpcode.rrq.toUInt16 then .rrq else .wrq
        mFilename := mFilename }
      let mode ← cstrAt m (opcodeLength + self.mFilename.length + 1)
      let self := { self with mMode := str2mode mode }
      if self.mMode = .invalid then pure (false, self)
      else do
        let r ← decodeOptionsReads m s.length (opcodeLength + self.mFilename.length + 1 + mode.length + 1) ∅
        pure (r.1, { self with mOptionValues := r.2 })

/-- The data are copied from the string itself, whose end is not read. -/
def DataMessage.decodeReads (past : Bytes) (self : DataMessage) (s : Bytes) : Reads (Bool × DataMessage) :=
  if self.mBlocksize + controlBytes < s.length ∨ s.length < controlBytes then pure (false, self)
  else do
    let m := memory s past
    let opcode ← ntohsAt m 0
    if opcode ≠ TftpOpcode.data.toUInt16 then pure (false, self)
    else do
      let mBlockNr ← ntohsAt m opcodeLength
      let mData ← bytesAt m controlBytes s.length
      pure (true, { self with mBlockNr := mBlockNr, mData := mData })

def AckMessage.decodeReads (past : Bytes) (self : AckMessage) (s : Bytes) : Reads (Bool × AckMessage) := do
  let m := memory s past
  let opcode ← ntohsAt m 0
  if opcode ≠ TftpOpcode.ack.toUInt16 then pure (false, self)
  else do
    let mBlockNr ← ntohsAt m opcodeLength
    pure (true, { mBlockNr := mBlockNr })

def ErrorMessage.decodeReads (past : Bytes) (self : ErrorMessage) (s : Bytes) : Reads (Bool × ErrorMessage) := do
  let m := memory s past
  let opcode ← ntohsAt m 0
  if opcode ≠ TftpOpcode.error.toUInt16 then pure (false, self)
  else do
    let error_code ← ntohsAt m opcodeLength
    let error_message ← cstrAt m 4
    pure (true, { mErrorCode := error_code, mErrorMessage := error_message })

def OptionACKMessage.decodeReads (past : Bytes) (_self : OptionACKMessage) (s : Bytes) :
    Reads (Bool × OptionACKMessage) :=
  if s.length < opcodeLength + 2 then pure (false, {})
  else do
    let m := memory s past
    let opcode ← ntohsAt m 0
    if opcode ≠ TftpOpcode.oack.toUInt16 then pure (false, {})
    else do
      let r ← decodeOptionsReads m s.length opcodeLength ∅
      pure (r.1, { mOptionValues := r.2 })

end Ttftp

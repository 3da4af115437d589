/-
  The five message formats (`tftpmessages`).

  A decoder works on an existing object and changes it also where it fails, so
  it returns whether it succeeded together with the object.  The decoders that
  follow NUL-terminated fields, or read a header without checking the length,
  look at the memory behind the string: `past` is what follows the string's
  terminating NUL.

  The opcode of the last four messages is set by their constructors and never
  changes; only `RequestMessage` stores one.
-/
import Ttftp.HelpDefs

namespace Ttftp

open Bytes

/-! ## Option lists -/

/-- The loop over the option-value pairs, from index `idx` on, as long as
    `fuel` lasts. -/
def decodeOptionsFuel (m : Bytes) (size : ℕ) : ℕ → ℕ → OptMap → Bool × OptMap
  | 0, _, opts => (true, opts)
  | fuel + 1, idx, opts =>
    if idx < size then
      let option := cstr m idx
      let idx := idx + option.length + 1
      -- the value is missing for this option
      if size ≤ idx then (false, opts)
      else
        let value := cstr m idx
        decodeOptionsFuel m size fuel (idx + value.length + 1) (opts.insert option value)
    else (true, opts)

/-- The loop over the option-value pairs; each round moves the index on, so
    the rounds below `size` suffice (`decodeOptions_eq`). -/
def decodeOptions (m : Bytes) (size idx : ℕ) (opts : OptMap) : Bool × OptMap :=
  decodeOptionsFuel m size (size - idx) idx opts

/-- An option-value pair, both 0-terminated. -/
def optionField (p : Bytes × Bytes) : Bytes := p.1 ++ 0 :: (p.2 ++ [0])

def encodeOptions (opts : OptMap) : Bytes := opts.toList.flatMap optionField

def optionValLength (opts : OptMap) : ℕ :=
  (opts.toList.map fun p => p.1.length + 1 + p.2.length + 1).sum

/-! ## Requests -/

structure RequestMessage where
  mOpCode : TftpOpcode := .invalid
  mFilename : Bytes := []
  mMode : TftpMode := .invalid
  mOptionValues : OptMap := ∅

namespace RequestMessage

def decode (past : Bytes) (self : RequestMessage) (s : Bytes) : Bool × RequestMessage :=
  let self := { self with mOptionValues := ∅ }
  if s.length < opcodeLength + 2 then (false, self)
  else
    let m := memory s past
    let opcode := ntohs m 0
    if opcode ≠ TftpOpcode.rrq.toUInt16 ∧ opcode ≠ TftpOpcode.wrq.toUInt16 then (false, self)
    else
      let self := { self with
        mOpCode := if opcode = TftpOpcode.rrq.toUInt16 then .rrq else .wrq
        mFilename := cstr m opcodeLength }
      let mode := cstr m (opcodeLength + self.mFilename.length + 1)
      let self := { self with mMode := str2mode mode }
      if self.mMode = .invalid then (false, self)
      else
        let r := decodeOptions m s.length (opcodeLength + self.mFilename.length + 1 + mode.length + 1) ∅
        (r.1, { self with mOptionValues := r.2 })

def messageLength (msg : RequestMessage) : ℕ :=
  opcodeLength + msg.mFilename.length + 1 + (mode2str msg.mMode).length + 1 +
    optionValLength msg.mOptionValues

def encode (msg : RequestMessage) : Except Exn Bytes :=
  if msg.mMode = .invalid ∨ msg.mOpCode = .invalid then .error .errInvalidMessageParameters
  else if 512 < msg.messageLength then .error .errInvalidMessageParameters
  else .ok (htons msg.mOpCode.toUInt16 ++ (msg.mFilename ++ 0 :: (mode2str msg.mMode ++ 0 ::
    encodeOptions msg.mOptionValues)))

def isRRQ (msg : RequestMessage) : Bool := msg.mOpCode = .rrq

def isWRQ (msg : RequestMessage) : Bool := msg.mOpCode = .wrq

end RequestMessage

/-! ## DATA -/

structure DataMessage where
  mData : Bytes
  mBlockNr : UInt16 := 0
  mBlocksize : ℕ
  deriving DecidableEq, Repr

namespace DataMessage

def new (blocksize : ℕ) : DataMessage where
  mData := List.replicate blocksize 0
  mBlocksize := blocksize

def decode (self : DataMessage) (s : Bytes) : Bool × DataMessage :=
  if self.mBlocksize + controlBytes < s.length ∨ s.length < controlBytes then (false, self)
  else if ntohs s 0 ≠ TftpOpcode.data.toUInt16 then (false, self)
  else (true, { self with mBlockNr := ntohs s opcodeLength, mData := s.drop controlBytes })

/-- `none` where the assertion on the size of the data fails. -/
def encode (msg : DataMessage) : Option Bytes :=
  if msg.mData.length = msg.mBlocksize then
    some (htons TftpOpcode.data.toUInt16 ++ (htons msg.mBlockNr ++ msg.mData))
  else none

/-- `setData`; it refuses a buffer of another size. -/
def setData (databuf : Bytes) (msg : DataMessage) : DataMessage :=
  if databuf.length ≠ msg.mData.length then msg else { msg with mData := databuf }

def setBlockNr (nr : UInt16) (msg : DataMessage) : DataMessage := { msg with mBlockNr := nr }

end DataMessage

/-! ## ACK -/

structure AckMessage where
  mBlockNr : UInt16 := 0
  deriving DecidableEq, Repr

namespace AckMessage

def decode (past : Bytes) (self : AckMessage) (s : Bytes) : Bool × AckMessage :=
  let m := memory s past
  if ntohs m 0 ≠ TftpOpcode.ack.toUInt16 then (false, self)
  else (true, { mBlockNr := ntohs m opcodeLength })

def encode (msg : AckMessage) : Bytes := htons TftpOpcode.ack.toUInt16 ++ htons msg.mBlockNr

end AckMessage

/-! ## ERROR -/

structure ErrorMessage where
  mErrorCode : UInt16 := 0
  mErrorMessage : Bytes := []
  deriving DecidableEq, Repr

namespace ErrorMessage

def decode (past : Bytes) (self : ErrorMessage) (s : Bytes) : Bool × ErrorMessage :=
  let m := memory s past
  if ntohs m 0 ≠ TftpOpcode.error.toUInt16 then (false, self)
  else (true, { mErrorCode := ntohs m opcodeLength, mErrorMessage := cstr m 4 })

def encode (msg : ErrorMessage) : Bytes :=
  htons TftpOpcode.error.toUInt16 ++ (htons msg.mErrorCode ++ msg.mErrorMessage)

end ErrorMessage

/-! ## OACK -/

structure OptionACKMessage where
  mOptionValues : OptMap := ∅

namespace OptionACKMessage

def decode (past : Bytes) (_self : OptionACKMessage) (s : Bytes) : Bool × OptionACKMessage :=
  if s.length < opcodeLength + 2 then (false, {})
  else
    let m := memory s past
    if ntohs m 0 ≠ TftpOpcode.oack.toUInt16 then (false, {})
    else
      let r := decodeOptions m s.length opcodeLength ∅
      (r.1, { mOptionValues := r.2 })

def messageLength (msg : OptionACKMessage) : ℕ := opcodeLength + optionValLength msg.mOptionValues

def encode (msg : OptionACKMessage) : Except Exn Bytes :=
  if 512 < msg.messageLength then .error .errInvalidMessageParameters
  else .ok (htons TftpOpcode.oack.toUInt16 ++ encodeOptions msg.mOptionValues)

end OptionACKMessage

end Ttftp

/-
  The definitions shared by client and server (`tftphelpdefs`): codes, modes,
  constants, and the options of a transaction.

  An option map is a `std::map` of byte strings, iterated in the order of its
  keys.  `setOptionsFromMap` looks a missing key up with the throwing `at`, so
  its result is in `Except`.
-/
import Mathlib.Tactic.Ring
import Ttftp.Lib.Bytes

namespace Ttftp

open Bytes

/-- The exceptions the program throws. -/
inductive Exn where
  | outOfRange
  | errInvalidMessageParameters
  | runtimeError
  | badWeakPtr
  | systemError
  deriving DecidableEq, Repr

inductive TftpOpcode where
  | invalid | rrq | wrq | data | ack | error | oack
  deriving DecidableEq, Repr

def TftpOpcode.toUInt16 : TftpOpcode → UInt16
  | invalid => 0 | rrq => 1 | wrq => 2 | data => 3 | ack => 4 | error => 5 | oack => 6

inductive TftpMode where
  | invalid | octet
  deriving DecidableEq, Repr

/-- The codes reported to the completion callbacks. -/
inductive TftpUserFacingErrorCode where
  | noerr | unspecified | oackTimeout | outputFileOpen | request | inputFileOpen | wrongBlock
  | opcode | optNegotiation
  deriving DecidableEq, Repr

/-- The codes of ERROR messages. -/
inductive TftpErrorCode where
  | fileNotFound | accessViolation | diskFull | illegalOp | unknownTrId | fileExists | noSuchUser
  | optNegotiation
  deriving DecidableEq, Repr

def TftpErrorCode.toUInt16 : TftpErrorCode → UInt16
  | fileNotFound => 1 | accessViolation => 2 | diskFull => 3 | illegalOp => 4 | unknownTrId => 5
  | fileExists => 6 | noSuchUser => 7 | optNegotiation => 8

def str2mode (mode : Bytes) : TftpMode := if mode = ascii "octet" then .octet else .invalid

def mode2str : TftpMode → Bytes
  | .octet => ascii "octet"
  | .invalid => ascii "invalid"

def controlBytes : ℕ := 4
def opcodeLength : ℕ := 2
def blockNrLength : ℕ := 2

/-- The default time until a retransmission, in seconds. -/
def retransmissionTime : UInt8 := 2
def retransmissionsUntilTimeout : UInt16 := 4
def defaultBlocksize : ℕ := 512

/-- An IP address, of IPv6 with its scope. -/
inductive Address where
  | v4 (bytes : UInt32)
  | v6 (bytes : BitVec 128) (scope_id : UInt32)
  deriving DecidableEq, Repr

/-- A numeral is an address of IPv4. -/
instance (n : ℕ) : OfNat Address n := ⟨.v4 (OfNat.ofNat n)⟩

def Address.is_unspecified : Address → Bool
  | v4 bytes => bytes = 0
  | v6 bytes _ => bytes = 0

def Address.is_v4 : Address → Bool
  | v4 _ => true
  | v6 _ _ => false

structure Endpoint where
  address : Address
  port : UInt16
  deriving DecidableEq, Repr

/-- A default-constructed endpoint: the unspecified address, port zero. -/
instance : Inhabited Endpoint := ⟨⟨0, 0⟩⟩

/-! ## Options -/

abbrev OptMap := Std.ExtTreeMap Bytes Bytes

/-- The throwing lookup. -/
def OptMap.at (m : OptMap) (k : Bytes) : Except Exn Bytes :=
  match m[k]? with
  | some v => .ok v
  | none => .error .outOfRange

def blksizeName : Bytes := ascii "blksize"
def timeoutName : Bytes := ascii "timeout"
def tsizeName : Bytes := ascii "tsize"

structure TransactionOptionValues where
  wasSetByClient : Bool := false
  mBlocksize : Option ℕ := none
  mTimeout : Option UInt8 := none
  mTransferSize : Option UInt64 := none
  deriving DecidableEq, Repr

namespace TransactionOptionValues

/-- Insert an option that has a value. -/
def insertOpt (name : Bytes) (v : Option ℕ) (m : OptMap) : OptMap :=
  match v with
  | some n => m.insert name (decimal n)
  | none => m

def getOptionsAsMap (v : TransactionOptionValues) : OptMap :=
  insertOpt tsizeName (v.mTransferSize.map (·.toNat))
    (insertOpt timeoutName (v.mTimeout.map (·.toNat)) (insertOpt blksizeName v.mBlocksize ∅))

/-- The `blksize` section of `setOptionsFromMap`; `none` where it returns `false`. -/
def setBlksize (m : OptMap) (v : TransactionOptionValues) : Option TransactionOptionValues :=
  match m[blksizeName]? with
  | none => some v
  | some s =>
    let blksize := atoi s
    if 8 ≤ blksize ∧ blksize ≤ 65464 then some { v with mBlocksize := some blksize.toNat } else none

/-- The `timeout` section.  It reads the value of `blksize`. -/
def setTimeout (m : OptMap) (v : TransactionOptionValues) :
    Except Exn (Option TransactionOptionValues) :=
  if timeoutName ∈ m then
    (m.at blksizeName).map fun s =>
      let timeout := atoi s
      if timeout < 0 ∨ 255 < timeout then none
      else some { v with mTimeout := some (UInt8.ofNat timeout.toNat) }
  else .ok (some v)

/-- The `tsize` section. -/
def setTsize (m : OptMap) (v : TransactionOptionValues) : Option TransactionOptionValues :=
  match m[tsizeName]? with
  | none => some v
  | some s =>
    let tsize := atoi s
    if tsize < 0 then none else some { v with mTransferSize := some (UInt64.ofNat tsize.toNat) }

/-- The result says whether all values were valid, and holds the object after
    the call. -/
def setOptionsFromMap (m : OptMap) (v : TransactionOptionValues) :
    Except Exn (Bool × TransactionOptionValues) :=
  match setBlksize m v with
  | none => .ok (false, v)
  | some v => match setTimeout m v with
    | .error e => .error e
    | .ok none => .ok (false, v)
    | .ok (some v) => match setTsize m v with
      | none => .ok (false, v)
      | some v => .ok (true, v)

def isDefault (v : TransactionOptionValues) : Bool :=
  v.mBlocksize.isNone && v.mTimeout.isNone && v.mTransferSize.isNone

end TransactionOptionValues

end Ttftp

/-
  What a receiver is for: a reception, seen from outside.

  A `Reception` is what the datagrams and expirations that were handled so far have made
  of a transfer: the blocks that were written, who sends them, and whether it has ended.
  `handle` is its reaction to the next completion, and `replies` what it answers; texts,
  timers and pending operations do not occur.
-/
import Ttftp.Lib.Inbox
import Ttftp.Receiver

namespace Ttftp

open Bytes Asio

structure Reception where
  output : OStream
  /-- the number of the last accepted block -/
  count : UInt16
  connected : Bool
  /-- the peer, once connected -/
  peer : Endpoint
  ended : Bool
  /-- the expirations since the last accepted block -/
  timeouts : UInt16

/-- What is sent: the acknowledgement of a block, or an error code. -/
inductive Reply where
  | ack (dest : Endpoint) (nr : UInt16)
  | error (dest : Endpoint) (code : UInt16)
  deriving DecidableEq, Repr

/-- The datagrams that convey a reply; the text of an error is free. -/
def Reply.Spells : Reply → Endpoint × Bytes → Prop
  | ack dest nr, x => x = (dest, AckMessage.encode ⟨nr⟩)
  | error dest code, x => ∃ msg, x = (dest, ErrorMessage.encode ⟨code, msg⟩)

/-- The number that a reply acknowledges. -/
def Reply.acked : Reply → Option ℕ
  | ack _ nr => some nr.toNat
  | error _ _ => none

/-- The reply that a datagram conveys. -/
def Reply.read (x : Endpoint × Bytes) : Option Reply :=
  if ntohs x.2 0 = TftpOpcode.ack.toUInt16 then some (.ack x.1 (ntohs x.2 2))
  else if ntohs x.2 0 = TftpOpcode.error.toUInt16 then some (.error x.1 (ntohs x.2 2))
  else none

/-- The replies that have been sent. -/
def repliesOn (wire : List (Endpoint × Bytes)) : List Reply := wire.filterMap Reply.read

/-- The numbers of the ACKs that have been sent. -/
def ackNrs (wire : List (Endpoint × Bytes)) : List ℕ := (repliesOn wire).filterMap Reply.acked

namespace Reception

/-- A datagram from another host than the peer. -/
def Foreign (r : Reception) (src : Endpoint) : Prop := r.connected = true ∧ src ≠ r.peer

instance (r : Reception) (src : Endpoint) : Decidable (r.Foreign src) :=
  inferInstanceAs (Decidable (_ ∧ _))

/-- The DATA message in a datagram, as far as it fits into the buffer. -/
def message (bs : ℕ) (d : Bytes) : Bool × DataMessage :=
  (DataMessage.new bs).decode (d.take (bs + controlBytes))

/-- What a datagram is to a reception. -/
inductive Kind where
  | foreign | noData | old | next | early
  deriving DecidableEq, Repr

def kind (bs : ℕ) (src : Endpoint) (d : Bytes) (r : Reception) : Kind :=
  if r.Foreign src then .foreign
  else if (message bs d).1 = false then .noData
  else if (message bs d).2.mBlockNr.toNat ≤ r.count.toNat then .old
  else if (message bs d).2.mBlockNr.toNat = r.count.toNat + 1 then .next
  else .early

/-- The next block is not foreign, and it is a DATA message. -/
theorem kind_next {bs : ℕ} {src : Endpoint} {d : Bytes} {r : Reception} (h : r.kind bs src d = .next) :
    ¬ r.Foreign src ∧ (message bs d).1 = true := by
  unfold kind at h
  split_ifs at h with hf hm
  exact ⟨hf, Bool.eq_true_of_not_eq_false hm⟩

theorem nr_next {bs : ℕ} {src : Endpoint} {d : Bytes} {r : Reception} (h : r.kind bs src d = .next) :
    (message bs d).2.mBlockNr.toNat = r.count.toNat + 1 := by
  unfold kind at h
  split_ifs at h with h1 h2 h3 h4
  exact h4

/-- The next block is written; a short one is the last. -/
def accept (bs : ℕ) (src : Endpoint) (p : Bytes) (r : Reception) : Reception where
  output := r.output.write p
  count := r.count + 1
  connected := true
  peer := src
  ended := r.ended || r.output.fail || decide (p.length < bs)
  timeouts := 0

def handle (bs : ℕ) (r : Reception) : Completion Endpoint → Reception
  | .started => { r with ended := r.ended || r.output.fail }
  | .datagram src d => match r.kind bs src d with
    | .foreign | .old => r
    | .noData | .early => { r with ended := true }
    | .next => r.accept bs src (message bs d).2.mData
  | .failed e => if e = .operationAborted then r else { r with ended := true }
  | .expired =>
    if r.ended then r
    else { r with
      ended := decide (retransmissionsUntilTimeout < r.timeouts + 1)
      timeouts := r.timeouts + 1 }

/-- The current block is acknowledged, if somebody has sent it. -/
def ackCurrent (r : Reception) : List Reply := if r.connected then [.ack r.peer r.count] else []

def replies (bs : ℕ) (r : Reception) (c : Completion Endpoint) : List Reply :=
  if r.ended then []
  else match c with
    | .started =>
      if r.output.fail then [.error r.peer TftpErrorCode.accessViolation.toUInt16] else r.ackCurrent
    | .datagram src d => match r.kind bs src d with
      | .foreign => .error src TftpErrorCode.unknownTrId.toUInt16 :: r.ackCurrent
      | .noData | .early => [.error r.peer TftpErrorCode.illegalOp.toUInt16]
      | .old => r.ackCurrent
      | .next =>
        if r.output.fail then [.error src TftpErrorCode.accessViolation.toUInt16]
        else [.ack src (r.count + 1)]
    | .failed e => if e = .operationAborted then r.ackCurrent else []
    | .expired =>
      if retransmissionsUntilTimeout < r.timeouts + 1 then [.error r.peer TftpErrorCode.illegalOp.toUInt16]
      else []

end Reception

/-- The reception that a receiver has got to. -/
def TftpReceiver.reception (s : TftpReceiver) : Reception where
  output := s.output
  count := s.lastreceiveddatacount
  connected := s.isConnected
  peer := s.mSenderEndpoint
  ended := s.operationEnded
  timeouts := s.timeoutcount

end Ttftp

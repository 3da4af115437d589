/-
  A transfer: a sender at address `A` and a receiver at address `B`, joined by a
  network without third hosts.

  * in the `lossy` network a datagram that has been sent to an address may arrive
    there at any later time, any number of times, or never, and timers expire and
    operations fail at any time;
  * in the `fifo` network the datagrams from one end to the other arrive exactly
    once and in the order of their sending, no operation fails, and no timer
    expires.  What reaches a closed socket is discarded;
  * a `PromptTransfer` has, in place of the receiver, a peer that acknowledges every
    DATA message it is sent;
  * in the `once` network a datagram arrives at most once, at any later time; timers
    expire, and no operation fails but by being cancelled.
-/
import Ttftp.Sender
import Ttftp.Receiver

namespace Ttftp

open Bytes Asio

structure Transfer where
  sender : Tftpsender
  receiver : TftpReceiver

/-- The senders of a file that wait for ACK 0 of an unknown peer, or start with
    DATA 1 to a known one. -/
inductive SenderStarts (B : Endpoint) (F : Bytes) (blocksize : ℕ) : Tftpsender → Prop
  | unknown (timeoutSeconds : UInt8) :
      SenderStarts B F blocksize (.new {} (.ofFile (some F)) 0 blocksize timeoutSeconds)
  | known (timeoutSeconds : UInt8) :
      SenderStarts B F blocksize (.newConnected {} (.ofFile (some F)) B 1 blocksize timeoutSeconds)

/-- The receivers into an empty stream that accepts all writes, which wait for
    DATA 1 of an unknown peer, or start with ACK 0 to a known one. -/
inductive ReceiverStarts (A : Endpoint) (blocksize : ℕ) : TftpReceiver → Prop
  | unknown (timeoutSeconds : UInt8) :
      ReceiverStarts A blocksize (.new {} {} blocksize timeoutSeconds)
  | known (timeoutSeconds : UInt8) :
      ReceiverStarts A blocksize (.newConnected {} {} A blocksize timeoutSeconds)

inductive TransferEvent where
  | sender (e : Event Endpoint)
  | receiver (e : Event Endpoint)
  deriving DecidableEq, Repr

namespace Transfer

/-- The lossy network delivers at `me` what the peer has ever sent there. -/
def lossyAllows (me peer : Endpoint) (wire : List (Endpoint × Bytes)) : Event Endpoint → Bool
  | .deliver src d => decide (src = peer) && decide ((me, d) ∈ wire)
  | _ => true

def lossyStep (A B : Endpoint) (t : Transfer) : TransferEvent → Option Transfer
  | .sender e =>
    if lossyAllows A B t.receiver.io.wire e then
      (Tftpsender.proactor.step t.sender e).map fun s => { t with sender := s }
    else none
  | .receiver e =>
    if lossyAllows B A t.sender.io.wire e then
      (TftpReceiver.proactor.step t.receiver e).map fun r => { t with receiver := r }
    else none

/-- The transfers of a file over the lossy network. -/
def lossy (A B : Endpoint) (F : Bytes) (blocksize : ℕ) : Lts Transfer TransferEvent where
  init t := SenderStarts B F blocksize t.sender ∧ ReceiverStarts A blocksize t.receiver
  step := lossyStep A B

end Transfer

/-! ## The in-order network -/

/-- The datagrams that have been sent to an address. -/
def sentTo (dest : Endpoint) (wire : List (Endpoint × Bytes)) : List Bytes :=
  (wire.filter (·.1 = dest)).map (·.2)

theorem sentTo_append (dest : Endpoint) (w w' : List (Endpoint × Bytes)) :
    sentTo dest (w ++ w') = sentTo dest w ++ sentTo dest w' := by
  simp [sentTo]

theorem sentTo_self (dest : Endpoint) (d : Bytes) : sentTo dest [(dest, d)] = [d] := by
  simp [sentTo]

theorem sentTo_other {dest : Endpoint} {w : List (Endpoint × Bytes)} (h : ∀ p ∈ w, p.1 ≠ dest) :
    sentTo dest w = [] := by
  simp only [sentTo, List.map_eq_nil_iff, List.filter_eq_nil_iff, decide_eq_true_eq]
  exact h

/-- The in-order network delivers the next datagram from the peer; no operation
    fails and no timer expires. -/
def fifoAllows (peer : Endpoint) (next : Option Bytes) : Event Endpoint → Bool
  | .deliver src d => decide (src = peer) && decide (next = some d)
  | .receiveFails _ | .expire => false
  | .sendCompletes e => decide (e = .success)
  | _ => true

/-- A transfer, with the numbers of the datagrams delivered to each end. -/
structure FifoTransfer where
  sender : Tftpsender
  receiver : TftpReceiver
  toSender : ℕ := 0
  toReceiver : ℕ := 0

inductive FifoEvent where
  | sender (e : Event Endpoint)
  | receiver (e : Event Endpoint)
  /-- a datagram reaches a closed socket -/
  | discardToSender
  | discardToReceiver
  deriving DecidableEq, Repr

namespace FifoTransfer

/-- The pairs of ends that client and server build for a request without options:
    for RRQ the server's sender knows the client and starts with DATA 1, for WRQ
    the server's receiver knows the client and starts with ACK 0. -/
inductive Pairing (A B : Endpoint) (F : Bytes) (blocksize : ℕ) : Tftpsender → TftpReceiver → Prop
  | rrq (timeoutSeconds timeoutSeconds' : UInt8) :
      Pairing A B F blocksize (.newConnected {} (.ofFile (some F)) B 1 blocksize timeoutSeconds)
        (.new {} {} blocksize timeoutSeconds')
  | wrq (timeoutSeconds timeoutSeconds' : UInt8) :
      Pairing A B F blocksize (.new {} (.ofFile (some F)) 0 blocksize timeoutSeconds)
        (.newConnected {} {} A blocksize timeoutSeconds')

def step (A B : Endpoint) (t : FifoTransfer) : FifoEvent → Option FifoTransfer
  | .sender e =>
    if fifoAllows B (sentTo A t.receiver.io.wire)[t.toSender]? e then
      (Tftpsender.proactor.step t.sender e).map fun s =>
        { t with sender := s, toSender := t.toSender + e.isDelivery.toNat }
    else none
  | .receiver e =>
    if fifoAllows A (sentTo B t.sender.io.wire)[t.toReceiver]? e then
      (TftpReceiver.proactor.step t.receiver e).map fun r =>
        { t with receiver := r, toReceiver := t.toReceiver + e.isDelivery.toNat }
    else none
  | .discardToSender =>
    if !t.sender.io.isOpen && decide (t.toSender < (sentTo A t.receiver.io.wire).length) then
      some { t with toSender := t.toSender + 1 }
    else none
  | .discardToReceiver =>
    if !t.receiver.io.isOpen && decide (t.toReceiver < (sentTo B t.sender.io.wire).length) then
      some { t with toReceiver := t.toReceiver + 1 }
    else none

/-- The transfers of a file over the in-order network. -/
def fifo (A B : Endpoint) (F : Bytes) (blocksize : ℕ) : Lts FifoTransfer FifoEvent where
  init t := Pairing A B F blocksize t.sender t.receiver ∧ t.toSender = 0 ∧ t.toReceiver = 0
  step := step A B

/-- Both ends have been started, no handler is ready to run, and no datagram is
    on its way. -/
structure AtRest (A B : Endpoint) (t : FifoTransfer) : Prop where
  started : t.sender.io.started = true ∧ t.receiver.io.started = true
  quiet : t.sender.io.Quiet ∧ t.receiver.io.Quiet
  toSender : t.toSender = (sentTo A t.receiver.io.wire).length
  toReceiver : t.toReceiver = (sentTo B t.sender.io.wire).length

end FifoTransfer

/-! ## A prompt peer -/

/-- The ACKs of a prompt peer: ACK 0, if the sender waits for it first, and one for each
    DATA message sent to it, with the number that the message carries. -/
def promptAcks (peer : Endpoint) (firstAck : ℤ) (wire : List (Endpoint × Bytes)) : List Bytes :=
  (if firstAck = 0 then [AckMessage.encode ⟨0⟩] else []) ++
    (dataSent (wire.filter (·.1 = peer))).map fun d => AckMessage.encode ⟨ntohs d 2⟩

/-- A sender whose peer is prompt, with the number of ACKs delivered. -/
structure PromptTransfer where
  sender : Tftpsender
  toSender : ℕ := 0

namespace PromptTransfer

/-- The senders of a file that a prompt peer can serve: those that know the peer, and
    start with DATA 1 or wait for ACK 0, and those that wait for ACK 0 to know it. -/
inductive Starts (B : Endpoint) (F : Bytes) (blocksize : ℕ) : ℤ → Tftpsender → Prop
  | known {firstAck : ℤ} (h : firstAck = 0 ∨ firstAck = 1) (timeoutSeconds : UInt8) :
      Starts B F blocksize firstAck
        (.newConnected {} (.ofFile (some F)) B firstAck blocksize timeoutSeconds)
  | unknown (timeoutSeconds : UInt8) :
      Starts B F blocksize 0 (.new {} (.ofFile (some F)) 0 blocksize timeoutSeconds)

def step (B : Endpoint) (firstAck : ℤ) (t : PromptTransfer) (e : Event Endpoint) : Option PromptTransfer :=
  if fifoAllows B (promptAcks B firstAck t.sender.io.wire)[t.toSender]? e then
    (Tftpsender.proactor.step t.sender e).map fun s =>
      { sender := s, toSender := t.toSender + e.isDelivery.toNat }
  else none

/-- The runs of a sender with a prompt peer. -/
def prompt (B : Endpoint) (F : Bytes) (blocksize : ℕ) (firstAck : ℤ) : Lts PromptTransfer (Event Endpoint) where
  init t := Starts B F blocksize firstAck t.sender ∧ t.toSender = 0
  step := step B firstAck

/-- Nothing can happen any more. -/
def AtRest (B : Endpoint) (firstAck : ℤ) (t : PromptTransfer) : Prop := ∀ e, step B firstAck t e = none

/-- All blocks of the file have been sent, each once and in their order, and the ACK of
    the last one has ended the operation. -/
structure SentWhole (F : Bytes) (blocksize : ℕ) (firstAck : ℤ) (t : PromptTransfer) : Prop where
  data : (dataSent t.sender.io.wire).map (List.drop 4) =
    (List.range (F.length / blocksize + 1)).map (block F blocksize)
  acked : t.toSender = (if firstAck = 0 then 1 else 0) + (F.length / blocksize + 1)
  callbacks : t.sender.callbacks = [.noerr]

end PromptTransfer

/-! ## A network that does not duplicate -/

/-- The network delivers what is on its way from the peer; no operation fails. -/
def onceAllows (peer : Endpoint) (inFlight : List Bytes) : Event Endpoint → Bool
  | .deliver src d => decide (src = peer) && decide (d ∈ inFlight)
  | .receiveFails _ => false
  | .sendCompletes e => decide (e = .success)
  | _ => true

/-- A delivered datagram is no longer on its way. -/
def takeOff (inFlight : List Bytes) : Event Endpoint → List Bytes
  | .deliver _ d => inFlight.erase d
  | _ => inFlight

/-- A transfer, with the datagrams on their way and the number of expirations that
    have been handled. -/
structure OnceTransfer where
  sender : Tftpsender
  receiver : TftpReceiver
  toSender : List Bytes := []
  toReceiver : List Bytes := []
  expirations : ℕ := 0

inductive OnceEvent where
  | sender (e : Event Endpoint)
  | receiver (e : Event Endpoint)
  deriving DecidableEq, Repr

namespace OnceTransfer

/-- The pairs of ends that client and server build for a request without options, for
    any file and any output stream. -/
inductive Pairing (A B : Endpoint) : Tftpsender → TftpReceiver → Prop
  | rrq (file : Option Bytes) (output : OStream) (timeoutSeconds timeoutSeconds' : UInt8) :
      Pairing A B (.newConnected {} (.ofFile file) B 1 defaultBlocksize timeoutSeconds)
        (.new {} output defaultBlocksize timeoutSeconds')
  | wrq (file : Option Bytes) (output : OStream) (timeoutSeconds timeoutSeconds' : UInt8) :
      Pairing A B (.new {} (.ofFile file) 0 defaultBlocksize timeoutSeconds)
        (.newConnected {} output A defaultBlocksize timeoutSeconds')

/-- What an end sends to its peer is on its way. -/
def step (A B : Endpoint) (t : OnceTransfer) : OnceEvent → Option OnceTransfer
  | .sender e =>
    if onceAllows B t.toSender e then
      (Tftpsender.proactor.step t.sender e).map fun s => { t with
        sender := s
        toSender := takeOff t.toSender e
        toReceiver := t.toReceiver ++ sentTo B (s.io.wire.drop t.sender.io.wire.length)
        expirations := t.expirations + (e.handlesExpiry t.sender.io).toNat }
    else none
  | .receiver e =>
    if onceAllows A t.toReceiver e then
      (TftpReceiver.proactor.step t.receiver e).map fun r => { t with
        receiver := r
        toReceiver := takeOff t.toReceiver e
        toSender := t.toSender ++ sentTo A (r.io.wire.drop t.receiver.io.wire.length)
        expirations := t.expirations + (e.handlesExpiry t.receiver.io).toNat }
    else none

/-- The transfers over the network. -/
def once (A B : Endpoint) : Lts OnceTransfer OnceEvent where
  init t := Pairing A B t.sender t.receiver ∧ t.toSender = [] ∧ t.toReceiver = [] ∧ t.expirations = 0
  step := step A B

end OnceTransfer

end Ttftp

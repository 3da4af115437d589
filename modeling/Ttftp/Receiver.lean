/-
  The receiving end of an established session (`tftpreceiver`), used by client
  and server.

  Like the sender, the object is a proactor, and `BlockBranch` lists the
  branches of `checkReceivedBlock`.  Two of its calls are synchronous: the last
  ACK is sent before the handler returns, and throws on a closed socket.
-/
import Ttftp.Lib.Asio
import Ttftp.Lib.Stream
import Ttftp.Messages

namespace Ttftp

open Bytes Asio

/-- The handlers a receiver's receives are started with. -/
inductive ReceiverHandler where
  | checkReceivedBlock | handleFirstBlockWithoutConnect
  deriving DecidableEq, Repr

structure TftpReceiver where
  io : Io ReceiverHandler Endpoint
  blocksize : ℕ
  lastreceiveddatacount : UInt16 := 0
  lastsentack : AckMessage := {}
  databuffer : Bytes
  timeoutcount : UInt16 := 0
  timeoutSeconds : UInt8
  mSenderEndpoint : Endpoint := default
  mLastReceivedSenderEndpoint : Endpoint := default
  isConnected : Bool := false
  operationEnded : Bool := false
  output : OStream
  /-- the codes the completion callback was called with -/
  callbacks : List TftpUserFacingErrorCode := []
  /-- an exception has left a handler or the constructor -/
  threw : Bool := false

namespace TftpReceiver

/-! ## Construction -/

def onConnect (s : TftpReceiver) : TftpReceiver :=
  { s with mSenderEndpoint := s.mLastReceivedSenderEndpoint, isConnected := true }

/-- The constructor for an unknown remote endpoint. -/
def new (sock : Io ReceiverHandler Endpoint) (output : OStream) (blocksize : ℕ)
    (timeoutSeconds : UInt8) : TftpReceiver where
  io := sock
  blocksize := blocksize
  databuffer := List.replicate (blocksize + controlBytes) 0
  timeoutSeconds := timeoutSeconds
  output := output
  threw := !sock.isOpen

/-- The constructor for a known remote endpoint. -/
def newConnected (sock : Io ReceiverHandler Endpoint) (output : OStream) (remote : Endpoint)
    (blocksize : ℕ) (timeoutSeconds : UInt8) : TftpReceiver :=
  onConnect { new sock output blocksize timeoutSeconds with mLastReceivedSenderEndpoint := remote }

/-- The constructor for a known remote endpoint and a block that has arrived
    already.  On a bad stream it reports an error through `shared_from_this`,
    which a constructor cannot use: it throws. -/
def newConnectedData1 (sock : Io ReceiverHandler Endpoint) (output : OStream) (remote : Endpoint)
    (data1 : DataMessage) (blocksize : ℕ) (timeoutSeconds : UInt8) : TftpReceiver :=
  let s := newConnected sock output remote blocksize timeoutSeconds
  if s.output.fail then { s with threw := true }
  else { s with output := s.output.write data1.mData, lastreceiveddatacount := 1 }

/-! ## Operations -/

def sendErrorMsg (errorcode : UInt16) (msg : Bytes) (endpoint : Endpoint) (s : TftpReceiver) :
    TftpReceiver :=
  { s with io := s.io.asyncSendDetached endpoint (ErrorMessage.encode ⟨errorcode, msg⟩) }

/-- `endOperation` with a user-facing code. -/
def endOperationWith (code : TftpUserFacingErrorCode) (s : TftpReceiver) : TftpReceiver :=
  if s.operationEnded then s
  else { s with operationEnded := true, io := s.io.close, callbacks := s.callbacks ++ [code] }

/-- `endOperation` with an `error_code`. -/
def endOperation (err : ErrorCode) (s : TftpReceiver) : TftpReceiver :=
  s.endOperationWith (if err = .success then .noerr else .unspecified)

def startNextReceive (s : TftpReceiver) : TftpReceiver :=
  let handler := if s.isConnected then .checkReceivedBlock else .handleFirstBlockWithoutConnect
  { s with
    databuffer := List.replicate s.databuffer.length 0
    io := ((s.io.expiresFromNow s.timeoutSeconds.toNat).asyncWait).asyncReceiveFrom handler }

/-- The last ACK is sent synchronously and ends the operation. -/
def sendNextAck (lastAck : Bool) (s : TftpReceiver) : TftpReceiver :=
  let s := { s with lastsentack := { mBlockNr := s.lastreceiveddatacount } }
  if s.isConnected then
    if lastAck then
      match s.io.sendTo s.mSenderEndpoint s.lastsentack.encode with
      | none => { s with threw := true }
      | some io => { s with io := io }.endOperation .success
    else { s with io := s.io.asyncSendTo s.mSenderEndpoint s.lastsentack.encode }
  else s.startNextReceive

/-- The completion handler of an ACK's send. -/
def handleACKsent (err : ErrorCode) (sentbytes : ℕ) (s : TftpReceiver) : TftpReceiver :=
  if err = .success ∧ sentbytes ≠ 0 then s.startNextReceive else s

def outputFileError (s : TftpReceiver) : TftpReceiver :=
  (s.sendErrorMsg TftpErrorCode.accessViolation.toUInt16
    (ascii "Requested file could not be opened for output") s.mSenderEndpoint).endOperationWith
    .outputFileOpen

/-- An unusable stream ends the operation, and `start` goes on nevertheless. -/
def start (s : TftpReceiver) : TftpReceiver :=
  let s := if s.output.fail then s.outputFileError else s
  if s.isConnected then s.sendNextAck false else s.startNextReceive

/-! ## Received blocks -/

/-- The branches of `checkReceivedBlock`. -/
inductive BlockBranch where
  | foreignHost | tooLarge | wrongOpcode | olderBlock | expectedBlock | futureBlock | aborted | fatal
  deriving DecidableEq, Repr

/-- What the first `sentbytes` bytes of the data buffer are decoded to. -/
def receivedMsg (sentbytes : ℕ) (s : TftpReceiver) : Bool × DataMessage :=
  (DataMessage.new s.blocksize).decode (s.databuffer.take sentbytes)

/-- Block numbers are compared as `int`s. -/
def blockBranch (err : ErrorCode) (sentbytes : ℕ) (s : TftpReceiver) : BlockBranch :=
  if err = .success then
    if s.isConnected ∧ s.mLastReceivedSenderEndpoint ≠ s.mSenderEndpoint then .foreignHost
    else if s.blocksize + controlBytes < sentbytes then .tooLarge
    else if (s.receivedMsg sentbytes).1 = false then .wrongOpcode
    else if (s.receivedMsg sentbytes).2.mBlockNr.toNat ≤ s.lastreceiveddatacount.toNat then .olderBlock
    else if (s.receivedMsg sentbytes).2.mBlockNr.toNat = s.lastreceiveddatacount.toNat + 1 then
      .expectedBlock
    else .futureBlock
  else if err = .operationAborted then .aborted
  else .fatal

/-- The expected block is counted, and connects a receiver without a peer. -/
def countBlock (s : TftpReceiver) : TftpReceiver :=
  let s := if s.isConnected then s else s.onConnect
  { s with lastreceiveddatacount := s.lastreceiveddatacount + 1, timeoutcount := 0 }

/-- A block is written also after an unusable stream has ended the operation. -/
def writeBlock (d : Bytes) (s : TftpReceiver) : TftpReceiver :=
  let s := if s.output.fail then s.outputFileError else s
  { s with output := s.output.write d }

/-- The expected block is written and acknowledged. -/
def acceptBlock (sentbytes : ℕ) (s : TftpReceiver) : TftpReceiver :=
  (s.countBlock.writeBlock (s.receivedMsg sentbytes).2.mData).sendNextAck
    (decide (sentbytes ≠ s.blocksize + controlBytes))

def checkReceivedBlock (err : ErrorCode) (sentbytes : ℕ) (s : TftpReceiver) : TftpReceiver :=
  let s := { s with io := s.io.timerCancel }
  match s.blockBranch err sentbytes with
  | .foreignHost =>
    (s.sendErrorMsg TftpErrorCode.unknownTrId.toUInt16
      (ascii "Remote host is not the partner of the transfer on this port")
      s.mLastReceivedSenderEndpoint).sendNextAck false
  | .tooLarge =>
    (s.sendErrorMsg TftpErrorCode.illegalOp.toUInt16
      (ascii "Received data packet blocksize is larger than agreed upon. Expected: " ++
        decimal s.blocksize ++ ascii ", received: " ++ decimal (sentbytes - controlBytes))
      s.mSenderEndpoint).endOperationWith .wrongBlock
  | .wrongOpcode =>
    (s.sendErrorMsg TftpErrorCode.illegalOp.toUInt16
      (ascii "Wrong opcode: expected DATA for package" ++ decimal s.lastreceiveddatacount.toNat)
      s.mSenderEndpoint).endOperationWith .opcode
  | .olderBlock => s.sendNextAck false
  | .expectedBlock => s.acceptBlock sentbytes
  | .futureBlock =>
    (s.sendErrorMsg TftpErrorCode.illegalOp.toUInt16
      (ascii "Data package with higher number than expected. Expected " ++
        decimal (s.lastreceiveddatacount.toNat + 1) ++ ascii ", got " ++
        decimal (s.receivedMsg sentbytes).2.mBlockNr.toNat)
      s.mSenderEndpoint).endOperationWith .wrongBlock
  | .aborted => s.sendNextAck false
  | .fatal => s.endOperation err

/-- Without a peer, only a received datagram is looked at. -/
def handleFirstBlockWithoutConnect (err : ErrorCode) (sentbytes : ℕ) (s : TftpReceiver) :
    TftpReceiver :=
  let s := { s with io := s.io.timerCancel }
  if err = .success then s.checkReceivedBlock err sentbytes
  else if err = .operationAborted then s.sendNextAck false
  else s.endOperation err

/-- The handler of the read timer.  Cancelling the socket makes the aborted
    receive resend the ACK; on a closed socket it throws. -/
def handleReadTimeout (err : ErrorCode) (s : TftpReceiver) : TftpReceiver :=
  if err = .operationAborted then s
  else match s.io.cancel with
    | none => { s with threw := true }
    | some io =>
      let s := { s with io := io, timeoutcount := s.timeoutcount + 1 }
      if s.timeoutcount ≤ retransmissionsUntilTimeout then s
      else
        (s.sendErrorMsg 4
          (ascii "Timeout while waiting for Data Packet " ++
            decimal (s.lastreceiveddatacount.toNat + 1))
          s.mSenderEndpoint).endOperation err

/-! ## The proactor -/

def onReceive : ReceiverHandler → ErrorCode → ℕ → TftpReceiver → TftpReceiver
  | .checkReceivedBlock => checkReceivedBlock
  | .handleFirstBlockWithoutConnect => handleFirstBlockWithoutConnect

/-- A received datagram overwrites the front of the data buffer. -/
def store (src : Endpoint) (d : Bytes) (s : TftpReceiver) : TftpReceiver :=
  { s with mLastReceivedSenderEndpoint := src, databuffer := d ++ s.databuffer.drop d.length }

def proactor : Proactor TftpReceiver ReceiverHandler Endpoint where
  io := io
  setIo io s := { s with io := io }
  threw := threw
  capacity s := s.databuffer.length
  store := store
  start := start
  onReceive := onReceive
  onSend := handleACKsent
  onTimer := handleReadTimeout

end TftpReceiver

end Ttftp

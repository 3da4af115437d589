/-
  The sending end of an established session (`tftpsender`), used by client and
  server.

  The object is a proactor: `start` or a completion handler runs to its end and
  leaves new operations behind.  The completion callback appends its code to
  `callbacks`.  The branches of `checkAckForLastBlock` are listed by
  `AckBranch`; which one is taken is decided by `ackBranch` from the object and
  the completed receive.
-/
import Ttftp.Lib.Asio
import Ttftp.Lib.Stream
import Ttftp.Messages

namespace Ttftp

open Bytes Asio

/-- The handlers a sender's receives are started with. -/
inductive SenderHandler where
  | checkAckForLastBlock | handleFirstAckkWithoutConnect
  deriving DecidableEq, Repr

structure Tftpsender where
  io : Io SenderHandler Endpoint
  blocksize : ℕ
  lastsentdata : Bytes
  lastsentdatacount : UInt16
  ackbuffer : Bytes
  sendingdone : Bool := false
  timeoutcount : UInt16 := 0
  timeoutSeconds : UInt8
  mReceiverEndpoint : Endpoint := default
  mLastReceivedReceiverEndpoint : Endpoint := default
  isConnected : Bool := false
  operationEnded : Bool := false
  input : IStream
  /-- the codes the completion callback was called with -/
  callbacks : List TftpUserFacingErrorCode := []
  /-- an exception has left a handler -/
  threw : Bool := false

namespace Tftpsender

/-! ## Construction -/

def onConnect (s : Tftpsender) : Tftpsender :=
  { s with mReceiverEndpoint := s.mLastReceivedReceiverEndpoint, isConnected := true }

/-- The constructor for an unknown remote endpoint. -/
def new (sock : Io SenderHandler Endpoint) (input : IStream) (firstAck : ℤ) (blocksize : ℕ)
    (timeoutSeconds : UInt8) : Tftpsender where
  io := sock
  blocksize := blocksize
  lastsentdata := List.replicate blocksize 0
  lastsentdatacount := UInt16.ofInt firstAck
  ackbuffer := List.replicate (opcodeLength + blockNrLength) 0
  timeoutSeconds := timeoutSeconds
  input := input
  threw := !sock.isOpen

/-- The constructor for a known remote endpoint. -/
def newConnected (sock : Io SenderHandler Endpoint) (input : IStream) (remote : Endpoint)
    (firstAck : ℤ) (blocksize : ℕ) (timeoutSeconds : UInt8) : Tftpsender :=
  onConnect { new sock input firstAck blocksize timeoutSeconds with
    mLastReceivedReceiverEndpoint := remote }

/-! ## Operations -/

def sendErrorMsg (errorcode : UInt16) (msg : Bytes) (endpoint : Endpoint) (s : Tftpsender) :
    Tftpsender :=
  { s with io := s.io.asyncSendDetached endpoint (ErrorMessage.encode ⟨errorcode, msg⟩) }

/-- `endOperation` with a user-facing code. -/
def endOperationWith (code : TftpUserFacingErrorCode) (s : Tftpsender) : Tftpsender :=
  if s.operationEnded then s
  else { s with operationEnded := true, io := s.io.close, callbacks := s.callbacks ++ [code] }

/-- `endOperation` with an `error_code`. -/
def endOperation (err : ErrorCode) (s : Tftpsender) : Tftpsender :=
  s.endOperationWith (if err = .success then .noerr else .unspecified)

def startNextReceive (s : Tftpsender) : Tftpsender :=
  let handler := if s.isConnected then .checkAckForLastBlock else .handleFirstAckkWithoutConnect
  { s with io := s.io.asyncReceiveFrom handler }

/-- `(lastsentdatacount - 1) * blocksize`, computed as an `int` times a
    `size_t` and converted to a stream offset. -/
def seekOffset (count : UInt16) (blocksize : ℕ) : ℤ :=
  Int.bmod (((count.toNat : ℤ) - 1) * blocksize) (2 ^ 64)

/-- The first half of `sendNextBlock`: seek and read. -/
def readNextBlock (s : Tftpsender) : Tftpsender :=
  let s := { s with input := s.input.seekg (seekOffset s.lastsentdatacount s.blocksize) }
  if s.input.fail then
    (s.sendErrorMsg TftpErrorCode.accessViolation.toUInt16
      (ascii "Error reading from requested file. Might not exist (anymore) or insufficient permissions.")
      s.mReceiverEndpoint).endOperationWith .inputFileOpen
  else
    let r := s.input.read s.blocksize
    { s with
      input := r.1
      lastsentdata := r.2 ++ List.replicate (s.lastsentdata.length - r.2.length) 0 }

/-- The second half: send what was read last, whether or not the stream is
    still good. -/
def sendReadBlock (s : Tftpsender) : Tftpsender :=
  let readbytes := s.input.gcount
  match (((DataMessage.new readbytes).setData (s.lastsentdata.take readbytes)).setBlockNr
      s.lastsentdatacount).encode with
  | none => { s with threw := true }
  | some str =>
    { s with
      io := s.io.asyncSendTo s.mReceiverEndpoint str
      sendingdone := s.sendingdone || decide (readbytes < s.blocksize) }

def sendNextBlock (s : Tftpsender) : Tftpsender := s.readNextBlock.sendReadBlock

/-- The completion handler of a block's send. -/
def handleBlockSent (err : ErrorCode) (sentbytes : ℕ) (s : Tftpsender) : Tftpsender :=
  if err = .success ∧ sentbytes ≠ 0 then
    startNextReceive { s with io := (s.io.expiresFromNow s.timeoutSeconds.toNat).asyncWait }
  else s

def start (s : Tftpsender) : Tftpsender :=
  if s.input.fail then
    (s.sendErrorMsg TftpErrorCode.fileNotFound.toUInt16
      (ascii "Requested file not found or insufficient permissions") s.mReceiverEndpoint).endOperationWith
      .inputFileOpen
  else if s.lastsentdatacount = 1 then s.sendNextBlock
  else s.startNextReceive

/-! ## Received ACKs -/

/-- The branches of `checkAckForLastBlock`. -/
inductive AckBranch where
  | wrongOpcode | olderAck | expectedAck | futureAck | foreignHost | retry | fatal
  deriving DecidableEq, Repr

def wrongRemoteHost (s : Tftpsender) : Bool :=
  s.isConnected && decide (s.mLastReceivedReceiverEndpoint ≠ s.mReceiverEndpoint)

/-- What the ACK buffer is decoded to. -/
def receivedMsg (s : Tftpsender) : Bool × AckMessage := AckMessage.decode [] {} s.ackbuffer

def ackBranch (err : ErrorCode) (sentbytes : ℕ) (s : Tftpsender) : AckBranch :=
  if err = .success ∧ sentbytes = opcodeLength + blockNrLength ∧ s.wrongRemoteHost = false then
    if s.receivedMsg.1 = false then .wrongOpcode
    else if s.receivedMsg.2.mBlockNr < s.lastsentdatacount then .olderAck
    else if s.receivedMsg.2.mBlockNr = s.lastsentdatacount then .expectedAck
    else .futureAck
  else if s.wrongRemoteHost then .foreignHost
  else if err = .operationAborted ∨ sentbytes ≠ opcodeLength + blockNrLength then .retry
  else .fatal

/-- The expected ACK is counted, and connects a sender without a peer. -/
def countAck (s : Tftpsender) : Tftpsender :=
  let s := if s.isConnected then s else s.onConnect
  { s with lastsentdatacount := s.lastsentdatacount + 1, timeoutcount := 0 }

/-- The expected ACK ends the operation or moves on to the next block. -/
def acceptAck (s : Tftpsender) : Tftpsender :=
  if s.countAck.sendingdone then s.countAck.endOperation .success else s.countAck.sendNextBlock

def checkAckForLastBlock (err : ErrorCode) (sentbytes : ℕ) (s : Tftpsender) : Tftpsender :=
  let s := { s with io := s.io.timerCancel }
  match s.ackBranch err sentbytes with
  | .wrongOpcode =>
    (s.sendErrorMsg 4
      (ascii "Wrong opcode: expected ACK for package" ++ decimal s.lastsentdatacount.toNat)
      s.mReceiverEndpoint).endOperation .success
  | .olderAck => s.sendNextBlock
  | .expectedAck => s.acceptAck
  | .futureAck =>
    (s.sendErrorMsg 4
      (ascii "ACK for package that was not yet sent: expected " ++ decimal s.lastsentdatacount.toNat ++
        ascii ", got " ++ decimal s.receivedMsg.2.mBlockNr.toNat)
      s.mReceiverEndpoint).endOperation .success
  | .foreignHost =>
    (s.sendErrorMsg TftpErrorCode.unknownTrId.toUInt16
      (ascii "Remote host is not the partner of the transfer on this port")
      s.mLastReceivedReceiverEndpoint).sendNextBlock
  | .retry => s.sendNextBlock
  | .fatal => s.endOperation err

/-- The first ACK needs no treatment of its own. -/
def handleFirstAckkWithoutConnect (err : ErrorCode) (sentbytes : ℕ) (s : Tftpsender) : Tftpsender :=
  s.checkAckForLastBlock err sentbytes

/-- The handler of the read timer.  Cancelling the socket makes the aborted
    receive resend the block; on a closed socket it throws. -/
def handleReadTimeout (err : ErrorCode) (s : Tftpsender) : Tftpsender :=
  if err = .operationAborted then s
  else match s.io.cancel with
    | none => { s with threw := true }
    | some io =>
      let s := { s with io := io, timeoutcount := s.timeoutcount + 1 }
      if s.timeoutcount ≤ retransmissionsUntilTimeout then s
      else
        (s.sendErrorMsg 4
          (ascii "Timeout while waiting for ACK for Data Packet " ++ decimal s.lastsentdatacount.toNat)
          s.mReceiverEndpoint).endOperation err

/-! ## The proactor -/

def onReceive : SenderHandler → ErrorCode → ℕ → Tftpsender → Tftpsender
  | .checkAckForLastBlock => checkAckForLastBlock
  | .handleFirstAckkWithoutConnect => handleFirstAckkWithoutConnect

/-- A received datagram overwrites the front of the ACK buffer. -/
def store (src : Endpoint) (d : Bytes) (s : Tftpsender) : Tftpsender :=
  { s with mLastReceivedReceiverEndpoint := src, ackbuffer := d ++ s.ackbuffer.drop d.length }

def proactor : Proactor Tftpsender SenderHandler Endpoint where
  io := io
  setIo io s := { s with io := io }
  threw := threw
  capacity s := min s.ackbuffer.length s.blocksize
  store := store
  start := start
  onReceive := onReceive
  onSend := handleBlockSent
  onTimer := handleReadTimeout

end Tftpsender

/-- The data that has been sent. -/
def dataSent (wire : List (Endpoint × Bytes)) : List Bytes :=
  (wire.map (·.2)).filter fun d => ntohs d 0 = TftpOpcode.data.toUInt16

end Ttftp

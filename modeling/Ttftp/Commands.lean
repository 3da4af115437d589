/-
  The handlers of sender and receiver, statement by statement.

  `Tftpsender` and `TftpReceiver` say what a handler does as a whole.  The commands here
  show the states in between: none of the functions stops when one that it calls has ended
  the operation.  `bodies` proves that the two agree.
-/
import Ttftp.Lib.Command
import Ttftp.Sender
import Ttftp.Receiver

namespace Ttftp

open Bytes Asio

namespace Tftpsender

/-- What an observer sees of a sender: exceptions, datagrams and calls of the callback. -/
def observed (s : Tftpsender) : Bool × List (Endpoint × Bytes) × List TftpUserFacingErrorCode :=
  (s.threw, s.io.wire, s.callbacks)

/-- `sendErrorMsg`, then `endOperation`. -/
def failBody (errorcode : UInt16) (msg : Tftpsender → Bytes) (code : TftpUserFacingErrorCode) :
    Command Tftpsender :=
  .seq (.basic fun s => s.sendErrorMsg errorcode (msg s) s.mReceiverEndpoint)
    (.basic (endOperationWith code))

def sendNextBlockBody : Command Tftpsender :=
  .seq (.basic fun s => { s with input := s.input.seekg (seekOffset s.lastsentdatacount s.blocksize) })
    (.seq
      (.cond (fun s => s.input.fail)
        (failBody TftpErrorCode.accessViolation.toUInt16 (fun _ => ascii
          "Error reading from requested file. Might not exist (anymore) or insufficient permissions.")
          .inputFileOpen)
        (.basic fun s =>
          let r := s.input.read s.blocksize
          { s with
            input := r.1
            lastsentdata := r.2 ++ List.replicate (s.lastsentdata.length - r.2.length) 0 }))
      (.basic sendReadBlock))

def startBody : Command Tftpsender :=
  .cond (fun s => s.input.fail)
    (failBody TftpErrorCode.fileNotFound.toUInt16
      (fun _ => ascii "Requested file not found or insufficient permissions") .inputFileOpen)
    (.cond (fun s => decide (s.lastsentdatacount = 1)) sendNextBlockBody (.basic startNextReceive))

def checkAckForLastBlockBody (err : ErrorCode) (sentbytes : ℕ) : Command Tftpsender :=
  .seq (.basic fun s => { s with io := s.io.timerCancel })
    (.choose fun s => match s.ackBranch err sentbytes with
      | .wrongOpcode => failBody 4 (fun s =>
          ascii "Wrong opcode: expected ACK for package" ++ decimal s.lastsentdatacount.toNat) .noerr
      | .olderAck => sendNextBlockBody
      | .expectedAck => .seq (.basic countAck)
          (.cond (fun s => s.sendingdone) (.basic (endOperation .success)) sendNextBlockBody)
      | .futureAck => failBody 4 (fun s =>
          ascii "ACK for package that was not yet sent: expected " ++ decimal s.lastsentdatacount.toNat ++
            ascii ", got " ++ decimal s.receivedMsg.2.mBlockNr.toNat) .noerr
      | .foreignHost =>
        .seq (.basic fun s => s.sendErrorMsg TftpErrorCode.unknownTrId.toUInt16
          (ascii "Remote host is not the partner of the transfer on this port")
          s.mLastReceivedReceiverEndpoint) sendNextBlockBody
      | .retry => sendNextBlockBody
      | .fatal => .basic (endOperation err))

def handleReadTimeoutBody (err : ErrorCode) : Command Tftpsender :=
  if err = .operationAborted then .skip
  else .choose fun s => match s.io.cancel with
    | none => .basic fun s => { s with threw := true }
    | some io => .seq (.basic fun s => { s with io := io, timeoutcount := s.timeoutcount + 1 })
        (.cond (fun s => decide (s.timeoutcount ≤ retransmissionsUntilTimeout)) .skip
          (failBody 4 (fun s =>
            ascii "Timeout while waiting for ACK for Data Packet " ++ decimal s.lastsentdatacount.toNat)
            (if err = .success then .noerr else .unspecified)))

theorem sendNextBlockBody_exec (s : Tftpsender) : sendNextBlockBody.exec s = s.sendNextBlock := by
  simp only [sendNextBlockBody, Command.exec, Command.exec_cond]
  rfl

theorem startBody_exec (s : Tftpsender) : startBody.exec s = s.start := by
  simp only [startBody, Command.exec, Command.exec_cond, sendNextBlockBody_exec, decide_eq_true_eq]
  rfl

theorem checkAckForLastBlockBody_exec (err : ErrorCode) (n : ℕ) (s : Tftpsender) :
    (checkAckForLastBlockBody err n).exec s = s.checkAckForLastBlock err n := by
  unfold checkAckForLastBlock
  simp only [checkAckForLastBlockBody, Command.exec]
  cases ackBranch err n { s with io := s.io.timerCancel } with
  | olderAck | retry | foreignHost => exact sendNextBlockBody_exec _
  | expectedAck =>
    simp only [Command.exec, Command.exec_cond, sendNextBlockBody_exec]
    rfl
  | _ => rfl

theorem handleReadTimeoutBody_exec (err : ErrorCode) (s : Tftpsender) :
    (handleReadTimeoutBody err).exec s = s.handleReadTimeout err := by
  unfold handleReadTimeout
  simp only [handleReadTimeoutBody, Command.exec, Command.exec_ite]
  cases s.io.cancel with
  | none => rfl
  | some io =>
    simp only [Command.exec, Command.exec_cond, decide_eq_true_eq]
    rfl

def bodies : proactor.Bodies where
  start := startBody
  onReceive _ := checkAckForLastBlockBody
  onSend err n := .basic (handleBlockSent err n)
  onTimer := handleReadTimeoutBody
  exec_start := startBody_exec
  exec_onReceive h err n s := by
    cases h <;> exact checkAckForLastBlockBody_exec err n s
  exec_onSend _ _ _ := rfl
  exec_onTimer := handleReadTimeoutBody_exec

end Tftpsender

namespace TftpReceiver

/-- What an observer sees of a receiver: exceptions, writes, datagrams and calls of the
    callback. -/
def observed (s : TftpReceiver) :
    Bool × List (Bytes × Bool) × List (Endpoint × Bytes) × List TftpUserFacingErrorCode :=
  (s.threw, s.output.writes, s.io.wire, s.callbacks)

/-- `sendErrorMsg`, then `endOperation`. -/
def failBody (errorcode : UInt16) (msg : TftpReceiver → Bytes) (code : TftpUserFacingErrorCode) :
    Command TftpReceiver :=
  .seq (.basic fun s => s.sendErrorMsg errorcode (msg s) s.mSenderEndpoint)
    (.basic (endOperationWith code))

def outputFileErrorBody : Command TftpReceiver :=
  failBody TftpErrorCode.accessViolation.toUInt16
    (fun _ => ascii "Requested file could not be opened for output") .outputFileOpen

def sendNextAckBody (lastAck : Bool) : Command TftpReceiver :=
  .seq (.basic fun s => { s with lastsentack := { mBlockNr := s.lastreceiveddatacount } })
    (.cond (fun s => s.isConnected)
      (if lastAck then .choose fun s => match s.io.sendTo s.mSenderEndpoint s.lastsentack.encode with
        | none => .basic fun s => { s with threw := true }
        | some io => .seq (.basic fun s => { s with io := io }) (.basic (endOperation .success))
      else .basic fun s => { s with io := s.io.asyncSendTo s.mSenderEndpoint s.lastsentack.encode })
      (.basic startNextReceive))

def startBody : Command TftpReceiver :=
  .seq (.cond (fun s => s.output.fail) outputFileErrorBody .skip)
    (.cond (fun s => s.isConnected) (sendNextAckBody false) (.basic startNextReceive))

def acceptBlockBody (d : Bytes) (lastAck : Bool) : Command TftpReceiver :=
  .seq (.basic countBlock)
    (.seq (.cond (fun s => s.output.fail) outputFileErrorBody .skip)
      (.seq (.basic fun s => { s with output := s.output.write d }) (sendNextAckBody lastAck)))

def checkReceivedBlockBody (err : ErrorCode) (sentbytes : ℕ) : Command TftpReceiver :=
  .seq (.basic fun s => { s with io := s.io.timerCancel })
    (.choose fun s => match s.blockBranch err sentbytes with
      | .foreignHost =>
        .seq (.basic fun s => s.sendErrorMsg TftpErrorCode.unknownTrId.toUInt16
          (ascii "Remote host is not the partner of the transfer on this port")
          s.mLastReceivedSenderEndpoint) (sendNextAckBody false)
      | .tooLarge => failBody TftpErrorCode.illegalOp.toUInt16 (fun s =>
          ascii "Received data packet blocksize is larger than agreed upon. Expected: " ++
            decimal s.blocksize ++ ascii ", received: " ++ decimal (sentbytes - controlBytes)) .wrongBlock
      | .wrongOpcode => failBody TftpErrorCode.illegalOp.toUInt16 (fun s =>
          ascii "Wrong opcode: expected DATA for package" ++ decimal s.lastreceiveddatacount.toNat) .opcode
      | .olderBlock => sendNextAckBody false
      | .expectedBlock =>
        acceptBlockBody (s.receivedMsg sentbytes).2.mData (decide (sentbytes ≠ s.blocksize + controlBytes))
      | .futureBlock => failBody TftpErrorCode.illegalOp.toUInt16 (fun s =>
          ascii "Data package with higher number than expected. Expected " ++
            decimal (s.lastreceiveddatacount.toNat + 1) ++ ascii ", got " ++
            decimal (s.receivedMsg sentbytes).2.mBlockNr.toNat) .wrongBlock
      | .aborted => sendNextAckBody false
      | .fatal => .basic (endOperation err))

def handleFirstBlockWithoutConnectBody (err : ErrorCode) (sentbytes : ℕ) : Command TftpReceiver :=
  .seq (.basic fun s => { s with io := s.io.timerCancel })
    (if err = .success then checkReceivedBlockBody err sentbytes
    else if err = .operationAborted then sendNextAckBody false
    else .basic (endOperation err))

def handleReadTimeoutBody (err : ErrorCode) : Command TftpReceiver :=
  if err = .operationAborted then .skip
  else .choose fun s => match s.io.cancel with
    | none => .basic fun s => { s with threw := true }
    | some io => .seq (.basic fun s => { s with io := io, timeoutcount := s.timeoutcount + 1 })
        (.cond (fun s => decide (s.timeoutcount ≤ retransmissionsUntilTimeout)) .skip
          (failBody 4 (fun s =>
            ascii "Timeout while waiting for Data Packet " ++ decimal (s.lastreceiveddatacount.toNat + 1))
            (if err = .success then .noerr else .unspecified)))

def onReceiveBody : ReceiverHandler → ErrorCode → ℕ → Command TftpReceiver
  | .checkReceivedBlock => checkReceivedBlockBody
  | .handleFirstBlockWithoutConnect => handleFirstBlockWithoutConnectBody

theorem sendNextAckBody_exec (l : Bool) (s : TftpReceiver) : (sendNextAckBody l).exec s = s.sendNextAck l := by
  simp only [sendNextAckBody, Command.exec, Command.exec_cond, Command.exec_ite]
  unfold sendNextAck
  cases h : s.io.sendTo s.mSenderEndpoint (AckMessage.encode ⟨s.lastreceiveddatacount⟩) with
  | none => simp only [h]; rfl
  | some io => simp only [h]; rfl

theorem startBody_exec (s : TftpReceiver) : startBody.exec s = s.start := by
  simp only [startBody, Command.exec, Command.exec_cond, sendNextAckBody_exec]
  rfl

theorem acceptBlockBody_exec (n : ℕ) (s : TftpReceiver) :
    (acceptBlockBody (s.receivedMsg n).2.mData (decide (n ≠ s.blocksize + controlBytes))).exec s =
      s.acceptBlock n := by
  simp only [acceptBlockBody, Command.exec, Command.exec_cond, sendNextAckBody_exec]
  rfl

theorem checkReceivedBlockBody_exec (err : ErrorCode) (n : ℕ) (s : TftpReceiver) :
    (checkReceivedBlockBody err n).exec s = s.checkReceivedBlock err n := by
  unfold checkReceivedBlock
  simp only [checkReceivedBlockBody, Command.exec]
  cases blockBranch err n { s with io := s.io.timerCancel } with
  | foreignHost | olderBlock | aborted => exact sendNextAckBody_exec _ _
  | expectedBlock => exact acceptBlockBody_exec _ _
  | _ => rfl

theorem onReceiveBody_exec (h : ReceiverHandler) (err : ErrorCode) (n : ℕ) (s : TftpReceiver) :
    (onReceiveBody h err n).exec s = onReceive h err n s := by
  cases h with
  | checkReceivedBlock => exact checkReceivedBlockBody_exec err n s
  | handleFirstBlockWithoutConnect =>
    simp only [onReceiveBody, handleFirstBlockWithoutConnectBody, Command.exec, Command.exec_ite,
      checkReceivedBlockBody_exec, sendNextAckBody_exec]
    rfl

theorem handleReadTimeoutBody_exec (err : ErrorCode) (s : TftpReceiver) :
    (handleReadTimeoutBody err).exec s = s.handleReadTimeout err := by
  unfold handleReadTimeout
  simp only [handleReadTimeoutBody, Command.exec, Command.exec_ite]
  cases s.io.cancel with
  | none => rfl
  | some io =>
    simp only [Command.exec, Command.exec_cond, decide_eq_true_eq]
    rfl

def bodies : proactor.Bodies where
  start := startBody
  onReceive := onReceiveBody
  onSend err n := .basic (handleACKsent err n)
  onTimer := handleReadTimeoutBody
  exec_start := startBody_exec
  exec_onReceive := onReceiveBody_exec
  exec_onSend _ _ _ := rfl
  exec_onTimer := handleReadTimeoutBody_exec

end TftpReceiver

end Ttftp

/-
  The handlers of sender and receiver as courses: whatever branch is taken, they make calls
  on socket and timer, and end the operation once.
-/
import Ttftp.Lib.Course
import Ttftp.Proof.Sender
import Ttftp.Proof.Receiver

namespace Ttftp

open Bytes Asio

/-! ## The sender -/

namespace Tftpsender

def reporter : Reporter Tftpsender SenderHandler Endpoint TftpUserFacingErrorCode := ⟨io, operationEnded, callbacks⟩

abbrev Course : Tftpsender → Tftpsender → Prop := reporter.Course

namespace Course

theorem sendErrorMsg (c : UInt16) (m : Bytes) (e : Endpoint) (s : Tftpsender) : Course s (s.sendErrorMsg c m e) :=
  .call (.sendDetached _ _) rfl rfl

theorem endOperationWith (code : TftpUserFacingErrorCode) (s : Tftpsender) : Course s (s.endOperationWith code) := by
  unfold Tftpsender.endOperationWith
  split_ifs with he
  · exact .refl _
  · exact .move (.ends code (Bool.eq_false_iff.2 he) rfl rfl rfl)

/-- An ERROR message and the end. -/
theorem fail (c : UInt16) (m : Bytes) (e : Endpoint) (code : TftpUserFacingErrorCode) (s : Tftpsender) :
    Course s ((s.sendErrorMsg c m e).endOperationWith code) :=
  (sendErrorMsg c m e s).trans (endOperationWith code _)

theorem startNextReceive (s : Tftpsender) : Course s s.startNextReceive := .call (.receive _) rfl rfl

theorem readNextBlock (s : Tftpsender) : Course s s.readNextBlock := by
  unfold Tftpsender.readNextBlock
  dsimp only
  split_ifs
  · refine .trans ?_ (fail _ _ _ _ _)
    exact .sets rfl rfl rfl
  · exact .sets rfl rfl rfl

theorem sendReadBlock (s : Tftpsender) : Course s s.sendReadBlock := by
  unfold Tftpsender.sendReadBlock
  dsimp only
  split
  · exact .sets rfl rfl rfl
  · exact .call (.send _ _) rfl rfl

theorem sendNextBlock (s : Tftpsender) : Course s s.sendNextBlock := (readNextBlock s).trans (sendReadBlock _)

theorem handleBlockSent (err : ErrorCode) (n : ℕ) (s : Tftpsender) : Course s (s.handleBlockSent err n) := by
  unfold Tftpsender.handleBlockSent
  split_ifs
  · refine .trans ?_ (startNextReceive _)
    exact .call (.arm _) rfl rfl
  · exact .refl _

theorem start (s : Tftpsender) : Course s s.start := by
  unfold Tftpsender.start
  split_ifs
  · exact fail _ _ _ _ s
  · exact sendNextBlock s
  · exact startNextReceive s

theorem acceptAck (s : Tftpsender) : Course s s.acceptAck := by
  have hcount : Course s s.countAck := .sets (countAck_io s) (countAck_operationEnded s) (countAck_callbacks s)
  unfold Tftpsender.acceptAck
  split_ifs
  · exact hcount.trans (endOperationWith _ _)
  · exact hcount.trans (sendNextBlock _)

theorem checkAckForLastBlock (err : ErrorCode) (n : ℕ) (s : Tftpsender) : Course s (s.checkAckForLastBlock err n) := by
  have h : Course s { s with io := s.io.timerCancel } := .call .timerCancel rfl rfl
  unfold Tftpsender.checkAckForLastBlock
  dsimp only
  refine h.trans ?_
  split
  · exact fail _ _ _ _ _
  · exact sendNextBlock _
  · exact acceptAck _
  · exact fail _ _ _ _ _
  · exact (sendErrorMsg _ _ _ _).trans (sendNextBlock _)
  · exact sendNextBlock _
  · exact endOperationWith _ _

theorem handleReadTimeout (err : ErrorCode) (s : Tftpsender) : Course s (s.handleReadTimeout err) := by
  unfold Tftpsender.handleReadTimeout
  split_ifs
  · exact .refl _
  cases hc : s.io.cancel with
  | none => exact .sets rfl rfl rfl
  | some io =>
    dsimp only
    have h : Course s { s with io := io, timeoutcount := s.timeoutcount + 1 } := .call (.cancel hc) rfl rfl
    split_ifs
    · exact h
    · exact h.trans (fail _ _ _ _ _)

end Course

theorem handles : Reporter.Handles proactor reporter where
  io _ := rfl
  io_setIo _ _ := rfl
  ended_setIo _ _ := rfl
  callbacks_setIo _ _ := rfl
  io_store _ _ _ := rfl
  ended_store _ _ _ := rfl
  callbacks_store _ _ _ := rfl
  start := Course.start
  receive h err n s := by cases h <;> exact Course.checkAckForLastBlock err n s
  sent := Course.handleBlockSent
  timer := Course.handleReadTimeout

end Tftpsender

/-! ## The receiver -/

namespace TftpReceiver

def reporter : Reporter TftpReceiver ReceiverHandler Endpoint TftpUserFacingErrorCode :=
  ⟨io, operationEnded, callbacks⟩

abbrev Course : TftpReceiver → TftpReceiver → Prop := reporter.Course

namespace Course

theorem sendErrorMsg (c : UInt16) (m : Bytes) (e : Endpoint) (s : TftpReceiver) : Course s (s.sendErrorMsg c m e) :=
  .call (.sendDetached _ _) rfl rfl

theorem endOperationWith (code : TftpUserFacingErrorCode) (s : TftpReceiver) :
    Course s (s.endOperationWith code) := by
  unfold TftpReceiver.endOperationWith
  split_ifs with he
  · exact .refl _
  · exact .move (.ends code (Bool.eq_false_iff.2 he) rfl rfl rfl)

/-- An ERROR message and the end. -/
theorem fail (c : UInt16) (m : Bytes) (e : Endpoint) (code : TftpUserFacingErrorCode) (s : TftpReceiver) :
    Course s ((s.sendErrorMsg c m e).endOperationWith code) :=
  (sendErrorMsg c m e s).trans (endOperationWith code _)

theorem outputFileError (s : TftpReceiver) : Course s s.outputFileError := fail _ _ _ _ s

theorem startNextReceive (s : TftpReceiver) : Course s s.startNextReceive := by
  have h : (s.io.expiresFromNow s.timeoutSeconds.toNat).asyncWait.Calls s.startNextReceive.io :=
    .single (.receive _)
  exact .calls ((Relation.ReflTransGen.single (.arm _)).trans h) rfl rfl

theorem sendNextAck (l : Bool) (s : TftpReceiver) : Course s (s.sendNextAck l) := by
  have h : Course s { s with lastsentack := { mBlockNr := s.lastreceiveddatacount } } := .sets rfl rfl rfl
  refine h.trans ?_
  unfold TftpReceiver.sendNextAck
  dsimp only
  split_ifs
  · cases hs : s.io.sendTo s.mSenderEndpoint (AckMessage.encode ⟨s.lastreceiveddatacount⟩) with
    | none => exact .sets rfl rfl rfl
    | some io =>
      dsimp only
      refine .trans ?_ (endOperationWith _ _)
      exact .call (.sendNow hs) rfl rfl
  · exact .call (.send _ _) rfl rfl
  · exact startNextReceive _

theorem handleACKsent (err : ErrorCode) (n : ℕ) (s : TftpReceiver) : Course s (s.handleACKsent err n) := by
  unfold TftpReceiver.handleACKsent
  split_ifs
  · exact startNextReceive s
  · exact .refl _

/-- What is left of `start` once the stream has been looked at. -/
theorem start_rest (s : TftpReceiver) : Course s (if s.isConnected then s.sendNextAck false else s.startNextReceive) := by
  split_ifs
  · exact sendNextAck _ _
  · exact startNextReceive _

theorem start (s : TftpReceiver) : Course s s.start := by
  have h : Course s (if s.output.fail then s.outputFileError else s) := by
    split_ifs
    · exact outputFileError s
    · exact .refl _
  exact h.trans (start_rest _)

theorem writeBlock (d : Bytes) (s : TftpReceiver) : Course s (s.writeBlock d) := by
  unfold TftpReceiver.writeBlock
  split_ifs
  · refine (outputFileError s).trans ?_
    exact .sets rfl rfl rfl
  · exact .sets rfl rfl rfl

theorem acceptBlock (n : ℕ) (s : TftpReceiver) : Course s (s.acceptBlock n) := by
  have hcount : Course s s.countBlock :=
    .sets (countBlock_io s) (countBlock_operationEnded s) (countBlock_callbacks s)
  exact (hcount.trans (writeBlock _ _)).trans (sendNextAck _ _)

theorem checkReceivedBlock (err : ErrorCode) (n : ℕ) (s : TftpReceiver) : Course s (s.checkReceivedBlock err n) := by
  have h : Course s { s with io := s.io.timerCancel } := .call .timerCancel rfl rfl
  unfold TftpReceiver.checkReceivedBlock
  dsimp only
  refine h.trans ?_
  split
  · exact (sendErrorMsg _ _ _ _).trans (sendNextAck _ _)
  · exact fail _ _ _ _ _
  · exact fail _ _ _ _ _
  · exact sendNextAck _ _
  · exact acceptBlock _ _
  · exact fail _ _ _ _ _
  · exact sendNextAck _ _
  · exact endOperationWith _ _

theorem handleReadTimeout (err : ErrorCode) (s : TftpReceiver) : Course s (s.handleReadTimeout err) := by
  unfold TftpReceiver.handleReadTimeout
  split_ifs
  · exact .refl _
  cases hc : s.io.cancel with
  | none => exact .sets rfl rfl rfl
  | some io =>
    dsimp only
    have h : Course s { s with io := io, timeoutcount := s.timeoutcount + 1 } := .call (.cancel hc) rfl rfl
    split_ifs
    · exact h
    · exact h.trans (fail _ _ _ _ _)

end Course

theorem handles : Reporter.Handles proactor reporter where
  io _ := rfl
  io_setIo _ _ := rfl
  ended_setIo _ _ := rfl
  callbacks_setIo _ _ := rfl
  io_store _ _ _ := rfl
  ended_store _ _ _ := rfl
  callbacks_store _ _ _ := rfl
  start := Course.start
  receive h err n s := by
    change Course s (onReceive h err n s)
    rw [onReceive_eq]
    exact Course.checkReceivedBlock err n s
  sent := Course.handleACKsent
  timer := Course.handleReadTimeout

end TftpReceiver

end Ttftp

/-
  The sender: what its operations do, and when it reports success.

  `WellFormed` and `ReportInv` hold of every object; `sender_noerr_iff` says exactly
  when all the successes that a run reports are real ones.
-/
import Mathlib.Tactic.Linarith
import Mathlib.Algebra.Order.Ring.Int
import Ttftp.Sender
import Ttftp.Proof.Messages

namespace Ttftp

open Bytes Asio

/-- A DATA message is no ERROR message. -/
theorem dataBytes_ne_error (nr : UInt16) (d : Bytes) (msg : ErrorMessage) :
    dataBytes nr d ≠ msg.encode := by
  intro h
  have h1 : ntohs (dataBytes nr d) 0 = TftpOpcode.data.toUInt16 := ntohs_htons [] _ _
  have h2 : ntohs msg.encode 0 = TftpOpcode.error.toUInt16 := ntohs_htons [] _ _
  rw [h, h2] at h1
  exact absurd h1 (by decide)

/-- A DATA message determines its number and its data. -/
theorem dataBytes_inj {nr nr' : UInt16} {d d' : Bytes} (h : dataBytes nr d = dataBytes nr' d') :
    nr = nr' ∧ d = d' := by
  have h1 : ntohs (dataBytes nr d) 2 = nr := ntohs_htons (htons _) _ _
  have h2 : ntohs (dataBytes nr' d') 2 = nr' := ntohs_htons (htons _) _ _
  exact ⟨by rw [← h1, h, h2], congrArg (List.drop 4) h⟩

namespace Tftpsender

/-! ## Operations -/

/-- The sizes of the buffers, and that the socket is open until the operation
    ends. -/
structure WellFormed (s : Tftpsender) : Prop where
  isOpen : s.io.isOpen = !s.operationEnded
  lastsentdata : s.lastsentdata.length = s.blocksize
  gcount : s.input.gcount ≤ s.blocksize
  ackbuffer : s.ackbuffer.length = 4

@[simp] theorem endOperationWith_ended (code : TftpUserFacingErrorCode) (s : Tftpsender) :
    (s.endOperationWith code).operationEnded = true := by
  unfold endOperationWith
  split_ifs with h
  · exact h
  · rfl

@[simp] theorem endOperation_ended (err : ErrorCode) (s : Tftpsender) :
    (s.endOperation err).operationEnded = true := endOperationWith_ended _ _

theorem endOperationWith_callbacks (code : TftpUserFacingErrorCode) (s : Tftpsender) :
    (s.endOperationWith code).callbacks =
      s.callbacks ++ (if s.operationEnded then [] else [code]) := by
  unfold endOperationWith
  split_ifs <;> simp

/-- What was read last is sent, and marks the end if it is short. -/
theorem sendReadBlock_eq {s : Tftpsender} (h : s.input.gcount ≤ s.lastsentdata.length) :
    s.sendReadBlock = { s with
      io := s.io.asyncSendTo s.mReceiverEndpoint
        (dataBytes s.lastsentdatacount (s.lastsentdata.take s.input.gcount))
      sendingdone := s.sendingdone || decide (s.input.gcount < s.blocksize) } := by
  have hl : (s.lastsentdata.take s.input.gcount).length = s.input.gcount := by
    rw [List.length_take, min_eq_left h]
  have he := DataMessage.encode_new s.lastsentdatacount (s.lastsentdata.take s.input.gcount)
  rw [hl] at he
  rw [sendReadBlock]
  simp only [he]

/-- The stream after the `seekg` of `sendNextBlock`. -/
def seeked (s : Tftpsender) : IStream := s.input.seekg (seekOffset s.lastsentdatacount s.blocksize)

/-- The block that can be read is sent. -/
theorem sendNextBlock_good {s : Tftpsender} (hs : s.WellFormed) (h : s.seeked.fail = false) :
    s.sendNextBlock = { s with
      input := (s.seeked.read s.blocksize).1
      lastsentdata := (s.seeked.read s.blocksize).2 ++
        List.replicate (s.blocksize - (s.seeked.read s.blocksize).2.length) 0
      io := s.io.asyncSendTo s.mReceiverEndpoint
        (dataBytes s.lastsentdatacount (s.seeked.read s.blocksize).2)
      sendingdone := s.sendingdone ||
        decide ((s.seeked.read s.blocksize).2.length < s.blocksize) } := by
  have hg := IStream.read_gcount s.blocksize s.seeked
  have hr : s.readNextBlock = { s with
      input := (s.seeked.read s.blocksize).1
      lastsentdata := (s.seeked.read s.blocksize).2 ++
        List.replicate (s.blocksize - (s.seeked.read s.blocksize).2.length) 0 } := by
    refine (if_neg (Bool.eq_false_iff.1 h)).trans ?_
    simp only [hs.lastsentdata]
    rfl
  rw [sendNextBlock, hr, sendReadBlock_eq (by simp [hg])]
  simp only [hg, List.take_left]

/-- No offset of a block overflows. -/
theorem seekOffset_eq {count : UInt16} {n : ℕ} (hn : n ≤ 65464) :
    seekOffset count n = (count.toNat - 1 : ℤ) * n := by
  have h1 := count.toNat_lt
  have h2 : ((count.toNat : ℤ) - 1) * n ≤ 65535 * 65464 :=
    mul_le_mul (by omega) (by omega) (by omega) (by omega)
  have h3 : -(n : ℤ) ≤ ((count.toNat : ℤ) - 1) * n := by nlinarith
  exact Int.bmod_eq_of_le (by omega) (by omega)

theorem seekOffset_pos {count : UInt16} {n : ℕ} (hn : n ≤ 65464) (hc : 1 ≤ count.toNat) :
    seekOffset count n = ((count.toNat - 1) * n : ℕ) := by
  rw [seekOffset_eq hn]
  push_cast [Nat.cast_sub hc]
  ring

/-- Seeking a block keeps a good stream good. -/
theorem seeked_fail {s : Tftpsender} (hbs : s.blocksize ≤ 65464) (hc : 1 ≤ s.lastsentdatacount.toNat) :
    s.seeked.fail = s.input.fail := by
  rw [seeked, IStream.seekg_fail, seekOffset_pos hbs hc, decide_eq_false (by omega), Bool.or_false]

/-- No seek succeeds before the first block, or on a failed stream. -/
theorem seeked_good {s : Tftpsender} (hbs : 1 ≤ s.blocksize) (hbs' : s.blocksize ≤ 65464)
    (h : s.seeked.fail = false) : 1 ≤ s.lastsentdatacount.toNat ∧ s.input.fail = false := by
  rw [seeked, IStream.seekg_fail, Bool.or_eq_false_iff, decide_eq_false_iff_not, seekOffset_eq hbs'] at h
  refine ⟨?_, h.1⟩
  by_contra hc
  have hc0 : s.lastsentdatacount.toNat = 0 := by omega
  rw [hc0] at h
  omega

/-- What is read after the seek is the current block. -/
theorem read_seeked {s : Tftpsender} (hbs : s.blocksize ≤ 65464) (hc : 1 ≤ s.lastsentdatacount.toNat)
    (hf : s.seeked.fail = false) : (s.seeked.read s.blocksize).2 =
      block s.input.content s.blocksize (s.lastsentdatacount.toNat - 1) :=
  IStream.read_block (seekOffset_pos hbs hc) hf

/-- From a good stream the current block is sent, and the stream fails if it is
    a short one. -/
theorem sendNextBlock_block {s : Tftpsender} (hs : s.WellFormed) (hbs : s.blocksize ≤ 65464)
    (hc : 1 ≤ s.lastsentdatacount.toNat) (hf : s.input.fail = false) (hd : s.sendingdone = false) :
    ∃ input lastsentdata, input.content = s.input.content ∧ input.gcount ≤ s.blocksize ∧
      lastsentdata.length = s.blocksize ∧
      input.fail = decide ((block s.input.content s.blocksize (s.lastsentdatacount.toNat - 1)).length <
        s.blocksize) ∧
      s.sendNextBlock = { s with
        input := input
        lastsentdata := lastsentdata
        io := s.io.asyncSendTo s.mReceiverEndpoint
          (dataOf s.input.content s.blocksize s.lastsentdatacount.toNat)
        sendingdone := input.fail } := by
  have hsf := (seeked_fail hbs hc).trans hf
  have hr := read_seeked hbs hc hsf
  have hlen := IStream.length_read_le s.blocksize s.seeked
  have hfail := IStream.read_fail (n := s.blocksize) hsf (IStream.seekg_eof _ _)
  refine ⟨(s.seeked.read s.blocksize).1, (s.seeked.read s.blocksize).2 ++
    List.replicate (s.blocksize - (s.seeked.read s.blocksize).2.length) 0, ?_, ?_, ?_, ?_, ?_⟩
  · simp [seeked]
  · rwa [IStream.read_gcount]
  · simp only [List.length_append, List.length_replicate]
    omega
  · rw [hfail, hr]
  · rw [sendNextBlock_good hs hsf, hfail, hd, hr, dataOf, UInt16.ofNat_toNat, Bool.false_or]

/-- The state in which `sendNextBlock` has given up on its stream. -/
def inputFileError (s : Tftpsender) : Tftpsender :=
  ({ s with input := s.seeked }.sendErrorMsg TftpErrorCode.accessViolation.toUInt16
    (ascii "Error reading from requested file. Might not exist (anymore) or insufficient permissions.")
    s.mReceiverEndpoint).endOperationWith .inputFileOpen

/-- Otherwise the operation ends, and what was read before is sent once more,
    on the closed socket. -/
theorem sendNextBlock_bad {s : Tftpsender} (hs : s.WellFormed) (h : s.seeked.fail = true) :
    s.sendNextBlock = { s.inputFileError with
      io := s.inputFileError.io.asyncSendTo s.mReceiverEndpoint
        (dataBytes s.lastsentdatacount (s.lastsentdata.take s.input.gcount))
      sendingdone := s.sendingdone || decide (s.input.gcount < s.blocksize) } := by
  have hr : s.readNextBlock = s.inputFileError := if_pos h
  have hf : s.inputFileError.input.gcount = s.input.gcount ∧
      s.inputFileError.lastsentdata = s.lastsentdata ∧
      s.inputFileError.blocksize = s.blocksize ∧
      s.inputFileError.lastsentdatacount = s.lastsentdatacount ∧
      s.inputFileError.mReceiverEndpoint = s.mReceiverEndpoint ∧
      s.inputFileError.sendingdone = s.sendingdone := by
    unfold inputFileError endOperationWith
    split_ifs <;> simp [sendErrorMsg, seeked]
  obtain ⟨h1, h2, h3, h4, h5, h6⟩ := hf
  rw [sendNextBlock, hr, sendReadBlock_eq (by rw [h1, h2, hs.lastsentdata]; exact hs.gcount)]
  simp only [h1, h2, h3, h4, h5, h6]

@[simp] theorem inputFileError_ended (s : Tftpsender) : s.inputFileError.operationEnded = true :=
  endOperationWith_ended _ _

theorem endOperationWith_threw (code : TftpUserFacingErrorCode) (s : Tftpsender) :
    (s.endOperationWith code).threw = s.threw := by
  unfold endOperationWith
  split_ifs <;> rfl

/-- The start of a sender does not throw. -/
theorem start_threw {s : Tftpsender} (hs : s.WellFormed) : s.start.threw = s.threw := by
  unfold start
  split_ifs
  · exact endOperationWith_threw _ _
  · cases h : s.seeked.fail with
    | false => rw [sendNextBlock_good hs h]
    | true =>
      rw [sendNextBlock_bad hs h]
      exact endOperationWith_threw _ _
  · rfl

/-- A sender reports at its start that its file cannot be opened, and nothing else. -/
theorem start_callbacks {s : Tftpsender} (hs : s.WellFormed) (hc : s.lastsentdatacount = 1)
    (he : s.operationEnded = false) :
    s.start.callbacks = s.callbacks ++ (if s.input.fail then [.inputFileOpen] else []) := by
  unfold start
  split_ifs with hf
  · rw [endOperationWith, if_neg (by rw [sendErrorMsg, he]; exact Bool.false_ne_true)]
    rfl
  · have hseek : s.seeked.fail = false := by
      rw [seeked, IStream.seekg_fail, hc, Bool.eq_false_iff.2 hf]
      simp [seekOffset]
    rw [sendNextBlock_good hs hseek, List.append_nil]

theorem sendNextBlock_callbacks {s : Tftpsender} (hs : s.WellFormed) :
    s.sendNextBlock.callbacks = s.callbacks ∨
      s.sendNextBlock.callbacks = s.callbacks ++ [.inputFileOpen] := by
  cases h : s.seeked.fail with
  | false => exact .inl (by rw [sendNextBlock_good hs h])
  | true =>
    rw [sendNextBlock_bad hs h]
    simp only [inputFileError, endOperationWith_callbacks]
    split_ifs
    · exact .inl (List.append_nil _)
    · exact .inr rfl

section
variable (s : Tftpsender) (c : UInt16) (m : Bytes) (e : Endpoint)

@[simp] theorem sendErrorMsg_callbacks : (s.sendErrorMsg c m e).callbacks = s.callbacks := rfl

@[simp] theorem sendErrorMsg_operationEnded :
    (s.sendErrorMsg c m e).operationEnded = s.operationEnded := rfl

@[simp] theorem countAck_io : s.countAck.io = s.io := by unfold countAck; split_ifs <;> rfl

@[simp] theorem countAck_blocksize : s.countAck.blocksize = s.blocksize := by
  unfold countAck; split_ifs <;> rfl

@[simp] theorem countAck_sendingdone : s.countAck.sendingdone = s.sendingdone := by
  unfold countAck; split_ifs <;> rfl

@[simp] theorem countAck_operationEnded : s.countAck.operationEnded = s.operationEnded := by
  unfold countAck; split_ifs <;> rfl

@[simp] theorem countAck_callbacks : s.countAck.callbacks = s.callbacks := by
  unfold countAck; split_ifs <;> rfl

end

/-! ## Well-formedness -/

namespace WellFormed
variable {s : Tftpsender}

theorem io (hs : s.WellFormed) (io : Io SenderHandler Endpoint) (h : io.isOpen = s.io.isOpen) :
    WellFormed { s with io := io } :=
  ⟨h.trans hs.isOpen, hs.lastsentdata, hs.gcount, hs.ackbuffer⟩

theorem sendErrorMsg (hs : s.WellFormed) (c : UInt16) (m : Bytes) (e : Endpoint) :
    (s.sendErrorMsg c m e).WellFormed := hs.io _ (by simp [Io.asyncSendDetached_isOpen])

theorem endOperationWith (hs : s.WellFormed) (code : TftpUserFacingErrorCode) :
    (s.endOperationWith code).WellFormed := by
  unfold Tftpsender.endOperationWith
  split_ifs
  · exact hs
  · exact ⟨rfl, hs.lastsentdata, hs.gcount, hs.ackbuffer⟩

theorem startNextReceive (hs : s.WellFormed) : s.startNextReceive.WellFormed := hs.io _ (by simp)

theorem inputFileError (hs : s.WellFormed) : s.inputFileError.WellFormed := by
  refine endOperationWith (sendErrorMsg ?_ _ _ _) _
  exact ⟨hs.isOpen, hs.lastsentdata, by simpa [seeked] using hs.gcount, hs.ackbuffer⟩

theorem sendNextBlock (hs : s.WellFormed) : s.sendNextBlock.WellFormed := by
  cases h : s.seeked.fail with
  | false =>
    rw [sendNextBlock_good hs h]
    have hl := IStream.length_read_le s.blocksize s.seeked
    refine ⟨by simpa using hs.isOpen, ?_, ?_, hs.ackbuffer⟩
    · simp only [List.length_append, List.length_replicate]
      omega
    · simpa only [IStream.read_gcount] using hl
  | true =>
    rw [sendNextBlock_bad hs h]
    have := hs.inputFileError
    exact ⟨by simpa using this.isOpen, this.lastsentdata, this.gcount, this.ackbuffer⟩

theorem handleBlockSent (hs : s.WellFormed) (err : ErrorCode) (n : ℕ) :
    (s.handleBlockSent err n).WellFormed := by
  unfold Tftpsender.handleBlockSent
  split_ifs
  · exact startNextReceive (hs.io _ (by simp))
  · exact hs

theorem start (hs : s.WellFormed) : s.start.WellFormed := by
  unfold Tftpsender.start
  split_ifs
  · exact (hs.sendErrorMsg _ _ _).endOperationWith _
  · exact hs.sendNextBlock
  · exact hs.startNextReceive

theorem countAck (hs : s.WellFormed) : s.countAck.WellFormed := by
  unfold Tftpsender.countAck onConnect
  split_ifs <;> exact ⟨hs.isOpen, hs.lastsentdata, hs.gcount, hs.ackbuffer⟩

theorem acceptAck (hs : s.WellFormed) : s.acceptAck.WellFormed := by
  unfold Tftpsender.acceptAck
  split_ifs
  · exact hs.countAck.endOperationWith _
  · exact hs.countAck.sendNextBlock

theorem checkAckForLastBlock (hs : s.WellFormed) (err : ErrorCode) (n : ℕ) :
    (s.checkAckForLastBlock err n).WellFormed := by
  have h : WellFormed { s with io := s.io.timerCancel } := hs.io _ rfl
  unfold Tftpsender.checkAckForLastBlock
  dsimp only
  split
  · exact (h.sendErrorMsg _ _ _).endOperationWith _
  · exact h.sendNextBlock
  · exact h.acceptAck
  · exact (h.sendErrorMsg _ _ _).endOperationWith _
  · exact (h.sendErrorMsg _ _ _).sendNextBlock
  · exact h.sendNextBlock
  · exact h.endOperationWith _

theorem handleReadTimeout (hs : s.WellFormed) (err : ErrorCode) :
    (s.handleReadTimeout err).WellFormed := by
  unfold Tftpsender.handleReadTimeout
  split_ifs
  · exact hs
  · unfold Io.cancel
    split_ifs with hc
    · have h : WellFormed { s with io := s.io.abortAll, timeoutcount := s.timeoutcount + 1 } :=
        ⟨hs.isOpen, hs.lastsentdata, hs.gcount, hs.ackbuffer⟩
      dsimp only
      split_ifs
      · exact h
      · exact (h.sendErrorMsg _ _ _).endOperationWith _
    · exact ⟨hs.isOpen, hs.lastsentdata, hs.gcount, hs.ackbuffer⟩

/-- What is stored fits into the buffer. -/
theorem store (hs : s.WellFormed) (src : Endpoint) (d : Bytes) :
    (s.store src (d.take (min s.ackbuffer.length s.blocksize))).WellFormed := by
  refine ⟨hs.isOpen, hs.lastsentdata, hs.gcount, ?_⟩
  have hl : (d.take (min s.ackbuffer.length s.blocksize)).length ≤ s.ackbuffer.length := by
    rw [List.length_take]; omega
  change (d.take (min s.ackbuffer.length s.blocksize) ++
    s.ackbuffer.drop (d.take (min s.ackbuffer.length s.blocksize)).length).length = 4
  rw [List.length_append, List.length_drop, ← hs.ackbuffer]
  omega

theorem step (hs : s.WellFormed) {e : Event Endpoint} {s' : Tftpsender}
    (h : proactor.step s e = some s') : s'.WellFormed := by
  obtain ⟨-, hstep⟩ := Proactor.step_cases h
  cases hstep with
  | start _ => exact (hs.io { s.io with started := true } rfl).start
  | @deliver src d r rs _ => exact (hs.io { s.io with
      receives := rs
      received := s.io.received ++ [(r, .success, min d.length (min s.ackbuffer.length s.blocksize))] } rfl).store src d
  | receiveFails _ _ => exact hs.io _ rfl
  | sendCompletes _ => exact hs.io _ rfl
  | expire _ => exact hs.io _ rfl
  | @runReceive i r err n _ =>
    have ht := hs.io { s.io with received := s.io.received.eraseIdx i } rfl
    cases r <;> exact ht.checkAckForLastBlock err n
  | @runSend i err n _ =>
    exact (hs.io { s.io with sent := s.io.sent.eraseIdx i } rfl).handleBlockSent err n
  | @runTimer i err _ =>
    exact (hs.io { s.io with waited := s.io.waited.eraseIdx i } rfl).handleReadTimeout err

end WellFormed

/-- An ACK that has been received into the buffer is decoded. -/
theorem receivedMsg_ackOf {s : Tftpsender} (hb : s.ackbuffer.length = 4) (hbs : 4 ≤ s.blocksize)
    (src : Endpoint) (i : ℕ) :
    (s.store src ((ackOf i).take (min s.ackbuffer.length s.blocksize))).receivedMsg =
      (true, ⟨UInt16.ofNat i⟩) := by
  have htake : (ackOf i).take (min s.ackbuffer.length s.blocksize) = ackOf i :=
    List.take_of_length_le (by change 4 ≤ _; omega)
  have hdrop : s.ackbuffer.drop (ackOf i).length = [] := List.drop_eq_nil_of_le hb.le
  rw [htake]
  change AckMessage.decode [] {} (ackOf i ++ s.ackbuffer.drop (ackOf i).length) = _
  rw [hdrop, List.append_nil]
  exact AckMessage.decode_encode _ _ _

/-! ## Reports of success -/

/-- The objects that the constructors build, each with a fresh socket and a
    stream on a file (failed if there is none). -/
inductive Constructed : Tftpsender → Prop
  | unknown (file : Option Bytes) (firstAck : ℤ) (blocksize : ℕ) (timeoutSeconds : UInt8) :
      Constructed (new {} (.ofFile file) firstAck blocksize timeoutSeconds)
  | known (file : Option Bytes) (remote : Endpoint) (firstAck : ℤ) (blocksize : ℕ)
      (timeoutSeconds : UInt8) :
      Constructed (newConnected {} (.ofFile file) remote firstAck blocksize timeoutSeconds)

/-- The runs of a sender. -/
def lts : Lts Tftpsender (Event Endpoint) := proactor.lts Constructed

/-- The completion callback is called with `ERR_NOERR`. -/
def ReportsNoerr (x : Tftpsender × Event Endpoint × Tftpsender) : Prop :=
  x.2.2.callbacks = x.1.callbacks ++ [.noerr]

/-- The handled event is the arrival, from the peer, of the ACK of a block that
    has been sent and is shorter than the blocksize. -/
def AcksLastBlock (x : Tftpsender × Event Endpoint × Tftpsender) : Prop :=
  ∃ i h nr d, x.2.1 = .runReceive i ∧
    x.1.io.received[i]? = some (h, .success, opcodeLength + blockNrLength) ∧
    x.1.receivedMsg = (true, ⟨nr⟩) ∧
    x.2.2.isConnected = true ∧ x.2.2.mReceiverEndpoint = x.1.mLastReceivedReceiverEndpoint ∧
    (x.1.mReceiverEndpoint, dataBytes nr d) ∈ x.1.io.wire ∧ d.length < x.1.blocksize

/-- The handled event is an ill-typed message, an ACK for a later block, or the
    expiry of the read timer after the last retransmission, and the operation
    has not ended before. -/
def Misreports (s : Tftpsender) : Event Endpoint → Prop
  | .runReceive i => s.operationEnded = false ∧ ∃ h err n, s.io.received[i]? = some (h, err, n) ∧
      (s.ackBranch err n = .wrongOpcode ∨ s.ackBranch err n = .futureAck)
  | .runTimer i => s.operationEnded = false ∧ s.io.waited[i]? = some .success ∧
      retransmissionsUntilTimeout < s.timeoutcount + 1
  | _ => False

/-- While the operation has not ended: `sendingdone` says that a short block has
    been sent, and that it is the current one. -/
structure ReportInv (s : Tftpsender) : Prop where
  wf : s.WellFormed
  short : s.operationEnded = false → ∀ dst nr d, (dst, dataBytes nr d) ∈ s.io.wire →
    d.length < s.blocksize → s.sendingdone = true ∧ nr = s.lastsentdatacount
  done : s.operationEnded = false → s.sendingdone = true →
    ∃ d, (s.mReceiverEndpoint, dataBytes s.lastsentdatacount d) ∈ s.io.wire ∧ d.length < s.blocksize

namespace ReportInv
variable {s : Tftpsender}

theorem of_ended (hs : s.WellFormed) (h : s.operationEnded = true) : s.ReportInv :=
  ⟨hs, fun he => by simp [h] at he, fun he => by simp [h] at he⟩

theorem init (h : Constructed s) : s.ReportInv := by
  cases h with
  | unknown file => cases file <;> exact ⟨⟨rfl, List.length_replicate, Nat.zero_le _, rfl⟩, by simp [new], by simp [new]⟩
  | known file => cases file <;> exact ⟨⟨rfl, List.length_replicate, Nat.zero_le _, rfl⟩,
      by simp [newConnected, new, onConnect], by simp [newConnected, new, onConnect]⟩

theorem io (hs : s.ReportInv) (io : Io SenderHandler Endpoint) (h : io.isOpen = s.io.isOpen)
    (hw : io.wire = s.io.wire) : ReportInv { s with io := io } :=
  ⟨hs.wf.io _ h, by simpa [hw] using hs.short, by simpa [hw] using hs.done⟩

theorem sendErrorMsg (hs : s.ReportInv) (c : UInt16) (m : Bytes) (e : Endpoint) :
    (s.sendErrorMsg c m e).ReportInv := by
  refine ⟨hs.wf.sendErrorMsg _ _ _, fun he dst nr d hm hd => ?_, fun he hd => ?_⟩
  · refine hs.short he dst nr d ?_ hd
    simp only [Tftpsender.sendErrorMsg, Io.asyncSendDetached_wire, List.mem_append] at hm
    refine hm.resolve_right fun hm => ?_
    split_ifs at hm
    · simp [dataBytes_ne_error] at hm
    · simp at hm
  · obtain ⟨d, hm, hd⟩ := hs.done he hd
    exact ⟨d, by simp [Tftpsender.sendErrorMsg, Io.asyncSendDetached_wire]; exact .inl hm, hd⟩

theorem endOperationWith (hs : s.ReportInv) (code : TftpUserFacingErrorCode) :
    (s.endOperationWith code).ReportInv :=
  of_ended (hs.wf.endOperationWith code) (endOperationWith_ended _ _)

theorem startNextReceive (hs : s.ReportInv) : s.startNextReceive.ReportInv :=
  hs.io _ (by simp) (by simp)

theorem sendNextBlock (hs : s.ReportInv) : s.sendNextBlock.ReportInv := by
  have hwf := hs.wf.sendNextBlock
  cases h : s.seeked.fail with
  | true =>
    refine of_ended hwf ?_
    rw [sendNextBlock_bad hs.wf h]
    exact inputFileError_ended s
  | false =>
    rw [sendNextBlock_good hs.wf h] at hwf ⊢
    refine ⟨hwf, fun he dst nr d hm hd => ?_, fun he hdone => ?_⟩
    · rw [Io.asyncSendTo_wire, hs.wf.isOpen, he] at hm
      rcases List.mem_append.1 hm with hm | hm
      · obtain ⟨h1, h2⟩ := hs.short he dst nr d hm hd
        exact ⟨by simp [h1], h2⟩
      · simp only [Bool.not_false, if_true, List.mem_singleton, Prod.mk.injEq] at hm
        obtain ⟨h1, h2⟩ := dataBytes_inj hm.2
        subst h2
        exact ⟨by simpa using .inr hd, h1⟩
    · have he' : s.operationEnded = false := he
      simp only [Io.asyncSendTo_wire, hs.wf.isOpen, he', Bool.not_false, if_true, List.mem_append,
        List.mem_singleton]
      rcases Bool.or_eq_true_iff.1 hdone with hdone | hshort
      · obtain ⟨d, hm, hd⟩ := hs.done he hdone
        exact ⟨d, .inl hm, hd⟩
      · exact ⟨_, .inr rfl, of_decide_eq_true hshort⟩

theorem handleBlockSent (hs : s.ReportInv) (err : ErrorCode) (n : ℕ) :
    (s.handleBlockSent err n).ReportInv := by
  unfold Tftpsender.handleBlockSent
  split_ifs
  · exact startNextReceive (hs.io _ (by simp) (by simp))
  · exact hs

theorem start (hs : s.ReportInv) : s.start.ReportInv := by
  unfold Tftpsender.start
  split_ifs
  · exact (hs.sendErrorMsg _ _ _).endOperationWith _
  · exact hs.sendNextBlock
  · exact hs.startNextReceive

theorem acceptAck (hs : s.ReportInv) : s.acceptAck.ReportInv := by
  have hwf := hs.wf.acceptAck
  unfold Tftpsender.acceptAck at hwf ⊢
  split_ifs at hwf ⊢ with hd
  · exact of_ended hwf (endOperation_ended _ _)
  · rw [countAck_sendingdone, Bool.not_eq_true] at hd
    refine sendNextBlock ⟨hs.wf.countAck, fun he dst nr d hm hl => ?_, fun _ hdone => ?_⟩
    -- before the last block, no short block has been sent
    · rw [countAck_io] at hm
      rw [countAck_operationEnded] at he
      rw [countAck_blocksize] at hl
      have := (hs.short he dst nr d hm hl).1
      rw [hd] at this
      cases this
    · rw [countAck_sendingdone, hd] at hdone
      cases hdone

theorem checkAckForLastBlock (hs : s.ReportInv) (err : ErrorCode) (n : ℕ) :
    (s.checkAckForLastBlock err n).ReportInv := by
  have h : ReportInv { s with io := s.io.timerCancel } := hs.io _ rfl rfl
  unfold Tftpsender.checkAckForLastBlock
  dsimp only
  split
  · exact (h.sendErrorMsg _ _ _).endOperationWith _
  · exact h.sendNextBlock
  · exact h.acceptAck
  · exact (h.sendErrorMsg _ _ _).endOperationWith _
  · exact (h.sendErrorMsg _ _ _).sendNextBlock
  · exact h.sendNextBlock
  · exact h.endOperationWith _

theorem handleReadTimeout (hs : s.ReportInv) (err : ErrorCode) :
    (s.handleReadTimeout err).ReportInv := by
  unfold Tftpsender.handleReadTimeout
  have h := hs.io s.io.abortAll rfl rfl
  split_ifs
  · exact hs
  · unfold Io.cancel
    split_ifs with hc
    · have ht : ReportInv { s with io := s.io.abortAll, timeoutcount := s.timeoutcount + 1 } :=
        ⟨⟨h.wf.isOpen, h.wf.lastsentdata, h.wf.gcount, h.wf.ackbuffer⟩, h.short, h.done⟩
      dsimp only
      split_ifs
      · exact ht
      · exact (ht.sendErrorMsg _ _ _).endOperationWith _
    · exact ⟨⟨hs.wf.isOpen, hs.wf.lastsentdata, hs.wf.gcount, hs.wf.ackbuffer⟩, hs.short, hs.done⟩

theorem step (hs : s.ReportInv) {e : Event Endpoint} {s' : Tftpsender}
    (h : proactor.step s e = some s') : s'.ReportInv := by
  have hwf := hs.wf.step h
  obtain ⟨-, hstep⟩ := Proactor.step_cases h
  cases hstep with
  | start _ => exact (hs.io { s.io with started := true } rfl rfl).start
  | deliver _ => exact ⟨hwf, hs.short, hs.done⟩
  | receiveFails _ _ => exact hs.io _ rfl rfl
  | sendCompletes _ => exact hs.io _ rfl rfl
  | expire _ => exact hs.io _ rfl rfl
  | @runReceive i r err n _ =>
    have ht := hs.io { s.io with received := s.io.received.eraseIdx i } rfl rfl
    cases r <;> exact ht.checkAckForLastBlock err n
  | @runSend i err n _ =>
    exact (hs.io { s.io with sent := s.io.sent.eraseIdx i } rfl rfl).handleBlockSent err n
  | @runTimer i err _ =>
    exact (hs.io { s.io with waited := s.io.waited.eraseIdx i } rfl rfl).handleReadTimeout err

/-- Every sender keeps its record of short blocks. -/
theorem reach (h : lts.Reach s) : s.ReportInv :=
  h.inv ReportInv (fun _ h => init h) fun _ _ _ _ hs h => hs.step h

end ReportInv

variable {s : Tftpsender}

theorem sendNextBlock_reports (hs : s.WellFormed) :
    s.sendNextBlock.callbacks ≠ s.callbacks ++ [.noerr] := by
  rcases sendNextBlock_callbacks hs with h | h <;> simp [h]

theorem endOperation_reports (err : ErrorCode) (s : Tftpsender) :
    (s.endOperation err).callbacks = s.callbacks ++ [.noerr] ↔
      s.operationEnded = false ∧ err = .success := by
  rw [endOperation, endOperationWith_callbacks]
  cases s.operationEnded <;> by_cases h : err = .success <;> simp [h]

theorem ackBranch_fatal {err : ErrorCode} {n : ℕ} (h : s.ackBranch err n = .fatal) :
    err ≠ .success := by
  rintro rfl
  unfold ackBranch at h
  split_ifs at h with h1 h2 h3 h4 h5 h6
  obtain ⟨-, h6⟩ := not_or.1 h6
  exact h1 ⟨rfl, not_ne_iff.1 h6, Bool.eq_false_iff.2 h5⟩

theorem ackBranch_expectedAck {err : ErrorCode} {n : ℕ} (h : s.ackBranch err n = .expectedAck) :
    err = .success ∧ n = opcodeLength + blockNrLength ∧ s.wrongRemoteHost = false ∧
      s.receivedMsg = (true, ⟨s.lastsentdatacount⟩) := by
  unfold ackBranch at h
  split_ifs at h with h1 h2 h3 h4 h5 h6
  exact ⟨h1.1, h1.2.1, h1.2.2, Prod.ext (by simpa using h2) (congrArg AckMessage.mk h4)⟩

theorem ackBranch_wrongOpcode {err : ErrorCode} {n : ℕ} (h : s.ackBranch err n = .wrongOpcode) :
    s.receivedMsg.1 = false := by
  unfold ackBranch at h
  split_ifs at h with h1 h2 h3 h4 h5 h6
  exact h2

theorem ackBranch_futureAck {err : ErrorCode} {n : ℕ} (h : s.ackBranch err n = .futureAck) :
    err = .success ∧ s.receivedMsg.1 = true ∧
      s.lastsentdatacount.toNat < s.receivedMsg.2.mBlockNr.toNat := by
  unfold ackBranch at h
  split_ifs at h with h1 h2 h3 h4 h5 h6
  have h4' : s.receivedMsg.2.mBlockNr.toNat ≠ s.lastsentdatacount.toNat :=
    fun he => h4 (UInt16.toNat_inj.1 he)
  rw [UInt16.lt_iff_toNat_lt] at h3
  exact ⟨h1.1, by simpa using h2, by omega⟩

/-- A received ACK makes the sender report success if it is the expected one
    after the last block, or if it ends the operation as an error. -/
theorem checkAckForLastBlock_reports (hs : s.WellFormed) (err : ErrorCode) (n : ℕ) :
    (s.checkAckForLastBlock err n).callbacks = s.callbacks ++ [.noerr] ↔
      s.operationEnded = false ∧ (s.ackBranch err n = .wrongOpcode ∨ s.ackBranch err n = .futureAck ∨
        s.ackBranch err n = .expectedAck ∧ s.sendingdone = true) := by
  have hio : ackBranch err n { s with io := s.io.timerCancel } = s.ackBranch err n := rfl
  have hwf : WellFormed { s with io := s.io.timerCancel } := hs.io _ rfl
  rw [checkAckForLastBlock]
  simp only [hio]
  cases hb : s.ackBranch err n with
  | wrongOpcode => exact (endOperation_reports .success _).trans (by simp)
  | olderAck => simpa using sendNextBlock_reports hwf
  | expectedAck =>
    simp only [acceptAck]
    split_ifs with hd
    · have := endOperation_reports .success (countAck { s with io := s.io.timerCancel })
      simp only [countAck_sendingdone] at hd
      simpa [hd] using this
    · have := sendNextBlock_reports hwf.countAck
      simp only [countAck_sendingdone] at hd
      simpa [hd] using this
  | futureAck => exact (endOperation_reports .success _).trans (by simp)
  | foreignHost => simpa using sendNextBlock_reports (hwf.sendErrorMsg _ _ _)
  | retry => simpa using sendNextBlock_reports hwf
  | fatal =>
    have := endOperation_reports err { s with io := s.io.timerCancel }
    simpa [ackBranch_fatal hb] using this

theorem handleReadTimeout_reports (hs : s.WellFormed) (err : ErrorCode) :
    (s.handleReadTimeout err).callbacks = s.callbacks ++ [.noerr] ↔
      s.operationEnded = false ∧ err = .success ∧
        retransmissionsUntilTimeout < s.timeoutcount + 1 := by
  unfold handleReadTimeout Io.cancel
  rw [hs.isOpen]
  by_cases ha : err = .operationAborted
  · simp [ha]
  · cases he : s.operationEnded with
    | true => simp [ha]
    | false =>
      simp only [ha, if_false, Bool.not_false, if_true]
      split_ifs with hc
      · simp [UInt16.not_lt.2 hc]
      · have := endOperation_reports err (sendErrorMsg 4
          (ascii "Timeout while waiting for ACK for Data Packet " ++ decimal s.lastsentdatacount.toNat)
          s.mReceiverEndpoint
          { s with io := s.io.abortAll, timeoutcount := s.timeoutcount + 1 })
        simpa [sendErrorMsg, he, UInt16.not_le.1 hc] using this

theorem onReceive_eq (h : SenderHandler) (err : ErrorCode) (n : ℕ) (s : Tftpsender) :
    onReceive h err n s = s.checkAckForLastBlock err n := by
  cases h <;> rfl

/-- The expected ACK arrives after the last block. -/
def CompletesTransfer (s : Tftpsender) : Event Endpoint → Prop
  | .runReceive i => s.operationEnded = false ∧ ∃ h err n, s.io.received[i]? = some (h, err, n) ∧
      s.ackBranch err n = .expectedAck ∧ s.sendingdone = true
  | _ => False

/-- The transitions that report success. -/
theorem reportsNoerr_iff (hs : s.WellFormed) {e : Event Endpoint} {s' : Tftpsender}
    (h : proactor.step s e = some s') :
    ReportsNoerr (s, e, s') ↔ Misreports s e ∨ CompletesTransfer s e := by
  obtain ⟨-, hstep⟩ := Proactor.step_cases h
  cases hstep with
  | start _ =>
    have hwf := hs.io { s.io with started := true } rfl
    refine iff_of_false ?_ (by simp [Misreports, CompletesTransfer])
    change (Tftpsender.start _).callbacks ≠ s.callbacks ++ [.noerr]
    unfold start
    split_ifs
    · rw [endOperationWith_callbacks]
      cases hs : s.operationEnded <;> simp [proactor, sendErrorMsg, hs]
    · exact sendNextBlock_reports hwf
    · simp [startNextReceive, proactor]
  | deliver _ =>
    exact iff_of_false (by simp [ReportsNoerr, proactor, store]) (by simp [Misreports, CompletesTransfer])
  | receiveFails _ _ =>
    exact iff_of_false (by simp [ReportsNoerr, proactor]) (by simp [Misreports, CompletesTransfer])
  | sendCompletes _ =>
    exact iff_of_false (by simp [ReportsNoerr, proactor]) (by simp [Misreports, CompletesTransfer])
  | expire _ =>
    exact iff_of_false (by simp [ReportsNoerr, proactor]) (by simp [Misreports, CompletesTransfer])
  | @runReceive i r err n hx =>
    have hwf := hs.io { s.io with received := s.io.received.eraseIdx i } rfl
    have hx' : s.io.received[i]? = some (r, err, n) := hx
    have hrep := checkAckForLastBlock_reports hwf err n
    rw [← onReceive_eq r] at hrep
    refine hrep.trans ?_
    simp only [Misreports, CompletesTransfer, hx', Option.some.injEq, Prod.mk.injEq]
    constructor
    · rintro ⟨he, h | h | h⟩
      · exact .inl ⟨he, r, err, n, ⟨rfl, rfl, rfl⟩, .inl h⟩
      · exact .inl ⟨he, r, err, n, ⟨rfl, rfl, rfl⟩, .inr h⟩
      · exact .inr ⟨he, r, err, n, ⟨rfl, rfl, rfl⟩, h⟩
    · rintro (⟨he, _, _, _, ⟨rfl, rfl, rfl⟩, h | h⟩ | ⟨he, _, _, _, ⟨rfl, rfl, rfl⟩, h⟩)
      · exact ⟨he, .inl h⟩
      · exact ⟨he, .inr (.inl h)⟩
      · exact ⟨he, .inr (.inr h)⟩
  | @runSend i err n _ =>
    refine iff_of_false (fun h => ?_) (by simp [Misreports, CompletesTransfer])
    simp only [ReportsNoerr, proactor, handleBlockSent, startNextReceive] at h
    split_ifs at h <;> simp at h
  | @runTimer i err hx =>
    have hwf := hs.io { s.io with waited := s.io.waited.eraseIdx i } rfl
    have hx' : s.io.waited[i]? = some err := hx
    refine (handleReadTimeout_reports hwf err).trans ?_
    simp [Misreports, CompletesTransfer, hx']

/-- Sending a block keeps the peer. -/
theorem sendNextBlock_peer (hs : s.WellFormed) : s.sendNextBlock.isConnected = s.isConnected ∧
    s.sendNextBlock.mReceiverEndpoint = s.mReceiverEndpoint ∧
    s.sendNextBlock.mLastReceivedReceiverEndpoint = s.mLastReceivedReceiverEndpoint := by
  cases h : s.seeked.fail with
  | false => rw [sendNextBlock_good hs h]; exact ⟨rfl, rfl, rfl⟩
  | true =>
    rw [sendNextBlock_bad hs h]
    unfold inputFileError endOperationWith
    split_ifs <;> exact ⟨rfl, rfl, rfl⟩

/-- The expected ACK comes from the peer, or determines it. -/
theorem countAck_peer (hw : s.wrongRemoteHost = false) : s.countAck.isConnected = true ∧
    s.countAck.mReceiverEndpoint = s.mLastReceivedReceiverEndpoint := by
  unfold wrongRemoteHost at hw
  unfold countAck onConnect
  split_ifs with hc
  · refine ⟨hc, ?_⟩
    rw [hc, Bool.true_and, decide_eq_false_iff_not, not_not] at hw
    exact hw.symm
  · exact ⟨rfl, rfl⟩

theorem checkAckForLastBlock_peer (hs : s.WellFormed) {err : ErrorCode} {n : ℕ}
    (hb : s.ackBranch err n = .expectedAck) :
    (s.checkAckForLastBlock err n).isConnected = true ∧
      (s.checkAckForLastBlock err n).mReceiverEndpoint = s.mLastReceivedReceiverEndpoint := by
  have hio : ackBranch err n { s with io := s.io.timerCancel } = .expectedAck := hb
  have hwf : WellFormed { s with io := s.io.timerCancel } := hs.io _ rfl
  have hw : wrongRemoteHost { s with io := s.io.timerCancel } = false := (ackBranch_expectedAck hb).2.2.1
  obtain ⟨h1, h2⟩ := countAck_peer hw
  rw [checkAckForLastBlock]
  simp only [hio]
  unfold acceptAck
  split_ifs
  · rw [endOperation]
    unfold endOperationWith
    split_ifs <;> exact ⟨h1, h2⟩
  · obtain ⟨p1, p2, -⟩ := sendNextBlock_peer hwf.countAck
    exact ⟨p1.trans h1, p2.trans h2⟩

/-- The expected ACK after the last block is the ACK of a short block that has
    been sent. -/
theorem CompletesTransfer.acksLastBlock (hs : s.ReportInv) {e : Event Endpoint} {s' : Tftpsender}
    (h : proactor.step s e = some s') (hc : CompletesTransfer s e) : AcksLastBlock (s, e, s') := by
  obtain ⟨-, hstep⟩ := Proactor.step_cases h
  cases hstep with
  | @runReceive i r err n hx =>
    obtain ⟨he, r', err', n', hx', hb, hd⟩ := hc
    cases hx.symm.trans hx'
    obtain ⟨rfl, rfl, hw, hm⟩ := ackBranch_expectedAck hb
    obtain ⟨d, hd1, hd2⟩ := hs.done he hd
    have hpeer := @checkAckForLastBlock_peer
      { s with io := { s.io with received := s.io.received.eraseIdx i } } (hs.wf.io _ rfl) _ _ hb
    rw [← onReceive_eq r] at hpeer
    exact ⟨i, r, s.lastsentdatacount, d, rfl, hx, hm, hpeer.1, hpeer.2, hd1, hd2⟩
  | _ => exact hc.elim

/-- A misreported end is no such ACK. -/
theorem Misreports.not_acksLastBlock (hs : s.ReportInv) {e : Event Endpoint} {s' : Tftpsender}
    (hm : Misreports s e) : ¬ AcksLastBlock (s, e, s') := by
  rintro ⟨i, r, nr, d, rfl, hx, hmsg, -, -, hd1, hd2⟩
  obtain ⟨he, r', err, n, hx', hb⟩ := hm
  cases hx.symm.trans hx'
  have hnr := (hs.short he _ _ _ hd1 hd2).2
  have hmsg' : s.receivedMsg = (true, ⟨nr⟩) := hmsg
  rcases hb with hb | hb
  · have := ackBranch_wrongOpcode hb
    simp [hmsg'] at this
  · have := (ackBranch_futureAck hb).2.2
    simp [hmsg', hnr] at this

/-- **When a sender reports success truthfully.**  In a run of a sender, every
    report of success comes with the ACK of a short block that has been sent,
    exactly if no step of the run, before the operation has ended, handles a
    message that is no ACK or the ACK of a later block, or the expiry of the
    read timer after the last retransmission. -/
theorem sender_noerr_iff {s₀ : Tftpsender} (h : Constructed s₀) (es : List (Event Endpoint)) :
    (∀ x ∈ lts.trace s₀ es, ReportsNoerr x → AcksLastBlock x) ↔
      ∀ x ∈ lts.trace s₀ es, ¬ Misreports x.1 x.2.1 := by
  have key : ∀ x ∈ lts.trace s₀ es, x.1.ReportInv ∧ proactor.step x.1 x.2.1 = some x.2.2 :=
    fun x hx => (Lts.mem_trace (.init h) hx).imp ReportInv.reach id
  refine forall₂_congr fun x hx => ?_
  obtain ⟨hs, hstep⟩ := key x hx
  constructor
  · intro h hm
    exact hm.not_acksLastBlock hs (h ((reportsNoerr_iff hs.wf hstep).2 (.inl hm)))
  · intro h hr
    rcases (reportsNoerr_iff hs.wf hstep).1 hr with hm | hc
    · exact absurd hm h
    · exact hc.acksLastBlock hs hstep

/-- The transfer of the empty file, acknowledged. -/
theorem sender_noerr_empty_file :
    (∀ x ∈ lts.trace (newConnected {} (.ofFile (some [])) ⟨1, 2⟩ 1 512 2)
        [.start, .sendCompletes .success, .runSend 0, .deliver ⟨1, 2⟩ [0, 4, 0, 1], .runReceive 0],
      ReportsNoerr x → AcksLastBlock x) ↔
    ∀ x ∈ lts.trace (newConnected {} (.ofFile (some [])) ⟨1, 2⟩ 1 512 2)
        [.start, .sendCompletes .success, .runSend 0, .deliver ⟨1, 2⟩ [0, 4, 0, 1], .runReceive 0],
      ¬ Misreports x.1 x.2.1 :=
  sender_noerr_iff (.known (some []) ⟨1, 2⟩ 1 512 2) _

/-- The peer answers block 1 with an ERROR message, and the sender reports
    success. -/
theorem sender_noerr_after_error :
    ¬ ∀ s₀ es, Constructed s₀ → ∀ x ∈ lts.trace s₀ es, ReportsNoerr x → AcksLastBlock x := by
  intro h
  obtain ⟨tr, htr⟩ : ∃ tr, tr = lts.trace (newConnected {} (.ofFile (some [])) ⟨1, 2⟩ 1 512 2)
    [.start, .sendCompletes .success, .runSend 0, .deliver ⟨1, 2⟩ [0, 5, 0, 0], .runReceive 0] := ⟨_, rfl⟩
  have hlast : (tr.getLast?.map fun x => (x.1.callbacks, x.2.2.callbacks, x.1.receivedMsg.1)) =
      some ([], [.noerr], false) := by rw [htr]; rfl
  obtain ⟨x, hx, hv⟩ := Option.map_eq_some_iff.1 hlast
  simp only [Prod.mk.injEq] at hv
  obtain ⟨h1, h2, h3⟩ := hv
  rw [htr] at hx
  obtain ⟨i, r, nr, d, -, -, hm, -⟩ := h _ _ (.known (some []) ⟨1, 2⟩ 1 512 2) x
    (List.mem_of_getLast? hx) (by rw [ReportsNoerr, h1, h2]; rfl)
  rw [hm] at h3
  cases h3

end Tftpsender

end Ttftp

/-
  The receiver: what its operations do, and when it reports success.

  `WellFormed` and `WriteInv` hold of every object; `receiver_noerr_iff` says exactly
  when all the successes that a run reports are real ones.
-/
import Ttftp.Receiver
import Ttftp.Proof.Messages

namespace Ttftp

open Bytes Asio

namespace TftpReceiver

/-! ## Operations -/

/-- The size of the buffer, and that the socket is open until the operation
    ends. -/
structure WellFormed (s : TftpReceiver) : Prop where
  isOpen : s.io.isOpen = !s.operationEnded
  databuffer : s.databuffer.length = s.blocksize + 4

section
variable (s : TftpReceiver) (c : UInt16) (m : Bytes) (e : Endpoint) (code : TftpUserFacingErrorCode)

@[simp] theorem endOperationWith_ended : (s.endOperationWith code).operationEnded = true := by
  unfold endOperationWith
  split_ifs with h
  · exact h
  · rfl

@[simp] theorem endOperation_ended (err : ErrorCode) : (s.endOperation err).operationEnded = true :=
  endOperationWith_ended _ _

theorem endOperationWith_callbacks :
    (s.endOperationWith code).callbacks = s.callbacks ++ (if s.operationEnded then [] else [code]) := by
  unfold endOperationWith
  split_ifs <;> simp

@[simp] theorem endOperationWith_output : (s.endOperationWith code).output = s.output := by
  unfold endOperationWith; split_ifs <;> rfl

@[simp] theorem endOperationWith_lastreceiveddatacount :
    (s.endOperationWith code).lastreceiveddatacount = s.lastreceiveddatacount := by
  unfold endOperationWith; split_ifs <;> rfl

@[simp] theorem sendErrorMsg_callbacks : (s.sendErrorMsg c m e).callbacks = s.callbacks := rfl

@[simp] theorem sendErrorMsg_operationEnded :
    (s.sendErrorMsg c m e).operationEnded = s.operationEnded := rfl

@[simp] theorem sendErrorMsg_output : (s.sendErrorMsg c m e).output = s.output := rfl

@[simp] theorem countBlock_io : s.countBlock.io = s.io := by unfold countBlock; split_ifs <;> rfl

@[simp] theorem countBlock_blocksize : s.countBlock.blocksize = s.blocksize := by
  unfold countBlock; split_ifs <;> rfl

@[simp] theorem countBlock_output : s.countBlock.output = s.output := by
  unfold countBlock; split_ifs <;> rfl

@[simp] theorem countBlock_operationEnded : s.countBlock.operationEnded = s.operationEnded := by
  unfold countBlock; split_ifs <;> rfl

@[simp] theorem countBlock_callbacks : s.countBlock.callbacks = s.callbacks := by
  unfold countBlock; split_ifs <;> rfl

@[simp] theorem countBlock_isConnected : s.countBlock.isConnected = true := by
  unfold countBlock
  split_ifs with h
  · exact h
  · rfl

@[simp] theorem countBlock_lastreceiveddatacount :
    s.countBlock.lastreceiveddatacount = s.lastreceiveddatacount + 1 := by
  unfold countBlock; split_ifs <;> rfl

@[simp] theorem outputFileError_output : s.outputFileError.output = s.output := by
  simp [outputFileError]

@[simp] theorem outputFileError_ended : s.outputFileError.operationEnded = true :=
  endOperationWith_ended _ _

@[simp] theorem outputFileError_isConnected : s.outputFileError.isConnected = s.isConnected := by
  unfold outputFileError endOperationWith; split_ifs <;> rfl

@[simp] theorem outputFileError_lastreceiveddatacount :
    s.outputFileError.lastreceiveddatacount = s.lastreceiveddatacount :=
  endOperationWith_lastreceiveddatacount _ _

@[simp] theorem writeBlock_output (d : Bytes) : (s.writeBlock d).output = s.output.write d := by
  unfold writeBlock; split_ifs <;> simp

@[simp] theorem writeBlock_isConnected (d : Bytes) : (s.writeBlock d).isConnected = s.isConnected := by
  unfold writeBlock; split_ifs <;> simp

@[simp] theorem writeBlock_lastreceiveddatacount (d : Bytes) :
    (s.writeBlock d).lastreceiveddatacount = s.lastreceiveddatacount := by
  unfold writeBlock; split_ifs <;> simp

/-- An ACK that is not the last one goes to the peer, if there is one. -/
theorem sendNextAck_false : s.sendNextAck false =
    if s.isConnected then { s with
      lastsentack := ⟨s.lastreceiveddatacount⟩
      io := s.io.asyncSendTo s.mSenderEndpoint (AckMessage.encode ⟨s.lastreceiveddatacount⟩) }
    else { s with lastsentack := ⟨s.lastreceiveddatacount⟩ }.startNextReceive := rfl

/-- The last ACK goes out and ends the operation, unless the socket is closed. -/
theorem sendNextAck_true (h : s.isConnected = true) : s.sendNextAck true =
    if s.io.isOpen then endOperation .success { s with
      lastsentack := ⟨s.lastreceiveddatacount⟩
      io := { s.io with
        wire := s.io.wire ++ [(s.mSenderEndpoint, AckMessage.encode ⟨s.lastreceiveddatacount⟩)] } }
    else { s with lastsentack := ⟨s.lastreceiveddatacount⟩, threw := true } := by
  simp only [sendNextAck, h, if_true, Io.sendTo]
  split_ifs <;> rfl

@[simp] theorem sendNextAck_output (l : Bool) : (s.sendNextAck l).output = s.output := by
  cases l with
  | false => rw [sendNextAck_false]; split_ifs <;> rfl
  | true =>
    cases h : s.isConnected with
    | false => simp [sendNextAck, h, startNextReceive]
    | true => rw [sendNextAck_true s h]; split_ifs <;> simp [endOperation]

@[simp] theorem sendNextAck_lastreceiveddatacount (l : Bool) :
    (s.sendNextAck l).lastreceiveddatacount = s.lastreceiveddatacount := by
  cases l with
  | false => rw [sendNextAck_false]; split_ifs <;> rfl
  | true =>
    cases h : s.isConnected with
    | false => simp [sendNextAck, h, startNextReceive]
    | true => rw [sendNextAck_true s h]; split_ifs <;> simp [endOperation]

theorem start_good (h : s.output.fail = false) :
    s.start = if s.isConnected then s.sendNextAck false else s.startNextReceive := by
  simp [start, h]

theorem writeBlock_good (d : Bytes) (h : s.output.fail = false) :
    s.writeBlock d = { s with output := s.output.write d } := by
  simp [writeBlock, h]

theorem acceptBlock_output (n : ℕ) :
    (s.acceptBlock n).output = s.output.write (s.receivedMsg n).2.mData := by
  simp [acceptBlock]

theorem acceptBlock_lastreceiveddatacount (n : ℕ) :
    (s.acceptBlock n).lastreceiveddatacount = s.lastreceiveddatacount + 1 := by
  simp [acceptBlock]

end

/-- Both receive handlers treat their completions alike. -/
theorem onReceive_eq (h : ReceiverHandler) (err : ErrorCode) (n : ℕ) (s : TftpReceiver) :
    onReceive h err n s = s.checkReceivedBlock err n := by
  cases h with
  | checkReceivedBlock => rfl
  | handleFirstBlockWithoutConnect =>
    have hio : s.io.timerCancel.timerCancel = s.io.timerCancel := by simp [Io.timerCancel]
    simp only [onReceive, handleFirstBlockWithoutConnect]
    split_ifs with h1 h2
    · simp only [checkReceivedBlock, hio]
    · simp [checkReceivedBlock, blockBranch, h2]
    · simp [checkReceivedBlock, blockBranch, h1, h2]

/-! ## Well-formedness -/

namespace WellFormed
variable {s : TftpReceiver}

theorem io (hs : s.WellFormed) (io : Io ReceiverHandler Endpoint) (h : io.isOpen = s.io.isOpen) :
    WellFormed { s with io := io } :=
  ⟨h.trans hs.isOpen, hs.databuffer⟩

theorem sendErrorMsg (hs : s.WellFormed) (c : UInt16) (m : Bytes) (e : Endpoint) :
    (s.sendErrorMsg c m e).WellFormed := hs.io _ (by simp)

theorem endOperationWith (hs : s.WellFormed) (code : TftpUserFacingErrorCode) :
    (s.endOperationWith code).WellFormed := by
  unfold TftpReceiver.endOperationWith
  split_ifs
  · exact hs
  · exact ⟨rfl, hs.databuffer⟩

theorem startNextReceive (hs : s.WellFormed) : s.startNextReceive.WellFormed :=
  ⟨by simpa [TftpReceiver.startNextReceive] using hs.isOpen,
    by simpa [TftpReceiver.startNextReceive] using hs.databuffer⟩

theorem sendNextAck (hs : s.WellFormed) (l : Bool) : (s.sendNextAck l).WellFormed := by
  have hl : WellFormed { s with lastsentack := ⟨s.lastreceiveddatacount⟩ } :=
    ⟨hs.isOpen, hs.databuffer⟩
  cases h : s.isConnected with
  | false =>
    have : s.sendNextAck l = { s with lastsentack := ⟨s.lastreceiveddatacount⟩ }.startNextReceive := by
      simp [TftpReceiver.sendNextAck, h]
    rw [this]
    exact hl.startNextReceive
  | true =>
    cases l with
    | false => rw [sendNextAck_false, if_pos h]; exact hl.io _ (by simp)
    | true =>
      rw [sendNextAck_true s h]
      split_ifs
      · refine endOperationWith ?_ _
        exact ⟨hs.isOpen, hs.databuffer⟩
      · exact ⟨hs.isOpen, hs.databuffer⟩

theorem outputFileError (hs : s.WellFormed) : s.outputFileError.WellFormed :=
  (hs.sendErrorMsg _ _ _).endOperationWith _

theorem countBlock (hs : s.WellFormed) : s.countBlock.WellFormed := by
  unfold TftpReceiver.countBlock onConnect
  split_ifs <;> exact ⟨hs.isOpen, hs.databuffer⟩

theorem writeBlock (hs : s.WellFormed) (d : Bytes) : (s.writeBlock d).WellFormed := by
  unfold TftpReceiver.writeBlock
  split_ifs
  · exact ⟨hs.outputFileError.isOpen, hs.outputFileError.databuffer⟩
  · exact ⟨hs.isOpen, hs.databuffer⟩

theorem acceptBlock (hs : s.WellFormed) (n : ℕ) : (s.acceptBlock n).WellFormed :=
  (hs.countBlock.writeBlock _).sendNextAck _

theorem checkReceivedBlock (hs : s.WellFormed) (err : ErrorCode) (n : ℕ) :
    (s.checkReceivedBlock err n).WellFormed := by
  have h : WellFormed { s with io := s.io.timerCancel } := hs.io _ rfl
  unfold TftpReceiver.checkReceivedBlock
  dsimp only
  split
  · exact (h.sendErrorMsg _ _ _).sendNextAck _
  · exact (h.sendErrorMsg _ _ _).endOperationWith _
  · exact (h.sendErrorMsg _ _ _).endOperationWith _
  · exact h.sendNextAck _
  · exact h.acceptBlock _
  · exact (h.sendErrorMsg _ _ _).endOperationWith _
  · exact h.sendNextAck _
  · exact h.endOperationWith _

theorem handleReadTimeout (hs : s.WellFormed) (err : ErrorCode) :
    (s.handleReadTimeout err).WellFormed := by
  unfold TftpReceiver.handleReadTimeout
  split_ifs
  · exact hs
  · unfold Io.cancel
    split_ifs with hc
    · have h : WellFormed { s with io := s.io.abortAll, timeoutcount := s.timeoutcount + 1 } :=
        ⟨hs.isOpen, hs.databuffer⟩
      dsimp only
      split_ifs
      · exact h
      · exact (h.sendErrorMsg _ _ _).endOperationWith _
    · exact ⟨hs.isOpen, hs.databuffer⟩

theorem handleACKsent (hs : s.WellFormed) (err : ErrorCode) (n : ℕ) :
    (s.handleACKsent err n).WellFormed := by
  unfold TftpReceiver.handleACKsent
  split_ifs
  · exact hs.startNextReceive
  · exact hs

theorem start (hs : s.WellFormed) : s.start.WellFormed := by
  have h : WellFormed (if s.output.fail then s.outputFileError else s) := by
    split_ifs
    · exact hs.outputFileError
    · exact hs
  unfold TftpReceiver.start
  dsimp only
  split_ifs at h ⊢
  · exact h.sendNextAck _
  · exact h.startNextReceive
  · exact h.sendNextAck _
  · exact h.startNextReceive

/-- What is stored fits into the buffer. -/
theorem store (hs : s.WellFormed) (src : Endpoint) (d : Bytes) :
    (s.store src (d.take s.databuffer.length)).WellFormed := by
  refine ⟨hs.isOpen, ?_⟩
  change (d.take s.databuffer.length ++
    s.databuffer.drop (d.take s.databuffer.length).length).length = s.blocksize + 4
  rw [List.length_append, List.length_drop, List.length_take, ← hs.databuffer]
  omega

theorem step (hs : s.WellFormed) {e : Event Endpoint} {s' : TftpReceiver}
    (h : proactor.step s e = some s') : s'.WellFormed := by
  obtain ⟨-, hstep⟩ := Proactor.step_cases h
  cases hstep with
  | start _ => exact (hs.io { s.io with started := true } rfl).start
  | @deliver src d r rs _ => exact (hs.io { s.io with
      receives := rs
      received := s.io.received ++ [(r, .success, min d.length s.databuffer.length)] } rfl).store src d
  | receiveFails _ _ => exact hs.io _ rfl
  | sendCompletes _ => exact hs.io _ rfl
  | expire _ => exact hs.io _ rfl
  | @runReceive i r err n _ =>
    have ht := (hs.io { s.io with received := s.io.received.eraseIdx i } rfl).checkReceivedBlock err n
    rw [← onReceive_eq r] at ht
    exact ht
  | @runSend i err n _ =>
    exact (hs.io { s.io with sent := s.io.sent.eraseIdx i } rfl).handleACKsent err n
  | @runTimer i err _ =>
    exact (hs.io { s.io with waited := s.io.waited.eraseIdx i } rfl).handleReadTimeout err

end WellFormed

/-- What has been received is decoded. -/
theorem receivedMsg_arrived (src : Endpoint) (d : Bytes) (s : TftpReceiver) :
    (s.store src (d.take s.databuffer.length)).receivedMsg (min d.length s.databuffer.length) =
      (DataMessage.new s.blocksize).decode (d.take s.databuffer.length) := by
  have hl : min d.length s.databuffer.length = (d.take s.databuffer.length).length := by
    rw [List.length_take]
    exact min_comm _ _
  rw [receivedMsg, hl]
  exact congrArg _ (List.take_left ..)

theorem receivedMsg_store {s : TftpReceiver} {src : Endpoint} {d : Bytes}
    (h : ((s.store src (d.take s.databuffer.length)).receivedMsg (min d.length s.databuffer.length)).1 = true) :
    ntohs d 0 = TftpOpcode.data.toUInt16 ∧
      ((s.store src (d.take s.databuffer.length)).receivedMsg (min d.length s.databuffer.length)).2.mBlockNr =
        ntohs d 2 := by
  rw [receivedMsg_arrived] at h ⊢
  have h4 := (DataMessage.decode_true h).1
  rw [List.length_take] at h4
  unfold DataMessage.decode at h ⊢
  rw [ntohs_take (by omega)] at h ⊢
  split_ifs at h ⊢ with h1 h2
  exact ⟨not_not.1 h2, ntohs_take (by rw [opcodeLength]; omega) d⟩

/-- A block that has been received into the buffer is decoded. -/
theorem receivedMsg_dataOf {s : TftpReceiver} (hb : s.databuffer.length = s.blocksize + 4) (src : Endpoint)
    (F : Bytes) (i : ℕ) :
    (s.store src ((dataOf F s.blocksize i).take s.databuffer.length)).receivedMsg
        (dataOf F s.blocksize i).length =
      (true, { DataMessage.new s.blocksize with
        mBlockNr := UInt16.ofNat i, mData := block F s.blocksize (i - 1) }) := by
  have hle := length_block_le F s.blocksize (i - 1)
  have hl : (dataOf F s.blocksize i).length = (block F s.blocksize (i - 1)).length + 4 :=
    length_dataBytes _ _
  have htake : (dataOf F s.blocksize i).take s.databuffer.length = dataOf F s.blocksize i :=
    List.take_of_length_le (by omega)
  rw [htake]
  change (DataMessage.new s.blocksize).decode ((dataOf F s.blocksize i ++ s.databuffer.drop _).take _) = _
  rw [List.take_left, dataOf, DataMessage.decode_dataBytes]
  exact if_pos hle

/-! ## Reports of success -/

/-- The objects that the constructors build, each with a fresh socket and a
    stream that may be bad and may reject any write. -/
inductive Constructed : TftpReceiver → Prop
  | unknown (fail : Bool) (accept : ℕ → Bool) (blocksize : ℕ) (timeoutSeconds : UInt8) :
      Constructed (new {} { fail := fail, accept := accept } blocksize timeoutSeconds)
  | known (fail : Bool) (accept : ℕ → Bool) (remote : Endpoint) (blocksize : ℕ)
      (timeoutSeconds : UInt8) :
      Constructed (newConnected {} { fail := fail, accept := accept } remote blocksize timeoutSeconds)
  | data1 (fail : Bool) (accept : ℕ → Bool) (remote : Endpoint) (data1 : DataMessage)
      (blocksize : ℕ) (timeoutSeconds : UInt8) :
      Constructed (newConnectedData1 {} { fail := fail, accept := accept } remote data1 blocksize
        timeoutSeconds)

/-- The runs of a receiver. -/
def lts : Lts TftpReceiver (Event Endpoint) := proactor.lts Constructed

/-- The completion callback is called with `ERR_NOERR`. -/
def ReportsNoerr (x : TftpReceiver × Event Endpoint × TftpReceiver) : Prop :=
  x.2.2.callbacks = x.1.callbacks ++ [.noerr]

/-- The handled event is the arrival of the next block, shorter than the
    blocksize, and all the blocks up to it have been written successfully. -/
def AcceptsLastBlock (x : TftpReceiver × Event Endpoint × TftpReceiver) : Prop :=
  ∃ i h n d, x.2.1 = .runReceive i ∧ x.1.io.received[i]? = some (h, .success, n) ∧
    (x.1.receivedMsg n).1 = true ∧ (x.1.receivedMsg n).2.mData = d ∧ d.length < x.1.blocksize ∧
    (x.1.receivedMsg n).2.mBlockNr.toNat = x.1.lastreceiveddatacount.toNat + 1 ∧
    x.2.2.lastreceiveddatacount.toNat = x.1.lastreceiveddatacount.toNat + 1 ∧
    x.2.2.output.writes.length = x.2.2.lastreceiveddatacount.toNat ∧
    x.2.2.output.writes.getLast? = some (d, true) ∧
    ∀ w ∈ x.2.2.output.writes, w.2 = true

/-- The handled event is a last block that the stream is good for but fails to
    write, or the expiry of the read timer after the last retransmission, and
    the operation has not ended before. -/
def Misreports (s : TftpReceiver) : Event Endpoint → Prop
  | .runReceive i => s.operationEnded = false ∧ ∃ h err n, s.io.received[i]? = some (h, err, n) ∧
      s.blockBranch err n = .expectedBlock ∧ n ≠ s.blocksize + controlBytes ∧
      s.output.fail = false ∧ s.output.accept s.output.writes.length = false
  | .runTimer i => s.operationEnded = false ∧ s.io.waited[i]? = some .success ∧
      retransmissionsUntilTimeout < s.timeoutcount + 1
  | _ => False

/-- The next block arrives, is the last one, and is written. -/
def CompletesTransfer (s : TftpReceiver) : Event Endpoint → Prop
  | .runReceive i => s.operationEnded = false ∧ ∃ h err n, s.io.received[i]? = some (h, err, n) ∧
      s.blockBranch err n = .expectedBlock ∧ n ≠ s.blocksize + controlBytes ∧
      s.output.fail = false ∧ s.output.accept s.output.writes.length = true
  | _ => False

variable {s : TftpReceiver}

theorem endOperation_reports (err : ErrorCode) {cs : List TftpUserFacingErrorCode}
    (hc : s.callbacks = cs) :
    (s.endOperation err).callbacks = cs ++ [.noerr] ↔ s.operationEnded = false ∧ err = .success := by
  rw [endOperation, endOperationWith_callbacks, hc]
  cases s.operationEnded <;> by_cases h : err = .success <;> simp [h]

theorem endOperationWith_reports {code : TftpUserFacingErrorCode} (h : code ≠ .noerr)
    (s : TftpReceiver) : (s.endOperationWith code).callbacks ≠ s.callbacks ++ [.noerr] := by
  rw [endOperationWith_callbacks]
  cases s.operationEnded <;> simp [h]

theorem sendNextAck_false_callbacks (s : TftpReceiver) :
    (s.sendNextAck false).callbacks = s.callbacks := by
  rw [sendNextAck_false]
  split_ifs <;> rfl

/-- The start of a receiver does not throw. -/
theorem start_threw (s : TftpReceiver) : s.start.threw = s.threw := by
  have hfirst : (if s.output.fail then s.outputFileError else s).threw = s.threw := by
    split_ifs
    · unfold outputFileError endOperationWith
      split_ifs <;> rfl
    · rfl
  have hack : ∀ t : TftpReceiver, (t.sendNextAck false).threw = t.threw := by
    intro t
    rw [sendNextAck_false]
    split_ifs <;> rfl
  unfold start
  dsimp only
  split_ifs at hfirst ⊢
  · exact (hack _).trans hfirst
  · exact hfirst
  · exact hack s
  · rfl

/-- A receiver reports at its start that its file cannot be opened, and nothing else. -/
theorem start_callbacks {s : TftpReceiver} (he : s.operationEnded = false) :
    s.start.callbacks = s.callbacks ++ (if s.output.fail then [.outputFileOpen] else []) := by
  have hrest : ∀ t : TftpReceiver,
      (if t.isConnected then t.sendNextAck false else t.startNextReceive).callbacks = t.callbacks := by
    intro t
    split_ifs
    · exact sendNextAck_false_callbacks t
    · rfl
  unfold start
  dsimp only
  rw [hrest]
  split_ifs
  · rw [outputFileError, endOperationWith, if_neg (by rw [sendErrorMsg, he]; exact Bool.false_ne_true)]
    rfl
  · rw [List.append_nil]

theorem writeBlock_callbacks (d : Bytes) (s : TftpReceiver) : (s.writeBlock d).callbacks =
    s.callbacks ++ (if s.output.fail ∧ s.operationEnded = false then [.outputFileOpen] else []) := by
  unfold writeBlock outputFileError
  split_ifs with hf h h
  · simp [endOperationWith_callbacks, h.2]
  · have : s.operationEnded = true := by simpa [hf] using h
    simp [endOperationWith_callbacks, this]
  · exact absurd h.1 hf
  · simp

/-- A block makes the receiver report success if it is short and finds the
    stream good; whether it can be written does not matter. -/
theorem acceptBlock_reports (hs : s.WellFormed) (n : ℕ) :
    (s.acceptBlock n).callbacks = s.callbacks ++ [.noerr] ↔
      s.operationEnded = false ∧ n ≠ s.blocksize + controlBytes ∧ s.output.fail = false := by
  unfold acceptBlock
  have hcb := writeBlock_callbacks (s.receivedMsg n).2.mData s.countBlock
  rw [countBlock_callbacks, countBlock_output, countBlock_operationEnded] at hcb
  by_cases hn : n = s.blocksize + controlBytes
  · rw [decide_eq_false (not_not.2 hn), sendNextAck_false_callbacks, hcb]
    refine iff_of_false ?_ fun h => h.2.1 hn
    split_ifs <;> simp
  · rw [decide_eq_true hn, sendNextAck_true _ (by simp)]
    cases hf : s.output.fail with
    | true =>
      -- the failed stream has ended the operation, and the socket is closed
      have hw : (s.countBlock.writeBlock (s.receivedMsg n).2.mData).io.isOpen = false := by
        have hc : s.countBlock.WellFormed := hs.countBlock
        have := hc.outputFileError.isOpen
        rw [outputFileError_ended] at this
        simpa [writeBlock, hf] using this
      rw [if_neg (by simp [hw])]
      refine iff_of_false ?_ fun h => by simp at h
      change (s.countBlock.writeBlock (s.receivedMsg n).2.mData).callbacks ≠ _
      rw [hcb]
      split_ifs <;> simp
    | false =>
      have hw : s.countBlock.writeBlock (s.receivedMsg n).2.mData =
          { s.countBlock with output := s.output.write (s.receivedMsg n).2.mData } := by
        simp [writeBlock, hf]
      rw [hw]
      simp only [countBlock_io, hs.isOpen]
      cases he : s.operationEnded with
      | true => simp
      | false =>
        simp only [Bool.not_false, if_true]
        refine (endOperation_reports .success ?_).trans ?_
        · exact countBlock_callbacks s
        · simp [he, hn]

theorem blockBranch_fatal {err : ErrorCode} {n : ℕ} (h : s.blockBranch err n = .fatal) :
    err ≠ .success := by
  unfold blockBranch at h
  split_ifs at h with h1
  exact h1

theorem checkReceivedBlock_reports (hs : s.WellFormed) (err : ErrorCode) (n : ℕ) :
    (s.checkReceivedBlock err n).callbacks = s.callbacks ++ [.noerr] ↔
      s.operationEnded = false ∧ s.blockBranch err n = .expectedBlock ∧
        n ≠ s.blocksize + controlBytes ∧ s.output.fail = false := by
  have hio : blockBranch err n { s with io := s.io.timerCancel } = s.blockBranch err n := rfl
  have hwf : WellFormed { s with io := s.io.timerCancel } := hs.io _ rfl
  rw [checkReceivedBlock]
  simp only [hio]
  cases hb : s.blockBranch err n with
  | foreignHost => simp [sendNextAck_false_callbacks]
  | tooLarge => exact iff_of_false (endOperationWith_reports (by simp) _) (by simp)
  | wrongOpcode => exact iff_of_false (endOperationWith_reports (by simp) _) (by simp)
  | olderBlock => simp [sendNextAck_false_callbacks]
  | expectedBlock => exact (acceptBlock_reports hwf n).trans (by simp)
  | futureBlock => exact iff_of_false (endOperationWith_reports (by simp) _) (by simp)
  | aborted => simp [sendNextAck_false_callbacks]
  | fatal =>
    refine iff_of_false (fun h => ?_) (by simp)
    exact blockBranch_fatal hb ((endOperation_reports err rfl).1 h).2

theorem handleReadTimeout_reports (hs : s.WellFormed) (err : ErrorCode) :
    (s.handleReadTimeout err).callbacks = s.callbacks ++ [.noerr] ↔
      s.operationEnded = false ∧ err = .success ∧
        retransmissionsUntilTimeout < s.timeoutcount + 1 := by
  unfold handleReadTimeout Io.cancel
  rw [hs.isOpen]
  by_cases ha : err = .operationAborted
  · simp [ha]
  · cases he : s.operationEnded with
    | true => simp [ha]
    | false =>
      simp only [ha, if_false, Bool.not_false, if_true]
      split_ifs with hc
      · simp [UInt16.not_lt.2 hc]
      · exact (endOperation_reports err rfl).trans (by simp [UInt16.not_le.1 hc])

/-- The transitions that report success. -/
theorem reportsNoerr_iff (hs : s.WellFormed) {e : Event Endpoint} {s' : TftpReceiver}
    (h : proactor.step s e = some s') :
    ReportsNoerr (s, e, s') ↔ Misreports s e ∨ CompletesTransfer s e := by
  obtain ⟨-, hstep⟩ := Proactor.step_cases h
  cases hstep with
  | start _ =>
    refine iff_of_false ?_ (by simp [Misreports, CompletesTransfer])
    change (TftpReceiver.start _).callbacks ≠ s.callbacks ++ [.noerr]
    have hout : ∀ t : TftpReceiver, t.outputFileError.callbacks ≠ t.callbacks ++ [.noerr] :=
      fun t => endOperationWith_reports (by simp) _
    unfold start
    dsimp only
    split_ifs
    · rw [sendNextAck_false_callbacks]; exact hout _
    · exact hout _
    · rw [sendNextAck_false_callbacks]; simp [proactor]
    · simp [startNextReceive, proactor]
  | deliver _ =>
    exact iff_of_false (by simp [ReportsNoerr, proactor, store]) (by simp [Misreports, CompletesTransfer])
  | receiveFails _ _ =>
    exact iff_of_false (by simp [ReportsNoerr, proactor]) (by simp [Misreports, CompletesTransfer])
  | sendCompletes _ =>
    exact iff_of_false (by simp [ReportsNoerr, proactor]) (by simp [Misreports, CompletesTransfer])
  | expire _ =>
    exact iff_of_false (by simp [ReportsNoerr, proactor]) (by simp [Misreports, CompletesTransfer])
  | @runReceive i r err n hx =>
    have hwf := hs.io { s.io with received := s.io.received.eraseIdx i } rfl
    have hx' : s.io.received[i]? = some (r, err, n) := hx
    have hrep := checkReceivedBlock_reports hwf err n
    rw [← onReceive_eq r] at hrep
    refine hrep.trans ?_
    simp only [Misreports, CompletesTransfer, hx', Option.some.injEq, Prod.mk.injEq]
    constructor
    · rintro ⟨he, hb, hn, hf⟩
      cases ha : s.output.accept s.output.writes.length with
      | false => exact .inl ⟨he, r, err, n, ⟨rfl, rfl, rfl⟩, hb, hn, hf, rfl⟩
      | true => exact .inr ⟨he, r, err, n, ⟨rfl, rfl, rfl⟩, hb, hn, hf, rfl⟩
    · rintro (⟨he, _, _, _, ⟨rfl, rfl, rfl⟩, h⟩ | ⟨he, _, _, _, ⟨rfl, rfl, rfl⟩, h⟩)
      · exact ⟨he, h.1, h.2.1, h.2.2.1⟩
      · exact ⟨he, h.1, h.2.1, h.2.2.1⟩
  | @runSend i err n _ =>
    refine iff_of_false (fun h => ?_) (by simp [Misreports, CompletesTransfer])
    simp only [ReportsNoerr, proactor, handleACKsent, startNextReceive] at h
    split_ifs at h <;> simp at h
  | @runTimer i err hx =>
    have hwf := hs.io { s.io with waited := s.io.waited.eraseIdx i } rfl
    have hx' : s.io.waited[i]? = some err := hx
    refine (handleReadTimeout_reports hwf err).trans ?_
    simp [Misreports, CompletesTransfer, hx']

/-! ## Writes -/

/-- The writes are those of the accepted blocks, and while the stream is good
    all of them have succeeded. -/
structure WriteInv (s : TftpReceiver) : Prop where
  count : s.output.writes.length = s.lastreceiveddatacount.toNat
  ok : s.output.fail = false → ∀ w ∈ s.output.writes, w.2 = true

theorem blockBranch_expectedBlock {err : ErrorCode} {n : ℕ}
    (h : s.blockBranch err n = .expectedBlock) :
    err = .success ∧ n ≤ s.blocksize + controlBytes ∧ (s.receivedMsg n).1 = true ∧
      (s.receivedMsg n).2.mBlockNr.toNat = s.lastreceiveddatacount.toNat + 1 ∧
      (s.isConnected = true → s.mLastReceivedSenderEndpoint = s.mSenderEndpoint) := by
  unfold blockBranch at h
  split_ifs at h with h1 h2 h3 h4 h5 h6
  exact ⟨h1, not_lt.1 h3, by simpa using h4, h6, fun hc => by simpa [hc] using h2⟩

theorem blockBranch_futureBlock {err : ErrorCode} {n : ℕ}
    (h : s.blockBranch err n = .futureBlock) :
    err = .success ∧ (s.receivedMsg n).1 = true ∧
      s.lastreceiveddatacount.toNat + 1 < (s.receivedMsg n).2.mBlockNr.toNat := by
  unfold blockBranch at h
  split_ifs at h with h1 h2 h3 h4 h5 h6
  exact ⟨h1, by simpa using h4, by omega⟩

/-- The count of blocks does not overflow. -/
theorem toNat_add_one {n : ℕ} {err : ErrorCode} (h : s.blockBranch err n = .expectedBlock) :
    (s.lastreceiveddatacount + 1).toNat = s.lastreceiveddatacount.toNat + 1 := by
  have h1 := (blockBranch_expectedBlock h).2.2.2.1
  have h2 := (s.receivedMsg n).2.mBlockNr.toNat_lt
  rw [UInt16.toNat_add, UInt16.toNat_one, Nat.mod_eq_of_lt (by omega)]

namespace WriteInv

theorem congr (hs : s.WriteInv) {t : TftpReceiver} (ho : t.output = s.output)
    (hc : t.lastreceiveddatacount = s.lastreceiveddatacount) : t.WriteInv :=
  ⟨by rw [ho, hc]; exact hs.count, by rw [ho]; exact hs.ok⟩

theorem init (h : Constructed s) : s.WriteInv := by
  cases h with
  | unknown => exact ⟨rfl, by simp [new]⟩
  | known => exact ⟨rfl, by simp [newConnected, new, onConnect]⟩
  | data1 fail accept =>
    unfold newConnectedData1
    dsimp only
    split_ifs with h
    · exact ⟨rfl, by simp [newConnected, new, onConnect]⟩
    · have hf : fail = false := Bool.eq_false_iff.2 h
      refine ⟨rfl, ?_⟩
      simp [newConnected, new, onConnect, OStream.write, hf]

theorem checkReceivedBlock (hs : s.WriteInv) (err : ErrorCode) (n : ℕ) :
    (s.checkReceivedBlock err n).WriteInv := by
  have hio : blockBranch err n { s with io := s.io.timerCancel } = s.blockBranch err n := rfl
  rw [TftpReceiver.checkReceivedBlock]
  simp only [hio]
  cases hb : s.blockBranch err n with
  | foreignHost => exact hs.congr (by simp) (by simp [sendErrorMsg])
  | expectedBlock =>
    refine ⟨?_, fun hf w hw => ?_⟩
    · rw [acceptBlock_output, acceptBlock_lastreceiveddatacount, toNat_add_one hb,
        OStream.length_writes_write, hs.count]
    · rw [acceptBlock_output] at hf hw
      rw [OStream.write_fail, Bool.or_eq_false_iff] at hf
      simp only [OStream.write, List.mem_append, List.mem_singleton] at hw
      rcases hw with hw | rfl
      · exact hs.ok hf.1 w hw
      · simp only [Bool.and_eq_true, Bool.not_eq_true']
        exact ⟨hf.1, by simpa using hf.2⟩
  | olderBlock => exact hs.congr (by simp) (by simp)
  | aborted => exact hs.congr (by simp) (by simp)
  | tooLarge => exact hs.congr (by simp) (by simp [sendErrorMsg])
  | wrongOpcode => exact hs.congr (by simp) (by simp [sendErrorMsg])
  | futureBlock => exact hs.congr (by simp) (by simp [sendErrorMsg])
  | fatal => exact hs.congr (by simp [endOperation]) (by simp [endOperation])

theorem handleReadTimeout (hs : s.WriteInv) (err : ErrorCode) : (s.handleReadTimeout err).WriteInv := by
  unfold TftpReceiver.handleReadTimeout
  split_ifs
  · exact hs
  · unfold Io.cancel
    split_ifs
    · dsimp only
      split_ifs
      · exact hs.congr rfl rfl
      · exact hs.congr (by simp [endOperation]) (by simp [endOperation, sendErrorMsg])
    · exact hs.congr rfl rfl

theorem start (hs : s.WriteInv) : s.start.WriteInv := by
  unfold TftpReceiver.start
  dsimp only
  split_ifs <;> exact hs.congr (by simp [startNextReceive]) (by simp [startNextReceive])

theorem handleACKsent (hs : s.WriteInv) (err : ErrorCode) (n : ℕ) :
    (s.handleACKsent err n).WriteInv := by
  unfold TftpReceiver.handleACKsent
  split_ifs <;> exact hs.congr rfl rfl

theorem step (hs : s.WriteInv) {e : Event Endpoint} {s' : TftpReceiver}
    (h : proactor.step s e = some s') : s'.WriteInv := by
  have hio : ∀ io, WriteInv { s with io := io } := fun _ => hs.congr rfl rfl
  obtain ⟨-, hstep⟩ := Proactor.step_cases h
  cases hstep with
  | start _ => exact (hio { s.io with started := true }).start
  | deliver _ => exact hs.congr rfl rfl
  | receiveFails _ _ => exact hio _
  | sendCompletes _ => exact hio _
  | expire _ => exact hio _
  | @runReceive i r err n _ =>
    have ht := (hio { s.io with received := s.io.received.eraseIdx i }).checkReceivedBlock err n
    rw [← onReceive_eq r] at ht
    exact ht
  | @runSend i err n _ => exact (hio { s.io with sent := s.io.sent.eraseIdx i }).handleACKsent err n
  | @runTimer i err _ =>
    exact (hio { s.io with waited := s.io.waited.eraseIdx i }).handleReadTimeout err

theorem reach (h : lts.Reach s) : s.WriteInv :=
  h.inv WriteInv (fun _ h => init h) fun _ _ _ _ hs h => hs.step h

end WriteInv

theorem Constructed.wellFormed (h : Constructed s) : s.WellFormed := by
  cases h with
  | unknown => exact ⟨rfl, List.length_replicate⟩
  | known => exact ⟨rfl, List.length_replicate⟩
  | data1 =>
    unfold newConnectedData1
    dsimp only
    split_ifs <;> exact ⟨rfl, List.length_replicate⟩

theorem WellFormed.reach (h : lts.Reach s) : s.WellFormed :=
  h.inv WellFormed (fun _ h => Constructed.wellFormed h) fun _ _ _ _ hs h => hs.step h

/-! ## When success is reported -/

/-- The payload of an accepted block that is not full is short. -/
theorem receivedMsg_short (hs : s.WellFormed) {n : ℕ} (hn : n ≤ s.blocksize + controlBytes)
    (hne : n ≠ s.blocksize + controlBytes) (hm : (s.receivedMsg n).1 = true) :
    (s.receivedMsg n).2.mData.length < s.blocksize := by
  obtain ⟨h1, -, h2⟩ := DataMessage.decode_true hm
  have hl : (s.databuffer.take n).length = n := by
    rw [List.length_take, hs.databuffer]
    exact min_eq_left hn
  rw [hl] at h1
  simp only [controlBytes] at hn hne
  rw [receivedMsg, h2, List.length_drop, hl]
  omega

/-- An accepted block has been counted and written. -/
theorem checkReceivedBlock_expectedBlock {err : ErrorCode} {n : ℕ}
    (hb : s.blockBranch err n = .expectedBlock) :
    (s.checkReceivedBlock err n).output = s.output.write (s.receivedMsg n).2.mData ∧
      (s.checkReceivedBlock err n).lastreceiveddatacount = s.lastreceiveddatacount + 1 := by
  have hio : blockBranch err n { s with io := s.io.timerCancel } = .expectedBlock := hb
  rw [checkReceivedBlock]
  simp only [hio]
  exact ⟨acceptBlock_output _ _, acceptBlock_lastreceiveddatacount _ _⟩

/-- A short block that is written completes a transfer whose writes have all
    succeeded. -/
theorem CompletesTransfer.acceptsLastBlock (hwf : s.WellFormed) (hs : s.WriteInv)
    {e : Event Endpoint} {s' : TftpReceiver} (h : proactor.step s e = some s')
    (hc : CompletesTransfer s e) : AcceptsLastBlock (s, e, s') := by
  have hs' := hs.step h
  obtain ⟨-, hstep⟩ := Proactor.step_cases h
  cases hstep with
  | @runReceive i r err n hx =>
    obtain ⟨he, r', err', n', hx', hb, hn, hf, ha⟩ := hc
    cases hx.symm.trans hx'
    obtain ⟨rfl, hle, hm, hnr, -⟩ := blockBranch_expectedBlock hb
    have hout := @checkReceivedBlock_expectedBlock
      { s with io := { s.io with received := s.io.received.eraseIdx i } } _ _ hb
    rw [← onReceive_eq r] at hout
    have hw : (s.output.write (s.receivedMsg n).2.mData).fail = false ∧
        (s.output.write (s.receivedMsg n).2.mData).writes.getLast? =
          some ((s.receivedMsg n).2.mData, true) := by
      simp [OStream.write, hf, ha]
    refine ⟨i, r, n, (s.receivedMsg n).2.mData, rfl, hx, hm, rfl,
      receivedMsg_short hwf hle hn hm, hnr, ?_, hs'.count, ?_, hs'.ok ?_⟩
    · exact (congrArg UInt16.toNat hout.2).trans (toNat_add_one hb)
    · exact (congrArg (fun o => o.writes.getLast?) hout.1).trans hw.2
    · exact (congrArg OStream.fail hout.1).trans hw.1
  | _ => exact hc.elim

/-- A misreported end does not complete such a transfer. -/
theorem Misreports.not_acceptsLastBlock {e : Event Endpoint} {s' : TftpReceiver}
    (h : proactor.step s e = some s') (hm : Misreports s e) : ¬ AcceptsLastBlock (s, e, s') := by
  rintro ⟨i, r, n, d, rfl, hx, -, rfl, -, -, -, -, hlast, -⟩
  obtain ⟨he, r', err, n, hx', hb, hn, hf, ha⟩ := hm
  cases hx.symm.trans hx'
  obtain ⟨-, hstep⟩ := Proactor.step_cases h
  cases hstep with
  | @runReceive i r err n hx'' =>
    cases hx.symm.trans hx''
    have hout := @checkReceivedBlock_expectedBlock
      { s with io := { s.io with received := s.io.received.eraseIdx i } } _ _ hb
    rw [← onReceive_eq r] at hout
    have hw : (s.output.write (s.receivedMsg n).2.mData).writes.getLast? =
        some ((s.receivedMsg n).2.mData, false) := by
      simp [OStream.write, ha]
    have := hw.symm.trans ((congrArg (fun o => o.writes.getLast?) hout.1).symm.trans hlast)
    simp at this

/-- **When a receiver reports success truthfully.**  In a run of a receiver,
    every report of success comes with a last block, shorter than the blocksize,
    and with all blocks written, exactly if no step of the run, before the
    operation has ended, handles a last block that the stream fails to write, or
    the expiry of the read timer after the last retransmission. -/
theorem receiver_noerr_iff {s₀ : TftpReceiver} (h : Constructed s₀) (es : List (Event Endpoint)) :
    (∀ x ∈ lts.trace s₀ es, ReportsNoerr x → AcceptsLastBlock x) ↔
      ∀ x ∈ lts.trace s₀ es, ¬ Misreports x.1 x.2.1 := by
  refine forall₂_congr fun x hx => ?_
  obtain ⟨hreach, hstep⟩ := Lts.mem_trace (.init h) hx
  have hwf := WellFormed.reach hreach
  constructor
  · intro h hm
    exact hm.not_acceptsLastBlock hstep (h ((reportsNoerr_iff hwf hstep).2 (.inl hm)))
  · intro h hr
    rcases (reportsNoerr_iff hwf hstep).1 hr with hm | hc
    · exact absurd hm h
    · exact hc.acceptsLastBlock hwf (WriteInv.reach hreach) hstep

/-- A block of one byte from a connected peer. -/
theorem receiver_noerr_one_byte :
    (∀ x ∈ lts.trace (newConnected {} {} ⟨1, 2⟩ 512 2) [.start, .sendCompletes .success, .runSend 0,
        .deliver ⟨1, 2⟩ [0, 3, 0, 1, 7], .runReceive 0], ReportsNoerr x → AcceptsLastBlock x) ↔
    ∀ x ∈ lts.trace (newConnected {} {} ⟨1, 2⟩ 512 2) [.start, .sendCompletes .success, .runSend 0,
        .deliver ⟨1, 2⟩ [0, 3, 0, 1, 7], .runReceive 0], ¬ Misreports x.1 x.2.1 :=
  receiver_noerr_iff (.known false (fun _ => true) ⟨1, 2⟩ 512 2) _

/-- The same block on a full device: the write fails, and the receiver reports
    success. -/
theorem receiver_noerr_after_failed_write :
    ¬ ∀ s₀ es, Constructed s₀ → ∀ x ∈ lts.trace s₀ es, ReportsNoerr x → AcceptsLastBlock x := by
  intro h
  obtain ⟨tr, htr⟩ : ∃ tr, tr = lts.trace (newConnected {} { accept := fun _ => false } ⟨1, 2⟩ 8 2)
    [.start, .sendCompletes .success, .runSend 0, .deliver ⟨1, 2⟩ [0, 3, 0, 1, 7], .runReceive 0] := ⟨_, rfl⟩
  have hlast : (tr.getLast?.map fun x => (x.1.callbacks, x.2.2.callbacks, x.2.2.output.writes)) =
      some ([], [.noerr], [([7], false)]) := by rw [htr]; rfl
  obtain ⟨x, hx, hv⟩ := Option.map_eq_some_iff.1 hlast
  simp only [Prod.mk.injEq] at hv
  obtain ⟨h1, h2, h3⟩ := hv
  rw [htr] at hx
  obtain ⟨i, r, n, d, -, -, -, -, -, -, -, -, -, hok⟩ := h _ _
    (.known false (fun _ => false) ⟨1, 2⟩ 8 2) x (List.mem_of_getLast? hx)
    (by rw [ReportsNoerr, h1, h2]; rfl)
  rw [h3] at hok
  exact absurd (hok ([7], false) (by simp)) (by simp)

end TftpReceiver

end Ttftp

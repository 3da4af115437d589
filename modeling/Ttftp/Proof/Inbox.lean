/-
  Sender and receiver do one thing at a time, so that each handles the datagrams one by
  one, in the order of their arrival, as they have arrived (`Tftpsender.inbox`,
  `TftpReceiver.inbox`): cut off at the size of the buffer that the receive was given.
-/
import Ttftp.Lib.Inbox
import Ttftp.Proof.Sender
import Ttftp.Proof.Receiver

namespace Ttftp

open Bytes Asio

/-! ## The sender -/

namespace Tftpsender

/-- The first `n` bytes of the datagram `d` from `src` are in the ACK buffer. -/
structure Holds (src : Endpoint) (d : Bytes) (n : ℕ) (s : Tftpsender) : Prop where
  source : s.mLastReceivedReceiverEndpoint = src
  bytes : s.ackbuffer.take n = d.take (min s.ackbuffer.length s.blocksize)
  length : n = min d.length (min s.ackbuffer.length s.blocksize)

section
variable (s : Tftpsender)

theorem sendErrorMsg_leaves (c : UInt16) (m : Bytes) (e : Endpoint) : s.io.Leaves 0 (s.sendErrorMsg c m e).io :=
  .asyncSendDetached _ _ _

theorem endOperationWith_leaves (code : TftpUserFacingErrorCode) :
    s.io.Leaves 0 (s.endOperationWith code).io := by
  unfold endOperationWith
  split_ifs
  · exact .refl _
  · exact .close _

theorem readNextBlock_leaves : s.io.Leaves 0 s.readNextBlock.io := by
  unfold readNextBlock
  dsimp only
  split_ifs
  · exact (endOperationWith_leaves _ _).after (sendErrorMsg_leaves _ _ _ _)
  · exact .refl _

theorem sendReadBlock_leaves : s.io.Leaves 1 s.sendReadBlock.io := by
  unfold sendReadBlock
  dsimp only
  split
  · exact .refl _
  · exact .asyncSendTo _ _ _

theorem sendNextBlock_leaves : s.io.Leaves 1 s.sendNextBlock.io :=
  (sendReadBlock_leaves _).after (readNextBlock_leaves s)

theorem handleBlockSent_leaves (err : ErrorCode) (n : ℕ) : s.io.Leaves 1 (s.handleBlockSent err n).io := by
  unfold handleBlockSent
  split_ifs
  · exact (Io.Leaves.asyncReceiveFrom _ _).after (.asyncWait _ _)
  · exact .refl _

theorem start_leaves : s.io.Leaves 1 s.start.io := by
  unfold start
  split_ifs
  · exact ((endOperationWith_leaves _ _).after (sendErrorMsg_leaves s _ _ _)).mono zero_le_one
  · exact sendNextBlock_leaves s
  · exact .asyncReceiveFrom _ _

theorem acceptAck_leaves : s.io.Leaves 1 s.acceptAck.io := by
  have hcount : s.io.Leaves 0 s.countAck.io := by rw [countAck_io]; exact .refl _
  unfold acceptAck
  split_ifs
  · exact ((endOperationWith_leaves _ _).after hcount).mono zero_le_one
  · exact (sendNextBlock_leaves _).after hcount

theorem checkAckForLastBlock_leaves (err : ErrorCode) (n : ℕ) :
    s.io.Leaves 1 (s.checkAckForLastBlock err n).io := by
  have h : s.io.Leaves 0 s.io.timerCancel := .timerCancel _
  unfold checkAckForLastBlock
  dsimp only
  split
  · exact ((((endOperationWith_leaves _ _).after (sendErrorMsg_leaves _ _ _ _)).after h)).mono zero_le_one
  · exact (sendNextBlock_leaves _).after h
  · exact (acceptAck_leaves _).after h
  · exact ((((endOperationWith_leaves _ _).after (sendErrorMsg_leaves _ _ _ _)).after h)).mono zero_le_one
  · exact ((sendNextBlock_leaves _).after (sendErrorMsg_leaves _ _ _ _)).after h
  · exact (sendNextBlock_leaves _).after h
  · exact ((endOperationWith_leaves _ _).after h).mono zero_le_one

theorem handleReadTimeout_leaves (err : ErrorCode) : s.io.Leaves 0 (s.handleReadTimeout err).io := by
  unfold handleReadTimeout Io.cancel
  split_ifs
  · exact .refl _
  · dsimp only
    split_ifs
    · exact .abortAll _
    · exact ((endOperationWith_leaves _ _).after (sendErrorMsg_leaves _ _ _ _)).after (.abortAll _)
  · exact .refl _

end

theorem Holds.endOperationWith {src : Endpoint} {d : Bytes} {n : ℕ} {s : Tftpsender} (h : s.Holds src d n)
    (code : TftpUserFacingErrorCode) : (s.endOperationWith code).Holds src d n := by
  unfold Tftpsender.endOperationWith
  split_ifs
  · exact h
  · exact ⟨h.source, h.bytes, h.length⟩

/-- The timer does not touch the buffer. -/
theorem Holds.handleReadTimeout {src : Endpoint} {d : Bytes} {n : ℕ} {s : Tftpsender} (h : s.Holds src d n)
    (err : ErrorCode) : (s.handleReadTimeout err).Holds src d n := by
  unfold Tftpsender.handleReadTimeout Io.cancel
  split_ifs
  · exact h
  · dsimp only
    split_ifs
    · exact ⟨h.source, h.bytes, h.length⟩
    · refine endOperationWith ?_ _
      exact ⟨h.source, h.bytes, h.length⟩
  · exact ⟨h.source, h.bytes, h.length⟩

theorem holds_store (src : Endpoint) (d : Bytes) (s : Tftpsender) :
    (s.store src (d.take (min s.ackbuffer.length s.blocksize))).Holds src d
      (min d.length (min s.ackbuffer.length s.blocksize)) := by
  obtain ⟨t, ht⟩ : ∃ t, t = d.take (min s.ackbuffer.length s.blocksize) := ⟨_, rfl⟩
  have hl : t.length = min d.length (min s.ackbuffer.length s.blocksize) := by
    rw [ht, List.length_take, min_comm]
  have hb : (t ++ s.ackbuffer.drop t.length).length = s.ackbuffer.length := by
    rw [List.length_append, List.length_drop]
    omega
  rw [← ht, ← hl]
  refine ⟨rfl, ?_, ?_⟩
  · change (t ++ s.ackbuffer.drop t.length).take t.length =
      d.take (min (t ++ s.ackbuffer.drop t.length).length s.blocksize)
    rw [List.take_left, hb, ht]
  · change t.length = min d.length (min (t ++ s.ackbuffer.drop t.length).length s.blocksize)
    rw [hb, hl]

theorem single : Single proactor Holds where
  io_setIo _ _ := rfl
  io_store _ _ _ := rfl
  capacity_setIo _ _ := rfl
  start s := start_leaves s
  receive h err n s := by
    cases h <;> exact checkAckForLastBlock_leaves s err n
  sent err n s := handleBlockSent_leaves s err n
  timer err s := handleReadTimeout_leaves s err
  holds_setIo _ _ _ _ _ h := ⟨h.source, h.bytes, h.length⟩
  holds_timer _ _ _ err _ h := h.handleReadTimeout err
  holds_store src d s := holds_store src d s

/-- A new sender has nothing to do. -/
theorem Constructed.idle {s₀ : Tftpsender} (h₀ : Constructed s₀) : (proactor.io s₀).tokens = 0 := by
  cases h₀ <;> rfl

/-- **What a sender handles** is what has arrived last, and it has nothing else to do. -/
theorem inbox {s₀ s : Tftpsender} (h₀ : Constructed s₀) {es : List (Event Endpoint)}
    (h : lts.run s₀ es = some s) : Inbox proactor Holds (lts.trace s₀ es) s :=
  single.inbox h₀.idle h

/-- The handler of a datagram runs, with the datagram in the ACK buffer. -/
theorem step_gets {s s' : Tftpsender} {tr : List (Tftpsender × Event Endpoint × Tftpsender)}
    (hi : Inbox proactor Holds tr s) {i : ℕ} {src : Endpoint} {d : Bytes} (hg : Gets proactor tr s i src d)
    (h : proactor.step s (.runReceive i) = some s') : ∃ io n, io.wire = s.io.wire ∧ io.isOpen = s.io.isOpen ∧
      Holds src d n { s with io := io } ∧ s' = checkAckForLastBlock .success n { s with io := io } := by
  obtain ⟨-, hcase⟩ := Proactor.step_cases h
  cases hcase with
  | @runReceive _ r err n hx =>
    obtain ⟨⟨r', n', hx'⟩, -⟩ := id hg
    cases hx.symm.trans hx'
    have hh := hi.holds_of_gets hg hx
    exact ⟨{ s.io with received := s.io.received.eraseIdx i }, n, rfl, rfl, ⟨hh.source, hh.bytes, hh.length⟩,
      onReceive_eq r .success n _⟩

end Tftpsender

/-! ## The receiver -/

namespace TftpReceiver

/-- The first `n` bytes of the datagram `d` from `src` are in the data buffer. -/
structure Holds (src : Endpoint) (d : Bytes) (n : ℕ) (s : TftpReceiver) : Prop where
  source : s.mLastReceivedSenderEndpoint = src
  bytes : s.databuffer.take n = d.take s.databuffer.length
  length : n = min d.length s.databuffer.length

theorem Holds.io {src : Endpoint} {d : Bytes} {n : ℕ} {s : TftpReceiver} (h : s.Holds src d n)
    (io : Io ReceiverHandler Endpoint) : Holds src d n { s with io := io } :=
  ⟨h.source, h.bytes, h.length⟩

section
variable (s : TftpReceiver)

theorem sendErrorMsg_leaves (c : UInt16) (m : Bytes) (e : Endpoint) : s.io.Leaves 0 (s.sendErrorMsg c m e).io :=
  .asyncSendDetached _ _ _

theorem endOperationWith_leaves (code : TftpUserFacingErrorCode) :
    s.io.Leaves 0 (s.endOperationWith code).io := by
  unfold endOperationWith
  split_ifs
  · exact .refl _
  · exact .close _

theorem startNextReceive_leaves : s.io.Leaves 1 s.startNextReceive.io :=
  (Io.Leaves.asyncReceiveFrom _ _).after (.asyncWait _ _)

theorem sendNextAck_leaves (l : Bool) : s.io.Leaves 1 (s.sendNextAck l).io := by
  unfold sendNextAck Io.sendTo
  dsimp only
  split_ifs
  · refine Io.Leaves.mono (k := 0) ?_ zero_le_one
    refine (endOperationWith_leaves _ _).after ?_
    exact .wire _ _
  · exact .refl _
  · exact .asyncSendTo _ _ _
  · exact startNextReceive_leaves _

theorem handleACKsent_leaves (err : ErrorCode) (n : ℕ) : s.io.Leaves 1 (s.handleACKsent err n).io := by
  unfold handleACKsent
  split_ifs
  · exact startNextReceive_leaves s
  · exact .refl _

theorem outputFileError_leaves : s.io.Leaves 0 s.outputFileError.io :=
  (endOperationWith_leaves _ _).after (sendErrorMsg_leaves s _ _ _)

theorem start_leaves : s.io.Leaves 1 s.start.io := by
  have h : s.io.Leaves 0 (if s.output.fail then s.outputFileError else s).io := by
    split_ifs
    · exact outputFileError_leaves s
    · exact .refl _
  unfold start
  dsimp only
  split_ifs at h ⊢
  · exact (sendNextAck_leaves _ _).after h
  · exact (startNextReceive_leaves _).after h
  · exact sendNextAck_leaves _ _
  · exact startNextReceive_leaves _

theorem acceptBlock_leaves (n : ℕ) : s.io.Leaves 1 (s.acceptBlock n).io := by
  have hwrite : s.io.Leaves 0 (s.countBlock.writeBlock (s.receivedMsg n).2.mData).io := by
    rw [← countBlock_io s]
    unfold writeBlock
    split_ifs
    · exact outputFileError_leaves _
    · exact .refl _
  exact (sendNextAck_leaves _ _).after hwrite

theorem checkReceivedBlock_leaves (err : ErrorCode) (n : ℕ) :
    s.io.Leaves 1 (s.checkReceivedBlock err n).io := by
  have h : s.io.Leaves 0 s.io.timerCancel := .timerCancel _
  have hfail : ∀ (c : UInt16) (m : Bytes) (e : Endpoint) (code : TftpUserFacingErrorCode),
      s.io.Leaves 1 ((({ s with io := s.io.timerCancel } : TftpReceiver).sendErrorMsg c m e).endOperationWith code).io :=
    fun c m e code => (((endOperationWith_leaves _ code).after (sendErrorMsg_leaves _ c m e)).after h).mono zero_le_one
  unfold checkReceivedBlock
  dsimp only
  split
  · exact ((sendNextAck_leaves _ _).after (sendErrorMsg_leaves _ _ _ _)).after h
  · exact hfail _ _ _ _
  · exact hfail _ _ _ _
  · exact (sendNextAck_leaves _ _).after h
  · exact (acceptBlock_leaves _ _).after h
  · exact hfail _ _ _ _
  · exact (sendNextAck_leaves _ _).after h
  · exact ((endOperationWith_leaves _ _).after h).mono zero_le_one

theorem handleReadTimeout_leaves (err : ErrorCode) : s.io.Leaves 0 (s.handleReadTimeout err).io := by
  unfold handleReadTimeout Io.cancel
  split_ifs
  · exact .refl _
  · dsimp only
    split_ifs
    · exact .abortAll _
    · exact ((endOperationWith_leaves _ _).after (sendErrorMsg_leaves _ _ _ _)).after (.abortAll _)
  · exact .refl _

end

theorem Holds.endOperationWith {src : Endpoint} {d : Bytes} {n : ℕ} {s : TftpReceiver} (h : s.Holds src d n)
    (code : TftpUserFacingErrorCode) : (s.endOperationWith code).Holds src d n := by
  unfold TftpReceiver.endOperationWith
  split_ifs
  · exact h
  · exact ⟨h.source, h.bytes, h.length⟩

/-- The timer does not touch the buffer. -/
theorem Holds.handleReadTimeout {src : Endpoint} {d : Bytes} {n : ℕ} {s : TftpReceiver} (h : s.Holds src d n)
    (err : ErrorCode) : (s.handleReadTimeout err).Holds src d n := by
  unfold TftpReceiver.handleReadTimeout Io.cancel
  split_ifs
  · exact h
  · dsimp only
    split_ifs
    · exact ⟨h.source, h.bytes, h.length⟩
    · refine endOperationWith ?_ _
      exact ⟨h.source, h.bytes, h.length⟩
  · exact ⟨h.source, h.bytes, h.length⟩

theorem holds_store (src : Endpoint) (d : Bytes) (s : TftpReceiver) :
    (s.store src (d.take s.databuffer.length)).Holds src d (min d.length s.databuffer.length) := by
  obtain ⟨t, ht⟩ : ∃ t, t = d.take s.databuffer.length := ⟨_, rfl⟩
  have hl : t.length = min d.length s.databuffer.length := by rw [ht, List.length_take, min_comm]
  have hb : (t ++ s.databuffer.drop t.length).length = s.databuffer.length := by
    rw [List.length_append, List.length_drop]
    omega
  rw [← ht, ← hl]
  refine ⟨rfl, ?_, ?_⟩
  · change (t ++ s.databuffer.drop t.length).take t.length = d.take (t ++ s.databuffer.drop t.length).length
    rw [List.take_left, hb, ht]
  · change t.length = min d.length (t ++ s.databuffer.drop t.length).length
    rw [hb, hl]

/-- What is held is decoded. -/
theorem Holds.receivedMsg {src : Endpoint} {d : Bytes} {n : ℕ} {s : TftpReceiver} (h : s.Holds src d n)
    (hs : s.WellFormed) : s.receivedMsg n = (DataMessage.new s.blocksize).decode (d.take (s.blocksize + 4)) := by
  rw [TftpReceiver.receivedMsg, h.bytes, hs.databuffer]

theorem single : Single proactor Holds where
  io_setIo _ _ := rfl
  io_store _ _ _ := rfl
  capacity_setIo _ _ := rfl
  start s := start_leaves s
  receive h err n s := by
    change s.io.Leaves 1 (onReceive h err n s).io
    rw [onReceive_eq]
    exact checkReceivedBlock_leaves s err n
  sent err n s := handleACKsent_leaves s err n
  timer err s := handleReadTimeout_leaves s err
  holds_setIo _ _ _ _ io h := h.io io
  holds_timer _ _ _ err _ h := h.handleReadTimeout err
  holds_store src d s := holds_store src d s

/-- A new receiver has nothing to do. -/
theorem Constructed.idle {s₀ : TftpReceiver} (h₀ : Constructed s₀) : (proactor.io s₀).tokens = 0 := by
  cases h₀ with
  | unknown => rfl
  | known => rfl
  | data1 =>
    unfold newConnectedData1
    dsimp only
    split_ifs <;> rfl

/-- **What a receiver handles** is what has arrived last, and it has nothing else to do. -/
theorem inbox {s₀ s : TftpReceiver} (h₀ : Constructed s₀) {es : List (Event Endpoint)}
    (h : lts.run s₀ es = some s) : Inbox proactor Holds (lts.trace s₀ es) s :=
  single.inbox h₀.idle h

/-- The handler of a datagram runs, with the datagram in the data buffer. -/
theorem step_gets {s s' : TftpReceiver} {tr : List (TftpReceiver × Event Endpoint × TftpReceiver)}
    (hi : Inbox proactor Holds tr s) {i : ℕ} {src : Endpoint} {d : Bytes} (hg : Gets proactor tr s i src d)
    (h : proactor.step s (.runReceive i) = some s') : ∃ io n, io.wire = s.io.wire ∧ io.isOpen = s.io.isOpen ∧
      Holds src d n { s with io := io } ∧ s' = checkReceivedBlock .success n { s with io := io } := by
  obtain ⟨-, hcase⟩ := Proactor.step_cases h
  cases hcase with
  | @runReceive _ r err n hx =>
    obtain ⟨⟨r', n', hx'⟩, -⟩ := id hg
    cases hx.symm.trans hx'
    exact ⟨{ s.io with received := s.io.received.eraseIdx i }, n, rfl, rfl, (hi.holds_of_gets hg hx).io _,
      onReceive_eq r .success n _⟩

end TftpReceiver

/-! ## Both -/

/-- **One operation at a time.**  After any run of a sender, and of a receiver, at most one of
    receive and continuing send is outstanding, or completed and not yet handled; and each
    datagram that has arrived has been handled once, in its turn, or still waits. -/
theorem one_operation {s₀ s : Tftpsender} (hs : Tftpsender.Constructed s₀) {es : List (Event Endpoint)}
    (h : Tftpsender.lts.run s₀ es = some s) {r₀ r : TftpReceiver} (hr : TftpReceiver.Constructed r₀)
    {es' : List (Event Endpoint)} (h' : TftpReceiver.lts.run r₀ es' = some r) :
    (s.io.tokens ≤ 1 ∧ HandledOnce Tftpsender.proactor (Tftpsender.lts.trace s₀ es) s) ∧
    (r.io.tokens ≤ 1 ∧ HandledOnce TftpReceiver.proactor (TftpReceiver.lts.trace r₀ es') r) :=
  ⟨⟨(Tftpsender.inbox hs h).tokens, Tftpsender.single.handledOnce hs.idle h⟩,
    (TftpReceiver.inbox hr h').tokens, TftpReceiver.single.handledOnce hr.idle h'⟩

/-- A sender that gets the ACK of its only block, and a receiver whose receive is aborted by
    the timer. -/
theorem one_operation_ack : ∃ s r,
    Tftpsender.lts.run (.newConnected {} (.ofFile (some [])) ⟨1, 2⟩ 1 512 2)
      [.start, .sendCompletes .success, .runSend 0, .deliver ⟨1, 2⟩ [0, 4, 0, 1], .runReceive 0] = some s ∧
    TftpReceiver.lts.run (.newConnected {} {} ⟨1, 2⟩ 8 2)
      [.start, .sendCompletes .success, .runSend 0, .expire, .runTimer 0] = some r ∧
    s.io.tokens ≤ 1 ∧ r.io.tokens ≤ 1 := by
  have hs : Tftpsender.lts.run (.newConnected {} (.ofFile (some [])) ⟨1, 2⟩ 1 512 2)
      [.start, .sendCompletes .success, .runSend 0, .deliver ⟨1, 2⟩ [0, 4, 0, 1], .runReceive 0] = some _ := rfl
  have hr : TftpReceiver.lts.run (.newConnected {} {} ⟨1, 2⟩ 8 2)
      [.start, .sendCompletes .success, .runSend 0, .expire, .runTimer 0] = some _ := rfl
  have h := one_operation (.known _ _ _ _ _) hs (.known false _ _ _ _) hr
  exact ⟨_, _, hs, hr, h.1.1, h.2.1⟩

end Ttftp

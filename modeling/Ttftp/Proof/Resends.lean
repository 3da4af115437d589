/-
  Resends do not multiply.

  For a fixed `k`, a message is worth one if it can lead to another DATA `k`: a DATA
  message below `k` has an ACK below `k` sent, and that the next DATA message, up to `k`.
  Both ends are frugal with respect to this worth (`Tftpsender.frugal`,
  `TftpReceiver.frugal`), so that only the opening of the transfer and the expirations
  pay for DATA `k` (`OnceTransfer.resends_bounded`).
-/
import Ttftp.Lib.Frugal
import Ttftp.Proof.Discipline
import Ttftp.Proof.Watch
import Ttftp.Transfer

namespace Ttftp

open Bytes Asio

/-! ## What messages are worth -/

/-- One for a DATA message with a number below `k`. -/
def dataBelow (k : ℕ) (d : Bytes) : ℕ :=
  if ntohs d 0 = TftpOpcode.data.toUInt16 ∧ blockNr d < k then 1 else 0

/-- One for an ACK with a number below `k`, and for what is too short to be an ACK. -/
def ackBelow (k : ℕ) (d : Bytes) : ℕ :=
  if d.length < 4 ∨ ntohs d 0 = TftpOpcode.ack.toUInt16 ∧ blockNr d < k then 1 else 0

theorem dataBelow_le (k : ℕ) (d : Bytes) : dataBelow k d ≤ 1 := by
  unfold dataBelow
  split_ifs
  · exact le_rfl
  · exact Nat.zero_le 1

theorem ackBelow_le (k : ℕ) (d : Bytes) : ackBelow k d ≤ 1 := by
  unfold ackBelow
  split_ifs
  · exact le_rfl
  · exact Nat.zero_le 1

theorem dataBelow_data {k : ℕ} {nr : UInt16} (h : k ≤ nr.toNat) (d : Bytes) :
    dataBelow k (dataBytes nr d) = 0 := by
  refine if_neg fun hd => ?_
  rw [blockNr_dataBytes] at hd
  omega

theorem dataBelow_error (k : ℕ) (msg : ErrorMessage) : dataBelow k msg.encode = 0 := by
  refine if_neg fun hd => ?_
  rw [ErrorMessage.ntohs_encode] at hd
  exact absurd hd.1 (by decide)

theorem ackBelow_ack {k : ℕ} {nr : UInt16} (h : k ≤ nr.toNat) : ackBelow k (AckMessage.encode ⟨nr⟩) = 0 := by
  have hnr : blockNr (AckMessage.encode ⟨nr⟩) = nr.toNat := by
    have := ntohs_htons (htons TftpOpcode.ack.toUInt16) [] nr
    rw [List.append_nil] at this
    exact congrArg UInt16.toNat this
  refine if_neg fun hd => ?_
  rw [AckMessage.length_encode, hnr] at hd
  omega

theorem ackBelow_error (k : ℕ) (msg : ErrorMessage) : ackBelow k msg.encode = 0 := by
  refine if_neg fun hd => ?_
  rw [ErrorMessage.ntohs_encode] at hd
  rcases hd with hd | hd
  · simp [ErrorMessage.encode, htons] at hd
    omega
  · exact absurd hd.1 (by decide)

/-- The DATA messages up to `k` are those below `k` and the DATA messages `k`. -/
theorem spent_dataBelow (k : ℕ) (w : List (Endpoint × Bytes)) :
    Io.spent (dataBelow (k + 1)) w = Io.spent (dataBelow k) w + (blockNrs w).count k := by
  induction w with
  | nil => rfl
  | cons x w ih =>
    have hcons : Io.spent (dataBelow k) (x :: w) = dataBelow k x.2 + Io.spent (dataBelow k) w ∧
        Io.spent (dataBelow (k + 1)) (x :: w) = dataBelow (k + 1) x.2 + Io.spent (dataBelow (k + 1)) w := by
      simp [Io.spent]
    rw [hcons.1, hcons.2, ih]
    by_cases hop : ntohs x.2 0 = TftpOpcode.data.toUInt16
    · have hnrs : blockNrs (x :: w) = blockNr x.2 :: blockNrs w := by simp [blockNrs, dataSent, hop]
      rw [hnrs, List.count_cons]
      simp only [dataBelow, hop, true_and, beq_iff_eq]
      split_ifs <;> omega
    · have hnrs : blockNrs (x :: w) = blockNrs w := by simp [blockNrs, dataSent, hop]
      rw [hnrs]
      simp only [dataBelow, hop, false_and, if_false]
      omega

/-- What the messages on their way are worth. -/
def onWay (price : Bytes → ℕ) (inFlight : List Bytes) : ℕ := (inFlight.map price).sum

theorem onWay_append (price : Bytes → ℕ) (l l' : List Bytes) :
    onWay price (l ++ l') = onWay price l + onWay price l' := by
  simp [onWay]

theorem onWay_sentTo_le (price : Bytes → ℕ) (dest : Endpoint) (w : List (Endpoint × Bytes)) :
    onWay price (sentTo dest w) ≤ Io.spent price w := by
  induction w with
  | nil => exact le_rfl
  | cons x w ih =>
    have hcons : Io.spent price (x :: w) = price x.2 + Io.spent price w := by simp [Io.spent]
    rw [hcons]
    by_cases hx : x.1 = dest
    · have : sentTo dest (x :: w) = x.2 :: sentTo dest w := by simp [sentTo, hx]
      rw [this]
      change price x.2 + onWay price (sentTo dest w) ≤ _
      omega
    · have : sentTo dest (x :: w) = sentTo dest w := by simp [sentTo, hx]
      rw [this]
      omega

/-- A message that arrives is taken off the way. -/
theorem onWay_takeOff (price : Bytes → ℕ) {peer : Endpoint} {l : List Bytes} {e : Event Endpoint}
    (h : onceAllows peer l e = true) : onWay price (takeOff l e) + e.worth price = onWay price l := by
  cases e with
  | deliver src d =>
    simp only [onceAllows, Bool.and_eq_true, decide_eq_true_eq] at h
    have hperm := ((List.perm_cons_erase h.2).map price).sum_nat
    rw [List.map_cons, List.sum_cons, Nat.add_comm] at hperm
    exact hperm.symm
  | _ => rfl

/-! ## The sender -/

namespace Tftpsender

/-- Until it ends, the sender has a usual block size and, once connected, the peer `B`. -/
structure Serves (B : Endpoint) (s : Tftpsender) : Prop where
  wf : s.WellFormed
  blocksize : s.operationEnded = false → 4 ≤ s.blocksize ∧ s.blocksize ≤ 65464
  peer : s.operationEnded = false → s.isConnected = true → s.mReceiverEndpoint = B

/-- What a received datagram of `n` bytes is worth: nothing if it is an ACK for the current
    block from the peer, or for one from `k` on. -/
def offer (k n : ℕ) (s : Tftpsender) : ℕ :=
  if n = 4 ∧ s.wrongRemoteHost = false ∧
    (s.receivedMsg.1 = true → k ≤ s.receivedMsg.2.mBlockNr.toNat) then 0 else 1

section
variable {s : Tftpsender} {k b : ℕ} {B : Endpoint}

theorem sendErrorMsg_spends (c : UInt16) (m : Bytes) (e : Endpoint) (s : Tftpsender) :
    s.io.Spends (dataBelow k) 0 (s.sendErrorMsg c m e).io :=
  .asyncSendDetached _ _ (dataBelow_error _ _).le

theorem endOperationWith_spends (code : TftpUserFacingErrorCode) (s : Tftpsender) :
    s.io.Spends (dataBelow k) 0 (s.endOperationWith code).io := by
  unfold endOperationWith
  split_ifs
  · exact .refl _ _ _
  · exact .close _

/-- An error message, and the end. -/
theorem fail_spends (c : UInt16) (m : Bytes) (e : Endpoint) (code : TftpUserFacingErrorCode) (s : Tftpsender) :
    s.io.Spends (dataBelow k) b ((s.sendErrorMsg c m e).endOperationWith code).io :=
  ((sendErrorMsg_spends c m e s).trans (endOperationWith_spends code _)).mono (Nat.zero_le b)

/-- A block up to `k` costs one. -/
theorem sendNextBlock_spends (hs : s.WellFormed)
    (h : s.seeked.fail = false → s.lastsentdatacount.toNat ≤ k → 1 ≤ b) :
    s.io.Spends (dataBelow (k + 1)) b s.sendNextBlock.io := by
  cases hf : s.seeked.fail with
  | false =>
    rw [sendNextBlock_good hs hf]
    refine .asyncSendTo _ _ ?_
    by_cases hk : s.lastsentdatacount.toNat ≤ k
    · exact (dataBelow_le _ _).trans (h hf hk)
    · exact (dataBelow_data (by omega) _).trans_le (Nat.zero_le b)
  | true =>
    have hclosed : s.inputFileError.io.isOpen = false := by
      rw [hs.inputFileError.isOpen, inputFileError_ended]
      rfl
    have hend : s.io.Spends (dataBelow (k + 1)) 0 s.inputFileError.io := fail_spends _ _ _ _ { s with input := s.seeked }
    rw [sendNextBlock_bad hs hf]
    refine (hend.trans (.of_closed (.asyncSendTo _ _ le_rfl) hclosed)).mono (Nat.zero_add b).le

theorem start_spends (hs : s.WellFormed) (h : s.lastsentdatacount = 1 → 1 ≤ b) :
    s.io.Spends (dataBelow (k + 1)) b s.start.io := by
  unfold start
  split_ifs with _ hc
  · exact fail_spends _ _ _ _ s
  · exact sendNextBlock_spends hs fun _ _ => h hc
  · exact .asyncReceiveFrom _ _

theorem handleBlockSent_spends (err : ErrorCode) (n : ℕ) (s : Tftpsender) :
    s.io.Spends (dataBelow (k + 1)) 0 (s.handleBlockSent err n).io := by
  unfold handleBlockSent
  split_ifs
  · have hw : s.io.Spends (dataBelow (k + 1)) 0 (s.io.expiresFromNow s.timeoutSeconds.toNat).asyncWait :=
      .of_eq rfl rfl rfl
    exact hw.trans (.asyncReceiveFrom (b := 0) _ _)
  · exact .refl _ _ _

/-- The handler of a receive costs one where it sends a block up to `k`. -/
theorem checkAckForLastBlock_spends (hs : s.WellFormed) {err : ErrorCode} {n : ℕ}
    (hold : s.ackBranch err n = .olderAck → s.lastsentdatacount.toNat ≤ k → 1 ≤ b)
    (hnext : s.ackBranch err n = .expectedAck → s.countAck.seeked.fail = false →
      (s.lastsentdatacount + 1).toNat ≤ k → 1 ≤ b)
    (hother : s.ackBranch err n = .foreignHost ∨ s.ackBranch err n = .retry → 1 ≤ b) :
    s.io.Spends (dataBelow (k + 1)) b (s.checkAckForLastBlock err n).io := by
  have hwf : WellFormed { s with io := s.io.timerCancel } := hs.io _ rfl
  have ht : s.io.Spends (dataBelow (k + 1)) 0 s.io.timerCancel := .of_eq rfl rfl rfl
  have hcount : countAck { s with io := s.io.timerCancel } = { s.countAck with io := s.io.timerCancel } := by
    unfold countAck onConnect
    split_ifs <;> rfl
  refine (ht.trans (c := b) ?_).mono (Nat.zero_add b).le
  unfold checkAckForLastBlock
  dsimp only
  split
  · exact fail_spends _ _ _ _ { s with io := s.io.timerCancel }
  · rename_i hb
    exact sendNextBlock_spends hwf fun _ hk => hold hb hk
  · rename_i hb
    unfold acceptAck
    split_ifs
    · rw [hcount]
      exact (endOperationWith_spends _ { s.countAck with io := s.io.timerCancel }).mono (Nat.zero_le b)
    · have hc := hwf.countAck
      rw [hcount] at hc ⊢
      refine sendNextBlock_spends hc fun hf hk => hnext hb hf ?_
      have hnr : s.countAck.lastsentdatacount = s.lastsentdatacount + 1 := by
        unfold countAck
        split_ifs <;> rfl
      rw [← hnr]
      exact hk
  · exact fail_spends _ _ _ _ { s with io := s.io.timerCancel }
  · rename_i hb
    have he := sendErrorMsg_spends (k := k + 1) TftpErrorCode.unknownTrId.toUInt16
      (ascii "Remote host is not the partner of the transfer on this port") s.mLastReceivedReceiverEndpoint
      { s with io := s.io.timerCancel }
    exact (he.trans (sendNextBlock_spends (b := b) (hwf.sendErrorMsg _ _ _) fun _ _ => hother (.inl hb))).mono
      (Nat.zero_add b).le
  · rename_i hb
    exact sendNextBlock_spends hwf fun _ _ => hother (.inr hb)
  · exact (endOperationWith_spends _ { s with io := s.io.timerCancel }).mono (Nat.zero_le b)

/-- So it costs nothing if the datagram is worth nothing. -/
theorem checkAckForLastBlock_success_spends (hs : s.WellFormed) (hbs : 4 ≤ s.blocksize)
    (hbs' : s.blocksize ≤ 65464) (n : ℕ) :
    s.io.Spends (dataBelow (k + 1)) (s.offer k n) (s.checkAckForLastBlock .success n).io := by
  by_cases hv : n = 4 ∧ s.wrongRemoteHost = false ∧ (s.receivedMsg.1 = true → k ≤ s.receivedMsg.2.mBlockNr.toNat)
  · obtain ⟨rfl, hw, hnr⟩ := hv
    have hbranch : s.ackBranch .success 4 = if s.receivedMsg.1 = false then .wrongOpcode
        else if s.receivedMsg.2.mBlockNr < s.lastsentdatacount then .olderAck
        else if s.receivedMsg.2.mBlockNr = s.lastsentdatacount then .expectedAck
        else .futureAck := if_pos ⟨rfl, rfl, hw⟩
    refine checkAckForLastBlock_spends hs (fun hb hk => ?_) (fun hb hf hk => ?_) fun hb => ?_
    · rw [hbranch] at hb
      split_ifs at hb with h1 h2
      have := hnr (Bool.eq_true_of_not_eq_false h1)
      have := UInt16.lt_iff_toNat_lt.1 h2
      omega
    · rw [hbranch] at hb
      split_ifs at hb with h1 h2 h3
      -- the seek excludes the number zero
      have hpos := (seeked_good (s := s.countAck) (by rw [countAck_blocksize]; omega)
        (by rw [countAck_blocksize]; exact hbs') hf).1
      have hnr' := hnr (Bool.eq_true_of_not_eq_false h1)
      have hcount : s.countAck.lastsentdatacount = s.lastsentdatacount + 1 := by
        unfold countAck
        split_ifs <;> rfl
      have hlt := s.lastsentdatacount.toNat_lt
      have hadd := UInt16.toNat_add s.lastsentdatacount 1
      rw [hcount] at hpos
      rw [h3] at hnr'
      rw [UInt16.toNat_one] at hadd
      omega
    · rw [hbranch] at hb
      split_ifs at hb <;> simp at hb
  · have hone : s.offer k n = 1 := if_neg hv
    rw [hone]
    exact checkAckForLastBlock_spends hs (fun _ _ => le_rfl) (fun _ _ _ => le_rfl) fun _ => le_rfl

theorem Serves.of_ended (hs : s.WellFormed) (he : s.operationEnded = true) : s.Serves B :=
  ⟨hs, fun h => absurd (he.symm.trans h) (by simp), fun h => absurd (he.symm.trans h) (by simp)⟩

/-- A block that is sent, or an end, does not change what the sender serves. -/
theorem Serves.sendNextBlock (h : s.Serves B) : s.sendNextBlock.Serves B := by
  cases hf : s.seeked.fail with
  | false =>
    have hwf := h.wf.sendNextBlock
    rw [sendNextBlock_good h.wf hf] at hwf ⊢
    exact ⟨hwf, h.blocksize, h.peer⟩
  | true =>
    refine .of_ended h.wf.sendNextBlock ?_
    rw [sendNextBlock_bad h.wf hf]
    exact inputFileError_ended s

theorem Serves.io (h : s.Serves B) (io : Io SenderHandler Endpoint) (ho : io.isOpen = s.io.isOpen) :
    Serves B { s with io := io } :=
  ⟨h.wf.io io ho, h.blocksize, h.peer⟩

theorem Serves.start (h : s.Serves B) : s.start.Serves B := by
  unfold Tftpsender.start
  split_ifs
  · exact .of_ended ((h.wf.sendErrorMsg _ _ _).endOperationWith _) (endOperationWith_ended _ _)
  · exact h.sendNextBlock
  · exact h.io _ (by simp)

/-- The expected ACK comes from the peer, or makes its source the peer. -/
theorem Serves.checkAckForLastBlock (h : s.Serves B) {err : ErrorCode} {n : ℕ}
    (hm : s.operationEnded = false → err = .success → s.mLastReceivedReceiverEndpoint = B) :
    (s.checkAckForLastBlock err n).Serves B := by
  have ht := h.io s.io.timerCancel rfl
  have hwf := h.wf.checkAckForLastBlock err n
  unfold Tftpsender.checkAckForLastBlock at hwf ⊢
  dsimp only at hwf ⊢
  split at hwf
  · exact .of_ended hwf (endOperation_ended _ _)
  · exact ht.sendNextBlock
  · rename_i hb
    obtain ⟨rfl, -, hw, -⟩ := ackBranch_expectedAck hb
    have hcount : Serves B (countAck { s with io := s.io.timerCancel }) := by
      refine ⟨ht.wf.countAck, ?_, fun he _ => ?_⟩
      · simpa using h.blocksize
      · rw [countAck_operationEnded] at he
        exact (countAck_peer hw).2.trans (hm he rfl)
    unfold Tftpsender.acceptAck at hwf ⊢
    split_ifs at hwf ⊢
    · exact .of_ended hwf (endOperation_ended _ _)
    · exact hcount.sendNextBlock
  · exact .of_ended hwf (endOperation_ended _ _)
  · exact (ht.io _ (by simp)).sendNextBlock
  · exact ht.sendNextBlock
  · exact .of_ended hwf (endOperation_ended _ _)

/-- What has been received is decoded. -/
theorem receivedMsg_store (hs : s.WellFormed) (hbs : 4 ≤ s.blocksize) (src : Endpoint) {d : Bytes}
    (hd : 4 ≤ d.length) : (s.store src (d.take (min s.ackbuffer.length s.blocksize))).receivedMsg =
      if ntohs d 0 = TftpOpcode.ack.toUInt16 then (true, ⟨ntohs d 2⟩) else (false, {}) := by
  have hcap : min s.ackbuffer.length s.blocksize = 4 := by rw [hs.ackbuffer]; omega
  have hlen : (d.take 4).length = 4 := by rw [List.length_take]; omega
  have hdrop : s.ackbuffer.drop (d.take 4).length = [] := List.drop_eq_nil_of_le (by rw [hs.ackbuffer]; omega)
  rw [hcap]
  change AckMessage.decode [] {} (d.take 4 ++ s.ackbuffer.drop (d.take 4).length) = _
  have h0 : ntohs (d.take 4 ++ 0 :: []) 0 = ntohs d 0 := by rw [ntohs_append (by omega), ntohs_take (by omega)]
  have h2 : ntohs (d.take 4 ++ 0 :: []) 2 = ntohs d 2 := by rw [ntohs_append (by omega), ntohs_take (by omega)]
  rw [hdrop, List.append_nil]
  unfold AckMessage.decode memory
  simp only [opcodeLength, h0, h2, ne_eq, ite_not]

theorem offer_store_le (h : s.Serves B) (he : s.operationEnded = false) (d : Bytes) :
    (s.store B (d.take (min s.ackbuffer.length s.blocksize))).offer k
      (min d.length (min s.ackbuffer.length s.blocksize)) ≤ ackBelow k d := by
  obtain ⟨hbs, -⟩ := h.blocksize he
  by_cases hd : d.length < 4
  · have hone : ackBelow k d = 1 := if_pos (.inl hd)
    rw [hone]
    unfold offer
    split_ifs <;> omega
  · have hcap : min s.ackbuffer.length s.blocksize = 4 := by rw [h.wf.ackbuffer]; omega
    by_cases hlow : ntohs d 0 = TftpOpcode.ack.toUInt16 ∧ blockNr d < k
    · have hone : ackBelow k d = 1 := if_pos (.inr hlow)
      rw [hone]
      unfold offer
      split_ifs <;> omega
    · refine (if_pos ⟨by omega, ?_, fun hdec => ?_⟩ : offer _ _ _ = 0).trans_le (Nat.zero_le _)
      · change (s.isConnected && decide (B ≠ s.mReceiverEndpoint)) = false
        cases hc : s.isConnected with
        | false => rfl
        | true => simp [h.peer he hc]
      · rw [receivedMsg_store h.wf hbs B (by omega)] at hdec ⊢
        split_ifs at hdec ⊢ with hop
        exact Nat.not_lt.1 fun hlt => hlow ⟨hop, hlt⟩

theorem start_tokens (hs : s.WellFormed) (ht : s.io.tokens = 0) :
    s.start.operationEnded = true ∨ s.start.io.tokens ≤ 1 := by
  unfold start
  split_ifs
  · exact .inl (endOperationWith_ended _ _)
  · exact (sendNextBlock_live hs ht).imp_right fun hl => hl.tokens.le
  · exact .inr ((Io.asyncReceiveFrom_tokens _ _).trans_le (by omega))

/-- An expiration ends the operation, or aborts the outstanding receive. -/
theorem handleReadTimeout_expired (hs : s.WellFormed) {err : ErrorCode} (ha : err ≠ .operationAborted) :
    (s.handleReadTimeout err).operationEnded = true ∧
        s.io.Spends (dataBelow k) 0 (s.handleReadTimeout err).io ∨
      s.operationEnded = false ∧ s.handleReadTimeout err =
        { s with io := s.io.abortAll, timeoutcount := s.timeoutcount + 1 } := by
  rcases Bool.eq_false_or_eq_true s.operationEnded with he | he
  · have hclosed : s.io.isOpen = false := by rw [hs.isOpen, he]; rfl
    left
    rw [handleReadTimeout, if_neg ha, Io.cancel, if_neg (by simp [hclosed])]
    exact ⟨he, .refl _ _ _⟩
  · have hopen : s.io.isOpen = true := by rw [hs.isOpen, he]; rfl
    by_cases hl : s.LastExpiry
    · have hend := handleReadTimeout_last hs he ha hl
      refine .inl ⟨hend, .of_abortAll ?_ ?_⟩
      · rw [handleReadTimeout, if_neg ha, Io.cancel, if_pos hopen]
        dsimp only
        rw [if_neg (UInt16.not_le.2 hl)]
        exact fail_spends _ _ _ _ { s with io := s.io.abortAll, timeoutcount := s.timeoutcount + 1 }
      · rw [(hs.handleReadTimeout err).isOpen, hend]
        rfl
    · exact .inr ⟨he, handleReadTimeout_retry hs he ha hl⟩

/-- The sender pays for DATA messages up to `k` with ACKs below `k`. -/
theorem frugal (B : Endpoint) (k : ℕ) : Frugal proactor (Serves B) operationEnded
    (fun s => s.mLastReceivedReceiverEndpoint = B) B (dataBelow (k + 1)) (ackBelow k)
    (fun s => if s.lastsentdatacount = 1 then 1 else 0) (offer k) where
  io_setIo _ _ := rfl
  io_store _ _ _ := rfl
  wf_setIo _ io h ho := h.io io ho
  ended_setIo _ _ := rfl
  ended_store _ _ _ := rfl
  met_setIo _ _ := Iff.rfl
  opening_setIo _ _ := rfl
  offer_setIo _ _ _ := rfl
  capacity_setIo _ _ := rfl
  isOpen _ h := h.wf.isOpen
  deliver s d h := ⟨⟨h.wf.store B d, h.blocksize, h.peer⟩, rfl, fun he => offer_store_le h he d⟩
  start s h :=
    { wf := h.start
      spends := start_spends h.wf fun hc => (if_pos hc).ge
      started := (After.start s).started
      tokens := fun ht => start_tokens h.wf ht }
  receive r err n s h hm := by
    change Asio.Handles _ _ _ _ _ s (onReceive r err n s)
    rw [onReceive_eq]
    refine ⟨h.checkAckForLastBlock hm, ?_, (After.checkAckForLastBlock err n s).started, fun ht => ?_⟩
    · split_ifs with hs
      · rw [hs]
        cases he : s.operationEnded with
        | true =>
          have hone : s.io.Spends (dataBelow (k + 1)) 1 (s.checkAckForLastBlock .success n).io :=
            checkAckForLastBlock_spends h.wf (fun _ _ => le_rfl) (fun _ _ _ => le_rfl) fun _ => le_rfl
          exact hone.of_closed (by rw [h.wf.isOpen, he]; rfl)
        | false => exact checkAckForLastBlock_success_spends h.wf (h.blocksize he).1 (h.blocksize he).2 n
      · exact checkAckForLastBlock_spends h.wf (fun _ _ => le_rfl) (fun _ _ _ => le_rfl) fun _ => le_rfl
    · exact (checkAckForLastBlock_live h.wf ht err n).imp_right fun hl => hl.tokens.le
  sent err n s h := by
    refine ⟨?_, handleBlockSent_spends err n s, (After.handleBlockSent err n s).started, fun ht => .inr ?_⟩
    · change Serves B (s.handleBlockSent err n)
      unfold handleBlockSent
      split_ifs
      · exact h.io _ (by simp)
      · exact h
    · change (s.handleBlockSent err n).io.tokens ≤ 1
      unfold handleBlockSent
      split_ifs
      · exact (Io.asyncReceiveFrom_tokens _ _).trans_le (Nat.succ_le_succ (Nat.le_zero.2 ht))
      · exact (show s.io.tokens = 0 from ht).trans_le (Nat.zero_le 1)
  cancelled := oneByOne.cancelled
  expired err s h ha := by
    have hwf := h.wf.handleReadTimeout err
    refine ⟨?_, (After.handleReadTimeout err s).started, ?_⟩ <;>
      rcases handleReadTimeout_expired (k := k + 1) h.wf ha with ⟨hend, hspends⟩ | ⟨he, heq⟩
    · exact .of_ended hwf hend
    · rw [heq] at hwf
      change Serves B (s.handleReadTimeout err)
      rw [heq]
      exact ⟨hwf, h.blocksize, h.peer⟩
    · exact .inl ⟨hend, hspends⟩
    · right
      change (s.handleReadTimeout err).operationEnded = false ∧ (s.handleReadTimeout err).io = _ ∧
        (_ → (s.handleReadTimeout err).mLastReceivedReceiverEndpoint = B) ∧
        ∀ n, offer k n (s.handleReadTimeout err) = _
      rw [heq]
      exact ⟨he, rfl, id, fun _ => rfl⟩

end

end Tftpsender

/-! ## The receiver -/

namespace TftpReceiver

/-- Until it ends, the receiver has, once connected, the peer `A`. -/
structure Serves (A : Endpoint) (s : TftpReceiver) : Prop where
  wf : s.WellFormed
  peer : s.operationEnded = false → s.isConnected = true → s.mSenderEndpoint = A

/-- What a received datagram of `n` bytes is worth: nothing if it is no block, or one from `k`
    on, and comes from the peer. -/
def offer (k n : ℕ) (s : TftpReceiver) : ℕ :=
  if ¬ (s.isConnected = true ∧ s.mLastReceivedSenderEndpoint ≠ s.mSenderEndpoint) ∧
    ((s.receivedMsg n).1 = true → k ≤ (s.receivedMsg n).2.mBlockNr.toNat) then 0 else 1

section
variable {s : TftpReceiver} {k b : ℕ} {A : Endpoint}

theorem sendErrorMsg_spends (c : UInt16) (m : Bytes) (e : Endpoint) (s : TftpReceiver) :
    s.io.Spends (ackBelow k) 0 (s.sendErrorMsg c m e).io :=
  .asyncSendDetached _ _ (ackBelow_error _ _).le

theorem endOperationWith_spends (code : TftpUserFacingErrorCode) (s : TftpReceiver) :
    s.io.Spends (ackBelow k) 0 (s.endOperationWith code).io := by
  unfold endOperationWith
  split_ifs
  · exact .refl _ _ _
  · exact .close _

/-- An error message, and the end. -/
theorem fail_spends (c : UInt16) (m : Bytes) (e : Endpoint) (code : TftpUserFacingErrorCode)
    (s : TftpReceiver) : s.io.Spends (ackBelow k) b ((s.sendErrorMsg c m e).endOperationWith code).io :=
  ((sendErrorMsg_spends c m e s).trans (endOperationWith_spends code _)).mono (Nat.zero_le b)

theorem startNextReceive_spends (s : TftpReceiver) :
    s.io.Spends (ackBelow k) b s.startNextReceive.io := by
  have hw : s.io.Spends (ackBelow k) 0 (s.io.expiresFromNow s.timeoutSeconds.toNat).asyncWait :=
    .of_eq rfl rfl rfl
  exact (hw.trans (.asyncReceiveFrom (b := 0) _ _)).mono (Nat.zero_le b)

/-- An ACK below `k` costs one. -/
theorem sendNextAck_spends (l : Bool) (h : s.lastreceiveddatacount.toNat < k → 1 ≤ b) :
    s.io.Spends (ackBelow k) b (s.sendNextAck l).io := by
  have hcost : ackBelow k (AckMessage.encode ⟨s.lastreceiveddatacount⟩) ≤ b := by
    by_cases hk : s.lastreceiveddatacount.toNat < k
    · exact (ackBelow_le _ _).trans (h hk)
    · exact (ackBelow_ack (Nat.not_lt.1 hk)).trans_le (Nat.zero_le b)
  cases hc : s.isConnected with
  | false =>
    have hlisten : s.sendNextAck l = { s with lastsentack := ⟨s.lastreceiveddatacount⟩ }.startNextReceive := by
      simp [sendNextAck, hc]
    rw [hlisten]
    exact startNextReceive_spends { s with lastsentack := ⟨s.lastreceiveddatacount⟩ }
  | true =>
    cases l with
    | false =>
      rw [sendNextAck_false, if_pos hc]
      exact .asyncSendTo _ _ hcost
    | true =>
      rw [sendNextAck_true s hc]
      split_ifs with hopen
      · have hsend : s.io.Spends (ackBelow k) b { s.io with
            wire := s.io.wire ++ [(s.mSenderEndpoint, AckMessage.encode ⟨s.lastreceiveddatacount⟩)] } := by
          refine ⟨⟨_, rfl, by simpa [Io.spent] using hcost, fun ho => ?_⟩, id, fun _ => rfl⟩
          rw [hopen] at ho
          cases ho
        refine hsend.trans (c := 0) ?_
        exact endOperationWith_spends _ { s with
          lastsentack := ⟨s.lastreceiveddatacount⟩
          io := { s.io with
            wire := s.io.wire ++ [(s.mSenderEndpoint, AckMessage.encode ⟨s.lastreceiveddatacount⟩)] } }
      · exact .refl _ _ _

theorem start_spends (h : s.isConnected = true → 1 ≤ b) : s.io.Spends (ackBelow k) b s.start.io := by
  have hfirst : s.io.Spends (ackBelow k) 0 (if s.output.fail then s.outputFileError else s).io := by
    split_ifs
    · exact fail_spends _ _ _ _ s
    · exact .refl _ _ _
  unfold start
  dsimp only
  split_ifs at hfirst ⊢ with h1 h2 h2
  · rw [outputFileError_isConnected] at h2
    exact (hfirst.trans (sendNextAck_spends false fun _ => h h2)).mono (Nat.zero_add b).le
  · exact (hfirst.trans (startNextReceive_spends (b := b) _)).mono (Nat.zero_add b).le
  · exact sendNextAck_spends false fun _ => h h2
  · exact startNextReceive_spends s

theorem handleACKsent_spends (err : ErrorCode) (n : ℕ) (s : TftpReceiver) :
    s.io.Spends (ackBelow k) 0 (s.handleACKsent err n).io := by
  unfold handleACKsent
  split_ifs
  · exact startNextReceive_spends s
  · exact .refl _ _ _

theorem acceptBlock_spends (n : ℕ) (h : (s.lastreceiveddatacount + 1).toNat < k → 1 ≤ b) :
    s.io.Spends (ackBelow k) b (s.acceptBlock n).io := by
  have hwrite : s.io.Spends (ackBelow k) 0 (s.countBlock.writeBlock (s.receivedMsg n).2.mData).io := by
    rw [← countBlock_io s]
    unfold writeBlock
    split_ifs
    · exact fail_spends _ _ _ _ s.countBlock
    · exact .refl _ _ _
  refine (hwrite.trans (sendNextAck_spends (b := b) _ fun hk => h ?_)).mono (Nat.zero_add b).le
  rwa [writeBlock_lastreceiveddatacount, countBlock_lastreceiveddatacount] at hk

/-- The handler of a receive costs one where it sends an ACK below `k`. -/
theorem checkReceivedBlock_spends {err : ErrorCode} {n : ℕ}
    (hold : s.blockBranch err n = .olderBlock → s.lastreceiveddatacount.toNat < k → 1 ≤ b)
    (hnext : s.blockBranch err n = .expectedBlock → (s.lastreceiveddatacount + 1).toNat < k → 1 ≤ b)
    (hother : s.blockBranch err n = .foreignHost ∨ s.blockBranch err n = .aborted → 1 ≤ b) :
    s.io.Spends (ackBelow k) b (s.checkReceivedBlock err n).io := by
  have ht : s.io.Spends (ackBelow k) 0 s.io.timerCancel := .of_eq rfl rfl rfl
  refine (ht.trans (c := b) ?_).mono (Nat.zero_add b).le
  unfold checkReceivedBlock
  dsimp only
  split <;> rename_i hb
  · have he := sendErrorMsg_spends (k := k) TftpErrorCode.unknownTrId.toUInt16
      (ascii "Remote host is not the partner of the transfer on this port") s.mLastReceivedSenderEndpoint
      { s with io := s.io.timerCancel }
    exact (he.trans (sendNextAck_spends (b := b) false fun _ => hother (.inl hb))).mono (Nat.zero_add b).le
  · exact fail_spends _ _ _ _ { s with io := s.io.timerCancel }
  · exact fail_spends _ _ _ _ { s with io := s.io.timerCancel }
  · exact sendNextAck_spends (s := { s with io := s.io.timerCancel }) false (hold hb)
  · exact acceptBlock_spends (s := { s with io := s.io.timerCancel }) n (hnext hb)
  · exact fail_spends _ _ _ _ { s with io := s.io.timerCancel }
  · exact sendNextAck_spends (s := { s with io := s.io.timerCancel }) false fun _ => hother (.inr hb)
  · exact (endOperationWith_spends _ { s with io := s.io.timerCancel }).mono (Nat.zero_le b)

/-- So it costs nothing if the datagram is worth nothing. -/
theorem checkReceivedBlock_success_spends (n : ℕ) :
    s.io.Spends (ackBelow k) (s.offer k n) (s.checkReceivedBlock .success n).io := by
  by_cases hv : ¬ (s.isConnected = true ∧ s.mLastReceivedSenderEndpoint ≠ s.mSenderEndpoint) ∧
      ((s.receivedMsg n).1 = true → k ≤ (s.receivedMsg n).2.mBlockNr.toNat)
  · obtain ⟨hpeer, hnr⟩ := hv
    have hbranch : s.blockBranch .success n =
        if s.blocksize + controlBytes < n then .tooLarge
        else if (s.receivedMsg n).1 = false then .wrongOpcode
        else if (s.receivedMsg n).2.mBlockNr.toNat ≤ s.lastreceiveddatacount.toNat then .olderBlock
        else if (s.receivedMsg n).2.mBlockNr.toNat = s.lastreceiveddatacount.toNat + 1 then .expectedBlock
        else .futureBlock := (if_pos rfl).trans (if_neg hpeer)
    refine checkReceivedBlock_spends (fun hb hk => ?_) (fun hb hk => ?_) fun hb => ?_
    · rw [hbranch] at hb
      split_ifs at hb with h1 h2 h3
      have := hnr (Bool.eq_true_of_not_eq_false h2)
      omega
    · rw [hbranch] at hb
      split_ifs at hb with h1 h2 h3 h4
      have := hnr (Bool.eq_true_of_not_eq_false h2)
      have hlt := (s.receivedMsg n).2.mBlockNr.toNat_lt
      rw [UInt16.toNat_add, UInt16.toNat_one] at hk
      omega
    · rw [hbranch] at hb
      split_ifs at hb <;> simp at hb
  · have hone : s.offer k n = 1 := if_neg hv
    rw [hone]
    exact checkReceivedBlock_spends (fun _ _ => le_rfl) (fun _ _ => le_rfl) fun _ => le_rfl

theorem Serves.of_ended (hs : s.WellFormed) (he : s.operationEnded = true) : s.Serves A :=
  ⟨hs, fun h => absurd (he.symm.trans h) (by simp)⟩

theorem Serves.io (h : s.Serves A) (io : Io ReceiverHandler Endpoint) (ho : io.isOpen = s.io.isOpen) :
    Serves A { s with io := io } :=
  ⟨h.wf.io io ho, h.peer⟩

theorem Serves.startNextReceive (h : s.Serves A) : s.startNextReceive.Serves A :=
  ⟨h.wf.startNextReceive, h.peer⟩

theorem Serves.sendNextAck (h : s.Serves A) (l : Bool) : (s.sendNextAck l).Serves A := by
  have hwf := h.wf.sendNextAck l
  unfold TftpReceiver.sendNextAck Io.sendTo at hwf ⊢
  dsimp only at hwf ⊢
  split_ifs at hwf ⊢
  · exact .of_ended hwf (endOperation_ended _ _)
  · exact ⟨hwf, h.peer⟩
  · exact ⟨hwf, h.peer⟩
  · exact ⟨hwf, h.peer⟩

theorem Serves.start (h : s.Serves A) : s.start.Serves A := by
  have hfirst : Serves A (if s.output.fail then s.outputFileError else s) := by
    split_ifs
    · exact .of_ended h.wf.outputFileError (outputFileError_ended s)
    · exact h
  unfold TftpReceiver.start
  dsimp only
  split_ifs at hfirst ⊢
  · exact hfirst.sendNextAck _
  · exact hfirst.startNextReceive
  · exact hfirst.sendNextAck _
  · exact hfirst.startNextReceive

/-- The expected block comes from the peer, or makes its source the peer. -/
theorem Serves.acceptBlock (h : s.Serves A) (n : ℕ)
    (hpeer : ¬ (s.isConnected = true ∧ s.mLastReceivedSenderEndpoint ≠ s.mSenderEndpoint))
    (hm : s.operationEnded = false → s.mLastReceivedSenderEndpoint = A) : (s.acceptBlock n).Serves A := by
  have hcount : s.countBlock.Serves A := by
    refine ⟨h.wf.countBlock, fun he _ => ?_⟩
    rw [countBlock_operationEnded] at he
    rw [← hm he]
    unfold countBlock onConnect
    split_ifs with hc
    · by_contra hne
      exact hpeer ⟨hc, Ne.symm hne⟩
    · rfl
  refine Serves.sendNextAck ?_ _
  unfold writeBlock
  split_ifs
  · have hend := hcount.wf.outputFileError
    exact .of_ended ⟨hend.isOpen, hend.databuffer⟩ (outputFileError_ended _)
  · exact ⟨⟨hcount.wf.isOpen, hcount.wf.databuffer⟩, hcount.peer⟩

theorem Serves.checkReceivedBlock (h : s.Serves A) {err : ErrorCode} {n : ℕ}
    (hm : s.operationEnded = false → err = .success → s.mLastReceivedSenderEndpoint = A) :
    (s.checkReceivedBlock err n).Serves A := by
  have ht := h.io s.io.timerCancel rfl
  have hwf := h.wf.checkReceivedBlock err n
  unfold TftpReceiver.checkReceivedBlock at hwf ⊢
  dsimp only at hwf ⊢
  split at hwf <;> rename_i hb
  · exact (ht.io _ (by simp)).sendNextAck _
  · exact .of_ended hwf (endOperationWith_ended _ _)
  · exact .of_ended hwf (endOperationWith_ended _ _)
  · exact ht.sendNextAck _
  · unfold blockBranch at hb
    split_ifs at hb with h1 h2
    exact ht.acceptBlock n h2 fun he => hm he h1
  · exact .of_ended hwf (endOperationWith_ended _ _)
  · exact ht.sendNextAck _
  · exact .of_ended hwf (endOperation_ended _ _)

theorem offer_store_le (h : s.Serves A) (he : s.operationEnded = false) (d : Bytes) :
    (s.store A (d.take s.databuffer.length)).offer k (min d.length s.databuffer.length) ≤ dataBelow k d := by
  by_cases hlow : ntohs d 0 = TftpOpcode.data.toUInt16 ∧ blockNr d < k
  · have hone : dataBelow k d = 1 := if_pos hlow
    rw [hone]
    unfold offer
    split_ifs <;> omega
  · refine (if_pos ⟨?_, fun hdec => ?_⟩ : offer _ _ _ = 0).trans_le (Nat.zero_le _)
    · rintro ⟨hc, hne⟩
      exact hne (h.peer he hc).symm
    · obtain ⟨hop, hnr⟩ := receivedMsg_store hdec
      rw [hnr]
      exact Nat.not_lt.1 fun hlt => hlow ⟨hop, hlt⟩

/-- An expiration ends the operation, or aborts the outstanding receive. -/
theorem handleReadTimeout_expired (hs : s.WellFormed) {err : ErrorCode} (ha : err ≠ .operationAborted) :
    (s.handleReadTimeout err).operationEnded = true ∧
        s.io.Spends (ackBelow k) 0 (s.handleReadTimeout err).io ∨
      s.operationEnded = false ∧ s.handleReadTimeout err =
        { s with io := s.io.abortAll, timeoutcount := s.timeoutcount + 1 } := by
  rcases Bool.eq_false_or_eq_true s.operationEnded with he | he
  · have hclosed : s.io.isOpen = false := by rw [hs.isOpen, he]; rfl
    left
    rw [handleReadTimeout, if_neg ha, Io.cancel, if_neg (by simp [hclosed])]
    exact ⟨he, .refl _ _ _⟩
  · have hopen : s.io.isOpen = true := by rw [hs.isOpen, he]; rfl
    by_cases hl : s.LastExpiry
    · have hend := handleReadTimeout_last hs he ha hl
      refine .inl ⟨hend, .of_abortAll ?_ ?_⟩
      · rw [handleReadTimeout, if_neg ha, Io.cancel, if_pos hopen]
        dsimp only
        rw [if_neg (UInt16.not_le.2 hl)]
        exact fail_spends _ _ _ _ { s with io := s.io.abortAll, timeoutcount := s.timeoutcount + 1 }
      · rw [(hs.handleReadTimeout err).isOpen, hend]
        rfl
    · exact .inr ⟨he, handleReadTimeout_retry hs he ha hl⟩

/-- The receiver pays for ACKs below `k` with DATA messages below `k`. -/
theorem frugal (A : Endpoint) (k : ℕ) : Frugal proactor (Serves A) operationEnded
    (fun s => s.mLastReceivedSenderEndpoint = A) A (ackBelow k) (dataBelow k)
    (fun s => if s.isConnected then 1 else 0) (offer k) where
  io_setIo _ _ := rfl
  io_store _ _ _ := rfl
  wf_setIo _ io h ho := h.io io ho
  ended_setIo _ _ := rfl
  ended_store _ _ _ := rfl
  met_setIo _ _ := Iff.rfl
  opening_setIo _ _ := rfl
  offer_setIo _ _ _ := rfl
  capacity_setIo _ _ := rfl
  isOpen _ h := h.wf.isOpen
  deliver s d h := ⟨⟨h.wf.store A d, h.peer⟩, rfl, fun he => offer_store_le h he d⟩
  start s h :=
    { wf := h.start
      spends := start_spends fun hc => (if_pos hc).ge
      started := (After.start s).started
      tokens := fun ht => (start_live h.wf ht).imp_right fun hl => hl.tokens.le }
  receive r err n s h hm := by
    change Asio.Handles _ _ _ _ _ s (onReceive r err n s)
    rw [onReceive_eq]
    refine ⟨h.checkReceivedBlock hm, ?_, (After.checkReceivedBlock err n s).started, fun ht => ?_⟩
    · split_ifs with hs
      · rw [hs]
        exact checkReceivedBlock_success_spends n
      · exact checkReceivedBlock_spends (fun _ _ => le_rfl) (fun _ _ => le_rfl) fun _ => le_rfl
    · exact (checkReceivedBlock_live h.wf ht err n).imp_right fun hl => hl.tokens.le
  sent err n s h := by
    refine ⟨?_, handleACKsent_spends err n s, (After.handleACKsent err n s).started, fun ht => .inr ?_⟩
    · change Serves A (s.handleACKsent err n)
      unfold handleACKsent
      split_ifs
      · exact h.startNextReceive
      · exact h
    · change (s.handleACKsent err n).io.tokens ≤ 1
      unfold handleACKsent
      split_ifs
      · exact (Io.asyncReceiveFrom_tokens _ _).trans_le (Nat.succ_le_succ (Nat.le_zero.2 ht))
      · exact (show s.io.tokens = 0 from ht).trans_le (Nat.zero_le 1)
  cancelled := oneByOne.cancelled
  expired err s h ha := by
    have hwf := h.wf.handleReadTimeout err
    refine ⟨?_, (After.handleReadTimeout err s).started, ?_⟩ <;>
      rcases handleReadTimeout_expired (k := k) h.wf ha with ⟨hend, hspends⟩ | ⟨he, heq⟩
    · exact .of_ended hwf hend
    · rw [heq] at hwf
      change Serves A (s.handleReadTimeout err)
      rw [heq]
      exact ⟨hwf, h.peer⟩
    · exact .inl ⟨hend, hspends⟩
    · right
      change (s.handleReadTimeout err).operationEnded = false ∧ (s.handleReadTimeout err).io = _ ∧
        (_ → (s.handleReadTimeout err).mLastReceivedSenderEndpoint = A) ∧
        ∀ n, offer k n (s.handleReadTimeout err) = _
      rw [heq]
      exact ⟨he, rfl, id, fun _ => rfl⟩

end

end TftpReceiver

/-! ## The transfer -/

namespace OnceTransfer

/-- An end of the transfer, until it has ended. -/
def Sound {σ H : Type} (P : Proactor σ H Endpoint) (wf : σ → Prop) (ended : σ → Bool) (met : σ → Prop) (s : σ) :
    Prop :=
  wf s ∧ (ended s = false → Frugal.Active P met s)

def pendingSender (k : ℕ) (s : Tftpsender) : ℕ :=
  Frugal.pending Tftpsender.proactor Tftpsender.operationEnded
    (fun s => if s.lastsentdatacount = 1 then 1 else 0) (Tftpsender.offer k) s

def pendingReceiver (k : ℕ) (r : TftpReceiver) : ℕ :=
  Frugal.pending TftpReceiver.proactor TftpReceiver.operationEnded
    (fun s => if s.isConnected then 1 else 0) (TftpReceiver.offer k) r

/-- The DATA messages `k` so far, and those that may follow. -/
def total (k : ℕ) (t : OnceTransfer) : ℕ :=
  (blockNrs t.sender.io.wire).count k + onWay (dataBelow k) t.toReceiver + onWay (ackBelow k) t.toSender +
    pendingSender k t.sender + pendingReceiver k t.receiver

/-- The opening of the transfer and each expiration have paid one. -/
structure Paid (A B : Endpoint) (k : ℕ) (t : OnceTransfer) : Prop where
  sender : Sound Tftpsender.proactor (Tftpsender.Serves B) Tftpsender.operationEnded
    (fun s => s.mLastReceivedReceiverEndpoint = B) t.sender
  receiver : Sound TftpReceiver.proactor (TftpReceiver.Serves A) TftpReceiver.operationEnded
    (fun s => s.mLastReceivedSenderEndpoint = A) t.receiver
  total : t.total k ≤ 1 + t.expirations

variable {A B : Endpoint} {k : ℕ} {t t' : OnceTransfer}

theorem Paid.init (h : (once A B).init t) : t.Paid A B k := by
  obtain ⟨sender, receiver, toSender, toReceiver, expirations⟩ := t
  obtain ⟨hpair, rfl, rfl, rfl⟩ := h
  have hfresh : ∀ {σ H : Type} {P : Proactor σ H Endpoint} {met : σ → Prop} {s : σ}, P.io s = {} →
      Frugal.Active P met s := by
    intro σ H P met s hio
    refine ⟨fun _ => by rw [hio]; exact ⟨rfl, rfl, rfl⟩, by rw [hio]; exact Nat.zero_le 1, ?_⟩
    rintro ⟨x, hx, -⟩
    rw [hio] at hx
    cases hx
  have hbs : 4 ≤ defaultBlocksize ∧ defaultBlocksize ≤ 65464 := by decide
  cases hpair with
  | rrq file output timeoutSeconds timeoutSeconds' =>
    have hs := (Tftpsender.ReportInv.init (.known file B 1 defaultBlocksize timeoutSeconds)).wf
    refine ⟨⟨⟨hs, fun _ => hbs, fun _ _ => rfl⟩, fun _ => hfresh rfl⟩,
      ⟨⟨⟨rfl, List.length_replicate⟩, fun _ hc => ?_⟩, fun _ => hfresh rfl⟩, le_rfl⟩
    cases hc
  | wrq file output timeoutSeconds timeoutSeconds' =>
    have hs := (Tftpsender.ReportInv.init (.unknown file 0 defaultBlocksize timeoutSeconds)).wf
    refine ⟨⟨⟨hs, fun _ => hbs, fun _ hc => ?_⟩, fun _ => hfresh rfl⟩,
      ⟨⟨⟨rfl, List.length_replicate⟩, fun _ _ => rfl⟩, fun _ => hfresh rfl⟩, le_rfl⟩
    cases hc

/-- Only the peer's messages are delivered, and no receive fails. -/
theorem onceAllows_iff {peer : Endpoint} {l : List Bytes} {e : Event Endpoint} (h : onceAllows peer l e = true) :
    (∀ src d, e = .deliver src d → src = peer) ∧ ∀ err, e ≠ .receiveFails err := by
  constructor
  · rintro src d rfl
    simp only [onceAllows, Bool.and_eq_true, decide_eq_true_eq] at h
    exact h.1
  · rintro err rfl
    cases h

theorem Paid.step (h : t.Paid A B k) {e : OnceEvent} (hs : (once A B).step t e = some t') : t'.Paid A B k := by
  have htotal := h.total
  simp only [OnceTransfer.total] at htotal
  cases e with
  | sender e =>
    change (if onceAllows B t.toSender e then _ else none) = some t' at hs
    split_ifs at hs with ha
    obtain ⟨s, hstep, rfl⟩ := Option.map_eq_some_iff.1 hs
    obtain ⟨hd, hf⟩ := onceAllows_iff ha
    have hb := (Tftpsender.frugal B k).step h.sender.1 h.sender.2 hstep hd hf
    obtain ⟨w, hw, hpay⟩ := hb.wire
    refine ⟨⟨hb.wf, hb.active⟩, h.receiver, ?_⟩
    have hdrop : s.io.wire.drop t.sender.io.wire.length = w := by
      rw [show s.io.wire = t.sender.io.wire ++ w from hw, List.drop_left]
    have hcount : (blockNrs s.io.wire).count k = (blockNrs t.sender.io.wire).count k + (blockNrs w).count k := by
      rw [show s.io.wire = t.sender.io.wire ++ w from hw, blockNrs, dataSent_append, List.map_append,
        List.count_append]
      rfl
    have hspent := spent_dataBelow k w
    have hsent := onWay_sentTo_le (dataBelow k) B w
    have hoff := onWay_takeOff (ackBelow k) ha
    have hpay' : Io.spent (dataBelow (k + 1)) w + pendingSender k s ≤ pendingSender k t.sender +
        (e.worth (ackBelow k) + (e.handlesExpiry t.sender.io).toNat) := hpay
    simp only [OnceTransfer.total, hdrop, hcount, onWay_append]
    omega
  | receiver e =>
    change (if onceAllows A t.toReceiver e then _ else none) = some t' at hs
    split_ifs at hs with ha
    obtain ⟨r, hstep, rfl⟩ := Option.map_eq_some_iff.1 hs
    obtain ⟨hd, hf⟩ := onceAllows_iff ha
    have hb := (TftpReceiver.frugal A k).step h.receiver.1 h.receiver.2 hstep hd hf
    obtain ⟨w, hw, hpay⟩ := hb.wire
    refine ⟨h.sender, ⟨hb.wf, hb.active⟩, ?_⟩
    have hdrop : r.io.wire.drop t.receiver.io.wire.length = w := by
      rw [show r.io.wire = t.receiver.io.wire ++ w from hw, List.drop_left]
    have hsent := onWay_sentTo_le (ackBelow k) A w
    have hoff := onWay_takeOff (dataBelow k) ha
    have hpay' : Io.spent (ackBelow k) w + pendingReceiver k r ≤ pendingReceiver k t.receiver +
        (e.worth (dataBelow k) + (e.handlesExpiry t.receiver.io).toNat) := hpay
    simp only [OnceTransfer.total, hdrop, onWay_append]
    omega

/-- **Resends do not multiply.**  Of each DATA message at most one is sent, and one more for
    each expiration that either end has handled. -/
theorem resends_bounded (h : (once A B).Reach t) (k : ℕ) :
    (blockNrs t.sender.io.wire).count k ≤ 1 + t.expirations := by
  have hpaid : t.Paid A B k :=
    h.inv (Paid A B k) (fun _ h => .init h) fun _ _ _ _ hp hs => hp.step hs
  have htotal := hpaid.total
  simp only [OnceTransfer.total] at htotal
  omega

set_option maxRecDepth 4096 in
/-- The bound is reached: DATA 1 is sent twice if the sender's timer expires once. -/
theorem resends_bounded_once : ∃ t, (once ⟨1, 2⟩ ⟨3, 4⟩).Reach t ∧ (blockNrs t.sender.io.wire).count 1 = 2 ∧
    (blockNrs t.sender.io.wire).count 1 ≤ 1 + t.expirations := by
  have hrun : ∃ t, (once ⟨1, 2⟩ ⟨3, 4⟩).run
      { sender := .newConnected {} (.ofFile (some (List.replicate 512 0))) ⟨3, 4⟩ 1 defaultBlocksize 2
        receiver := .new {} {} defaultBlocksize 2 }
      [.sender .start, .sender (.sendCompletes .success), .sender (.runSend 0), .sender .expire,
        .sender (.runTimer 0), .sender (.runReceive 0)] = some t ∧
      (blockNrs t.sender.io.wire).count 1 = 2 := ⟨_, rfl, rfl⟩
  obtain ⟨t, hrun, hcount⟩ := hrun
  have hinit : (once ⟨1, 2⟩ ⟨3, 4⟩).Reach
      { sender := .newConnected {} (.ofFile (some (List.replicate 512 0))) ⟨3, 4⟩ 1 defaultBlocksize 2
        receiver := .new {} {} defaultBlocksize 2 } := .init ⟨.rrq _ _ _ _, rfl, rfl, rfl⟩
  have ht := hinit.run hrun
  exact ⟨t, ht, hcount, resends_bounded ht 1⟩

end OnceTransfer

end Ttftp

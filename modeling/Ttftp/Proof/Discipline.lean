/-
  The sender against any peer: whatever arrives, in whatever order the handlers
  run, it sends the blocks of its file one after the other, a new one only after
  the ACK of the one before.

  `Disciplined F bs n` holds of every sender that has got as far as block `n`;
  its fields `fail` and `done` say that a sender which has not ended yet has a
  failed stream exactly if block `n` is a short one.  A resend reads the stream
  anew, so that `resend_iff` follows: only full blocks can be repeated.
-/
import Mathlib.Data.List.Dedup
import Mathlib.Data.List.Sort
import Ttftp.Proof.Sender

namespace Ttftp

open Bytes Asio

/-- The number of a DATA message. -/
def blockNr (d : Bytes) : ℕ := (ntohs d 2).toNat

/-- The numbers of the blocks that have been sent. -/
def blockNrs (wire : List (Endpoint × Bytes)) : List ℕ := (dataSent wire).map blockNr

theorem blockNr_dataBytes (nr : UInt16) (d : Bytes) : blockNr (dataBytes nr d) = nr.toNat :=
  congrArg UInt16.toNat (ntohs_htons (htons _) _ _)

theorem blockNr_dataOf (F : Bytes) (bs : ℕ) {i : ℕ} (hi : i ≤ 65535) : blockNr (dataOf F bs i) = i := by
  rw [dataOf, blockNr_dataBytes, UInt16.toNat_ofNat']
  omega

theorem dataSent_append (w w' : List (Endpoint × Bytes)) :
    dataSent (w ++ w') = dataSent w ++ dataSent w' := by
  simp [dataSent]

theorem dataSent_data (dst : Endpoint) (nr : UInt16) (d : Bytes) :
    dataSent [(dst, dataBytes nr d)] = [dataBytes nr d] := by
  simp [dataSent, ntohs_dataBytes]

theorem dataSent_error (dst : Endpoint) (msg : ErrorMessage) : dataSent [(dst, msg.encode)] = [] := by
  have h : TftpOpcode.error.toUInt16 ≠ TftpOpcode.data.toUInt16 := by decide
  simp [dataSent, ErrorMessage.ntohs_encode, h]

/-! ## The blocks that have been sent -/

/-- The first `n` blocks have been sent, in order, each once or several times. -/
structure Sent (F : Bytes) (bs n : ℕ) (wire : List (Endpoint × Bytes)) : Prop where
  bound : n ≤ 65535
  sorted : (blockNrs wire).Pairwise (· ≤ ·)
  numbers : ∀ k, k ∈ blockNrs wire ↔ 1 ≤ k ∧ k ≤ n
  data : ∀ d ∈ dataSent wire, d = dataOf F bs (blockNr d)

namespace Sent
variable {F : Bytes} {bs n : ℕ} {w : List (Endpoint × Bytes)}

theorem nil (F : Bytes) (bs : ℕ) : Sent F bs 0 [] :=
  ⟨Nat.zero_le _, .nil, fun k => by simp [blockNrs, dataSent]; omega, fun d hd => by simp [dataSent] at hd⟩

/-- Errors do not count. -/
theorem error (h : Sent F bs n w) (dst : Endpoint) (msg : ErrorMessage) :
    Sent F bs n (w ++ [(dst, msg.encode)]) := by
  have hd : dataSent (w ++ [(dst, msg.encode)]) = dataSent w := by
    rw [dataSent_append, dataSent_error, List.append_nil]
  exact ⟨h.bound, by rw [blockNrs, hd]; exact h.sorted, by rw [blockNrs, hd]; exact h.numbers,
    by rw [hd]; exact h.data⟩

/-- The last block is sent once more, or the next one. -/
theorem block (h : Sent F bs n w) (dst : Endpoint) {c : ℕ} (hc : c = n ∨ c = n + 1) (h1 : 1 ≤ c)
    (hb : c ≤ 65535) : Sent F bs c (w ++ [(dst, dataOf F bs c)]) := by
  have hd : dataSent (w ++ [(dst, dataOf F bs c)]) = dataSent w ++ [dataOf F bs c] := by
    rw [dataSent_append]
    exact congrArg (dataSent w ++ ·) (dataSent_data _ _ _)
  have hnr : blockNrs (w ++ [(dst, dataOf F bs c)]) = blockNrs w ++ [c] := by
    rw [blockNrs, hd, List.map_append, List.map_singleton, blockNr_dataOf _ _ hb]
    rfl
  refine ⟨hb, ?_, fun k => ?_, fun d hm => ?_⟩
  · rw [hnr, List.pairwise_append]
    refine ⟨h.sorted, List.pairwise_singleton _ _, fun k hk m hm => ?_⟩
    rw [List.mem_singleton] at hm
    have := (h.numbers k).1 hk
    omega
  · rw [hnr, List.mem_append, h.numbers, List.mem_singleton]
    omega
  · rw [hd, List.mem_append, List.mem_singleton] at hm
    rcases hm with hm | rfl
    · exact h.data d hm
    · rw [blockNr_dataOf _ _ hb]

/-- Without repeats the numbers are `1, 2, …, n`. -/
theorem dedup (h : Sent F bs n w) : (blockNrs w).dedup = List.range' 1 n := by
  have hperm : (blockNrs w).dedup.Perm (List.range' 1 n) := by
    refine (List.perm_ext_iff_of_nodup (List.nodup_dedup _) List.nodup_range').2 fun k => ?_
    rw [List.mem_dedup, h.numbers, List.mem_range'_1]
    omega
  exact hperm.eq_of_pairwise' (h.sorted.sublist (List.dedup_sublist _)) List.pairwise_le_range'

end Sent

namespace Tftpsender

/-- The senders of the file `F` that client and server build. -/
inductive SendsFile (F : Bytes) (bs : ℕ) : Tftpsender → Prop
  | unknown {firstAck : ℤ} (h : firstAck = 0 ∨ firstAck = 1) (timeoutSeconds : UInt8) :
      SendsFile F bs (new {} (.ofFile (some F)) firstAck bs timeoutSeconds)
  | known (remote : Endpoint) {firstAck : ℤ} (h : firstAck = 0 ∨ firstAck = 1) (timeoutSeconds : UInt8) :
      SendsFile F bs (newConnected {} (.ofFile (some F)) remote firstAck bs timeoutSeconds)

/-- Their runs. -/
def fileLts (F : Bytes) (bs : ℕ) : Lts Tftpsender (Event Endpoint) := proactor.lts (SendsFile F bs)

/-- The sender has sent the first `n` blocks; while it has not ended, its stream
    has failed exactly if block `n` is a short one. -/
structure Disciplined (F : Bytes) (bs n : ℕ) (s : Tftpsender) : Prop where
  wf : s.WellFormed
  blocksize : s.blocksize = bs
  content : s.input.content = F
  sent : Sent F bs n s.io.wire
  fail : s.operationEnded = false → s.input.fail = decide (F.length < n * bs)
  done : s.operationEnded = false → s.sendingdone = decide (F.length < n * bs)

/-- Unless it has ended, the sender waits for the ACK of block `n`. -/
def Current (n : ℕ) (s : Tftpsender) : Prop := s.operationEnded = false → s.lastsentdatacount.toNat = n

namespace Disciplined
variable {F : Bytes} {bs n : ℕ} {s : Tftpsender}

theorem io (h : s.Disciplined F bs n) (io : Io SenderHandler Endpoint) (ho : io.isOpen = s.io.isOpen)
    (hw : io.wire = s.io.wire) : Disciplined F bs n { s with io := io } :=
  { h with wf := h.wf.io io ho, sent := hw ▸ h.sent }

theorem sendErrorMsg (h : s.Disciplined F bs n) (c : UInt16) (m : Bytes) (e : Endpoint) :
    (s.sendErrorMsg c m e).Disciplined F bs n := by
  refine { h with wf := h.wf.sendErrorMsg _ _ _, sent := ?_ }
  change Sent F bs n (Io.asyncSendDetached _ _ _).wire
  rw [Io.asyncSendDetached_wire]
  split_ifs
  · exact h.sent.error _ _
  · rw [List.append_nil]
    exact h.sent

theorem endOperationWith (h : s.Disciplined F bs n) (code : TftpUserFacingErrorCode) :
    (s.endOperationWith code).Disciplined F bs n := by
  have hwf := h.wf.endOperationWith code
  unfold Tftpsender.endOperationWith at hwf ⊢
  split_ifs at hwf ⊢
  · exact h
  · exact ⟨hwf, h.blocksize, h.content, h.sent, fun he => (Bool.noConfusion he), fun he => Bool.noConfusion he⟩

theorem startNextReceive (h : s.Disciplined F bs n) : s.startNextReceive.Disciplined F bs n :=
  h.io _ (by simp) (by simp)

/-- The block that can be read is sent, and becomes the last one. -/
theorem sendNextBlock_good (h : s.Disciplined F bs n) (hbs : 8 ≤ bs) (hbs' : bs ≤ 65464)
    (he : s.operationEnded = false) (hf : F.length < n * bs → False) (h1 : 1 ≤ s.lastsentdatacount.toNat)
    (hc : s.lastsentdatacount.toNat = n ∨ s.lastsentdatacount.toNat = n + 1) :
    s.sendNextBlock.Disciplined F bs s.lastsentdatacount.toNat ∧
      s.sendNextBlock.lastsentdatacount = s.lastsentdatacount ∧ s.sendNextBlock.operationEnded = false ∧
      s.sendNextBlock.io.wire =
        s.io.wire ++ [(s.mReceiverEndpoint, dataOf F bs s.lastsentdatacount.toNat)] := by
  have hwf := h.wf.sendNextBlock
  have hfail := (h.fail he).trans (decide_eq_false hf)
  have hdone := (h.done he).trans (decide_eq_false hf)
  obtain ⟨input, lastsentdata, hi, -, -, hshort, heq⟩ := sendNextBlock_block h.wf
    (by rw [h.blocksize]; exact hbs') h1 hfail hdone
  have hopen : s.io.isOpen = true := by rw [h.wf.isOpen, he]; rfl
  have hwire : s.sendNextBlock.io.wire =
      s.io.wire ++ [(s.mReceiverEndpoint, dataOf F bs s.lastsentdatacount.toNat)] := by
    rw [heq, Io.asyncSendTo_wire, hopen, if_pos rfl, h.content, h.blocksize]
  have hlast : input.fail = decide (F.length < s.lastsentdatacount.toNat * bs) := by
    rw [hshort, h.content, h.blocksize]
    refine decide_eq_decide.2 ?_
    rw [length_block_lt _ (by omega), Nat.sub_add_cancel h1]
  have hb := s.lastsentdatacount.toNat_lt
  refine ⟨⟨hwf, ?_, ?_, ?_, fun _ => ?_, fun _ => ?_⟩, ?_, ?_, hwire⟩
  · rw [heq]; exact h.blocksize
  · rw [heq]; exact hi.trans h.content
  · rw [hwire]; exact h.sent.block _ hc h1 (by omega)
  · rw [heq]; exact hlast
  · rw [heq]; exact hlast
  · rw [heq]
  · rw [heq]; exact he

/-- Without it the operation ends, and no block is sent. -/
theorem sendNextBlock_bad (h : s.Disciplined F bs n) (hs : s.operationEnded = true ∨ s.seeked.fail = true) :
    s.sendNextBlock.Disciplined F bs n ∧ s.sendNextBlock.operationEnded = true := by
  have hwf := h.wf.sendNextBlock
  have hclosed : ∀ {t : Tftpsender} (d : Bytes), t.WellFormed → t.operationEnded = true →
      (t.io.asyncSendTo s.mReceiverEndpoint d).wire = t.io.wire := by
    intro t d ht he
    rw [Io.asyncSendTo_wire, ht.isOpen, he]
    exact List.append_nil _
  cases hf : s.seeked.fail with
  | false =>
    have he : s.operationEnded = true := hs.resolve_right (by rw [hf]; exact Bool.false_ne_true)
    rw [Tftpsender.sendNextBlock_good h.wf hf] at hwf ⊢
    refine ⟨⟨hwf, h.blocksize, ?_, ?_, fun h' => ?_, fun h' => ?_⟩, he⟩
    · simp only [IStream.read_content, seeked, IStream.seekg_content]
      exact h.content
    · simp only [hclosed _ h.wf he]
      exact h.sent
    · rw [show s.operationEnded = false from h'] at he; cases he
    · rw [show s.operationEnded = false from h'] at he; cases he
  | true =>
    rw [Tftpsender.sendNextBlock_bad h.wf hf] at hwf ⊢
    have hended := inputFileError_ended s
    have hi : s.inputFileError.input.content = F ∧ s.inputFileError.blocksize = s.blocksize ∧
        Sent F bs n s.inputFileError.io.wire := by
      have hsent := (h.sendErrorMsg TftpErrorCode.accessViolation.toUInt16
        (ascii "Error reading from requested file. Might not exist (anymore) or insufficient permissions.")
        s.mReceiverEndpoint).sent
      unfold inputFileError Tftpsender.endOperationWith
      split_ifs
      · exact ⟨(IStream.seekg_content _ _).trans h.content, rfl, hsent⟩
      · exact ⟨(IStream.seekg_content _ _).trans h.content, rfl, hsent⟩
    refine ⟨⟨hwf, hi.2.1.trans h.blocksize, hi.1, ?_, fun h' => ?_, fun h' => ?_⟩, hended⟩
    · simp only [hclosed _ h.wf.inputFileError hended]
      exact hi.2.2
    · rw [show s.inputFileError.operationEnded = false from h'] at hended; cases hended
    · rw [show s.inputFileError.operationEnded = false from h'] at hended; cases hended

/-- A block is repeated, or the next one is sent, or the operation ends. -/
theorem sendNextBlock (h : s.Disciplined F bs n) (hbs : 8 ≤ bs) (hbs' : bs ≤ 65464)
    (hc : s.operationEnded = false → s.lastsentdatacount.toNat = n ∨
      s.lastsentdatacount.toNat = n + 1 ∨ s.lastsentdatacount.toNat = 0) :
    ∃ n', s.sendNextBlock.Disciplined F bs n' ∧ s.sendNextBlock.Current n' ∧
      (n' = n ∨ n' = n + 1 ∧ s.operationEnded = false ∧ s.lastsentdatacount.toNat = n + 1) := by
  by_cases hs : s.operationEnded = true ∨ s.seeked.fail = true
  · obtain ⟨h1, h2⟩ := h.sendNextBlock_bad hs
    exact ⟨n, h1, fun he => (by rw [h2] at he; cases he), .inl rfl⟩
  · obtain ⟨he, hf⟩ := not_or.1 hs
    rw [Bool.not_eq_true] at he hf
    obtain ⟨h1, hfail⟩ := seeked_good (by rw [h.blocksize]; omega) (by rw [h.blocksize]; exact hbs') hf
    rw [h.fail he] at hfail
    have hc' : s.lastsentdatacount.toNat = n ∨ s.lastsentdatacount.toNat = n + 1 := by
      have := hc he
      omega
    obtain ⟨g1, g2, -, -⟩ := h.sendNextBlock_good hbs hbs' he (of_decide_eq_false hfail) h1 hc'
    refine ⟨_, g1, fun _ => congrArg UInt16.toNat g2, ?_⟩
    rcases hc' with hc' | hc'
    · exact .inl hc'
    · exact .inr ⟨hc', he, hc'⟩

theorem handleBlockSent (h : s.Disciplined F bs n) (err : ErrorCode) (m : ℕ) :
    (s.handleBlockSent err m).Disciplined F bs n := by
  unfold Tftpsender.handleBlockSent
  split_ifs
  · exact (h.io _ (by simp) (by simp)).startNextReceive
  · exact h

theorem countAck (h : s.Disciplined F bs n) : s.countAck.Disciplined F bs n := by
  have hwf := h.wf.countAck
  unfold Tftpsender.countAck onConnect at hwf ⊢
  split_ifs at hwf ⊢ <;> exact ⟨hwf, h.blocksize, h.content, h.sent, h.fail, h.done⟩

/-- The expected ACK leads to the next block. -/
theorem acceptAck (h : s.Disciplined F bs n) (hbs : 8 ≤ bs) (hbs' : bs ≤ 65464) (hc : s.Current n) :
    ∃ n', s.acceptAck.Disciplined F bs n' ∧ s.acceptAck.Current n' ∧
      (n' = n ∨ n' = n + 1 ∧ s.operationEnded = false) := by
  have hcount : s.countAck.lastsentdatacount = s.lastsentdatacount + 1 := by
    unfold Tftpsender.countAck; split_ifs <;> rfl
  unfold Tftpsender.acceptAck
  split_ifs
  · exact ⟨n, h.countAck.endOperationWith _, fun he => (by simp at he), .inl rfl⟩
  · have hnext : s.countAck.operationEnded = false → s.countAck.lastsentdatacount.toNat = n ∨
        s.countAck.lastsentdatacount.toNat = n + 1 ∨ s.countAck.lastsentdatacount.toNat = 0 := by
      intro he
      rw [countAck_operationEnded] at he
      rw [hcount, UInt16.toNat_add, hc he, UInt16.toNat_one]
      have := h.sent.bound
      omega
    obtain ⟨n', h1, h2, h3⟩ := h.countAck.sendNextBlock hbs hbs' hnext
    refine ⟨n', h1, h2, h3.imp_right fun h3 => ⟨h3.1, ?_⟩⟩
    rw [← countAck_operationEnded]
    exact h3.2.1

theorem checkAckForLastBlock (h : s.Disciplined F bs n) (hbs : 8 ≤ bs) (hbs' : bs ≤ 65464)
    (hc : s.Current n) (err : ErrorCode) (m : ℕ) :
    ∃ n', (s.checkAckForLastBlock err m).Disciplined F bs n' ∧
      (s.checkAckForLastBlock err m).Current n' ∧
      (n' = n ∨ n' = n + 1 ∧ s.operationEnded = false ∧ s.ackBranch err m = .expectedAck) := by
  have ht : Disciplined F bs n { s with io := s.io.timerCancel } := h.io _ rfl rfl
  have hio : ackBranch err m { s with io := s.io.timerCancel } = s.ackBranch err m := rfl
  have hended : ∀ {t : Tftpsender}, t.operationEnded = true → t.Current n := by
    intro t h' he
    rw [h'] at he
    cases he
  -- a resend does not move on to the next block
  have hsame : ∀ {t : Tftpsender}, t.Disciplined F bs n → t.Current n →
      ∃ n', t.sendNextBlock.Disciplined F bs n' ∧ t.sendNextBlock.Current n' ∧ n' = n := by
    intro t ht' hc'
    obtain ⟨n', h1, h2, h3⟩ := ht'.sendNextBlock hbs hbs' fun he => .inl (hc' he)
    refine ⟨n', h1, h2, h3.resolve_right fun h3 => ?_⟩
    have := hc' h3.2.1
    omega
  rw [Tftpsender.checkAckForLastBlock]
  simp only [hio]
  cases hb : s.ackBranch err m with
  | wrongOpcode => exact ⟨n, (ht.sendErrorMsg _ _ _).endOperationWith _, hended (by simp), .inl rfl⟩
  | olderAck =>
    obtain ⟨n', h1, h2, h3⟩ := hsame ht hc
    exact ⟨n', h1, h2, .inl h3⟩
  | expectedAck =>
    obtain ⟨n', h1, h2, h3⟩ := ht.acceptAck hbs hbs' hc
    exact ⟨n', h1, h2, h3.imp_right fun h3 => ⟨h3.1, h3.2, rfl⟩⟩
  | futureAck => exact ⟨n, (ht.sendErrorMsg _ _ _).endOperationWith _, hended (by simp), .inl rfl⟩
  | foreignHost =>
    obtain ⟨n', h1, h2, h3⟩ := hsame (ht.sendErrorMsg TftpErrorCode.unknownTrId.toUInt16
      (ascii "Remote host is not the partner of the transfer on this port") _) hc
    exact ⟨n', h1, h2, .inl h3⟩
  | retry =>
    obtain ⟨n', h1, h2, h3⟩ := hsame ht hc
    exact ⟨n', h1, h2, .inl h3⟩
  | fatal => exact ⟨n, ht.endOperationWith _, hended (by simp), .inl rfl⟩

theorem handleReadTimeout (h : s.Disciplined F bs n) (hc : s.Current n) (err : ErrorCode) :
    (s.handleReadTimeout err).Disciplined F bs n ∧ (s.handleReadTimeout err).Current n := by
  have hwf := h.wf.handleReadTimeout err
  unfold Tftpsender.handleReadTimeout at hwf ⊢
  split_ifs at hwf ⊢
  · exact ⟨h, hc⟩
  · unfold Io.cancel at hwf ⊢
    split_ifs at hwf ⊢
    · have ht : Disciplined F bs n { s with io := s.io.abortAll, timeoutcount := s.timeoutcount + 1 } :=
        { h with wf := ⟨h.wf.isOpen, h.wf.lastsentdata, h.wf.gcount, h.wf.ackbuffer⟩ }
      dsimp only at hwf ⊢
      split_ifs at hwf ⊢
      · exact ⟨ht, hc⟩
      · exact ⟨(ht.sendErrorMsg _ _ _).endOperationWith _, fun he => by simp at he⟩
    · exact ⟨{ h with wf := hwf }, hc⟩

theorem start (h : s.Disciplined F bs n) (hbs : 8 ≤ bs) (hbs' : bs ≤ 65464)
    (hc : n = 0 ∧ s.lastsentdatacount.toNat ≤ 1 ∨ s.Current n) :
    ∃ n', s.start.Disciplined F bs n' ∧ s.start.Current n' ∧ (n' = n ∨ n' = n + 1 ∧ n = 0) := by
  unfold Tftpsender.start
  split_ifs with hf h1
  · exact ⟨n, (h.sendErrorMsg _ _ _).endOperationWith _, fun he => by simp at he, .inl rfl⟩
  · have hone : s.lastsentdatacount.toNat = 1 := by rw [h1]; rfl
    have hnext : s.operationEnded = false → s.lastsentdatacount.toNat = n ∨
        s.lastsentdatacount.toNat = n + 1 ∨ s.lastsentdatacount.toNat = 0 := by
      intro he
      rcases hc with hc | hc
      · omega
      · exact .inl (hc he)
    obtain ⟨n', g1, g2, g3⟩ := h.sendNextBlock hbs hbs' hnext
    refine ⟨n', g1, g2, g3.imp_right fun g3 => ⟨g3.1, ?_⟩⟩
    have := g3.2.2
    -- block 1 has been sent as the next one or as the same one
    rcases hc with hc | hc
    · exact hc.1
    · have := hc g3.2.1
      omega
  · refine ⟨n, h.startNextReceive, fun he => ?_, .inl rfl⟩
    rcases hc with ⟨rfl, hc⟩ | hc
    · change s.lastsentdatacount.toNat = 0
      have hne : s.lastsentdatacount.toNat ≠ 1 := fun hone => h1 (UInt16.toNat_inj.1 hone)
      omega
    · exact hc he

end Disciplined

/-! ## Runs -/

/-- The handled event is the arrival, from the peer, of the ACK of block `k`, which
    is the current one. -/
def AcksBlock (k : ℕ) (x : Tftpsender × Event Endpoint × Tftpsender) : Prop :=
  ∃ i h, x.2.1 = .runReceive i ∧
    x.1.io.received[i]? = some (h, .success, opcodeLength + blockNrLength) ∧
    x.1.receivedMsg = (true, ⟨UInt16.ofNat k⟩) ∧ x.1.lastsentdatacount.toNat = k ∧
    x.2.2.isConnected = true ∧ x.2.2.mReceiverEndpoint = x.1.mLastReceivedReceiverEndpoint

/-- Before its start the sender has not done anything. -/
def Advanced (F : Bytes) (bs n : ℕ) (s : Tftpsender) : Prop :=
  s.Disciplined F bs n ∧ (s.io = {} ∧ n = 0 ∧ s.lastsentdatacount.toNat ≤ 1 ∨ s.Current n)

namespace Advanced
variable {F : Bytes} {bs n : ℕ} {s s' : Tftpsender} {e : Event Endpoint}

theorem init (h : SendsFile F bs s) : s.Advanced F bs 0 := by
  have hd : decide (F.length < 0 * bs) = false := decide_eq_false (by omega)
  have hcount : ∀ {firstAck : ℤ}, firstAck = 0 ∨ firstAck = 1 → (UInt16.ofInt firstAck).toNat ≤ 1 := by
    rintro _ (rfl | rfl) <;> decide
  cases h with
  | unknown hack t =>
    exact ⟨⟨⟨rfl, List.length_replicate, Nat.zero_le _, rfl⟩, rfl, rfl, Sent.nil F bs, fun _ => hd.symm,
      fun _ => hd.symm⟩, .inl ⟨rfl, rfl, hcount hack⟩⟩
  | known remote hack t =>
    exact ⟨⟨⟨rfl, List.length_replicate, Nat.zero_le _, rfl⟩, rfl, rfl, Sent.nil F bs, fun _ => hd.symm,
      fun _ => hd.symm⟩, .inl ⟨rfl, rfl, hcount hack⟩⟩

theorem step (h : s.Advanced F bs n) (hbs : 8 ≤ bs) (hbs' : bs ≤ 65464)
    (hstep : proactor.step s e = some s') :
    ∃ n', s'.Advanced F bs n' ∧ (n' = n ∨ n' = n + 1 ∧ (1 ≤ n → AcksBlock n (s, e, s'))) := by
  obtain ⟨hd, hc⟩ := h
  have hwf := hd.wf.step hstep
  obtain ⟨-, hs⟩ := Proactor.step_cases hstep
  cases hs with
  | start _ =>
    have hstart : Disciplined F bs n { s with io := { s.io with started := true } } := hd.io _ rfl rfl
    obtain ⟨n', h1, h2, h3⟩ := hstart.start hbs hbs' (hc.imp And.right id)
    exact ⟨n', ⟨h1, .inr h2⟩, h3.imp_right fun h3 => ⟨h3.1, fun hn => absurd h3.2 (by omega)⟩⟩
  | deliver hr =>
    rcases hc with hc | hc
    · rw [show proactor.io s = s.io from rfl, hc.1] at hr
      cases hr
    · exact ⟨n, ⟨{ hd with wf := hwf }, .inr hc⟩, .inl rfl⟩
  | receiveFails hr _ =>
    rcases hc with hc | hc
    · rw [show proactor.io s = s.io from rfl, hc.1] at hr
      cases hr
    · exact ⟨n, ⟨hd.io _ rfl rfl, .inr hc⟩, .inl rfl⟩
  | sendCompletes hn =>
    rcases hc with hc | hc
    · rw [show proactor.io s = s.io from rfl, hc.1] at hn
      cases hn
    · exact ⟨n, ⟨hd.io _ rfl rfl, .inr hc⟩, .inl rfl⟩
  | expire hw =>
    rcases hc with hc | hc
    · rw [show proactor.io s = s.io from rfl, hc.1] at hw
      exact absurd rfl hw
    · exact ⟨n, ⟨hd.io _ rfl rfl, .inr hc⟩, .inl rfl⟩
  | @runReceive i r err m hx =>
    rcases hc with hc | hc
    · rw [show proactor.io s = s.io from rfl, hc.1] at hx
      cases hx
    · have ht : Disciplined F bs n { s with io := { s.io with received := s.io.received.eraseIdx i } } :=
        hd.io _ rfl rfl
      obtain ⟨n', h1, h2, h3⟩ := ht.checkAckForLastBlock hbs hbs' hc err m
      have hpeer := fun hb => @checkAckForLastBlock_peer
        { s with io := { s.io with received := s.io.received.eraseIdx i } } ht.wf err m hb
      rw [← onReceive_eq r] at h1 h2 hpeer
      refine ⟨n', ⟨h1, .inr h2⟩, h3.imp_right fun h3 => ⟨h3.1, fun _ => ?_⟩⟩
      obtain ⟨-, he, hb⟩ := h3
      obtain ⟨rfl, rfl, -, hmsg⟩ := ackBranch_expectedAck hb
      have hcount : s.lastsentdatacount.toNat = n := hc he
      refine ⟨i, r, rfl, hx, ?_, hcount, hpeer hb⟩
      rw [← hcount, UInt16.ofNat_toNat]
      exact hmsg
  | @runSend i err m hx =>
    rcases hc with hc | hc
    · rw [show proactor.io s = s.io from rfl, hc.1] at hx
      cases hx
    · have ht : Disciplined F bs n { s with io := { s.io with sent := s.io.sent.eraseIdx i } } :=
        hd.io _ rfl rfl
      refine ⟨n, ⟨ht.handleBlockSent err m, .inr fun he => ?_⟩, .inl rfl⟩
      change (Tftpsender.handleBlockSent err m _).operationEnded = false at he
      change (Tftpsender.handleBlockSent err m _).lastsentdatacount.toNat = n
      unfold handleBlockSent at he ⊢
      split_ifs at he ⊢ <;> exact hc he
  | @runTimer i err hx =>
    rcases hc with hc | hc
    · rw [show proactor.io s = s.io from rfl, hc.1] at hx
      cases hx
    · have ht : Disciplined F bs n { s with io := { s.io with waited := s.io.waited.eraseIdx i } } :=
        hd.io _ rfl rfl
      obtain ⟨h1, h2⟩ := ht.handleReadTimeout hc err
      exact ⟨n, ⟨h1, .inr h2⟩, .inl rfl⟩

end Advanced

/-- What a run of a sender has sent: numbers that never decrease and, without
    repeats, are `1, 2, …`; with each its block; and each but the first after the
    ACK of the block before. -/
structure Orderly (F : Bytes) (bs : ℕ) (tr : List (Tftpsender × Event Endpoint × Tftpsender))
    (s : Tftpsender) : Prop where
  sorted : (blockNrs s.io.wire).Pairwise (· ≤ ·)
  numbers : ∃ n, (blockNrs s.io.wire).dedup = List.range' 1 n
  data : ∀ d ∈ dataSent s.io.wire, d = dataOf F bs (blockNr d)
  acked : ∀ k, 1 ≤ k → k + 1 ∈ blockNrs s.io.wire → ∃ x ∈ tr, AcksBlock k x

/-- **Sender discipline.**  Every run of a sender is orderly, whatever arrives from
    whom, whatever fails, and in whatever order the handlers run. -/
theorem sender_discipline {F : Bytes} {bs : ℕ} (hbs : 8 ≤ bs) (hbs' : bs ≤ 65464) {s₀ : Tftpsender}
    (h₀ : SendsFile F bs s₀) {es : List (Event Endpoint)} {s : Tftpsender}
    (h : (fileLts F bs).run s₀ es = some s) : Orderly F bs ((fileLts F bs).trace s₀ es) s := by
  have hinv := Lts.run_inv (L := fileLts F bs)
    (fun tr s => ∃ n, s.Advanced F bs n ∧ ∀ k, 1 ≤ k → k < n → ∃ x ∈ tr, AcksBlock k x)
    ⟨0, .init h₀, fun k _ hk => absurd hk (Nat.not_lt_zero k)⟩ ?_ h
  · obtain ⟨n, ⟨hd, -⟩, hacks⟩ := hinv
    refine ⟨hd.sent.sorted, ⟨n, hd.sent.dedup⟩, hd.sent.data, fun k hk hm => ?_⟩
    exact hacks k hk ((hd.sent.numbers _).1 hm).2
  · rintro tr s e s' ⟨n, hs, hacks⟩ hstep
    obtain ⟨n', hs', hn⟩ := hs.step hbs hbs' hstep
    refine ⟨n', hs', fun k hk hlt => ?_⟩
    by_cases hkn : k < n
    · obtain ⟨x, hx, hack⟩ := hacks k hk hkn
      exact ⟨x, List.mem_append_left _ hx, hack⟩
    · rcases hn with rfl | ⟨rfl, hack⟩
      · exact absurd hlt hkn
      · have hkn' : k = n := by omega
        subst hkn'
        exact ⟨_, List.mem_append_right _ (List.mem_singleton_self _), hack hk⟩

/-- A file of nine bytes. -/
def nineBytes : Bytes := [1, 2, 3, 4, 5, 6, 7, 8, 9]

/-- Its transfer, after the ACK of the first block. -/
theorem sender_discipline_nine_bytes : ∃ s,
    (fileLts nineBytes 8).run (newConnected {} (.ofFile (some nineBytes)) ⟨1, 2⟩ 1 8 2)
      [.start, .sendCompletes .success, .runSend 0, .deliver ⟨1, 2⟩ [0, 4, 0, 1], .runReceive 0] = some s ∧
    Orderly nineBytes 8
      ((fileLts nineBytes 8).trace (newConnected {} (.ofFile (some nineBytes)) ⟨1, 2⟩ 1 8 2)
        [.start, .sendCompletes .success, .runSend 0, .deliver ⟨1, 2⟩ [0, 4, 0, 1], .runReceive 0]) s :=
  ⟨_, rfl, sender_discipline (by decide) (by decide) (.known _ (.inr rfl) _) rfl⟩

/-! ## Resends -/

/-- Block `n` has been sent, and its ACK is waited for. -/
structure Awaits (n : ℕ) (s : Tftpsender) : Prop where
  running : s.operationEnded = false
  current : s.lastsentdatacount.toNat = n
  sent : n ∈ blockNrs s.io.wire

/-- The events that are answered with a resend: an ACK with a lower number, a message
    of the wrong length, one from another host, an aborted receive; and an expiry
    of the read timer that aborts the outstanding receive, before the last
    retransmission. -/
inductive Resends (s : Tftpsender) : List (Event Endpoint) → Prop
  | received {i : ℕ} {h : SenderHandler} {err : ErrorCode} {m : ℕ} :
      s.io.received[i]? = some (h, err, m) →
      s.ackBranch err m = .olderAck ∨ s.ackBranch err m = .retry ∨ s.ackBranch err m = .foreignHost →
      Resends s [.runReceive i]
  | expired {i : ℕ} : s.io.waited[i]? = some .success → s.io.receives ≠ [] →
      s.timeoutcount + 1 ≤ retransmissionsUntilTimeout →
      Resends s [.runTimer i, .runReceive s.io.received.length]

/-- The DATA message that was sent with number `n` is sent to the peer again, after
    errors at most, and the operation goes on. -/
def Repeats (n : ℕ) (s s' : Tftpsender) : Prop :=
  s'.operationEnded = false ∧ ∃ d ∈ dataSent s.io.wire, blockNr d = n ∧ ∃ errors, dataSent errors = [] ∧
    s'.io.wire = s.io.wire ++ errors ++ [(s.mReceiverEndpoint, d)]

section
variable {F : Bytes} {bs n : ℕ} {s s' : Tftpsender}

/-- The current block can be sent again if it is a full one. -/
theorem Disciplined.repeats_iff (h : s.Disciplined F bs n) (hbs : 8 ≤ bs) (hbs' : bs ≤ 65464)
    (hs : s.Awaits n) {t : Tftpsender} (ht : t.Disciplined F bs n) (hrun : t.operationEnded = false)
    (hcount : t.lastsentdatacount = s.lastsentdatacount) (hpeer : t.mReceiverEndpoint = s.mReceiverEndpoint)
    {errors : List (Endpoint × Bytes)} (herr : dataSent errors = [])
    (hwire : t.io.wire = s.io.wire ++ errors) : Repeats n s t.sendNextBlock ↔ n * bs ≤ F.length := by
  have hn := (h.sent.numbers n).1 hs.sent
  have hc : t.lastsentdatacount.toNat = n := by rw [hcount, hs.current]
  constructor
  · rintro ⟨he, -⟩
    by_contra hshort
    have hf : t.seeked.fail = true := by
      rw [seeked, IStream.seekg_fail, ht.fail hrun, decide_eq_true (not_le.1 hshort), Bool.true_or]
    rw [(ht.sendNextBlock_bad (.inr hf)).2] at he
    cases he
  · intro hfull
    obtain ⟨-, -, h3, h4⟩ := ht.sendNextBlock_good hbs hbs' hrun (fun hlt => by omega) (by omega) (.inl hc)
    obtain ⟨d, hd, hnr⟩ := List.mem_map.1 hs.sent
    have hdata := h.sent.data d hd
    rw [hnr] at hdata
    refine ⟨h3, d, hd, hnr, errors, herr, ?_⟩
    rw [h4, hwire, hpeer, hc, hdata]

/-- The handler of a receive. -/
theorem Disciplined.received_iff (h : s.Disciplined F bs n) (hbs : 8 ≤ bs) (hbs' : bs ≤ 65464)
    (hs : s.Awaits n) {i : ℕ} {r : SenderHandler} {err : ErrorCode} {m : ℕ}
    (hx : s.io.received[i]? = some (r, err, m))
    (hb : s.ackBranch err m = .olderAck ∨ s.ackBranch err m = .retry ∨ s.ackBranch err m = .foreignHost)
    (hstep : proactor.step s (.runReceive i) = some s') : Repeats n s s' ↔ n * bs ≤ F.length := by
  obtain ⟨-, hstep⟩ := Proactor.step_cases hstep
  cases hstep with
  | @runReceive i r' err' m' hx' =>
    cases hx.symm.trans hx'
    have ht : Disciplined F bs n
        { s with io := { s.io with received := s.io.received.eraseIdx i }.timerCancel } := h.io _ rfl rfl
    have hio : ackBranch err m { s with io := { s.io with received := s.io.received.eraseIdx i }.timerCancel } =
        s.ackBranch err m := rfl
    change Repeats n s (onReceive r err m { s with io := { s.io with received := s.io.received.eraseIdx i } }) ↔ _
    rw [onReceive_eq, Tftpsender.checkAckForLastBlock]
    simp only [hio]
    have hsame : Repeats n s (Tftpsender.sendNextBlock
        { s with io := { s.io with received := s.io.received.eraseIdx i }.timerCancel }) ↔ n * bs ≤ F.length :=
      h.repeats_iff hbs hbs' hs ht hs.running rfl rfl rfl (List.append_nil _).symm
    rcases hb with hb | hb | hb
    · rw [hb]; exact hsame
    · rw [hb]; exact hsame
    · rw [hb]
      refine h.repeats_iff hbs hbs' hs (ht.sendErrorMsg _ _ _) hs.running rfl rfl
        (dataSent_error s.mLastReceivedReceiverEndpoint ⟨TftpErrorCode.unknownTrId.toUInt16,
          ascii "Remote host is not the partner of the transfer on this port"⟩) ?_
      change (Io.asyncSendDetached _ _ _).wire = _
      rw [Io.asyncSendDetached_wire]
      have hopen : s.io.isOpen = true := by rw [h.wf.isOpen, hs.running]; rfl
      simp [hopen]

/-- An expiry of the read timer, before the last retransmission, aborts the
    outstanding receives. -/
theorem step_expired (hwf : s.WellFormed) (hrun : s.operationEnded = false) {i : ℕ}
    (hw : s.io.waited[i]? = some .success) (hlimit : s.timeoutcount + 1 ≤ retransmissionsUntilTimeout)
    {t : Tftpsender} (h : proactor.step s (.runTimer i) = some t) :
    t = { s with
      io := { s.io with waited := s.io.waited.eraseIdx i }.abortAll
      timeoutcount := s.timeoutcount + 1 } := by
  have hopen : s.io.isOpen = true := by rw [hwf.isOpen, hrun]; rfl
  obtain ⟨-, hstep⟩ := Proactor.step_cases h
  cases hstep with
  | @runTimer i err hx =>
    cases hw.symm.trans hx
    have hcancel : Io.cancel { s.io with waited := s.io.waited.eraseIdx i } =
        some { s.io with waited := s.io.waited.eraseIdx i }.abortAll := if_pos hopen
    change Tftpsender.handleReadTimeout .success
      { s with io := { s.io with waited := s.io.waited.eraseIdx i } } = _
    unfold Tftpsender.handleReadTimeout
    rw [if_neg (by simp)]
    simp only [hcancel]
    exact if_pos hlimit

/-- **When a resend repeats the block.**  Whatever a sender answers with a resend while
    it awaits the ACK of block `n`: the same DATA message goes out again, and the
    operation goes on, exactly if block `n` is a full one. -/
theorem resend_iff (hbs : 8 ≤ bs) (hbs' : bs ≤ 65464) (hr : (fileLts F bs).Reach s)
    (hs : s.Awaits n) {es : List (Event Endpoint)} (he : s.Resends es) (h : (fileLts F bs).run s es = some s') :
    Repeats n s s' ↔ n * bs ≤ F.length := by
  obtain ⟨n', hd, hc⟩ : ∃ n', s.Advanced F bs n' := by
    refine hr.inv (fun s => ∃ n', s.Advanced F bs n') (fun s h => ⟨0, .init h⟩) fun s e s' _ hs h => ?_
    obtain ⟨n', hs⟩ := hs
    obtain ⟨n'', h1, -⟩ := hs.step hbs hbs' h
    exact ⟨n'', h1⟩
  have hn : n' = n := by
    have := (hd.sent.numbers n).1 hs.sent
    rcases hc with hc | hc
    · omega
    · exact (hc hs.running).symm.trans hs.current
  subst hn
  cases he with
  | received hx hb =>
    obtain ⟨t, ht, h⟩ := Option.bind_eq_some_iff.1 h
    cases h
    exact hd.received_iff hbs hbs' hs hx hb ht
  | @expired i hw hrec hlimit =>
    obtain ⟨t, ht, h⟩ := Option.bind_eq_some_iff.1 h
    obtain ⟨t', ht', h⟩ := Option.bind_eq_some_iff.1 h
    cases h
    obtain ⟨r, rs, hrs⟩ := List.exists_cons_of_ne_nil hrec
    have heq := step_expired hd.wf hs.running hw hlimit ht
    have hreceived : t.io.received[s.io.received.length]? = some (r, .operationAborted, 0) := by
      rw [heq]
      simp [Io.abortAll, hrs]
    have hdt : t.Disciplined F bs n' := by
      rw [heq]
      exact { hd with wf := ⟨hd.wf.isOpen, hd.wf.lastsentdata, hd.wf.gcount, hd.wf.ackbuffer⟩ }
    have hst : t.Awaits n' := by
      rw [heq]
      exact ⟨hs.running, hs.current, hs.sent⟩
    have hb : t.ackBranch .operationAborted 0 = .retry ∨ t.ackBranch .operationAborted 0 = .foreignHost := by
      unfold ackBranch
      rw [if_neg (by simp)]
      split_ifs
      · exact .inr rfl
      · exact .inl rfl
      · next hab => exact absurd (.inl rfl) hab
    have hiff := hdt.received_iff hbs hbs' hst hreceived (.inr hb) ht'
    rw [heq] at hiff
    exact hiff

end

/-- A full block is sent again when the read timer expires. -/
theorem resend_full_block : ∃ s s',
    (fileLts nineBytes 8).run (newConnected {} (.ofFile (some nineBytes)) ⟨1, 2⟩ 1 8 2)
      [.start, .sendCompletes .success, .runSend 0, .expire] = some s ∧
    (fileLts nineBytes 8).run s [.runTimer 0, .runReceive 0] = some s' ∧
    (Repeats 1 s s' ↔ 1 * 8 ≤ nineBytes.length) := by
  obtain ⟨s, hs⟩ : ∃ s, (fileLts nineBytes 8).run (newConnected {} (.ofFile (some nineBytes)) ⟨1, 2⟩ 1 8 2)
    [.start, .sendCompletes .success, .runSend 0, .expire] = some s := ⟨_, rfl⟩
  obtain ⟨s', hs'⟩ : ∃ s', (fileLts nineBytes 8).run s [.runTimer 0, .runReceive 0] = some s' := by
    cases hs
    exact ⟨_, rfl⟩
  have hr : (fileLts nineBytes 8).Reach s :=
    .run (.init (SendsFile.known _ (.inr rfl) _)) hs
  have hawaits : s.Awaits 1 := by cases hs; exact ⟨rfl, rfl, by decide⟩
  have hresends : s.Resends [.runTimer 0, .runReceive 0] := by
    cases hs
    exact .expired rfl (List.cons_ne_nil _ _) (by decide)
  exact ⟨s, s', hs, hs', resend_iff (by decide) (by decide) hr hawaits hresends hs'⟩

/-- A short one is not: the operation ends. -/
theorem resend_short_block : ¬ ∀ F bs s n es s', 8 ≤ bs → bs ≤ 65464 →
    (fileLts F bs).Reach s → s.Awaits n → s.Resends es → (fileLts F bs).run s es = some s' →
    Repeats n s s' := by
  intro h
  obtain ⟨s, hs⟩ : ∃ s, (fileLts [5, 6, 7] 8).run
    (newConnected {} (.ofFile (some [5, 6, 7])) ⟨1, 2⟩ 1 8 2)
    [.start, .sendCompletes .success, .runSend 0, .expire] = some s := ⟨_, rfl⟩
  obtain ⟨s', hs'⟩ : ∃ s', (fileLts [5, 6, 7] 8).run s [.runTimer 0, .runReceive 0] = some s' := by
    cases hs
    exact ⟨_, rfl⟩
  have hr : (fileLts [5, 6, 7] 8).Reach s :=
    .run (.init (SendsFile.known _ (.inr rfl) _)) hs
  have hrepeats := h [5, 6, 7] 8 s 1 _ s' (by decide) (by decide) hr (by cases hs; exact ⟨rfl, rfl, by decide⟩)
    (by cases hs; exact .expired rfl (List.cons_ne_nil _ _) (by decide)) hs'
  have hended : s'.operationEnded = true := by cases hs; cases hs'; rfl
  rw [hrepeats.1] at hended
  cases hended

end Tftpsender

end Ttftp

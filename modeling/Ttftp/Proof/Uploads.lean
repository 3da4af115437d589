/-
  Uploads to one file: what the file holds when all of them have completed.

  The receiver of an upload writes the blocks of the file of its client, in their order
  (`Collects`), whatever else arrives.  All the streams append to one file, so that it
  is the file of one client exactly if there is nothing else to be found in it
  (`file_eq_upload_iff`).
-/
import Ttftp.Uploads
import Ttftp.Proof.Server
import Ttftp.Proof.Watch

namespace Ttftp

open Bytes Asio

namespace TftpReceiver

/-! ## What the operations leave alone -/

/-- At most `n` operations have been started, and nothing has been written or has
    arrived. -/
structure Leaves (n : ℕ) (s s' : TftpReceiver) : Prop where
  output : s'.output = s.output
  count : s'.lastreceiveddatacount = s.lastreceiveddatacount
  blocksize : s'.blocksize = s.blocksize
  peer : s'.mSenderEndpoint = s.mSenderEndpoint
  connected : s'.isConnected = s.isConnected
  tokens : s'.io.tokens ≤ s.io.tokens + n
  arrivals : s'.io.arrivals = s.io.arrivals

namespace Leaves
variable {s s' s'' : TftpReceiver} {m n : ℕ}

theorem refl (s : TftpReceiver) : Leaves 0 s s := ⟨rfl, rfl, rfl, rfl, rfl, le_rfl, rfl⟩

theorem trans (h : Leaves m s s') (h' : Leaves n s' s'') : Leaves (m + n) s s'' where
  output := h'.output.trans h.output
  count := h'.count.trans h.count
  blocksize := h'.blocksize.trans h.blocksize
  peer := h'.peer.trans h.peer
  connected := h'.connected.trans h.connected
  tokens := by have := h.tokens; have := h'.tokens; omega
  arrivals := h'.arrivals.trans h.arrivals

theorem mono (h : Leaves m s s') (hmn : m ≤ n) : Leaves n s s' :=
  { h with tokens := h.tokens.trans (Nat.add_le_add_left hmn _) }

theorem sendErrorMsg (c : UInt16) (msg : Bytes) (e : Endpoint) (s : TftpReceiver) :
    Leaves 0 s (s.sendErrorMsg c msg e) :=
  ⟨rfl, rfl, rfl, rfl, rfl, (Io.asyncSendDetached_tokens _ _ _).le, Io.asyncSendDetached_arrivals _ _ _⟩

theorem endOperationWith (code : TftpUserFacingErrorCode) (s : TftpReceiver) :
    Leaves 0 s (s.endOperationWith code) := by
  unfold TftpReceiver.endOperationWith
  split_ifs
  · exact refl s
  · exact ⟨rfl, rfl, rfl, rfl, rfl, (Io.close_tokens _).le, Io.close_arrivals _⟩

/-- An error message, and the end. -/
theorem fail (c : UInt16) (msg : Bytes) (e : Endpoint) (code : TftpUserFacingErrorCode) (s : TftpReceiver) :
    Leaves 0 s ((s.sendErrorMsg c msg e).endOperationWith code) :=
  (sendErrorMsg c msg e s).trans (endOperationWith code _)

theorem startNextReceive (s : TftpReceiver) : Leaves 1 s s.startNextReceive :=
  ⟨rfl, rfl, rfl, rfl, rfl, (Io.asyncReceiveFrom_tokens _ _).le, Io.asyncReceiveFrom_arrivals _ _⟩

theorem sendNextAck (l : Bool) (s : TftpReceiver) : Leaves 1 s (s.sendNextAck l) := by
  unfold TftpReceiver.sendNextAck Io.sendTo
  dsimp only
  split_ifs
  · refine (trans (m := 0) ?_ (endOperationWith _ _)).mono (Nat.zero_le 1)
    exact ⟨rfl, rfl, rfl, rfl, rfl, le_rfl, rfl⟩
  · exact ⟨rfl, rfl, rfl, rfl, rfl, Nat.le_succ _, rfl⟩
  · exact ⟨rfl, rfl, rfl, rfl, rfl, (Io.asyncSendTo_tokens _ _ _).le, Io.asyncSendTo_arrivals _ _ _⟩
  · exact ⟨rfl, rfl, rfl, rfl, rfl, (Io.asyncReceiveFrom_tokens _ _).le, Io.asyncReceiveFrom_arrivals _ _⟩

theorem handleACKsent (err : ErrorCode) (n : ℕ) (s : TftpReceiver) : Leaves 1 s (s.handleACKsent err n) := by
  unfold TftpReceiver.handleACKsent
  split_ifs
  · exact startNextReceive s
  · exact (refl s).mono (Nat.zero_le 1)

theorem start (s : TftpReceiver) : Leaves 1 s s.start := by
  have h : Leaves 0 s (if s.output.fail then s.outputFileError else s) := by
    split_ifs
    · exact fail _ _ _ _ s
    · exact refl s
  unfold TftpReceiver.start
  dsimp only
  split_ifs at h ⊢
  · exact h.trans (sendNextAck _ _)
  · exact h.trans (startNextReceive _)
  · exact sendNextAck _ _
  · exact startNextReceive _

theorem writeBlock (d : Bytes) (s : TftpReceiver) :
    Leaves 0 { s with output := s.output.write d } (s.writeBlock d) := by
  have h : Leaves 0 s (if s.output.fail then s.outputFileError else s) := by
    split_ifs
    · exact fail _ _ _ _ s
    · exact refl s
  exact { h with output := congrArg (OStream.write d) h.output }

/-- The next block is counted and written. -/
theorem acceptBlock (h : s.isConnected = true) (n : ℕ) : Leaves 1 { s with
    output := s.output.write (s.receivedMsg n).2.mData
    lastreceiveddatacount := s.lastreceiveddatacount + 1 } (s.acceptBlock n) := by
  have hcount : s.countBlock = { s with
      lastreceiveddatacount := s.lastreceiveddatacount + 1, timeoutcount := 0 } := by
    simp only [countBlock, h, if_true]
  refine trans (m := 0) ?_ (sendNextAck _ _)
  rw [hcount]
  have hw := writeBlock (s.receivedMsg n).2.mData { s with
    lastreceiveddatacount := s.lastreceiveddatacount + 1, timeoutcount := 0 }
  exact { hw with tokens := hw.tokens }

theorem checkReceivedBlock {err : ErrorCode} {n : ℕ} (hb : s.blockBranch err n ≠ .expectedBlock) :
    Leaves 1 s (s.checkReceivedBlock err n) := by
  have h : Leaves 0 s { s with io := s.io.timerCancel } := ⟨rfl, rfl, rfl, rfl, rfl, le_rfl, rfl⟩
  have hb' : blockBranch err n { s with io := s.io.timerCancel } ≠ .expectedBlock := hb
  unfold TftpReceiver.checkReceivedBlock
  dsimp only
  refine (h.trans (n := 1) ?_).mono (Nat.zero_add 1).le
  split
  · exact (sendErrorMsg _ _ _ _).trans (sendNextAck _ _)
  · exact (fail _ _ _ _ _).mono (Nat.zero_le 1)
  · exact (fail _ _ _ _ _).mono (Nat.zero_le 1)
  · exact sendNextAck _ _
  · rename_i hx
    exact absurd hx hb'
  · exact (fail _ _ _ _ _).mono (Nat.zero_le 1)
  · exact sendNextAck _ _
  · exact (endOperationWith _ _).mono (Nat.zero_le 1)

theorem handleReadTimeout (err : ErrorCode) (s : TftpReceiver) : Leaves 0 s (s.handleReadTimeout err) := by
  unfold TftpReceiver.handleReadTimeout Io.cancel
  split_ifs
  · exact refl s
  · dsimp only
    have h : Leaves 0 s { s with io := s.io.abortAll, timeoutcount := s.timeoutcount + 1 } :=
      ⟨rfl, rfl, rfl, rfl, rfl, (Io.abortAll_tokens _).le, Io.abortAll_arrivals _⟩
    split_ifs
    · exact h
    · exact h.trans (fail _ _ _ _ _)
  · exact ⟨rfl, rfl, rfl, rfl, rfl, le_rfl, rfl⟩

end Leaves

/-! ## The receiver of an upload -/

/-- The receiver of an upload of `F`: while the stream is good, the blocks that have been
    counted have been written, and what has arrived from the peer is a block. -/
structure Collects (F : Bytes) (s : TftpReceiver) : Prop where
  wf : s.WellFormed
  connected : s.isConnected = true
  started : s.io.started = true
  tokens : s.io.tokens ≤ 1
  written : s.output.fail = false → s.output.writes =
    (List.range s.lastreceiveddatacount.toNat).map fun i => (block F s.blocksize i, true)
  last : ∀ d, s.output.writes.getLast? = some (d, true) → s.output.fail = false
  arrived : ∀ x ∈ s.io.arrivals, s.mLastReceivedSenderEndpoint = s.mSenderEndpoint →
    (s.receivedMsg x.2.2).1 = true → (s.receivedMsg x.2.2).2.mData =
      block F s.blocksize ((s.receivedMsg x.2.2).2.mBlockNr.toNat - 1)

/-- What is written are the next blocks. -/
theorem Collects.content {F : Bytes} {s : TftpReceiver} (h : s.Collects F) (hf : s.output.fail = false) :
    s.output.content = F.take (s.lastreceiveddatacount.toNat * s.blocksize) := by
  have hrange : ∀ n, ((List.range n).map fun i => (block F s.blocksize i, true)).flatMap (·.1) =
      F.take (n * s.blocksize) := by
    intro n
    induction n with
    | zero => simp
    | succ n ih => rw [List.range_succ, List.map_append, List.flatMap_append, ih, ← take_append_block]; simp
  have hall : ∀ n, ((List.range n).map fun i => (block F s.blocksize i, true)).filter (·.2) =
      (List.range n).map fun i => (block F s.blocksize i, true) := by
    intro n
    simp [List.filter_eq_self]
  rw [OStream.content, h.written hf, hall, hrange]

/-- A receiver whose last block has been accepted has the file. -/
theorem Collects.whole {F d : Bytes} {s : TftpReceiver} (h : s.Collects F)
    (hd : s.output.writes.getLast? = some (d, true)) (hlt : d.length < s.blocksize) :
    s.output.content = F := by
  have hf := h.last d hd
  rw [h.content hf]
  rw [h.written hf] at hd
  cases hc : s.lastreceiveddatacount.toNat with
  | zero => simp [hc] at hd
  | succ c =>
    rw [hc, List.range_succ, List.map_append, List.map_singleton, List.getLast?_concat, Option.some.injEq,
      Prod.mk.injEq] at hd
    have hshort := (length_block_lt F (Nat.zero_lt_of_lt hlt) c).1 (hd.1 ▸ hlt)
    exact List.take_of_length_le hshort.le

/-- A block of `F` that has been received is decoded. -/
theorem receivedMsg_block {F : Bytes} {s : TftpReceiver} (hwf : s.WellFormed) {src : Endpoint} {d : Bytes}
    (hd : ntohs d 0 = TftpOpcode.data.toUInt16 →
      d = dataBytes (ntohs d 2) (block F s.blocksize ((ntohs d 2).toNat - 1)))
    (hdec : ((s.store src (d.take s.databuffer.length)).receivedMsg
      (min d.length s.databuffer.length)).1 = true) :
    ((s.store src (d.take s.databuffer.length)).receivedMsg (min d.length s.databuffer.length)).2.mData =
      block F s.blocksize (((s.store src (d.take s.databuffer.length)).receivedMsg
        (min d.length s.databuffer.length)).2.mBlockNr.toNat - 1) := by
  obtain ⟨hop, hnr⟩ := receivedMsg_store hdec
  have hblock := hd hop
  have hlen := length_block_le F s.blocksize ((ntohs d 2).toNat - 1)
  have hcap : d.take s.databuffer.length = d := by
    refine List.take_of_length_le ?_
    rw [hwf.databuffer, hblock, length_dataBytes]
    omega
  rw [hnr, receivedMsg_arrived, hcap]
  generalize ntohs d 2 = nr at hblock hlen
  rw [hblock, DataMessage.decode_dataBytes]
  simp only [DataMessage.new, hlen, if_true]

theorem endOperationWith_received (code : TftpUserFacingErrorCode) (s : TftpReceiver) :
    (s.endOperationWith code).mLastReceivedSenderEndpoint = s.mLastReceivedSenderEndpoint ∧
      ∀ n, (s.endOperationWith code).receivedMsg n = s.receivedMsg n := by
  unfold endOperationWith
  split_ifs <;> exact ⟨rfl, fun _ => rfl⟩

/-- The timer does not touch what has been received. -/
theorem handleReadTimeout_received (err : ErrorCode) (s : TftpReceiver) :
    (s.handleReadTimeout err).mLastReceivedSenderEndpoint = s.mLastReceivedSenderEndpoint ∧
      ∀ n, (s.handleReadTimeout err).receivedMsg n = s.receivedMsg n := by
  unfold handleReadTimeout Io.cancel
  split_ifs
  · exact ⟨rfl, fun _ => rfl⟩
  · dsimp only
    split_ifs
    · exact ⟨rfl, fun _ => rfl⟩
    · exact endOperationWith_received _ _
  · exact ⟨rfl, fun _ => rfl⟩

namespace Collects
variable {F : Bytes} {s s' : TftpReceiver}

/-- Nothing has arrived when an only operation is handled. -/
theorem leaves (h : s.Collects F) (h0 : s.io.tokens = 0) (hl : Leaves 1 s s') (hwf : s'.WellFormed)
    (hs : s'.io.started = s.io.started) : s'.Collects F where
  wf := hwf
  connected := hl.connected.trans h.connected
  started := hs.trans h.started
  tokens := hl.tokens.trans (by omega)
  written := by rw [hl.output, hl.count, hl.blocksize]; exact h.written
  last := by rw [hl.output]; exact h.last
  arrived := by
    intro x hx
    rw [hl.arrivals, Io.arrivals_eq_nil h0] at hx
    cases hx

/-- A state in which only the queues have changed. -/
theorem io (h : s.Collects F) (io : Io ReceiverHandler Endpoint) (ho : io.isOpen = s.io.isOpen)
    (hs : io.started = s.io.started) (ht : io.tokens ≤ 1) (ha : io.arrivals ⊆ s.io.arrivals) :
    Collects F { s with io := io } :=
  ⟨h.wf.io io ho, h.connected, hs.trans h.started, ht, h.written, h.last, fun x hx => h.arrived x (ha hx)⟩

/-- A new receiver that knows its peer. -/
theorem init (F : Bytes) (sent : List (Endpoint × Bytes)) {output : OStream} (ho : output.writes = [])
    (client : Endpoint) (blocksize : ℕ) (timeoutSeconds : UInt8) : Collects F
      (newConnected { started := true, wire := sent } output client blocksize timeoutSeconds).start := by
  have h : Collects F (newConnected { started := true, wire := sent } output client blocksize timeoutSeconds) := {
    wf := ⟨rfl, List.length_replicate⟩
    connected := rfl
    started := rfl
    tokens := Nat.zero_le 1
    written := fun _ => ho
    last := by
      intro d hd
      rw [show (newConnected _ output client blocksize timeoutSeconds).output.writes = [] from ho] at hd
      cases hd
    arrived := fun x hx => by cases hx }
  exact h.leaves rfl (.start _) h.wf.start (After.start _).started

/-- The expected block is the next one of the file. -/
theorem acceptBlock (h : s.Collects F) (h0 : s.io.tokens = 0) {err : ErrorCode} {n : ℕ}
    (hb : s.blockBranch err n = .expectedBlock)
    (hmsg : (s.receivedMsg n).2.mData = block F s.blocksize s.lastreceiveddatacount.toNat) :
    (s.acceptBlock n).Collects F := by
  have hcount := toNat_add_one hb
  have ht : Collects F { s with
      output := s.output.write (s.receivedMsg n).2.mData
      lastreceiveddatacount := s.lastreceiveddatacount + 1 } := {
    wf := ⟨h.wf.isOpen, h.wf.databuffer⟩
    connected := h.connected
    started := h.started
    tokens := h.tokens
    written := by
      intro hf
      have hgood : s.output.fail = false := (Bool.or_eq_false_iff.1 (OStream.write_fail _ _ ▸ hf)).1
      rw [OStream.writes_write, hf, h.written hgood, hmsg, hcount, List.range_succ, List.map_append]
      rfl
    last := by
      intro d hd
      rw [OStream.writes_write, List.getLast?_concat, Option.some.injEq, Prod.mk.injEq] at hd
      simpa using hd.2
    arrived := by
      intro x hx
      rw [show Io.arrivals _ = s.io.arrivals from rfl, Io.arrivals_eq_nil h0] at hx
      cases hx }
  exact ht.leaves h0 (.acceptBlock h.connected n) (h.wf.acceptBlock n) (After.acceptBlock n s).started

/-- What a receiver takes for the expected block is the next one of the file. -/
theorem nextBlock (h : s.Collects F) {r : ReceiverHandler} {err : ErrorCode} {n : ℕ}
    (hx : (r, err, n) ∈ s.io.received) (hb : s.blockBranch err n = .expectedBlock) :
    (s.receivedMsg n).2.mData = block F s.blocksize s.lastreceiveddatacount.toNat := by
  obtain ⟨rfl, -, hm, hnr, hpeer⟩ := blockBranch_expectedBlock hb
  have harr := h.arrived (r, .success, n) (List.mem_filter.2 ⟨hx, rfl⟩) (hpeer h.connected) hm
  rw [hnr] at harr
  exact harr

theorem checkReceivedBlock (h : s.Collects F) (h0 : s.io.tokens = 0) {err : ErrorCode} {n : ℕ}
    (hmsg : s.blockBranch err n = .expectedBlock →
      (s.receivedMsg n).2.mData = block F s.blocksize s.lastreceiveddatacount.toNat) :
    (s.checkReceivedBlock err n).Collects F := by
  by_cases hb : s.blockBranch err n = .expectedBlock
  · have hc : Collects F { s with io := s.io.timerCancel } :=
      h.io _ rfl rfl h.tokens (List.Subset.refl _)
    have heq : s.checkReceivedBlock err n =
        TftpReceiver.acceptBlock n { s with io := s.io.timerCancel } := by
      have hio : TftpReceiver.blockBranch err n { s with io := s.io.timerCancel } = .expectedBlock := hb
      rw [TftpReceiver.checkReceivedBlock]
      simp only [hio]
    rw [heq]
    exact hc.acceptBlock h0 hb (hmsg hb)
  · exact h.leaves h0 (.checkReceivedBlock hb) (h.wf.checkReceivedBlock err n)
      (After.checkReceivedBlock err n s).started

theorem handleReadTimeout (h : s.Collects F) (err : ErrorCode) : (s.handleReadTimeout err).Collects F := by
  have hl := Leaves.handleReadTimeout err s
  obtain ⟨hsrc, hmsg⟩ := handleReadTimeout_received err s
  exact {
    wf := h.wf.handleReadTimeout err
    connected := hl.connected.trans h.connected
    started := (After.handleReadTimeout err s).started.trans h.started
    tokens := hl.tokens.trans h.tokens
    written := by rw [hl.output, hl.count, hl.blocksize]; exact h.written
    last := by rw [hl.output]; exact h.last
    arrived := by
      intro x hx
      rw [hl.arrivals] at hx
      rw [hsrc, hl.peer, hl.blocksize, hmsg]
      exact h.arrived x hx }

/-- A datagram that the client may send arrives. -/
theorem store (h : s.Collects F) {src : Endpoint} {d : Bytes} {r : ReceiverHandler}
    {rs : List ReceiverHandler} (hr : s.io.receives = r :: rs)
    (hnet : Uploads.clientAllows F s (.deliver src d) = true) :
    Collects F (TftpReceiver.store src (d.take s.databuffer.length) { s with io := { s.io with
      receives := rs
      received := s.io.received ++ [(r, .success, min d.length s.databuffer.length)] } }) := by
  have htok := h.tokens
  simp only [Io.tokens, hr, List.length_cons] at htok
  have hnil : s.io.received = [] := List.length_eq_zero_iff.1 (by omega)
  refine ⟨?_, h.connected, h.started, ?_, h.written, h.last, fun x hx hsrc hdec => ?_⟩
  · exact (h.wf.io { s.io with
      receives := rs
      received := s.io.received ++ [(r, .success, min d.length s.databuffer.length)] } rfl).store src d
  · simp only [TftpReceiver.store, Io.tokens, List.length_append, List.length_cons, List.length_nil]
    omega
  · obtain rfl : x = (r, .success, min d.length s.databuffer.length) := by
      have hx' := (List.mem_filter.1 hx).1
      simpa [TftpReceiver.store, hnil] using hx'
    refine receivedMsg_block (s := { s with io := { s.io with
      receives := rs
      received := s.io.received ++ [(r, .success, min d.length s.databuffer.length)] } })
      ⟨h.wf.isOpen, h.wf.databuffer⟩ (fun hop => ?_) hdec
    rw [Uploads.clientAllows, decide_eq_true_eq] at hnet
    exact hnet hsrc hop

/-- **A step of the receiver of an upload.** -/
theorem step (h : s.Collects F) {e : Event Endpoint} (hnet : Uploads.clientAllows F s e = true)
    (hstep : proactor.step s e = some s') : s'.Collects F := by
  have htokens := h.tokens
  obtain ⟨-, hstep⟩ := Proactor.step_cases hstep
  cases hstep with
  | start hs => exact absurd h.started (by rw [show s.io.started = false from hs]; decide)
  | deliver hr => exact h.store hr hnet
  | @receiveFails e r rs hr he =>
    refine h.io _ rfl rfl ?_ ?_
    · simp only [Io.tokens, show s.io.receives = r :: rs from hr, List.length_cons, proactor,
        List.length_append, List.length_nil] at htokens ⊢
      omega
    · simp [Io.arrivals, proactor, he]
  | @sendCompletes e n ns hn =>
    refine h.io _ rfl rfl ?_ (List.Subset.refl _)
    simp only [Io.tokens, show s.io.sends = n :: ns from hn, List.length_cons, proactor,
      List.length_append, List.length_nil] at htokens ⊢
    omega
  | expire _ => exact h.io _ rfl rfl htokens (List.Subset.refl _)
  | @runReceive i r err n hx =>
    have hx' : s.io.received[i]? = some (r, err, n) := hx
    obtain ⟨-, h0⟩ := Io.tokens_eraseIdx_received hx' htokens
    have hio := h.io { s.io with received := s.io.received.eraseIdx i } rfl rfl (h0.trans_le (Nat.zero_le 1))
      (by simp [Io.arrivals_eq_nil h0])
    have ht := @Collects.checkReceivedBlock _ _ hio h0 err n (h.nextBlock (List.mem_of_getElem? hx'))
    rw [← onReceive_eq r] at ht
    exact ht
  | @runSend i err n hx =>
    obtain ⟨-, h0⟩ := Io.tokens_eraseIdx_sent hx htokens
    have ht := h.io { s.io with sent := s.io.sent.eraseIdx i } rfl rfl (h0.trans_le (Nat.zero_le 1))
      (List.Subset.refl _)
    exact ht.leaves h0 (.handleACKsent err n _) (ht.wf.handleACKsent err n) (After.handleACKsent err n _).started
  | @runTimer i err hx =>
    exact (h.io { s.io with waited := s.io.waited.eraseIdx i } rfl rfl htokens
      (List.Subset.refl _)).handleReadTimeout err

end Collects

/-- A step writes at most one block. -/
theorem step_output {s s' : TftpReceiver} {e : Event Endpoint} (h : proactor.step s e = some s') :
    s'.output = s.output ∨ ∃ d, s'.output = s.output.write d := by
  obtain ⟨-, hstep⟩ := Proactor.step_cases h
  cases hstep with
  | start _ => exact .inl (Leaves.start { s with io := { s.io with started := true } }).output
  | deliver _ | receiveFails _ _ | sendCompletes _ | expire _ => exact .inl rfl
  | @runReceive i r err n _ =>
    rw [show proactor.onReceive r err n = TftpReceiver.checkReceivedBlock err n from
      funext fun t => onReceive_eq r err n t]
    by_cases hb : s.blockBranch err n = .expectedBlock
    · exact .inr ⟨_, (@checkReceivedBlock_expectedBlock
        { s with io := { s.io with received := s.io.received.eraseIdx i } } _ _ hb).1⟩
    · exact .inl (@Leaves.checkReceivedBlock
        { s with io := { s.io with received := s.io.received.eraseIdx i } } _ _ hb).output
  | @runSend i err n _ =>
    exact .inl (Leaves.handleACKsent err n { s with io := { s.io with sent := s.io.sent.eraseIdx i } }).output
  | @runTimer i err _ =>
    exact .inl (Leaves.handleReadTimeout err
      { s with io := { s.io with waited := s.io.waited.eraseIdx i } }).output

/-- What has been written stays. -/
theorem step_content {s s' : TftpReceiver} {e : Event Endpoint} (h : proactor.step s e = some s') :
    s.output.content <+: s'.output.content := by
  rcases step_output h with ho | ⟨d, ho⟩
  · exact ho ▸ List.prefix_rfl
  · rw [ho, OStream.content_write]
    exact List.prefix_append _ _

end TftpReceiver

/-- A new receiver collects any file. -/
theorem TftpServer.sessionOf_collects {s : TftpServer} (hos : ∀ path, (s.os.output path).writes = [])
    {request : RequestMessage} {p : SessionParams} {client : Endpoint} {r : TftpReceiver}
    (h : s.sessionOf request p client = .receiver r) (F : Bytes) : r.Collects F := by
  unfold sessionOf at h
  split_ifs at h
  cases h
  exact .init F p.sent (hos _) client _ _

/-! ## The file -/

namespace Uploads
variable {T : TargetFile} {F : ℕ → Bytes} {os : OperatingSystem} {root : Bytes} {u u' : Uploads}

theorem upload_eq_some_iff {n : ℕ} {r : TftpReceiver} : u.upload T n = some r ↔
    u.server.sessions[n]? = some (.receiver r) ∧
      ∃ path, u.server.opened[n]? = some path ∧ T.denotes path = true := by
  unfold upload
  constructor
  · intro h
    split at h
    · rename_i path r' hp hr
      split_ifs at h with hd
      cases h
      exact ⟨hr, path, hp, hd⟩
    · cases h
  · rintro ⟨hr, path, hp, hd⟩
    simp only [hr, hp, hd, if_true]

theorem upload_congr {n : ℕ} (hs : u'.server.sessions[n]? = u.server.sessions[n]?)
    (ho : u'.server.opened[n]? = u.server.opened[n]?) : u'.upload T n = u.upload T n := by
  rw [upload, upload, hs, ho]

/-- The invariant: the receivers of the uploads collect the files of their clients, of
    which the streams have handed over a part; nothing else is put into the file. -/
structure Consistent (T : TargetFile) (F : ℕ → Bytes) (u : Uploads) : Prop where
  server : u.server.Inv
  fresh : ∀ path, (u.server.os.output path).writes = []
  lengths : u.server.opened.length = u.server.sessions.length
  collects : ∀ n r, u.upload T n = some r → r.Collects (F n)
  handed : ∀ n r, u.upload T n = some r → Append.part n u.appended <+: r.output.content
  others : ∀ n, u.upload T n = none → Append.part n u.appended = []

namespace Consistent

/-- A step of the server: uploads go on, and new ones start. -/
theorem server_step (h : u.Consistent T F) {s' : TftpServer} (hs : s'.Inv)
    (hos : ∀ path, (s'.os.output path).writes = []) (hlen : s'.opened.length = s'.sessions.length)
    (hup : ∀ n r', upload T { u with server := s' } n = some r' → r'.Collects (F n) ∧
      ∀ r, u.upload T n = some r → r.output.content <+: r'.output.content)
    (hnone : ∀ n, upload T { u with server := s' } n = none → u.upload T n = none) :
    Consistent T F { u with server := s' } where
  server := hs
  fresh := hos
  lengths := hlen
  collects n r' hr := (hup n r' hr).1
  handed n r' hr := by
    cases hu : u.upload T n with
    | none =>
      rw [h.others n hu]
      exact List.nil_prefix
    | some r => exact (h.handed n r hu).trans ((hup n r' hr).2 r hu)
  others n hn := h.others n (hnone n hn)

theorem listen (h : u.Consistent T F) {past : Bytes} {e : Event Endpoint} {s' : TftpServer}
    (hstep : u.server.step (.listen past e) = some s') : Consistent T F { u with server := s' } := by
  obtain ⟨hos, -, hsessions⟩ := TftpServer.listen_startsOne h.server hstep
  have hfresh : ∀ path, (s'.os.output path).writes = [] := by
    rw [hos]
    exact h.fresh
  obtain ⟨hs, ho⟩ | ⟨request, p, client, hs, ho⟩ := hsessions
  · have heq : ∀ n, upload T { u with server := s' } n = u.upload T n := fun n =>
      upload_congr (congrArg (·[n]?) hs) (congrArg (·[n]?) ho)
    refine h.server_step (h.server.step hstep) hfresh (by rw [hs, ho]; exact h.lengths) ?_ fun n hn => heq n ▸ hn
    intro n r' hr
    rw [heq] at hr
    refine ⟨h.collects n r' hr, fun r hr' => ?_⟩
    cases hr.symm.trans hr'
    exact List.prefix_rfl
  · have hlen := h.lengths
    -- the sessions that there were are still the same
    have hold : ∀ n, n < u.server.sessions.length →
        upload T { u with server := s' } n = u.upload T n := fun n hn =>
      upload_congr ((congrArg (·[n]?) hs).trans (List.getElem?_append_left hn))
        ((congrArg (·[n]?) ho).trans (List.getElem?_append_left (hlen ▸ hn)))
    have hnew : ∀ n, u.server.sessions.length ≤ n → u.upload T n = none := by
      intro n hn
      rw [upload, List.getElem?_eq_none (hlen ▸ hn)]
    refine h.server_step (h.server.step hstep) hfresh (by simp [hs, ho, hlen]) ?_ ?_
    · intro n r' hr
      by_cases hn : n < u.server.sessions.length
      · rw [hold n hn] at hr
        refine ⟨h.collects n r' hr, fun r hr' => ?_⟩
        cases hr.symm.trans hr'
        exact List.prefix_rfl
      · refine ⟨?_, fun r hr' => absurd (hnew n (Nat.not_lt.1 hn)) (by simp [hr'])⟩
        obtain ⟨hx, -⟩ := upload_eq_some_iff.1 hr
        rw [show s'.sessions = _ from hs, List.getElem?_append_right (Nat.not_lt.1 hn),
          List.getElem?_singleton] at hx
        split_ifs at hx
        exact TftpServer.sessionOf_collects h.fresh (Option.some.inj hx) (F n)
    · intro n hn
      by_cases hlt : n < u.server.sessions.length
      · rw [← hold n hlt, hn]
      · exact hnew n (Nat.not_lt.1 hlt)

theorem session (h : u.Consistent T F) {n : ℕ} {e : Event Endpoint} {s' : TftpServer}
    (hnet : serverAllows T F u (.session n e) = true)
    (hstep : u.server.step (.session n e) = some s') : Consistent T F { u with server := s' } := by
  have hinv := h.server.step hstep
  simp only [TftpServer.step] at hstep
  split_ifs at hstep
  obtain ⟨x, hx, hstep⟩ := Option.bind_eq_some_iff.1 hstep
  obtain ⟨x', hx', rfl⟩ := Option.map_eq_some_iff.1 hstep
  have hother : ∀ m, m ≠ n → upload T { u with server := { u.server with
      sessions := u.server.sessions.set n x' } } m = u.upload T m := fun m hm =>
    upload_congr (List.getElem?_set_ne hm.symm) rfl
  have hlt := (List.getElem?_eq_some_iff.1 hx).1
  have hset : (u.server.sessions.set n x')[n]? = some x' := List.getElem?_set_self hlt
  refine h.server_step hinv h.fresh (by simpa using h.lengths) ?_ ?_
  · intro m r' hr
    by_cases hm : m = n
    · subst hm
      obtain ⟨hr', path, hp, hd⟩ := upload_eq_some_iff.1 hr
      cases hset.symm.trans hr'
      cases x with
      | sender s =>
        obtain ⟨s', -, heq⟩ := Option.map_eq_some_iff.1 hx'
        cases heq
      | receiver r =>
        obtain ⟨t, ht, heq⟩ := Option.map_eq_some_iff.1 hx'
        cases heq
        have hu : u.upload T m = some r := upload_eq_some_iff.2 ⟨hx, path, hp, hd⟩
        rw [serverAllows, hu, Option.all_some] at hnet
        refine ⟨(h.collects m r hu).step hnet ht, fun r₀ hr₀ => ?_⟩
        cases hu.symm.trans hr₀
        exact TftpReceiver.step_content ht
    · rw [hother m hm] at hr
      refine ⟨h.collects m r' hr, fun r hr' => ?_⟩
      cases hr.symm.trans hr'
      exact List.prefix_rfl
  · intro m hn
    by_cases hm : m = n
    · subst hm
      by_contra hne
      obtain ⟨r, hr⟩ := Option.ne_none_iff_exists'.1 hne
      obtain ⟨hr', path, hp, hd⟩ := upload_eq_some_iff.1 hr
      cases hx.symm.trans hr'
      obtain ⟨t, -, rfl⟩ := Option.map_eq_some_iff.1 hx'
      have hu : upload T { u with server := { u.server with
          sessions := u.server.sessions.set m (.receiver t) } } m = some t :=
        upload_eq_some_iff.2 ⟨hset, path, hp, hd⟩
      rw [hn] at hu
      cases hu
    · rw [← hother m hm, hn]

/-- Changes of the files that are read leave the uploads alone. -/
theorem rewritten (h : u.Consistent T F) {n : ℕ} {content : Bytes} {s' : TftpServer}
    (hstep : u.server.hostStep (.rewritten n content) = some s') : Consistent T F { u with server := s' } := by
  obtain ⟨-, hcase⟩ := TftpServer.hostStep_cases hstep
  have hinv := hcase.inv h.server
  cases hcase with
  | @rewritten _ x hx _ =>
    have hlt := (List.getElem?_eq_some_iff.1 hx).1
    have hsame : ∀ m, upload T { u with server := { u.server with
        sessions := u.server.sessions.set n (x.rewrite content) } } m = u.upload T m := fun m => by
      by_cases hm : m = n
      · subst hm
        unfold upload
        dsimp only
        rw [List.getElem?_set_self hlt, hx]
        cases x <;> cases u.server.opened[m]? <;> rfl
      · exact upload_congr (List.getElem?_set_ne fun hn => hm hn.symm) rfl
    refine h.server_step hinv h.fresh (by simpa using h.lengths) (fun m r' hr' => ?_) fun m hm => ?_
    · rw [hsame] at hr'
      refine ⟨h.collects m r' hr', fun r hr => ?_⟩
      cases hr.symm.trans hr'
      exact List.prefix_rfl
    · rw [← hsame m, hm]

theorem flush (h : u.Consistent T F) {n size : ℕ} {r : TftpReceiver} (hr : u.upload T n = some r) :
    Consistent T F { u with appended := u.appended ++
      [(n, (r.output.content.drop (Append.part n u.appended).length).take size)] } := by
  refine ⟨h.server, h.fresh, h.lengths, h.collects, fun m r' hr' => ?_, fun m hm => ?_⟩
  · have hr'' : u.upload T m = some r' := hr'
    by_cases hmn : n = m
    · subst hmn
      cases hr.symm.trans hr''
      rw [Append.part_chunk_self]
      obtain ⟨rest, hrest⟩ := h.handed n r hr
      rw [← hrest, List.drop_left]
      exact (List.prefix_append_right_inj _).2 (List.take_prefix _ _)
    · rw [Append.part_chunk_of_ne hmn]
      exact h.handed m r' hr''
  · have hm' : u.upload T m = none := hm
    have hmn : n ≠ m := by
      rintro rfl
      rw [hr] at hm'
      cases hm'
    rw [Append.part_chunk_of_ne hmn]
    exact h.others m hm'

theorem step (h : u.Consistent T F) {e : UploadsEvent} (hstep : (system T F os root).step u e = some u') :
    u'.Consistent T F := by
  cases e with
  | server e =>
    change (if serverAllows T F u e then _ else none) = some u' at hstep
    split_ifs at hstep with hnet
    obtain ⟨s', hs', rfl⟩ := Option.map_eq_some_iff.1 hstep
    cases e with
    | listen past e => exact h.listen hs'
    | session n e => exact h.session hnet hs'
  | changes os' hfresh =>
    obtain ⟨s', hs', rfl⟩ := Option.map_eq_some_iff.1 hstep
    obtain ⟨-, hcase⟩ := TftpServer.hostStep_cases hs'
    have hinv := hcase.inv h.server
    cases hcase with
    | changes _ => exact ⟨hinv, hfresh, h.lengths, h.collects, h.handed, h.others⟩
  | rewritten n content =>
    obtain ⟨s', hs', rfl⟩ := Option.map_eq_some_iff.1 hstep
    exact h.rewritten hs'
  | flush n size =>
    obtain ⟨r, hr, rfl⟩ := Option.map_eq_some_iff.1 hstep
    exact h.flush hr

theorem reach (h : (system T F os root).Reach u) : u.Consistent T F := by
  refine h.inv (Consistent T F) (fun u hu => ?_) fun _ _ _ _ hu hstep => hu.step hstep
  obtain ⟨rfl, hos⟩ := hu
  exact ⟨TftpServer.reach_inv (.init rfl), hos, rfl, fun n r hr => (by cases hr), fun n r hr => (by cases hr),
    fun _ _ => rfl⟩

end Consistent

/-- A completed upload has put the file of its client into the file. -/
theorem Completed.part_eq {n : ℕ} {r : TftpReceiver} (h : u.Consistent T F) (hr : u.upload T n = some r)
    (hc : u.Completed n r) : Append.part n u.appended = F n := by
  obtain ⟨d, hd, hlt⟩ := hc.lastBlock
  rw [hc.closed]
  exact (h.collects n r hr).whole hd hlt

/-- **When an upload determines the file.**  When all uploads to a file have completed,
    it is the file of one client exactly if it was empty or absent before, and the
    files of all other clients are empty. -/
theorem file_eq_upload_iff (h : (system T F os root).Reach u) (hc : u.AllCompleted T) :
    (∃ n r, u.upload T n = some r ∧ u.content T = F n) ↔
      T.prior.getD [] = [] ∧ ∃ n r, u.upload T n = some r ∧
        ∀ m r', u.upload T m = some r' → m ≠ n → F m = [] := by
  have hi := Consistent.reach h
  have hpart : ∀ n r, u.upload T n = some r → Append.part n u.appended = F n := fun n r hr =>
    (hc n r hr).part_eq hi hr
  constructor
  · rintro ⟨n, r, hr, heq⟩
    rw [← hpart n r hr, content, Append.content_eq_part_iff] at heq
    refine ⟨heq.1, n, r, hr, fun m r' hr' hm => ?_⟩
    rw [← hpart m r' hr']
    exact heq.2 m hm
  · rintro ⟨hprior, n, r, hr, hempty⟩
    refine ⟨n, r, hr, ?_⟩
    rw [← hpart n r hr, content, Append.content_eq_part_iff]
    refine ⟨hprior, fun m hm => ?_⟩
    cases hu : u.upload T m with
    | none => exact hi.others m hu
    | some r' => rw [hpart m r' hu, hempty m r' hu hm]

/-- The file `/f`. -/
def fileF (prior : Option Bytes) : TargetFile := ⟨fun path => decide (path = ascii "/f"), prior⟩

/-- A client uploads one byte to the file `f`. -/
def oneByteUpload : List UploadsEvent := [
  .server (.listen [] (.deliver ⟨1, 1⟩ ([0, 2, 102, 0] ++ ascii "octet" ++ [0]))),
  .server (.listen [] (.runReceive 0)),
  .server (.session 0 (.sendCompletes .success)), .server (.session 0 (.runSend 0)),
  .server (.session 0 (.deliver ⟨1, 1⟩ [0, 3, 0, 1, 9])), .server (.session 0 (.runReceive 0)),
  .flush 0 1]

set_option maxRecDepth 10000 in
/-- It completes, and the byte is at the end of the file. -/
theorem oneByteUpload_completes (prior : Option Bytes) : ∃ u r,
    (system (fileF prior) (fun _ => [9]) TftpServer.oneFile TftpServer.slash).Reach u ∧
      u.upload (fileF prior) 0 = some r ∧ (∀ n r', u.upload (fileF prior) n = some r' → n = 0) ∧
      u.AllCompleted (fileF prior) ∧ u.content (fileF prior) = prior.getD [] ++ [9] := by
  obtain ⟨u, hu⟩ : ∃ u, (system (fileF prior) (fun _ => [9]) TftpServer.oneFile TftpServer.slash).run
      ⟨TftpServer.new TftpServer.oneFile TftpServer.slash, []⟩ oneByteUpload = some u := ⟨_, rfl⟩
  have hv : (some u).map (fun u => (u.appended, u.server.sessions.length,
      (u.upload (fileF prior) 0).map fun r => (r.callbacks, r.output.writes, r.blocksize))) =
      some ([(0, [9])], 1, some ([.noerr], [([9], true)], 512)) := by rw [← hu]; rfl
  simp only [Option.map_some, Option.some.injEq, Prod.mk.injEq] at hv
  obtain ⟨happ, hlen, hup⟩ := hv
  obtain ⟨r, hr, hfields⟩ := Option.map_eq_some_iff.1 hup
  simp only [Prod.mk.injEq] at hfields
  obtain ⟨hcb, hw, hbs⟩ := hfields
  have hinit : (system (fileF prior) (fun _ => [9]) TftpServer.oneFile TftpServer.slash).Reach
      ⟨TftpServer.new TftpServer.oneFile TftpServer.slash, []⟩ := .init ⟨rfl, fun _ => rfl⟩
  have hone : ∀ n r', u.upload (fileF prior) n = some r' → n = 0 := by
    intro n r' hr'
    have hn := (List.getElem?_eq_some_iff.1 (upload_eq_some_iff.1 hr').1).1
    omega
  refine ⟨u, r, hinit.run hu, hr, hone, fun n r' hr' => ?_, ?_⟩
  · obtain rfl := hone n r' hr'
    cases hr.symm.trans hr'
    refine ⟨hcb, ⟨[9], by rw [hw]; rfl, by rw [hbs]; decide⟩, ?_⟩
    rw [happ, OStream.content, hw]
    rfl
  · rw [content, happ]
    rfl

/-- A file that did not exist is determined by its upload. -/
theorem file_eq_upload_absent : ∃ (u : Uploads) (n : ℕ) (r : TftpReceiver),
    u.upload (fileF none) n = some r ∧ u.content (fileF none) = [9] := by
  obtain ⟨u, r, h, hr, hone, hc, -⟩ := oneByteUpload_completes none
  exact ⟨u, (file_eq_upload_iff h hc).2 ⟨rfl, 0, r, hr, fun m r' hr' hm => absurd (hone m r' hr') hm⟩⟩

/-- Where there is a file `f` of three bytes, it has four of them after the upload. -/
theorem file_not_upload_existing : ¬ ∀ T F os root u, (system T F os root).Reach u → u.AllCompleted T →
    (∃ n r, u.upload T n = some r) → ∃ n r, u.upload T n = some r ∧ u.content T = F n := by
  intro h
  obtain ⟨u, r, hu, hr, -, hc, hcontent⟩ := oneByteUpload_completes (TftpServer.oneFile.content (ascii "/f"))
  obtain ⟨n, r', -, heq⟩ := h _ _ _ _ u hu hc ⟨0, r, hr⟩
  rw [hcontent] at heq
  exact absurd heq (by decide)

end Uploads

end Ttftp

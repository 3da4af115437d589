/-
  Over a lossy network the two ends of a transfer run the stop-and-wait protocol.

  `Tftpsender.Follows` and `TftpReceiver.Follows` relate an endpoint to a state of
  the protocol.  Its numbers are natural numbers, while the endpoints count modulo
  `2 ^ 16`: a sender that gets to block 65536 fails to seek, and is dead from then
  on.  `lossy_sim` is the simulation, and `lockstep` reads the safety properties
  of a transfer off the invariant of the protocol.
-/
import Ttftp.Transfer
import Ttftp.Lib.StopAndWait
import Ttftp.Proof.Sender
import Ttftp.Proof.Receiver

namespace Ttftp

open Bytes Asio
open StopAndWait (State Step Steps)

/-! ## Messages -/

/-- The datagrams of blocks whose numbers are in a set. -/
def IsBlock (F : Bytes) (bs : ℕ) (S : Set ℕ) (d : Bytes) : Prop :=
  ∃ i ∈ S, i ≤ 65535 ∧ d = dataOf F bs i

/-- The datagrams of acknowledgements whose numbers are in a set. -/
def IsAck (S : Set ℕ) (d : Bytes) : Prop := ∃ i ∈ S, i ≤ 65535 ∧ d = ackOf i

/-- ERROR datagrams. -/
def IsError (d : Bytes) : Prop := ∃ msg : ErrorMessage, d = msg.encode

theorem opcode_error {d : Bytes} (h : IsError d) {n : ℕ} (hn : 2 ≤ n) (rest : Bytes) :
    ntohs (d.take n ++ rest) 0 = TftpOpcode.error.toUInt16 := by
  obtain ⟨msg, rfl⟩ := h
  obtain ⟨m, rfl⟩ := Nat.exists_eq_add_of_le' hn
  have h1 : msg.encode = 0 :: 5 :: (htons msg.mErrorCode ++ msg.mErrorMessage) := rfl
  rw [h1, List.take_succ_cons, List.take_succ_cons]
  simp [ntohs, TftpOpcode.toUInt16]

/-- Sending an ERROR message puts nothing else on the wire. -/
theorem wire_sendError {H : Type} {io : Io H Endpoint} {P : Bytes → Prop}
    (h : ∀ p ∈ io.wire, IsError p.2 ∨ P p.2) (e : Endpoint) (msg : ErrorMessage) :
    ∀ p ∈ (io.asyncSendDetached e msg.encode).wire, IsError p.2 ∨ P p.2 := by
  intro p hp
  rw [Io.asyncSendDetached_wire, List.mem_append] at hp
  rcases hp with hp | hp
  · exact h p hp
  · split_ifs at hp
    · rw [List.mem_singleton.1 hp]; exact .inl ⟨_, rfl⟩
    · simp at hp

theorem mem_arrivals {H : Type} {io : Io H Endpoint} {x : H × ErrorCode × ℕ} (hx : x ∈ io.received)
    (he : x.2.1 = .success) : x ∈ io.arrivals :=
  List.mem_filter.2 ⟨hx, by simpa using he⟩

namespace Tftpsender

/-- The operation has ended and no handler of the block loop will run. -/
structure Dead (s : Tftpsender) : Prop where
  ended : s.operationEnded = true
  started : s.io.started = true
  receives : s.io.receives = []
  received : s.io.received = []
  sends : s.io.sends = []
  sent : ∀ x ∈ s.io.sent, x.1 ≠ .success

/-- The sender of `F` to `B` follows the protocol state `a`. -/
structure Follows (F : Bytes) (bs : ℕ) (B : Endpoint) (a : State) (s : Tftpsender) : Prop where
  wf : s.WellFormed
  blocksize : s.blocksize = bs
  content : s.input.content = F
  count : s.lastsentdatacount.toNat = a.sending % 65536
  bound : a.sending ≤ 65535 ∨ s.Dead
  peer : s.isConnected = true → s.mReceiverEndpoint = B ∧ s.mLastReceivedReceiverEndpoint = B
  done : s.sendingdone = true → F.length < a.sending * bs ∨ s.Dead
  wire : ∀ p ∈ s.io.wire, IsError p.2 ∨ IsBlock F bs a.data p.2
  started : s.io.started = false → s.io.tokens = 0
  tokens : s.io.tokens ≤ 1
  arrivals : s.io.arrivals ≠ [] → s.mLastReceivedReceiverEndpoint = B ∧
    (s.receivedMsg.1 = false ∨
      ∃ i ∈ a.acks, i ≤ 65535 ∧ s.receivedMsg = (true, ⟨UInt16.ofNat i⟩))

/-- The same, in the handler of the sender's only operation. -/
structure Handles (F : Bytes) (bs : ℕ) (B : Endpoint) (a : State) (s : Tftpsender) : Prop where
  wf : s.WellFormed
  blocksize : s.blocksize = bs
  content : s.input.content = F
  count : s.lastsentdatacount.toNat = a.sending % 65536
  bound : a.sending ≤ 65536
  peer : s.isConnected = true → s.mReceiverEndpoint = B ∧ s.mLastReceivedReceiverEndpoint = B
  done : s.sendingdone = true → F.length < a.sending * bs
  wire : ∀ p ∈ s.io.wire, IsError p.2 ∨ IsBlock F bs a.data p.2
  started : s.io.started = true
  tokens : s.io.tokens = 0

variable {F : Bytes} {bs : ℕ} {B : Endpoint} {a : State} {s : Tftpsender}

/-- The protocol moves of a sender. -/
structure Moves (a a' : State) : Prop where
  steps : Steps a a'
  received : a'.received = a.received
  acks : a'.acks = a.acks
  data : a.data ⊆ a'.data

theorem Moves.refl (a : State) : Moves a a := ⟨.refl, rfl, rfl, le_rfl⟩

theorem Moves.trans {a a' a'' : State} (h : Moves a a') (h' : Moves a' a'') : Moves a a'' :=
  ⟨h.steps.trans h'.steps, h'.received.trans h.received, h'.acks.trans h.acks, h.data.trans h'.data⟩

theorem Moves.send (h : 1 ≤ a.sending) : Moves a { a with data := insert a.sending a.data } :=
  ⟨.single (.send h), rfl, rfl, Set.subset_insert _ _⟩

theorem Moves.advance (h : a.sending ∈ a.acks) : Moves a { a with sending := a.sending + 1 } :=
  ⟨.single (.advance h), rfl, rfl, le_rfl⟩

namespace Handles

theorem io (h : s.Handles F bs B a) (io : Io SenderHandler Endpoint) (ho : io.isOpen = s.io.isOpen)
    (hw : io.wire = s.io.wire) (hs : io.started = s.io.started) (ht : io.tokens = s.io.tokens) :
    Handles F bs B a { s with io := io } :=
  { h with
    wf := h.wf.io io ho
    wire := by simpa only [hw] using h.wire
    started := hs.trans h.started
    tokens := ht.trans h.tokens }

theorem sendErrorMsg (h : s.Handles F bs B a) (c : UInt16) (m : Bytes) (e : Endpoint) :
    (s.sendErrorMsg c m e).Handles F bs B a :=
  { h with
    wf := h.wf.sendErrorMsg c m e
    wire := wire_sendError h.wire e ⟨c, m⟩
    started := by simpa [Tftpsender.sendErrorMsg] using h.started
    tokens := by simpa [Tftpsender.sendErrorMsg] using h.tokens }

theorem endOperationWith (h : s.Handles F bs B a) (code : TftpUserFacingErrorCode) :
    (s.endOperationWith code).Handles F bs B a := by
  have hwf := h.wf.endOperationWith code
  unfold Tftpsender.endOperationWith at hwf ⊢
  split_ifs at hwf ⊢
  · exact h
  · exact { h with wf := hwf, tokens := (Io.close_tokens _).trans h.tokens }

theorem dead (h : s.Handles F bs B a) (he : s.operationEnded = true) : s.Dead := by
  obtain ⟨h1, h2, h3, h4⟩ := (Io.tokens_eq_zero _).1 h.tokens
  exact ⟨he, h.started, h1, h2, h3, by simp [h4]⟩

/-- A handler may return without starting an operation. -/
theorem follows (h : s.Handles F bs B a) (hb : a.sending ≤ 65535 ∨ s.operationEnded = true) :
    s.Follows F bs B a :=
  { h with
    bound := hb.imp_right h.dead
    done := fun hd => .inl (h.done hd)
    started := fun _ => h.tokens
    tokens := h.tokens.le.trans (Nat.zero_le _)
    arrivals := fun ha => absurd (Io.arrivals_eq_nil h.tokens) ha }

theorem startNextReceive (h : s.Handles F bs B a) (hb : a.sending ≤ 65535) :
    s.startNextReceive.Follows F bs B a :=
  { h with
    wf := h.wf.startNextReceive
    bound := .inl hb
    done := fun hd => .inl (h.done hd)
    wire := by simpa [Tftpsender.startNextReceive] using h.wire
    started := fun hs => by simp [Tftpsender.startNextReceive, h.started] at hs
    tokens := by simp [Tftpsender.startNextReceive, h.tokens]
    arrivals := by
      intro ha
      simp [Tftpsender.startNextReceive, Io.arrivals_eq_nil h.tokens] at ha }

/-- Where the seek succeeds, the number of the current block has not overflowed,
    and the block is read. -/
theorem read_block (h : s.Handles F bs B a) (hbs : 8 ≤ bs) (hbs' : bs ≤ 65464)
    (hf : s.seeked.fail = false) : 1 ≤ a.sending ∧ a.sending ≤ 65535 ∧
      s.lastsentdatacount = UInt16.ofNat a.sending ∧
      (s.seeked.read s.blocksize).2 = block F bs (a.sending - 1) := by
  have hlt := s.lastsentdatacount.toNat_lt
  have hpos : 1 ≤ s.lastsentdatacount.toNat := by
    by_contra h0
    have h0' : s.lastsentdatacount.toNat = 0 := by omega
    rw [seeked, IStream.seekg_fail, Bool.or_eq_false_iff, decide_eq_false_iff_not, h.blocksize,
      seekOffset_eq hbs', h0'] at hf
    omega
  have hcount : s.lastsentdatacount.toNat = a.sending := by
    have := h.count
    have := h.bound
    omega
  refine ⟨by omega, by omega, by rw [← hcount, UInt16.ofNat_toNat], ?_⟩
  rw [read_seeked (by rw [h.blocksize]; exact hbs') hpos hf, h.content, h.blocksize, hcount]

/-- Sending the current block: it goes out, or the sender is dead. -/
theorem sendNextBlock (h : s.Handles F bs B a) (hbs : 8 ≤ bs) (hbs' : bs ≤ 65464) :
    ∃ a', Moves a a' ∧ s.sendNextBlock.Follows F bs B a' := by
  have hwf := h.wf.sendNextBlock
  cases hf : s.seeked.fail with
  | true =>
    rw [sendNextBlock_bad h.wf hf] at hwf ⊢
    have hi : Handles F bs B a { s with input := s.seeked } := { h with
      wf := ⟨h.wf.isOpen, h.wf.lastsentdata, by simpa [seeked] using h.wf.gcount, h.wf.ackbuffer⟩
      content := by simpa [seeked] using h.content }
    have he : s.inputFileError.Handles F bs B a := (hi.sendErrorMsg _ _ _).endOperationWith _
    have hd := he.dead (inputFileError_ended s)
    have ho : s.inputFileError.io.isOpen = false := by rw [he.wf.isOpen, hd.ended]; rfl
    have hio : ∀ d, s.inputFileError.io.asyncSendTo s.mReceiverEndpoint d =
        { s.inputFileError.io with sent := s.inputFileError.io.sent ++ [(.badDescriptor, 0)] } := by
      intro d; simp [Io.asyncSendTo, ho]
    rw [hio] at hwf ⊢
    obtain ⟨-, -, -, h4⟩ := (Io.tokens_eq_zero _).1 he.tokens
    have hdead : Dead { s.inputFileError with
        io := { s.inputFileError.io with sent := s.inputFileError.io.sent ++ [(.badDescriptor, 0)] }
        sendingdone := s.sendingdone || decide (s.input.gcount < s.blocksize) } :=
      ⟨hd.ended, hd.started, hd.receives, hd.received, hd.sends, by simp [h4]⟩
    exact ⟨a, .refl a, {
      wf := hwf
      blocksize := he.blocksize
      content := he.content
      count := he.count
      bound := .inr hdead
      peer := he.peer
      done := fun _ => .inr hdead
      wire := he.wire
      started := fun hs => by simp [hd.started] at hs
      tokens := by simp [Io.tokens, hd.receives, hd.received, hd.sends, h4]
      arrivals := fun ha => by simp [Io.arrivals, hd.received] at ha }⟩
  | false =>
    rw [sendNextBlock_good h.wf hf] at hwf ⊢
    obtain ⟨h1, h2, hnr, hdata⟩ := h.read_block hbs hbs' hf
    refine ⟨_, .send h1, {
      wf := hwf
      blocksize := h.blocksize
      content := by simp [seeked, h.content]
      count := h.count
      bound := .inl h2
      peer := h.peer
      done := fun hd => .inl ?_
      wire := fun p hp => ?_
      started := fun hs => by simp [h.started] at hs
      tokens := by simp [h.tokens]
      arrivals := fun ha => by simp [Io.arrivals_eq_nil h.tokens] at ha }⟩
    · rcases Bool.or_eq_true_iff.1 hd with hd | hd
      · exact h.done hd
      · have := of_decide_eq_true hd
        rw [hdata, h.blocksize, length_block_lt _ (by omega)] at this
        rwa [Nat.sub_add_cancel h1] at this
    · simp only [Io.asyncSendTo_wire, List.mem_append] at hp
      rcases hp with hp | hp
      · rcases h.wire p hp with hp | ⟨i, hi, hp⟩
        · exact .inl hp
        · exact .inr ⟨i, Set.mem_insert_of_mem _ hi, hp⟩
      · split_ifs at hp
        · rw [List.mem_singleton.1 hp]
          exact .inr ⟨a.sending, Set.mem_insert _ _, h2, by rw [hdata, hnr]; rfl⟩
        · simp at hp

/-- The expected ACK: the next block goes out, or the operation ends. -/
theorem acceptAck (h : s.Handles F bs B a) (hbs : 8 ≤ bs) (hbs' : bs ≤ 65464)
    (hb : a.sending ≤ 65535) (hi : a.sending ∈ a.acks) (hm : s.mLastReceivedReceiverEndpoint = B) :
    ∃ a', Moves a a' ∧ s.acceptAck.Follows F bs B a' := by
  have hc : s.countAck.Handles F bs B { a with sending := a.sending + 1 } := by
    have hcount : (s.lastsentdatacount + 1).toNat = (a.sending + 1) % 65536 := by
      rw [UInt16.toNat_add, h.count, UInt16.toNat_one]
      omega
    have hdone : s.sendingdone = true → F.length < (a.sending + 1) * bs := fun hd =>
      (h.done hd).trans_le (Nat.mul_le_mul_right _ (Nat.le_succ _))
    have hwf := h.wf.countAck
    unfold countAck onConnect at hwf ⊢
    dsimp only at hwf ⊢
    split_ifs at hwf ⊢ with hcon
    · exact { h with wf := hwf, count := hcount, bound := Nat.succ_le_succ hb, done := hdone }
    · exact { h with
        wf := hwf, count := hcount, bound := Nat.succ_le_succ hb, done := hdone
        peer := fun _ => ⟨hm, hm⟩ }
  unfold Tftpsender.acceptAck
  split_ifs
  · exact ⟨_, .advance hi, (hc.endOperationWith _).follows (.inr (endOperation_ended _ _))⟩
  · obtain ⟨a', hm, hf⟩ := hc.sendNextBlock hbs hbs'
    exact ⟨a', (Moves.advance hi).trans hm, hf⟩

theorem checkAckForLastBlock (h : s.Handles F bs B a) (hbs : 8 ≤ bs) (hbs' : bs ≤ 65464)
    (hb : a.sending ≤ 65535) {err : ErrorCode} {n : ℕ}
    (hbr : s.ackBranch err n ≠ .futureAck ∧ (s.ackBranch err n = .expectedAck →
      a.sending ≤ 65535 ∧ a.sending ∈ a.acks ∧ s.mLastReceivedReceiverEndpoint = B)) :
    ∃ a', Moves a a' ∧ (s.checkAckForLastBlock err n).Follows F bs B a' := by
  have hio : Tftpsender.ackBranch err n { s with io := s.io.timerCancel } = s.ackBranch err n := rfl
  have ht : Handles F bs B a { s with io := s.io.timerCancel } := h.io _ rfl rfl rfl rfl
  have hend : ∀ (c : UInt16) (m : Bytes) (e : Endpoint) (err : ErrorCode), Follows F bs B a
      (((Tftpsender.sendErrorMsg c m e { s with io := s.io.timerCancel })).endOperation err) :=
    fun c m e err => ((ht.sendErrorMsg c m e).endOperationWith _).follows
      (.inr (endOperation_ended _ _))
  rw [Tftpsender.checkAckForLastBlock]
  simp only [hio]
  cases hc : s.ackBranch err n with
  | wrongOpcode => exact ⟨a, .refl a, hend _ _ _ _⟩
  | olderAck => exact ht.sendNextBlock hbs hbs'
  | expectedAck => exact ht.acceptAck hbs hbs' hb (hbr.2 hc).2.1 (hbr.2 hc).2.2
  | futureAck => exact absurd hc hbr.1
  | foreignHost => exact (ht.sendErrorMsg _ _ _).sendNextBlock hbs hbs'
  | retry => exact ht.sendNextBlock hbs hbs'
  | fatal => exact ⟨a, .refl a, (ht.endOperationWith _).follows (.inr (endOperation_ended _ _))⟩

end Handles

namespace Follows

theorem not_dead (hx : s.io.received ≠ []) : ¬ s.Dead := fun hd => hx hd.received

/-- What a sender handles is an ACK that the protocol has sent, or no ACK. -/
theorem ackBranch (h : s.Follows F bs B a) (ha : StopAndWait.Inv a)
    {x : SenderHandler × ErrorCode × ℕ} (hx : x ∈ s.io.received) :
    s.ackBranch x.2.1 x.2.2 ≠ .futureAck ∧ (s.ackBranch x.2.1 x.2.2 = .expectedAck →
      a.sending ≤ 65535 ∧ a.sending ∈ a.acks ∧ s.mLastReceivedReceiverEndpoint = B) := by
  have hb := h.bound.resolve_right (not_dead (List.ne_nil_of_mem hx))
  have hcount := h.count
  rw [Nat.mod_eq_of_lt (by omega)] at hcount
  constructor
  · intro hbr
    obtain ⟨he, hm, hlt⟩ := ackBranch_futureAck hbr
    rcases (h.arrivals (List.ne_nil_of_mem (mem_arrivals hx he))).2 with hf | ⟨i, hi, hi', hr⟩
    · rw [hm] at hf; cases hf
    · have := ha.acks_le hi
      simp only [hr, UInt16.toNat_ofNat'] at hlt
      omega
  · intro hbr
    obtain ⟨he, -, -, hm⟩ := ackBranch_expectedAck hbr
    obtain ⟨hlast, hf | ⟨i, hi, hi', hr⟩⟩ := h.arrivals (List.ne_nil_of_mem (mem_arrivals hx he))
    · rw [hm] at hf; cases hf
    · have : i = s.lastsentdatacount.toNat := by
        have hh := congrArg (fun m => m.2.mBlockNr.toNat) (hr.symm.trans hm)
        simp only [UInt16.toNat_ofNat'] at hh
        omega
      rw [hcount] at this
      exact ⟨hb, this ▸ hi, hlast⟩

/-- A state of the sender in which only the queues have changed. -/
theorem io (h : s.Follows F bs B a) (io : Io SenderHandler Endpoint) (ho : io.isOpen = s.io.isOpen)
    (hw : io.wire = s.io.wire) (hs : io.started = s.io.started) (ht : io.tokens ≤ s.io.tokens)
    (ha : io.arrivals = s.io.arrivals) (hd : s.Dead → Dead { s with io := io }) :
    Follows F bs B a { s with io := io } :=
  { h with
    wf := h.wf.io io ho
    bound := h.bound.imp_right hd
    done := fun he => (h.done he).imp_right hd
    wire := by simpa only [hw] using h.wire
    started := fun hst => Nat.le_zero.1 (ht.trans (h.started (hs.symm.trans hst)).le)
    tokens := ht.trans h.tokens
    arrivals := fun hne => h.arrivals (ha ▸ hne) }

/-- The handler of a sender's only operation runs. -/
theorem handles (h : s.Follows F bs B a) (io : Io SenderHandler Endpoint)
    (ho : io.isOpen = s.io.isOpen) (hw : io.wire = s.io.wire) (hs : io.started = true)
    (ht : io.tokens = 0) (hd : ¬ s.Dead) : Handles F bs B a { s with io := io } :=
  { h with
    wf := h.wf.io io ho
    bound := (h.bound.resolve_right hd).trans (Nat.le_succ _)
    done := fun he => (h.done he).resolve_right hd
    wire := by simpa only [hw] using h.wire
    started := hs
    tokens := ht }

theorem started_of_tokens (h : s.Follows F bs B a) (ht : s.io.tokens ≠ 0) : s.io.started = true :=
  Bool.not_eq_false _ ▸ fun hs => ht (h.started hs)

theorem sendErrorMsg (h : s.Follows F bs B a) (hd : ¬ s.Dead) (c : UInt16) (m : Bytes) (e : Endpoint) :
    (s.sendErrorMsg c m e).Follows F bs B a :=
  { h with
    wf := h.wf.sendErrorMsg c m e
    bound := .inl (h.bound.resolve_right hd)
    done := fun he => .inl ((h.done he).resolve_right hd)
    wire := wire_sendError h.wire e ⟨c, m⟩
    started := by simpa [Tftpsender.sendErrorMsg] using h.started
    tokens := by simpa [Tftpsender.sendErrorMsg] using h.tokens
    arrivals := fun ha => h.arrivals (Io.asyncSendDetached_arrivals _ _ _ ▸ ha) }

theorem endOperationWith (h : s.Follows F bs B a) (hb : a.sending ≤ 65535)
    (hdone : s.sendingdone = true → F.length < a.sending * bs) (code : TftpUserFacingErrorCode) :
    (s.endOperationWith code).Follows F bs B a := by
  have hwf := h.wf.endOperationWith code
  unfold Tftpsender.endOperationWith at hwf ⊢
  split_ifs at hwf ⊢
  · exact h
  · exact { h with
      wf := hwf, bound := .inl hb, done := fun he => .inl (hdone he)
      started := fun hs => (Io.close_tokens _).trans (h.started hs)
      tokens := (Io.close_tokens _).trans_le h.tokens
      arrivals := fun ha => h.arrivals (Io.close_arrivals _ ▸ ha) }

theorem handleReadTimeout (h : s.Follows F bs B a) (err : ErrorCode) :
    (s.handleReadTimeout err).Follows F bs B a := by
  unfold Tftpsender.handleReadTimeout
  split_ifs
  · exact h
  unfold Io.cancel
  split_ifs with ho
  · have hd : ¬ s.Dead := fun hd => by simp [h.wf.isOpen, hd.ended] at ho
    have hab := h.io s.io.abortAll rfl rfl rfl (Io.abortAll_tokens _).le (Io.abortAll_arrivals _)
      fun hd' => absurd hd' hd
    have ht : Follows F bs B a { s with io := s.io.abortAll, timeoutcount := s.timeoutcount + 1 } :=
      { hab with
        wf := ⟨hab.wf.isOpen, hab.wf.lastsentdata, hab.wf.gcount, hab.wf.ackbuffer⟩
        bound := .inl (h.bound.resolve_right hd)
        done := fun he => .inl ((h.done he).resolve_right hd) }
    dsimp only
    split_ifs
    · exact ht
    · refine endOperationWith (ht.sendErrorMsg (fun hd' => ?_) _ _ _) (h.bound.resolve_right hd)
        (fun he => (h.done he).resolve_right hd) _
      have := hd'.ended
      simp [h.wf.isOpen, show s.operationEnded = true from hd'.ended] at ho
  · exact { h with
      wf := ⟨h.wf.isOpen, h.wf.lastsentdata, h.wf.gcount, h.wf.ackbuffer⟩
      bound := h.bound.imp_right fun hd => ⟨hd.1, hd.2, hd.3, hd.4, hd.5, hd.6⟩
      done := fun he => (h.done he).imp_right fun hd => ⟨hd.1, hd.2, hd.3, hd.4, hd.5, hd.6⟩ }

/-- **One event of a sender is matched by the protocol.** -/
theorem step (h : s.Follows F bs B a) (ha : StopAndWait.Inv a) (hbs : 8 ≤ bs) (hbs' : bs ≤ 65464)
    {e : Event Endpoint} {s' : Tftpsender} (hstep : proactor.step s e = some s')
    (hnet : ∀ src d, e = .deliver src d →
      src = B ∧ (IsError d ∨ IsAck a.acks d)) :
    ∃ a', Moves a a' ∧ s'.Follows F bs B a' := by
  have hwf := h.wf.step hstep
  obtain ⟨-, hstep⟩ := Proactor.step_cases hstep
  cases hstep with
  | start hs =>
    have hd : ¬ s.Dead := fun hd => by simp [proactor, hd.started] at hs
    have hb := h.bound.resolve_right hd
    have ht := h.handles { s.io with started := true } rfl rfl rfl (h.started hs) hd
    change ∃ a', Moves a a' ∧ Follows F bs B a' (Tftpsender.start _)
    unfold Tftpsender.start
    split_ifs
    · exact ⟨a, .refl a, ((ht.sendErrorMsg _ _ _).endOperationWith _).follows
        (.inr (endOperationWith_ended _ _))⟩
    · exact ht.sendNextBlock hbs hbs'
    · exact ⟨a, .refl a, ht.startNextReceive hb⟩
  | @deliver src d r rs hr =>
    obtain ⟨rfl, hdat⟩ := hnet src d rfl
    have hd : ¬ s.Dead := fun hd => by simp [proactor, hd.receives] at hr
    have hr' : s.io.receives = r :: rs := hr
    have htok := h.tokens
    simp only [Io.tokens, hr', List.length_cons] at htok
    have hcap : min s.ackbuffer.length s.blocksize = 4 := by rw [h.wf.ackbuffer, h.blocksize]; omega
    refine ⟨a, .refl a, { h with
      wf := hwf
      bound := .inl (h.bound.resolve_right hd)
      done := fun he => .inl ((h.done he).resolve_right hd)
      peer := fun hc => ⟨(h.peer hc).1, rfl⟩
      started := fun hs => ?_
      tokens := ?_
      arrivals := fun _ => ⟨rfl, ?_⟩ }⟩
    · have := h.started_of_tokens (by simp [Io.tokens, hr'])
      simp [proactor, store, this] at hs
    · simp only [Io.tokens, List.length_append, List.length_cons, List.length_nil, proactor, store]
      omega
    · rcases hdat with he | ⟨i, hi, hi', rfl⟩
      · have hop := opcode_error he (Nat.le_add_left 2 2)
        refine .inl ?_
        change (AckMessage.decode [] {} (d.take (min s.ackbuffer.length s.blocksize) ++ _)).1 = false
        rw [hcap, AckMessage.decode, memory, List.append_assoc, if_pos (by rw [hop]; decide)]
      · exact .inr ⟨i, hi, hi', receivedMsg_ackOf h.wf.ackbuffer (by rw [h.blocksize]; omega) src i⟩
  | @receiveFails e r rs hr he =>
    have hd : ¬ s.Dead := fun hd => by simp [proactor, hd.receives] at hr
    refine ⟨a, .refl a, h.io _ rfl rfl rfl ?_ ?_ fun hd' => absurd hd' hd⟩
    · have hr' : s.io.receives = r :: rs := hr
      simp only [Io.tokens, hr', List.length_cons, List.length_append, List.length_nil, proactor]
      omega
    · simp [Io.arrivals, proactor, he]
  | @sendCompletes e n ns hn =>
    have hd : ¬ s.Dead := fun hd => by simp [proactor, hd.sends] at hn
    refine ⟨a, .refl a, h.io _ rfl rfl rfl ?_ rfl fun hd' => absurd hd' hd⟩
    have hn' : s.io.sends = n :: ns := hn
    simp only [Io.tokens, hn', List.length_cons, List.length_append, List.length_nil, proactor]
    omega
  | expire _ =>
    exact ⟨a, .refl a, h.io _ rfl rfl rfl le_rfl rfl fun hd => ⟨hd.1, hd.2, hd.3, hd.4, hd.5, hd.6⟩⟩
  | @runReceive i r err n hx =>
    have hx' : s.io.received[i]? = some (r, err, n) := hx
    have hmem : (r, err, n) ∈ s.io.received := List.mem_of_getElem? hx'
    have hd : ¬ s.Dead := not_dead (List.ne_nil_of_mem hmem)
    obtain ⟨h1, h0⟩ := Io.tokens_eraseIdx_received hx' h.tokens
    have ht := h.handles { s.io with received := s.io.received.eraseIdx i } rfl rfl
      (h.started_of_tokens (by omega)) h0 hd
    have hb := h.bound.resolve_right hd
    have := ht.checkAckForLastBlock hbs hbs' hb (h.ackBranch ha hmem)
    rw [← onReceive_eq r] at this
    exact this
  | @runSend i err n hx =>
    have hx' : s.io.sent[i]? = some (err, n) := hx
    have hmem : (err, n) ∈ s.io.sent := List.mem_of_getElem? hx'
    obtain ⟨h1, h0⟩ := Io.tokens_eraseIdx_sent hx' h.tokens
    change ∃ a', Moves a a' ∧ Follows F bs B a' (Tftpsender.handleBlockSent _ _ _)
    unfold Tftpsender.handleBlockSent
    split_ifs with hc
    · have hd : ¬ s.Dead := fun hd => hd.sent _ hmem hc.1
      have ht := h.handles { s.io with sent := s.io.sent.eraseIdx i } rfl rfl
        (h.started_of_tokens (by omega)) h0 hd
      have hw := ht.io ((Io.expiresFromNow s.timeoutSeconds.toNat
        { s.io with sent := s.io.sent.eraseIdx i }).asyncWait) rfl rfl rfl rfl
      exact ⟨a, .refl a, hw.startNextReceive (h.bound.resolve_right hd)⟩
    · exact ⟨a, .refl a, h.io _ rfl rfl rfl (h0.le.trans (Nat.zero_le _)) rfl fun hd =>
        ⟨hd.1, hd.2, hd.3, hd.4, hd.5, fun x hx => hd.6 x (List.mem_of_mem_eraseIdx hx)⟩⟩
  | @runTimer i err hx =>
    have ht := h.io { s.io with waited := s.io.waited.eraseIdx i } rfl rfl rfl le_rfl rfl
      fun hd => ⟨hd.1, hd.2, hd.3, hd.4, hd.5, hd.6⟩
    exact ⟨a, .refl a, ht.handleReadTimeout err⟩

end Follows

end Tftpsender

namespace TftpReceiver

/-- The receiver of `F` from `A` follows the protocol state `a`. -/
structure Follows (F : Bytes) (bs : ℕ) (A : Endpoint) (a : State) (s : TftpReceiver) : Prop where
  wf : s.WellFormed
  blocksize : s.blocksize = bs
  count : s.lastreceiveddatacount.toNat = a.received
  good : s.output.fail = false
  accept : s.output.accept = fun _ => true
  content : s.output.content = F.take (a.received * bs)
  peer : s.isConnected = true → s.mSenderEndpoint = A ∧ s.mLastReceivedSenderEndpoint = A
  full : s.operationEnded = false → a.received * bs ≤ F.length
  wire : ∀ p ∈ s.io.wire, IsError p.2 ∨ IsAck a.acks p.2
  acks : ∀ i ∈ a.acks, F.length < i * bs → s.operationEnded = true ∧ s.callbacks = [.noerr]
  callbacks : s.operationEnded = false → s.callbacks = []
  started : s.io.started = false → s.io.tokens = 0
  tokens : s.io.tokens ≤ 1
  arrivals : ∀ x ∈ s.io.arrivals, s.mLastReceivedSenderEndpoint = A ∧
    ((s.receivedMsg x.2.2).1 = false ∨ ∃ i ∈ a.data, i ≤ 65535 ∧
      x.2.2 = (block F bs (i - 1)).length + 4 ∧
      s.receivedMsg x.2.2 = (true, { DataMessage.new bs with
        mBlockNr := UInt16.ofNat i, mData := block F bs (i - 1) }))

variable {F : Bytes} {bs : ℕ} {A : Endpoint} {a : State} {s : TftpReceiver}

/-- The protocol moves of a receiver. -/
structure Moves (a a' : State) : Prop where
  steps : Steps a a'
  sending : a'.sending = a.sending
  data : a'.data = a.data
  acks : a.acks ⊆ a'.acks

theorem Moves.refl (a : State) : Moves a a := ⟨.refl, rfl, rfl, le_rfl⟩

theorem Moves.trans {a a' a'' : State} (h : Moves a a') (h' : Moves a' a'') : Moves a a'' :=
  ⟨h.steps.trans h'.steps, h'.sending.trans h.sending, h'.data.trans h.data, h.acks.trans h'.acks⟩

theorem Moves.accept (h : a.received + 1 ∈ a.data) : Moves a { a with received := a.received + 1 } :=
  ⟨.single (.accept h), rfl, rfl, le_rfl⟩

theorem Moves.ack (a : State) : Moves a { a with acks := insert a.received a.acks } :=
  ⟨.single .ack, rfl, rfl, Set.subset_insert _ _⟩

namespace Follows

/-- A state of the receiver in which only the queues have changed. -/
theorem io (h : s.Follows F bs A a) (io : Io ReceiverHandler Endpoint) (ho : io.isOpen = s.io.isOpen)
    (hw : io.wire = s.io.wire) (hs : io.started = false → io.tokens = 0) (ht : io.tokens ≤ 1)
    (ha : io.arrivals ⊆ s.io.arrivals) : Follows F bs A a { s with io := io } :=
  { h with
    wf := h.wf.io io ho
    wire := by simpa only [hw] using h.wire
    started := hs
    tokens := ht
    arrivals := fun x hx => h.arrivals x (ha hx) }

theorem sendErrorMsg (h : s.Follows F bs A a) (c : UInt16) (m : Bytes) (e : Endpoint) :
    (s.sendErrorMsg c m e).Follows F bs A a :=
  { h with
    wf := h.wf.sendErrorMsg c m e
    wire := wire_sendError h.wire e ⟨c, m⟩
    started := by simpa [TftpReceiver.sendErrorMsg] using h.started
    tokens := by simpa [TftpReceiver.sendErrorMsg] using h.tokens
    arrivals := fun x hx => h.arrivals x (Io.asyncSendDetached_arrivals _ _ _ ▸ hx) }

/-- An operation that has not ended has acknowledged full blocks only. -/
theorem acks_full (h : s.Follows F bs A a) (he : s.operationEnded = false) :
    ∀ i ∈ a.acks, ¬ F.length < i * bs := by
  intro i hi hlt
  have := (h.acks i hi hlt).1
  rw [he] at this
  cases this

theorem endOperationWith (h : s.Follows F bs A a) (code : TftpUserFacingErrorCode) :
    (s.endOperationWith code).Follows F bs A a := by
  have hwf := h.wf.endOperationWith code
  unfold TftpReceiver.endOperationWith at hwf ⊢
  split_ifs at hwf ⊢ with he
  · exact h
  · have hf := h.acks_full (Bool.eq_false_iff.2 he)
    exact { h with
      wf := hwf
      full := fun hh => by cases hh
      acks := fun i hi hlt => absurd hlt (hf i hi)
      callbacks := fun hh => by cases hh
      started := fun hs => (Io.close_tokens _).trans (h.started hs)
      tokens := (Io.close_tokens _).trans_le h.tokens
      arrivals := fun x hx => h.arrivals x (Io.close_arrivals _ ▸ hx) }

theorem startNextReceive (h : s.Follows F bs A a) (hs : s.io.started = true) (ht : s.io.tokens = 0) :
    s.startNextReceive.Follows F bs A a :=
  { h with
    wf := h.wf.startNextReceive
    wire := by simpa [TftpReceiver.startNextReceive] using h.wire
    started := fun hh => by simp [TftpReceiver.startNextReceive, hs] at hh
    tokens := by simp [TftpReceiver.startNextReceive, ht]
    arrivals := by
      intro x hx
      simp [TftpReceiver.startNextReceive, Io.arrivals_eq_nil ht] at hx }

/-- The acknowledgement of the last block taken goes out. -/
theorem wire_ack (h : s.Follows F bs A a) {p : Endpoint × Bytes}
    (hp : p ∈ s.io.wire ++ [(s.mSenderEndpoint, AckMessage.encode ⟨s.lastreceiveddatacount⟩)]) :
    IsError p.2 ∨ IsAck (insert a.received a.acks) p.2 := by
  rcases List.mem_append.1 hp with hp | hp
  · rcases h.wire p hp with hp | ⟨i, hi, hp⟩
    · exact .inl hp
    · exact .inr ⟨i, Set.mem_insert_of_mem _ hi, hp⟩
  · rw [List.mem_singleton.1 hp]
    have := s.lastreceiveddatacount.toNat_lt
    refine .inr ⟨a.received, Set.mem_insert _ _, by rw [← h.count]; omega, ?_⟩
    rw [ackOf, ← h.count, UInt16.ofNat_toNat]

theorem sendNextAck_false (h : s.Follows F bs A a) (hs : s.io.started = true)
    (ht : s.io.tokens = 0) : ∃ a', Moves a a' ∧ (s.sendNextAck false).Follows F bs A a' := by
  have hwf := h.wf.sendNextAck false
  have hl : Follows F bs A a { s with lastsentack := ⟨s.lastreceiveddatacount⟩ } :=
    { h with wf := ⟨h.wf.isOpen, h.wf.databuffer⟩ }
  rw [TftpReceiver.sendNextAck_false] at hwf ⊢
  split_ifs at hwf ⊢
  · rcases Bool.eq_false_or_eq_true s.operationEnded with he | he
    · have ho : s.io.isOpen = false := by rw [h.wf.isOpen, he]; rfl
      exact ⟨a, .refl a, hl.io
        (s.io.asyncSendTo s.mSenderEndpoint (AckMessage.encode ⟨s.lastreceiveddatacount⟩))
        (by simp) (by simp [Io.asyncSendTo_wire, ho]) (by simp [hs]) (by simp [ht]) (by simp)⟩
    · have ho : s.io.isOpen = true := by rw [h.wf.isOpen, he]; rfl
      refine ⟨_, .ack a, { h with
        wf := hwf
        wire := fun p hp => h.wire_ack (by simpa [Io.asyncSendTo, ho] using hp)
        acks := fun i hi hlt => ?_
        started := fun hh => by simp [hs] at hh
        tokens := by simp [ht]
        arrivals := fun x hx => by simp [Io.arrivals_eq_nil ht] at hx }⟩
      exfalso
      rcases Set.mem_insert_iff.1 hi with rfl | hi
      · exact absurd hlt (not_lt.2 (h.full he))
      · exact h.acks_full he i hi hlt
  · exact ⟨a, .refl a, hl.startNextReceive hs ht⟩

theorem countBlock_peer (h : s.Follows F bs A a) (hm : s.mLastReceivedSenderEndpoint = A) :
    s.countBlock.mSenderEndpoint = A ∧ s.countBlock.mLastReceivedSenderEndpoint = A := by
  unfold countBlock onConnect
  split_ifs with hc
  · exact h.peer hc
  · exact ⟨hm, hm⟩

/-- The next block has been written. -/
theorem output_write (h : s.Follows F bs A a) :
    (s.output.write (block F bs a.received)).fail = false ∧
      (s.output.write (block F bs a.received)).content = F.take ((a.received + 1) * bs) := by
  rw [OStream.write_fail, OStream.content_write, h.content, h.good, h.accept, ← take_append_block]
  exact ⟨rfl, rfl⟩

theorem count_succ (h : s.Follows F bs A a) (hb : a.received + 1 ≤ 65535) :
    (s.lastreceiveddatacount + 1).toNat = a.received + 1 := by
  rw [UInt16.toNat_add, h.count, UInt16.toNat_one]
  omega

/-- The next block, if it is full or too late, is counted and written. -/
theorem writeBlock (h : s.Follows F bs A a) (ht : s.io.tokens = 0) (hb : a.received + 1 ≤ 65535)
    (hm : s.mLastReceivedSenderEndpoint = A)
    (hf : s.operationEnded = false → (a.received + 1) * bs ≤ F.length) :
    Follows F bs A { a with received := a.received + 1 }
      { s.countBlock with output := s.output.write (block F bs a.received) } where
  wf := ⟨h.wf.countBlock.isOpen, h.wf.countBlock.databuffer⟩
  blocksize := (countBlock_blocksize s).trans h.blocksize
  count := by simpa using h.count_succ hb
  good := h.output_write.1
  accept := h.accept
  content := h.output_write.2
  peer := fun _ => h.countBlock_peer hm
  full := by simpa using hf
  wire := by simpa using h.wire
  acks := by simpa using h.acks
  callbacks := by simpa using h.callbacks
  started := by simpa using h.started
  tokens := by simp [ht]
  arrivals := fun x hx => by simp [Io.arrivals_eq_nil ht] at hx

/-- The last block is counted and written, and acknowledged at the end of the
    operation. -/
theorem lastBlock (h : s.Follows F bs A a) (ht : s.io.tokens = 0) (hs : s.io.started = true)
    (hb : a.received + 1 ≤ 65535) (hm : s.mLastReceivedSenderEndpoint = A)
    (he : s.operationEnded = false) :
    Follows F bs A { a with received := a.received + 1, acks := insert (a.received + 1) a.acks }
      (endOperation .success { s.countBlock with
        output := s.output.write (block F bs a.received)
        lastsentack := ⟨s.countBlock.lastreceiveddatacount⟩
        io := { s.countBlock.io with wire := s.countBlock.io.wire ++
          [(s.countBlock.mSenderEndpoint, AckMessage.encode ⟨s.countBlock.lastreceiveddatacount⟩)] } }) := by
  rw [endOperation, TftpReceiver.endOperationWith, if_neg (by simp [he])]
  have hcount := h.count_succ hb
  exact {
    wf := ⟨rfl, h.wf.countBlock.databuffer⟩
    blocksize := (countBlock_blocksize s).trans h.blocksize
    count := by simpa using hcount
    good := h.output_write.1
    accept := h.accept
    content := h.output_write.2
    peer := fun _ => h.countBlock_peer hm
    full := fun hh => by cases hh
    wire := by
      intro p hp
      simp only [Io.close_wire, countBlock_io, countBlock_lastreceiveddatacount, List.mem_append,
        List.mem_singleton] at hp
      rcases hp with hp | rfl
      · rcases h.wire p hp with hp | ⟨i, hi, hp⟩
        · exact .inl hp
        · exact .inr ⟨i, Set.mem_insert_of_mem _ hi, hp⟩
      · exact .inr ⟨_, Set.mem_insert _ _, hb, by rw [ackOf, ← hcount, UInt16.ofNat_toNat]⟩
    acks := fun i hi hlt => ⟨rfl, by simp [h.callbacks he]⟩
    callbacks := fun hh => by cases hh
    started := fun hh => by simp [hs] at hh
    tokens := by
      have : Io.tokens { s.countBlock.io with wire := s.countBlock.io.wire ++
          [(s.countBlock.mSenderEndpoint, AckMessage.encode ⟨s.countBlock.lastreceiveddatacount⟩)] } =
          s.io.tokens := by rw [countBlock_io]; rfl
      rw [Io.close_tokens, this, ht]
      exact Nat.zero_le _
    arrivals := by
      intro x hx
      rw [Io.close_arrivals, Io.arrivals_eq_nil] at hx
      · cases hx
      · rw [countBlock_io]; exact ht }

/-- The expected block is taken, and acknowledged unless the operation has ended
    before. -/
theorem acceptBlock (h : s.Follows F bs A a) (hbs : 8 ≤ bs) (hs : s.io.started = true)
    (ht : s.io.tokens = 0) {n : ℕ} (hi : a.received + 1 ∈ a.data) (hb : a.received + 1 ≤ 65535)
    (hm : s.mLastReceivedSenderEndpoint = A) (hn : n = (block F bs a.received).length + 4)
    (hmsg : (s.receivedMsg n).2.mData = block F bs a.received) :
    ∃ a', Moves a a' ∧ (s.acceptBlock n).Follows F bs A a' := by
  have hw : s.countBlock.writeBlock (s.receivedMsg n).2.mData =
      { s.countBlock with output := s.output.write (block F bs a.received) } := by
    rw [hmsg, writeBlock_good _ _ (by simpa using h.good), countBlock_output]
  have hfull : n = s.blocksize + controlBytes ↔ (a.received + 1) * bs ≤ F.length := by
    have := length_block_lt F (show 0 < bs by omega) a.received
    have := length_block_le F bs a.received
    rw [h.blocksize, controlBytes]
    omega
  rw [TftpReceiver.acceptBlock, hw]
  by_cases hc : n = s.blocksize + controlBytes
  · rw [decide_eq_false (not_not.2 hc)]
    obtain ⟨a', hm', hf'⟩ := (h.writeBlock ht hb hm fun _ => hfull.1 hc).sendNextAck_false
      (by simpa using hs) (by simpa using ht)
    exact ⟨a', (Moves.accept hi).trans hm', hf'⟩
  · rw [decide_eq_true hc, TftpReceiver.sendNextAck_true _ (by simp)]
    rcases Bool.eq_false_or_eq_true s.operationEnded with he | he
    · have hf := h.writeBlock ht hb hm fun he' => by rw [he] at he'; cases he'
      rw [if_neg (by simp [h.wf.isOpen, he])]
      exact ⟨_, .accept hi, { hf with wf := ⟨hf.wf.isOpen, hf.wf.databuffer⟩ }⟩
    · rw [if_pos (by simp [h.wf.isOpen, he])]
      exact ⟨_, (Moves.accept hi).trans (.ack _), h.lastBlock ht hs hb hm he⟩

/-- What a receiver handles is a block that the protocol has sent, or no block. -/
theorem blockBranch (h : s.Follows F bs A a) (ha : StopAndWait.Inv a)
    {x : ReceiverHandler × ErrorCode × ℕ} (hx : x ∈ s.io.received) :
    s.blockBranch x.2.1 x.2.2 ≠ .futureBlock ∧ (s.blockBranch x.2.1 x.2.2 = .expectedBlock →
      a.received + 1 ∈ a.data ∧ a.received + 1 ≤ 65535 ∧ s.mLastReceivedSenderEndpoint = A ∧
      x.2.2 = (block F bs a.received).length + 4 ∧
      (s.receivedMsg x.2.2).2.mData = block F bs a.received) := by
  have hcount := h.count
  constructor
  · intro hbr
    obtain ⟨he, hm, hlt⟩ := blockBranch_futureBlock hbr
    rcases (h.arrivals x (mem_arrivals hx he)).2 with hf | ⟨i, hi, hi', hn, hr⟩
    · rw [hm] at hf; cases hf
    · have := ha.data_le hi
      simp only [hr, UInt16.toNat_ofNat'] at hlt
      omega
  · intro hbr
    obtain ⟨he, -, hm, hnr, -⟩ := blockBranch_expectedBlock hbr
    obtain ⟨hlast, hf | ⟨i, hi, hi', hn, hr⟩⟩ := h.arrivals x (mem_arrivals hx he)
    · rw [hm] at hf; cases hf
    · rw [hr, hcount] at hnr
      simp only [UInt16.toNat_ofNat'] at hnr
      obtain rfl : i = a.received + 1 := by omega
      exact ⟨hi, hi', hlast, hn, by rw [hr]; rfl⟩

theorem checkReceivedBlock (h : s.Follows F bs A a) (hbs : 8 ≤ bs) (hs : s.io.started = true)
    (ht : s.io.tokens = 0) {err : ErrorCode} {n : ℕ}
    (hbr : s.blockBranch err n ≠ .futureBlock ∧ (s.blockBranch err n = .expectedBlock →
      a.received + 1 ∈ a.data ∧ a.received + 1 ≤ 65535 ∧ s.mLastReceivedSenderEndpoint = A ∧
      n = (block F bs a.received).length + 4 ∧
      (s.receivedMsg n).2.mData = block F bs a.received)) :
    ∃ a', Moves a a' ∧ (s.checkReceivedBlock err n).Follows F bs A a' := by
  have hio : TftpReceiver.blockBranch err n { s with io := s.io.timerCancel } =
    s.blockBranch err n := rfl
  have hc : Follows F bs A a { s with io := s.io.timerCancel } :=
    h.io _ rfl rfl h.started h.tokens (List.Subset.refl _)
  rw [TftpReceiver.checkReceivedBlock]
  simp only [hio]
  cases hb : s.blockBranch err n with
  | foreignHost =>
    exact (hc.sendErrorMsg _ _ _).sendNextAck_false (by simpa [TftpReceiver.sendErrorMsg] using hs)
      (by simpa [TftpReceiver.sendErrorMsg] using ht)
  | tooLarge => exact ⟨a, .refl a, (hc.sendErrorMsg _ _ _).endOperationWith _⟩
  | wrongOpcode => exact ⟨a, .refl a, (hc.sendErrorMsg _ _ _).endOperationWith _⟩
  | olderBlock => exact hc.sendNextAck_false hs ht
  | expectedBlock =>
    obtain ⟨h1, h2, h3, h4, h5⟩ := hbr.2 hb
    exact hc.acceptBlock hbs hs ht h1 h2 h3 h4 h5
  | futureBlock => exact absurd hb hbr.1
  | aborted => exact hc.sendNextAck_false hs ht
  | fatal => exact ⟨a, .refl a, hc.endOperationWith _⟩

theorem handleReadTimeout (h : s.Follows F bs A a) (err : ErrorCode) :
    (s.handleReadTimeout err).Follows F bs A a := by
  unfold TftpReceiver.handleReadTimeout
  split_ifs
  · exact h
  unfold Io.cancel
  split_ifs
  · have hab := h.io s.io.abortAll rfl rfl (by simpa using h.started) (by simpa using h.tokens) (by simp)
    have ht : Follows F bs A a { s with io := s.io.abortAll, timeoutcount := s.timeoutcount + 1 } :=
      { hab with wf := ⟨hab.wf.isOpen, hab.wf.databuffer⟩ }
    dsimp only
    split_ifs
    · exact ht
    · exact (ht.sendErrorMsg _ _ _).endOperationWith _
  · exact { h with wf := ⟨h.wf.isOpen, h.wf.databuffer⟩ }

theorem started_of_tokens (h : s.Follows F bs A a) (ht : s.io.tokens ≠ 0) : s.io.started = true :=
  Bool.not_eq_false _ ▸ fun hs => ht (h.started hs)

/-- A datagram in the data buffer is a block that the protocol has sent, or no
    block. -/
theorem receivedMsg_store (h : s.Follows F bs A a) (src : Endpoint) {d : Bytes}
    (hd : IsError d ∨ IsBlock F bs a.data d) :
    let n := min d.length s.databuffer.length
    let t := s.store src (d.take s.databuffer.length)
    (t.receivedMsg n).1 = false ∨ ∃ i ∈ a.data, i ≤ 65535 ∧ n = (block F bs (i - 1)).length + 4 ∧
      t.receivedMsg n = (true, { DataMessage.new bs with
        mBlockNr := UInt16.ofNat i, mData := block F bs (i - 1) }) := by
  intro n t
  rcases hd with he | ⟨i, hi, hi', rfl⟩
  · have hbuf : t.receivedMsg n = (DataMessage.new bs).decode (d.take s.databuffer.length) := by
      rw [← h.blocksize]
      exact receivedMsg_arrived src d s
    refine .inl ?_
    have hop := opcode_error he (show 2 ≤ s.databuffer.length by rw [h.wf.databuffer]; omega) []
    rw [List.append_nil] at hop
    rw [hbuf]
    unfold DataMessage.decode
    rw [hop]
    split_ifs with h1 h2
    · rfl
    · rfl
    · exact absurd (by decide) h2
  · have hle := length_block_le F bs (i - 1)
    have hl : (dataOf F bs i).length = (block F bs (i - 1)).length + 4 := length_dataBytes _ _
    have hb := h.wf.databuffer
    have hn : n = (dataOf F bs i).length := by
      rw [h.blocksize] at hb
      exact min_eq_left (by omega)
    refine .inr ⟨i, hi, hi', hn.trans hl, ?_⟩
    have := receivedMsg_dataOf hb src F i
    rw [h.blocksize] at this
    rw [hn]
    exact this

/-- **One event of a receiver is matched by the protocol.** -/
theorem step (h : s.Follows F bs A a) (ha : StopAndWait.Inv a) (hbs : 8 ≤ bs)
    {e : Event Endpoint} {s' : TftpReceiver} (hstep : proactor.step s e = some s')
    (hnet : ∀ src d, e = .deliver src d → src = A ∧ (IsError d ∨ IsBlock F bs a.data d)) :
    ∃ a', Moves a a' ∧ s'.Follows F bs A a' := by
  have hwf := h.wf.step hstep
  obtain ⟨-, hstep⟩ := Proactor.step_cases hstep
  cases hstep with
  | start hs =>
    have hs' : s.io.started = false := hs
    have ht := h.started hs'
    have h' := h.io { s.io with started := true } rfl rfl (fun hh => by cases hh)
      (ht.le.trans (Nat.zero_le _)) (List.Subset.refl _)
    change ∃ a', Moves a a' ∧ Follows F bs A a'
      (TftpReceiver.start { s with io := { s.io with started := true } })
    rw [start_good _ h'.good]
    split_ifs
    · exact h'.sendNextAck_false rfl ht
    · exact ⟨a, .refl a, h'.startNextReceive rfl ht⟩
  | @deliver src d r rs hr =>
    obtain ⟨rfl, hdat⟩ := hnet src d rfl
    have hr' : s.io.receives = r :: rs := hr
    have htok := h.tokens
    simp only [Io.tokens, hr', List.length_cons] at htok
    have hnil : s.io.received = [] := List.length_eq_zero_iff.1 (by omega)
    refine ⟨a, .refl a, { h with
      wf := hwf
      peer := fun hc => ⟨(h.peer hc).1, rfl⟩
      started := fun hs => ?_
      tokens := ?_
      arrivals := fun x hx => ⟨rfl, ?_⟩ }⟩
    · have := h.started_of_tokens (by simp [Io.tokens, hr'])
      simp [proactor, store, this] at hs
    · simp only [Io.tokens, List.length_append, List.length_cons, List.length_nil, proactor, store]
      omega
    · have hx' : x = (r, .success, min d.length s.databuffer.length) := by
        have := (List.mem_filter.1 hx).1
        simpa [proactor, store, hnil] using this
      rw [hx']
      exact h.receivedMsg_store src hdat
  | @receiveFails e r rs hr he =>
    have hr' : s.io.receives = r :: rs := hr
    have ht : Io.tokens { s.io with receives := rs, received := s.io.received ++ [(r, e, 0)] } =
        s.io.tokens := by
      simp only [Io.tokens, hr', List.length_cons, List.length_append, List.length_nil]
      omega
    refine ⟨a, .refl a, h.io _ rfl rfl (fun hh => ht.trans (h.started hh)) (ht.trans_le h.tokens) ?_⟩
    simp [Io.arrivals, proactor, he]
  | @sendCompletes e n ns hn =>
    have hn' : s.io.sends = n :: ns := hn
    have ht : Io.tokens { s.io with
        sends := ns, sent := s.io.sent ++ [(e, if e = .success then n else 0)] } = s.io.tokens := by
      simp only [Io.tokens, hn', List.length_cons, List.length_append, List.length_nil]
      omega
    exact ⟨a, .refl a, h.io _ rfl rfl (fun hh => ht.trans (h.started hh)) (ht.trans_le h.tokens)
      (List.Subset.refl _)⟩
  | expire _ => exact ⟨a, .refl a, h.io _ rfl rfl h.started h.tokens (List.Subset.refl _)⟩
  | @runReceive i r err n hx =>
    have hx' : s.io.received[i]? = some (r, err, n) := hx
    have hmem : (r, err, n) ∈ s.io.received := List.mem_of_getElem? hx'
    obtain ⟨h1, h0⟩ := Io.tokens_eraseIdx_received hx' h.tokens
    have ht := h.io { s.io with received := s.io.received.eraseIdx i } rfl rfl (fun _ => h0)
      (h0.le.trans (Nat.zero_le _)) (by simp [Io.arrivals_eq_nil h0])
    have := ht.checkReceivedBlock hbs (h.started_of_tokens (by omega)) h0 (h.blockBranch ha hmem)
    rw [← onReceive_eq r] at this
    exact this
  | @runSend i err n hx =>
    have hx' : s.io.sent[i]? = some (err, n) := hx
    obtain ⟨h1, h0⟩ := Io.tokens_eraseIdx_sent hx' h.tokens
    have ht := h.io { s.io with sent := s.io.sent.eraseIdx i } rfl rfl (fun _ => h0)
      (h0.le.trans (Nat.zero_le _)) (List.Subset.refl _)
    change ∃ a', Moves a a' ∧ Follows F bs A a' (TftpReceiver.handleACKsent _ _ _)
    unfold TftpReceiver.handleACKsent
    split_ifs with hc
    · exact ⟨a, .refl a, ht.startNextReceive (h.started_of_tokens (by omega)) h0⟩
    · exact ⟨a, .refl a, ht⟩
  | @runTimer i err hx =>
    have ht := h.io { s.io with waited := s.io.waited.eraseIdx i } rfl rfl h.started h.tokens
      (List.Subset.refl _)
    exact ⟨a, .refl a, ht.handleReadTimeout err⟩

end Follows

end TftpReceiver

/-! ## The simulation -/

/-- What the receiver does does not change what the sender follows. -/
theorem Tftpsender.Follows.mono {F : Bytes} {bs : ℕ} {B : Endpoint} {a a' : State} {s : Tftpsender}
    (h : s.Follows F bs B a) (hm : TftpReceiver.Moves a a') : s.Follows F bs B a' :=
  { h with
    count := by rw [hm.sending]; exact h.count
    bound := by rw [hm.sending]; exact h.bound
    done := by rw [hm.sending]; exact h.done
    wire := by rw [hm.data]; exact h.wire
    arrivals := fun hne => (h.arrivals hne).imp_right fun ha => ha.imp_right
      fun ⟨i, hi, hi', hr⟩ => ⟨i, hm.acks hi, hi', hr⟩ }

/-- What the sender does does not change what the receiver follows. -/
theorem TftpReceiver.Follows.mono {F : Bytes} {bs : ℕ} {A : Endpoint} {a a' : State} {s : TftpReceiver}
    (h : s.Follows F bs A a) (hm : Tftpsender.Moves a a') : s.Follows F bs A a' :=
  { h with
    count := by rw [hm.received]; exact h.count
    content := by rw [hm.received]; exact h.content
    full := by rw [hm.received]; exact h.full
    wire := by rw [hm.acks]; exact h.wire
    acks := by rw [hm.acks]; exact h.acks
    arrivals := fun x hx => (h.arrivals x hx).imp_right fun ha => ha.imp_right
      fun ⟨i, hi, hr⟩ => ⟨i, hm.data hi, hr⟩ }

theorem Tftpsender.Follows.init {F : Bytes} {bs : ℕ} {B : Endpoint} {s : Tftpsender}
    (h : SenderStarts B F bs s) : ∃ first, first ≤ 1 ∧ s.Follows F bs B (StopAndWait.init first) := by
  cases h with
  | unknown t =>
    exact ⟨0, Nat.zero_le _, {
      wf := ⟨rfl, List.length_replicate, Nat.zero_le _, rfl⟩
      blocksize := rfl, content := rfl, count := rfl, bound := .inl (Nat.zero_le _)
      peer := fun hh => (by cases hh), done := fun hh => (by cases hh)
      wire := fun p hp => (by cases hp), started := fun _ => rfl, tokens := Nat.zero_le _
      arrivals := fun hh => absurd rfl hh }⟩
  | known t =>
    exact ⟨1, le_rfl, {
      wf := ⟨rfl, List.length_replicate, Nat.zero_le _, rfl⟩
      blocksize := rfl, content := rfl, count := rfl, bound := .inl (by decide)
      peer := fun _ => ⟨rfl, rfl⟩, done := fun hh => (by cases hh)
      wire := fun p hp => (by cases hp), started := fun _ => rfl, tokens := Nat.zero_le _
      arrivals := fun hh => absurd rfl hh }⟩

theorem TftpReceiver.Follows.init {F : Bytes} {bs : ℕ} {A : Endpoint} {s : TftpReceiver}
    (h : ReceiverStarts A bs s) (first : ℕ) : s.Follows F bs A (StopAndWait.init first) := by
  cases h with
  | unknown t =>
    exact {
      wf := ⟨rfl, List.length_replicate⟩
      blocksize := rfl, count := rfl, good := rfl, accept := rfl
      content := by simp [StopAndWait.init, TftpReceiver.new, OStream.content]
      peer := fun hh => (by cases hh), full := fun _ => by simp [StopAndWait.init]
      wire := fun p hp => (by cases hp), acks := fun i hi => hi.elim, callbacks := fun _ => rfl
      started := fun _ => rfl, tokens := Nat.zero_le _, arrivals := fun x hx => (by cases hx) }
  | known t =>
    exact {
      wf := ⟨rfl, List.length_replicate⟩
      blocksize := rfl, count := rfl, good := rfl, accept := rfl
      content := by
        simp [StopAndWait.init, TftpReceiver.newConnected, TftpReceiver.onConnect, TftpReceiver.new,
          OStream.content]
      peer := fun _ => ⟨rfl, rfl⟩, full := fun _ => by simp [StopAndWait.init]
      wire := fun p hp => (by cases hp), acks := fun i hi => hi.elim, callbacks := fun _ => rfl
      started := fun _ => rfl, tokens := Nat.zero_le _, arrivals := fun x hx => (by cases hx) }

namespace Transfer
variable {A B : Endpoint} {F : Bytes} {bs : ℕ}

/-- Both ends follow the same protocol state. -/
def Follows (F : Bytes) (bs : ℕ) (A B : Endpoint) (t : Transfer) (a : State) : Prop :=
  t.sender.Follows F bs B a ∧ t.receiver.Follows F bs A a

/-- **A transfer over a lossy network runs the stop-and-wait protocol.** -/
theorem lossy_sim (hbs : 8 ≤ bs) (hbs' : bs ≤ 65464) :
    (lossy A B F bs).Sim (fun a => ∃ first ≤ 1, a = StopAndWait.init first) Step
      (Follows F bs A B) where
  init t h := by
    obtain ⟨first, h1, hs⟩ := Tftpsender.Follows.init h.1
    exact ⟨_, ⟨first, h1, rfl⟩, hs, .init h.2 first⟩
  step t e t' a₀ a h0 hsteps h hstep := by
    obtain ⟨first, h1, rfl⟩ := h0
    have hinv : StopAndWait.Inv a := .reach h1 hsteps
    obtain ⟨hs, hr⟩ := h
    cases e with
    | sender e =>
      change lossyStep A B t (.sender e) = some t' at hstep
      rw [lossyStep] at hstep
      split_ifs at hstep with hnet
      obtain ⟨s', hs', rfl⟩ := Option.map_eq_some_iff.1 hstep
      obtain ⟨a', hm, hf⟩ := hs.step hinv hbs hbs' hs' fun src d he => by
        subst he
        simp only [lossyAllows, Bool.and_eq_true, decide_eq_true_eq] at hnet
        exact ⟨hnet.1, hr.wire _ hnet.2⟩
      exact ⟨a', hm.steps, hf, hr.mono hm⟩
    | receiver e =>
      change lossyStep A B t (.receiver e) = some t' at hstep
      rw [lossyStep] at hstep
      split_ifs at hstep with hnet
      obtain ⟨r', hr', rfl⟩ := Option.map_eq_some_iff.1 hstep
      obtain ⟨a', hm, hf⟩ := hr.step hinv hbs hr' fun src d he => by
        subst he
        simp only [lossyAllows, Bool.and_eq_true, decide_eq_true_eq] at hnet
        exact ⟨hnet.1, hs.wire _ hnet.2⟩
      exact ⟨a', hm.steps, hs.mono hm, hf⟩

/-- **Lockstep and prefix safety.**  In every state of a transfer over a lossy
    network the receiver has written the blocks that it has counted; while
    neither end has finished, the sender is at most one block ahead; no message
    from the future is ever handled; and when the sender handles the ACK of its
    last block, the receiver has finished successfully with the whole file. -/
theorem lockstep (hbs : 8 ≤ bs) (hbs' : bs ≤ 65464) {t : Transfer} (h : (lossy A B F bs).Reach t) :
    t.receiver.output.content =
        F.take (min (t.receiver.lastreceiveddatacount.toNat * bs) F.length) ∧
    (t.sender.operationEnded = false → t.receiver.operationEnded = false →
      (t.sender.lastsentdatacount.toNat : ℤ) - 1 ≤ t.receiver.lastreceiveddatacount.toNat ∧
      t.receiver.lastreceiveddatacount.toNat ≤ t.sender.lastsentdatacount.toNat) ∧
    (∀ x ∈ t.sender.io.received, t.sender.ackBranch x.2.1 x.2.2 ≠ .futureAck) ∧
    (∀ x ∈ t.receiver.io.received, t.receiver.blockBranch x.2.1 x.2.2 ≠ .futureBlock) ∧
    (∀ x ∈ t.sender.io.received, t.sender.ackBranch x.2.1 x.2.2 = .expectedAck →
      t.sender.sendingdone = true →
      t.receiver.operationEnded = true ∧ t.receiver.callbacks = [.noerr] ∧
      t.receiver.lastreceiveddatacount = t.sender.lastsentdatacount ∧
      t.receiver.output.content = F) := by
  obtain ⟨a₀, a, ⟨first, h1, rfl⟩, hsteps, hs, hr⟩ := (lossy_sim hbs hbs').reach h
  have hinv : StopAndWait.Inv a := .reach h1 hsteps
  have hcount := hr.count
  refine ⟨?_, fun he _ => ?_, fun x hx => (hs.ackBranch hinv hx).1,
    fun x hx => (hr.blockBranch hinv hx).1, fun x hx hb hd => ?_⟩
  · rw [hr.content, hcount, List.take_eq_take_min]
  · have hb := hs.bound.resolve_right fun hd => by rw [hd.ended] at he; cases he
    have := hs.count
    have := hinv.received_le
    have := hinv.sending_le
    omega
  · have hdead := Tftpsender.Follows.not_dead (List.ne_nil_of_mem hx)
    obtain ⟨hle, hack, -⟩ := (hs.ackBranch hinv hx).2 hb
    have hshort := (hs.done hd).resolve_right hdead
    obtain ⟨hend, hcb⟩ := hr.acks _ hack hshort
    have heq : a.received = a.sending := le_antisymm hinv.received_le (hinv.acks _ hack)
    refine ⟨hend, hcb, UInt16.toNat_inj.1 ?_, ?_⟩
    · have := hs.count
      omega
    · rw [hr.content, heq, List.take_of_length_le hshort.le]

/-- A file of three bytes, at the moment when its only block is acknowledged. -/
theorem lockstep_three_bytes :
    ∃ t, (lossy ⟨1, 1⟩ ⟨2, 2⟩ [5, 6, 7] 8).run
        ⟨.newConnected {} (.ofFile (some [5, 6, 7])) ⟨2, 2⟩ 1 8 2, .new {} {} 8 2⟩
        [.sender .start, .receiver .start, .receiver (.deliver ⟨1, 1⟩ [0, 3, 0, 1, 5, 6, 7]),
          .receiver (.runReceive 0), .sender (.sendCompletes .success), .sender (.runSend 0),
          .sender (.deliver ⟨2, 2⟩ [0, 4, 0, 1])] = some t ∧
      t.receiver.callbacks = [.noerr] ∧ t.receiver.output.content = [5, 6, 7] := by
  obtain ⟨t, ht⟩ := Option.isSome_iff_exists.1 (show ((lossy ⟨1, 1⟩ ⟨2, 2⟩ [5, 6, 7] 8).run
        ⟨.newConnected {} (.ofFile (some [5, 6, 7])) ⟨2, 2⟩ 1 8 2, .new {} {} 8 2⟩
        [.sender .start, .receiver .start, .receiver (.deliver ⟨1, 1⟩ [0, 3, 0, 1, 5, 6, 7]),
          .receiver (.runReceive 0), .sender (.sendCompletes .success), .sender (.runSend 0),
          .sender (.deliver ⟨2, 2⟩ [0, 4, 0, 1])]).isSome by rfl)
  have hv : (some t).map (fun t => (t.sender.io.received, t.sender.sendingdone,
      t.sender.ackBranch .success 4)) =
      some ([(.checkAckForLastBlock, .success, 4)], true, .expectedAck) := by rw [← ht]; rfl
  simp only [Option.map_some, Option.some.injEq, Prod.mk.injEq] at hv
  obtain ⟨hr, hd, hb⟩ := hv
  have hreach : (lossy ⟨1, 1⟩ ⟨2, 2⟩ [5, 6, 7] 8).Reach t :=
    Lts.Reach.run (.init (And.intro (.known 2) (.unknown 2))) ht
  have := (lockstep (by decide) (by decide) hreach).2.2.2.2
    (.checkAckForLastBlock, .success, 4) (by rw [hr]; exact List.mem_singleton_self _) hb hd
  exact ⟨t, ht, this.2.1, this.2.2.2⟩

end Transfer

end Ttftp

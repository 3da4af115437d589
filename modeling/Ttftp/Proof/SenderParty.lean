/-
  The sender as a party of a dialogue.

  A `Script` says how its part goes: the numbers of the ACKs that arrive, and the
  block it is at after each of them.  `speaker_spec` checks the handlers against
  any script.
-/
import Ttftp.Lib.Speaker
import Ttftp.Proof.Sender

namespace Ttftp

open Bytes Asio
open Dialogue (Party)

namespace Tftpsender

/-- The datagram that `sendNextBlock` sends when its stream has failed. -/
def readError : Bytes := ErrorMessage.encode ⟨TftpErrorCode.accessViolation.toUInt16,
  ascii "Error reading from requested file. Might not exist (anymore) or insufficient permissions."⟩

/-- The part of a sender of `F`: it sends the block `cur n` after `n` ACKs, of
    which the one with index `n` has the number `inc n`.  In the end the last block
    is acknowledged, or its predecessor is acknowledged once more. -/
structure Script (F : Bytes) (bs : ℕ) where
  party : Party Bytes
  inc : ℕ → ℕ
  cur : ℕ → ℕ
  code : TftpUserFacingErrorCode
  first : cur 0 = party.speaks.toNat
  outFirst : party.speaks = true → party.out 0 = dataOf F bs 1
  bound : ∀ n < party.last, cur n ≤ 65535
  next : ∀ n, n + 1 < party.last → cur n * bs ≤ F.length ∧
    party.out (n + party.speaks.toNat) = dataOf F bs (cur (n + 1)) ∧
    (inc n = cur n ∧ cur (n + 1) = cur n + 1 ∨ inc n < cur n ∧ cur (n + 1) = cur n)
  final : ∀ n, n + 1 = party.last → F.length < cur n * bs ∧
    (inc n = cur n ∧ code = .noerr ∧ party.answersLast = false ∨
      inc n < cur n ∧ code = .inputFileOpen ∧ party.answersLast = true ∧
        party.out (n + party.speaks.toNat) = readError)

/-- What holds of a sender's data in the course of its part. -/
structure Plays {F : Bytes} {bs : ℕ} (σ : Script F bs) (B : Endpoint) (x : Dialogue.State)
    (s : Tftpsender) : Prop where
  blocksize : s.blocksize = bs
  lastsentdata : s.lastsentdata.length = bs
  gcount : s.input.gcount ≤ bs
  ackbuffer : s.ackbuffer.length = 4
  content : s.input.content = F
  peer : s.isConnected = true → s.mReceiverEndpoint = B
  ended : s.operationEnded = decide (x.phase = .ended)
  callbacks : s.callbacks = if x.phase = .ended then [σ.code] else []
  count : x.phase ≠ .ended → s.lastsentdatacount.toNat = σ.cur x.taken
  connected : x.phase ≠ .ended → s.isConnected = true ∨ σ.cur x.taken = 0
  fail : x.phase ≠ .ended → s.input.fail = s.sendingdone
  done : x.phase ≠ .ended → s.sendingdone = decide (x.phase ≠ .idle ∧ F.length < σ.cur x.taken * bs)
  arrived : x.phase = .arrived → s.mLastReceivedReceiverEndpoint = B ∧
    s.receivedMsg = (true, ⟨UInt16.ofNat (σ.inc x.taken)⟩)

variable {F : Bytes} {bs : ℕ} {σ : Script F bs} {B : Endpoint} {x : Dialogue.State} {s : Tftpsender}

/-- A sender as a party. -/
def speaker (σ : Script F bs) (B : Endpoint) (before : List (Endpoint × Bytes)) : Speaker proactor where
  party := σ.party
  peer := B
  before := before
  incoming n := ackOf (σ.inc n)
  size _ := 4
  data := Plays σ B

namespace Plays

theorem wellFormed (h : s.Plays σ B x) (ho : s.io.isOpen = !s.operationEnded) : s.WellFormed :=
  ⟨ho, h.lastsentdata.trans h.blocksize.symm, h.gcount.trans_eq h.blocksize.symm, h.ackbuffer⟩

theorem io (h : s.Plays σ B x) (io : Io SenderHandler Endpoint) : Plays σ B x { s with io := io } :=
  { h with arrived := h.arrived }

/-- An ACK arrives. -/
theorem store {n : ℕ} (h : s.Plays σ B ⟨.waiting, n⟩) (hbs : 8 ≤ bs) : Plays σ B ⟨.arrived, n⟩
    (s.store B ((ackOf (σ.inc n)).take (min s.ackbuffer.length s.blocksize))) := by
  have hb := h.blocksize
  have ha := h.ackbuffer
  have hl : ((ackOf (σ.inc n)).take (min s.ackbuffer.length s.blocksize)).length ≤
      s.ackbuffer.length := (List.length_take_le _ _).trans (min_le_left _ _)
  have hbuf : (s.store B ((ackOf (σ.inc n)).take (min s.ackbuffer.length s.blocksize))).ackbuffer.length =
      4 := by
    simp only [Tftpsender.store, List.length_append, List.length_drop]
    omega
  have hdone : s.sendingdone = decide (F.length < σ.cur n * bs) := by simpa using h.done (by simp)
  exact { h with
    count := fun _ => h.count (by simp)
    connected := fun _ => h.connected (by simp)
    fail := fun _ => h.fail (by simp)
    done := fun _ => hdone.trans (by simp)
    ackbuffer := hbuf
    arrived := fun _ => ⟨rfl, receivedMsg_ackOf ha (by omega) B _⟩ }

end Plays

/-- A handler of the sender is about to send block `c`. -/
structure Ready (F : Bytes) (bs : ℕ) (B : Endpoint) (c : ℕ) (s : Tftpsender) : Prop where
  isOpen : s.io.isOpen = true
  started : s.io.started = true
  ops : s.io.ops = ([], [], [], [])
  waited : ∀ e ∈ s.io.waited, e = .operationAborted
  threw : s.threw = false
  blocksize : s.blocksize = bs
  lastsentdata : s.lastsentdata.length = bs
  gcount : s.input.gcount ≤ bs
  ackbuffer : s.ackbuffer.length = 4
  content : s.input.content = F
  connected : s.isConnected = true
  peer : s.mReceiverEndpoint = B
  running : s.operationEnded = false
  callbacks : s.callbacks = []
  count : s.lastsentdatacount.toNat = c

namespace Ready
variable {c n : ℕ} {before : List (Endpoint × Bytes)}

theorem wellFormed (h : s.Ready F bs B c) : s.WellFormed :=
  ⟨by rw [h.isOpen, h.running]; rfl, h.lastsentdata.trans h.blocksize.symm,
    h.gcount.trans_eq h.blocksize.symm, h.ackbuffer⟩

/-- The block goes out. -/
theorem sendNextBlock (h : s.Ready F bs B c) (hbs : 8 ≤ bs) (hbs' : bs ≤ 65464) (hc : 1 ≤ c)
    (hf : s.input.fail = false) (hd : s.sendingdone = false) (hcur : σ.cur n = c)
    (hw : (speaker σ B before).wireAt ⟨.sending, n⟩ = s.io.wire ++ [(B, dataOf F bs c)]) :
    s.sendNextBlock.io.idleCalls ≤ s.io.idleCalls + 1 ∧
      (speaker σ B before).At ⟨.sending, n⟩ s.sendNextBlock := by
  obtain ⟨input, lastsentdata, h1, h2, h3, h4, heq⟩ := sendNextBlock_block h.wellFormed
    (by rw [h.blocksize]; exact hbs') (by rw [h.count]; exact hc) hf hd
  rw [h.content, h.blocksize, h.count, h.peer] at heq
  rw [h.content, h.blocksize, h.count] at h4
  rw [heq]
  have hfail : input.fail = decide (F.length < σ.cur n * bs) := by
    rw [h4, hcur]
    have := length_block_lt F (show 0 < bs by omega) (c - 1)
    rw [Nat.sub_add_cancel hc] at this
    exact decide_eq_decide.2 this
  refine ⟨Io.asyncSendTo_idleCalls_le _ _ _, ?_, ?_, ⟨_, ?_, Io.ops_asyncSendTo h.ops h.isOpen _ _⟩,
    ?_, ?_, h.threw, ?_⟩
  · exact (Io.asyncSendTo_isOpen _ _ _).trans h.isOpen
  · exact (Io.asyncSendTo_started _ _ _).trans h.started
  · simp [dataOf]
  · intro e he
    refine h.waited e ?_
    simpa [Io.asyncSendTo, h.isOpen, proactor] using he
  · rw [hw]
    simp [Io.asyncSendTo, h.isOpen, proactor]
  · exact {
      blocksize := rfl
      lastsentdata := h3.trans h.blocksize
      gcount := h2.trans_eq h.blocksize
      ackbuffer := h.ackbuffer
      content := h1.trans h.content
      peer := fun _ => rfl
      ended := h.running
      callbacks := h.callbacks
      count := fun _ => h.count.trans hcur.symm
      connected := fun _ => .inl h.connected
      fail := fun _ => rfl
      done := fun _ => by simpa using hfail
      arrived := fun hx => by cases hx }

/-- The stream has failed, and the operation ends. -/
theorem sendNextBlock_failed (h : s.Ready F bs B c) (hbs' : bs ≤ 65464) (hc : 1 ≤ c)
    (hf : s.input.fail = true) (hcode : σ.code = .inputFileOpen)
    (hw : (speaker σ B before).wireAt ⟨.ended, n⟩ = s.io.wire ++ [(B, readError)]) :
    s.sendNextBlock.io.idleCalls ≤ s.io.idleCalls + 1 ∧
      (speaker σ B before).At ⟨.ended, n⟩ s.sendNextBlock := by
  have hsf : s.seeked.fail = true := (seeked_fail (by rw [h.blocksize]; exact hbs')
    (by rw [h.count]; exact hc)).trans hf
  have hi : s.inputFileError = { s with
      input := s.seeked
      io := (s.io.asyncSendDetached B readError).close
      operationEnded := true
      callbacks := [.inputFileOpen] } := by
    rw [inputFileError, endOperationWith, if_neg (by simp [sendErrorMsg, h.running])]
    simp only [sendErrorMsg, h.callbacks, h.peer, List.nil_append, readError]
  have hops := h.ops
  simp only [Io.ops, Prod.mk.injEq] at hops
  obtain ⟨h1, h2, h3, h4⟩ := hops
  have hio : ∀ d, ((s.io.asyncSendDetached B readError).close.asyncSendTo B d) =
      { (s.io.asyncSendDetached B readError).close with sent := [(.badDescriptor, 0)] } := by
    intro d
    simp [Io.asyncSendTo, Io.close, Io.abortAll, Io.asyncSendDetached, h.isOpen, h3, h4]
  rw [sendNextBlock_bad h.wellFormed hsf, hi]
  simp only [h.peer, hio]
  refine ⟨?_, rfl, ?_, ⟨?_, ?_, ?_, rfl⟩, ?_, ?_, h.threw, ?_⟩
  · simp [Io.idleCalls, Io.refused, Io.close, Io.abortAll, Io.asyncSendDetached, h.isOpen, h4]
  · simp [proactor, h.started]
  · simp [proactor, Io.close, Io.abortAll]
  · simp [proactor, Io.close, Io.abortAll, Io.asyncSendDetached, h.isOpen, h1, h2]
  · simp [proactor, Io.close, Io.abortAll]
  · intro e he
    refine h.waited e ?_
    simpa [Io.close, Io.abortAll, Io.asyncSendDetached, h.isOpen, proactor] using he
  · rw [hw]
    simp [proactor, Io.close, Io.abortAll, Io.asyncSendDetached, h.isOpen]
  · exact {
      blocksize := h.blocksize
      lastsentdata := h.lastsentdata
      gcount := by simpa [seeked] using h.gcount
      ackbuffer := h.ackbuffer
      content := by simpa [seeked] using h.content
      peer := fun _ => rfl
      ended := rfl
      callbacks := by simp [hcode]
      count := fun hx => absurd rfl hx
      connected := fun hx => absurd rfl hx
      fail := fun hx => absurd rfl hx
      done := fun hx => absurd rfl hx
      arrived := fun hx => by cases hx }

end Ready

/-! ## The handlers -/

section
variable {n : ℕ} {before : List (Endpoint × Bytes)}

/-- The sender listens. -/
theorem startNextReceive_at (h : (speaker σ B before).In ⟨.waiting, n⟩ s) :
    (speaker σ B before).At ⟨.waiting, n⟩ s.startNextReceive where
  isOpen := (Io.asyncReceiveFrom_isOpen _ _).trans h.isOpen
  started := (Io.asyncReceiveFrom_started _ _).trans h.started
  ops := ⟨_, Io.ops_asyncReceiveFrom h.ops h.isOpen _⟩
  waited e he := h.waited e (by
    simpa [startNextReceive, Io.asyncReceiveFrom, show s.io.isOpen = true from h.isOpen, proactor] using he)
  wire := (Io.asyncReceiveFrom_wire _ _).trans h.wire
  threw := h.threw
  data := h.data.io _

theorem speaker_start (hbs : 8 ≤ bs) (hbs' : bs ≤ 65464) (h : (speaker σ B before).In ⟨.idle, 0⟩ s) :
    s.start.io.idleCalls ≤ s.io.idleCalls + 1 ∧
      (speaker σ B before).At ⟨if σ.party.speaks then .sending else .waiting, 0⟩ s.start := by
  have hd := h.data
  have hfirst := σ.first
  have hwire : s.io.wire = before := h.wire.trans (Speaker.wireAt_init _)
  have hcount : s.lastsentdatacount.toNat = σ.cur 0 := hd.count (by simp)
  have hdone : s.sendingdone = false := by simpa using hd.done (by simp)
  have hfail : s.input.fail = false := (hd.fail (by simp)).trans hdone
  rw [start, if_neg (by simp [hfail])]
  cases hs : σ.party.speaks with
  | true =>
    rw [hs, Bool.toNat_true] at hfirst
    rw [if_pos (by rw [← UInt16.toNat_inj, hcount, hfirst]; rfl)]
    have hcon : s.isConnected = true := (hd.connected (by simp)).resolve_right (by rw [hfirst]; decide)
    have hready : s.Ready F bs B 1 := {
      isOpen := h.isOpen, started := h.started, ops := h.ops, waited := h.waited, threw := h.threw
      blocksize := hd.blocksize, lastsentdata := hd.lastsentdata, gcount := hd.gcount
      ackbuffer := hd.ackbuffer, content := hd.content, connected := hcon, peer := hd.peer hcon
      running := hd.ended, callbacks := hd.callbacks, count := hcount.trans hfirst }
    refine hready.sendNextBlock hbs hbs' le_rfl hfail hdone hfirst ?_
    rw [hwire, (speaker σ B before).wireAt_opening hs, ← σ.outFirst hs]
    rfl
  | false =>
    rw [hs, Bool.toNat_false] at hfirst
    rw [if_neg (by rw [← UInt16.toNat_inj, hcount, hfirst]; decide)]
    refine ⟨(Io.asyncReceiveFrom_idleCalls _ _).trans_le (Nat.le_succ _), startNextReceive_at
      { h with wire := ?_, data := { hd with
        count := fun _ => hcount
        connected := fun _ => hd.connected (by simp)
        fail := fun _ => hfail.trans hdone.symm
        done := fun _ => by simpa [hfirst] using hdone
        arrived := fun hx => by cases hx } }⟩
    exact hwire.trans ((speaker σ B before).wireAt_silent hs).symm

theorem speaker_listen {k : ℕ} (hk : k ≠ 0) (h : (speaker σ B before).In ⟨.sent, n⟩ s) :
    (s.handleBlockSent .success k).io.idleCalls ≤ s.io.idleCalls + 1 ∧
      (speaker σ B before).At ⟨.waiting, n⟩ (s.handleBlockSent .success k) := by
  have hd := h.data
  rw [handleBlockSent, if_pos ⟨rfl, hk⟩]
  refine ⟨?_, startNextReceive_at ⟨h.isOpen, h.started, h.ops, Io.waited_timerCancel h.waited, h.wire,
    h.threw, { hd with
      count := fun _ => hd.count (by simp)
      connected := fun _ => hd.connected (by simp)
      fail := fun _ => hd.fail (by simp)
      done := fun _ => by simpa using hd.done (by simp)
      arrived := fun hx => by cases hx }⟩⟩
  simp [startNextReceive]

/-- Which branch an arrived ACK takes. -/
theorem ackBranch_arrived (hn : n < σ.party.last) (h : Plays σ B ⟨.arrived, n⟩ s)
    (hle : σ.inc n ≤ σ.cur n) :
    s.ackBranch .success 4 = if σ.inc n = σ.cur n then .expectedAck else .olderAck := by
  obtain ⟨hlast, hmsg⟩ := h.arrived rfl
  have hhost : s.wrongRemoteHost = false := by
    unfold wrongRemoteHost
    cases hc : s.isConnected with
    | false => rfl
    | true => simp [hlast, h.peer hc]
  have hcount : s.lastsentdatacount.toNat = σ.cur n := h.count (by simp)
  have hb := σ.bound n hn
  have hinc : (UInt16.ofNat (σ.inc n)).toNat = σ.inc n := UInt16.toNat_ofNat_of_lt' (by
    change σ.inc n < 65536
    omega)
  rw [ackBranch, if_pos ⟨rfl, rfl, hhost⟩, hmsg, if_neg (by simp)]
  simp only [UInt16.lt_iff_toNat_lt, ← UInt16.toNat_inj, hinc, hcount]
  split_ifs with h1 h2
  · omega
  · rfl
  · rfl
  · omega

/-- After an older ACK the current block is sent again. -/
theorem ready_retry (h : (speaker σ B before).In ⟨.arrived, n⟩ s) (hcur : σ.cur n ≠ 0) :
    Ready F bs B (σ.cur n) { s with io := s.io.timerCancel } :=
  have hd := h.data
  have hcon : s.isConnected = true := (hd.connected (by simp)).resolve_right hcur
  { isOpen := h.isOpen, started := h.started, ops := h.ops
    waited := Io.waited_timerCancel h.waited, threw := h.threw
    blocksize := hd.blocksize, lastsentdata := hd.lastsentdata, gcount := hd.gcount
    ackbuffer := hd.ackbuffer, content := hd.content, connected := hcon, peer := hd.peer hcon
    running := hd.ended, callbacks := hd.callbacks, count := hd.count (by simp) }

/-- After the expected ACK it is the next one's turn. -/
theorem ready_countAck (h : (speaker σ B before).In ⟨.arrived, n⟩ s) (hcur : σ.cur n < 65535) :
    Ready F bs B (σ.cur n + 1) (countAck { s with io := s.io.timerCancel }) := by
  have hd := h.data
  have hcount : (s.lastsentdatacount + 1).toNat = σ.cur n + 1 := by
    have hc : s.lastsentdatacount.toNat = σ.cur n := hd.count (by simp)
    rw [UInt16.toNat_add, hc, UInt16.toNat_one]
    omega
  have hlast := (hd.arrived rfl).1
  unfold countAck onConnect
  dsimp only
  split_ifs with hc
  · exact {
      isOpen := h.isOpen, started := h.started, ops := h.ops
      waited := Io.waited_timerCancel h.waited, threw := h.threw
      blocksize := hd.blocksize, lastsentdata := hd.lastsentdata, gcount := hd.gcount
      ackbuffer := hd.ackbuffer, content := hd.content, connected := hc, peer := hd.peer hc
      running := hd.ended, callbacks := hd.callbacks, count := hcount }
  · exact {
      isOpen := h.isOpen, started := h.started, ops := h.ops
      waited := Io.waited_timerCancel h.waited, threw := h.threw
      blocksize := hd.blocksize, lastsentdata := hd.lastsentdata, gcount := hd.gcount
      ackbuffer := hd.ackbuffer, content := hd.content, connected := rfl, peer := hlast
      running := hd.ended, callbacks := hd.callbacks, count := hcount }

/-- The ACK of the last block ends the operation. -/
theorem endOperation_at (hn : n + 1 = σ.party.last) (ha : σ.party.answersLast = false)
    (hcode : σ.code = .noerr) (h : (speaker σ B before).In ⟨.arrived, n⟩ s) :
    ((countAck { s with io := s.io.timerCancel }).endOperation .success).io.idleCalls ≤
        s.io.idleCalls + 1 ∧
      (speaker σ B before).At ⟨.ended, n + 1⟩
        ((countAck { s with io := s.io.timerCancel }).endOperation .success) := by
  have hd := h.data
  have hops := @Io.ops_close _ _ s.io.timerCancel h.ops
  simp only [Io.ops, Prod.mk.injEq] at hops
  have hend : (countAck { s with io := s.io.timerCancel }).operationEnded = false :=
    (countAck_operationEnded _).trans hd.ended
  have hplays : Plays σ B ⟨.ended, n + 1⟩
      { countAck { s with io := s.io.timerCancel } with
        io := s.io.timerCancel.close, operationEnded := true, callbacks := s.callbacks ++ [.noerr] } := by
    have hcb : s.callbacks = [] := hd.callbacks
    have hlast := (hd.arrived rfl).1
    unfold countAck onConnect
    dsimp only
    split_ifs with hc
    · exact {
        blocksize := hd.blocksize, lastsentdata := hd.lastsentdata, gcount := hd.gcount
        ackbuffer := hd.ackbuffer, content := hd.content, peer := hd.peer, ended := rfl
        callbacks := by simp [hcb, hcode]
        count := fun hx => absurd rfl hx, connected := fun hx => absurd rfl hx
        fail := fun hx => absurd rfl hx, done := fun hx => absurd rfl hx
        arrived := fun hx => by cases hx }
    · exact {
        blocksize := hd.blocksize, lastsentdata := hd.lastsentdata, gcount := hd.gcount
        ackbuffer := hd.ackbuffer, content := hd.content, peer := fun _ => hlast, ended := rfl
        callbacks := by simp [hcb, hcode]
        count := fun hx => absurd rfl hx, connected := fun hx => absurd rfl hx
        fail := fun hx => absurd rfl hx, done := fun hx => absurd rfl hx
        arrived := fun hx => by cases hx }
  have hthrew : (countAck { s with io := s.io.timerCancel }).threw = false := by
    unfold countAck onConnect
    split_ifs <;> exact h.threw
  rw [endOperation, endOperationWith, if_neg (by rw [hend]; decide)]
  simp only [countAck_io, countAck_callbacks, if_true]
  refine ⟨by simp, rfl, ?_, ⟨hops.1, hops.2.1, hops.2.2.1, ?_⟩, Io.waited_timerCancel h.waited, ?_,
    hthrew, hplays⟩
  · exact (Io.close_started _).trans h.started
  · simp only [Io.refused, proactor, hops.2.2.2, List.filter_nil]
  · exact h.wire.trans ((speaker σ B before).wireAt_last hn ha).symm

theorem speaker_handle (hbs : 8 ≤ bs) (hbs' : bs ≤ 65464) (hn : n < σ.party.last)
    (h : (speaker σ B before).In ⟨.arrived, n⟩ s) :
    (s.checkAckForLastBlock .success 4).io.idleCalls ≤ s.io.idleCalls + 1 ∧
      ∃ x', σ.party.Move ⟨.arrived, n⟩ x' ∧
        (speaker σ B before).At x' (s.checkAckForLastBlock .success 4) := by
  have hd := h.data
  have hdone : s.sendingdone = decide (F.length < σ.cur n * bs) := by simpa using hd.done (by simp)
  have hfail : s.input.fail = s.sendingdone := hd.fail (by simp)
  have hio : ackBranch .success 4 { s with io := s.io.timerCancel } = s.ackBranch .success 4 := rfl
  have hclock : s.io.timerCancel.idleCalls = s.io.idleCalls := Io.timerCancel_idleCalls _
  have hwire : (speaker σ B before).wireAt ⟨.arrived, n⟩ = s.io.wire := h.wire.symm
  rw [checkAckForLastBlock]
  simp only [hio]
  rcases Nat.lt_or_eq_of_le (Nat.succ_le_of_lt hn) with hlt | heq
  · obtain ⟨hfull, hout, hcase⟩ := σ.next n hlt
    have hnd : s.sendingdone = false := by rw [hdone, decide_eq_false (by omega)]
    have hw : (speaker σ B before).wireAt ⟨.sending, n + 1⟩ =
        s.io.wire ++ [(B, dataOf F bs (σ.cur (n + 1)))] := by
      rw [Speaker.wireAt_answer, hwire, ← hout]
      rfl
    rcases hcase with ⟨hinc, hnext⟩ | ⟨hinc, hnext⟩
    · have hb := σ.bound (n + 1) hlt
      have hinput : (countAck { s with io := s.io.timerCancel }).input = s.input := by
        unfold countAck
        split_ifs <;> rfl
      have hres := (ready_countAck h (by omega)).sendNextBlock hbs hbs' (Nat.succ_pos _)
        (by rw [hinput, hfail, hnd]) (by rw [countAck_sendingdone, hnd]) hnext
        (by rw [countAck_io, ← hnext]; exact hw)
      rw [countAck_io, hclock] at hres
      simp only [ackBranch_arrived hn hd hinc.le, if_pos hinc]
      rw [acceptAck, if_neg (by rw [countAck_sendingdone, hnd]; decide)]
      exact ⟨hres.1, _, .answer hlt, hres.2⟩
    · have hres := (ready_retry h (by omega)).sendNextBlock hbs hbs' (by omega) (hfail.trans hnd) hnd
        hnext (by rw [← hnext]; exact hw)
      simp only [ackBranch_arrived hn hd hinc.le, if_neg hinc.ne]
      exact ⟨hres.1.trans_eq (by rw [hclock]), _, .answer hlt, hres.2⟩
  · obtain ⟨hshort, hcase⟩ := σ.final n heq
    have hnd : s.sendingdone = true := by rw [hdone, decide_eq_true hshort]
    rcases hcase with ⟨hinc, hcode, ha⟩ | ⟨hinc, hcode, ha, hout⟩
    · have hres := endOperation_at heq ha hcode h
      simp only [ackBranch_arrived hn hd hinc.le, if_pos hinc]
      rw [acceptAck, if_pos (by rw [countAck_sendingdone, hnd])]
      exact ⟨hres.1, _, .finish heq, hres.2⟩
    · have hw : (speaker σ B before).wireAt ⟨.ended, n + 1⟩ = s.io.wire ++ [(B, readError)] := by
        rw [Speaker.wireAt_answerLast _ heq ha, hwire, ← hout]
        rfl
      have hres := (ready_retry h (by omega)).sendNextBlock_failed hbs' (by omega) (hfail.trans hnd)
        hcode hw
      simp only [ackBranch_arrived hn hd hinc.le, if_neg hinc.ne]
      exact ⟨hres.1.trans_eq (by rw [hclock]), _, .finish heq, hres.2⟩

/-- **The handlers of a sender play any script.** -/
theorem speaker_spec (hbs : 8 ≤ bs) (hbs' : bs ≤ 65464) : (speaker σ B before).Spec where
  io_setIo _ _ := rfl
  threw_setIo _ _ := rfl
  data_setIo io _ _ h := Plays.io h io
  io_store _ _ _ := rfl
  threw_store _ _ _ := rfl
  start _ h := speaker_start hbs hbs' h
  complete n s h := { h with
    count := fun _ => h.count (by simp)
    connected := fun _ => h.connected (by simp)
    fail := fun _ => h.fail (by simp)
    done := fun _ => by simpa using h.done (by simp)
    arrived := fun hx => by cases hx }
  listen n s k hk h := speaker_listen hk h
  size n s h := by
    have hb := Plays.blocksize h
    have ha := Plays.ackbuffer h
    change min 4 (min s.ackbuffer.length s.blocksize) = 4
    omega
  store n s io h := (Plays.io h io).store hbs
  handle n s r hn h := by
    have hres := speaker_handle hbs hbs' hn h
    rw [← onReceive_eq r] at hres
    exact hres
  timer s := rfl
  refused s k := rfl

/-- A sender that starts with DATA 1 to a known peer, or waits for ACK 0. -/
theorem newConnected_at (before : List (Endpoint × Bytes)) {firstAck : ℤ}
    (hfirst : firstAck = σ.party.speaks.toNat) (timeoutSeconds : UInt8) :
    (speaker σ B before).At ⟨.idle, 0⟩
      (newConnected { wire := before } (.ofFile (some F)) B firstAck bs timeoutSeconds) where
  isOpen := rfl
  started := rfl
  ops := rfl
  waited := fun e he => by cases he
  wire := (speaker σ B before).wireAt_init.symm
  threw := rfl
  data := by
    have hcount : (UInt16.ofInt firstAck).toNat = σ.cur 0 := by
      rw [hfirst, σ.first]
      cases σ.party.speaks <;> rfl
    exact {
      blocksize := rfl, lastsentdata := List.length_replicate, gcount := Nat.zero_le _
      ackbuffer := rfl, content := rfl, peer := fun _ => rfl, ended := rfl, callbacks := rfl
      count := fun _ => hcount
      connected := fun _ => .inl rfl, fail := fun _ => rfl, done := fun _ => by simp [newConnected, onConnect, new]
      arrived := fun hx => by cases hx }

/-- A sender that waits for ACK 0 of an unknown peer. -/
theorem new_at (before : List (Endpoint × Bytes)) (hfirst : σ.party.speaks = false)
    (timeoutSeconds : UInt8) : (speaker σ B before).At ⟨.idle, 0⟩
      (new { wire := before } (.ofFile (some F)) 0 bs timeoutSeconds) where
  isOpen := rfl
  started := rfl
  ops := rfl
  waited := fun e he => by cases he
  wire := (speaker σ B before).wireAt_init.symm
  threw := rfl
  data :=
    have hcur : σ.cur 0 = 0 := by rw [σ.first, hfirst]; rfl
    { blocksize := rfl, lastsentdata := List.length_replicate, gcount := Nat.zero_le _
      ackbuffer := rfl, content := rfl, peer := fun hc => by cases hc
      ended := rfl, callbacks := rfl, count := fun _ => hcur.symm
      connected := fun _ => .inr hcur, fail := fun _ => rfl, done := fun _ => by simp [new]
      arrived := fun hx => by cases hx }

/-- A sender that has been started with an open socket. -/
theorem newConnected_started (hbs : 8 ≤ bs) (hbs' : bs ≤ 65464) (before : List (Endpoint × Bytes))
    {firstAck : ℤ} (hfirst : firstAck = σ.party.speaks.toNat) (timeoutSeconds : UInt8) :
    (speaker σ B before).At ⟨if σ.party.speaks then .sending else .waiting, 0⟩
      (newConnected { started := true, wire := before } (.ofFile (some F)) B firstAck bs
        timeoutSeconds).start :=
  ((speaker_spec hbs hbs').start _ ((newConnected_at before hfirst timeoutSeconds).start
    (speaker_spec hbs hbs'))).2

end

end Tftpsender

end Ttftp

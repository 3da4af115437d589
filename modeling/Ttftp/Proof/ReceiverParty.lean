/-
  The receiver as a party of a dialogue.

  As for the sender, a `Script` gives the numbers of the blocks that arrive and of
  the ones taken, and `speaker_spec` checks the handlers against any script.
-/
import Ttftp.Lib.Speaker
import Ttftp.Proof.Receiver

namespace Ttftp

open Bytes Asio
open Dialogue (Party)

namespace TftpReceiver

/-- The part of a receiver of `F`: it has taken `got n` blocks after `n` DATA
    messages, of which the one with index `n` has the number `inc n`.  A block may
    come twice; the last one ends the operation. -/
structure Script (F : Bytes) (bs : ℕ) where
  party : Party Bytes
  inc : ℕ → ℕ
  got : ℕ → ℕ
  first : got 0 = 0
  outFirst : party.speaks = true → party.out 0 = ackOf 0
  bound : ∀ n < party.last, 1 ≤ inc n ∧ inc n ≤ 65535
  next : ∀ n, n + 1 < party.last → party.out (n + party.speaks.toNat) = ackOf (got (n + 1)) ∧
    (inc n = got n + 1 ∧ got (n + 1) = got n + 1 ∧ inc n * bs ≤ F.length ∨
      inc n ≤ got n ∧ got (n + 1) = got n)
  final : ∀ n, n + 1 = party.last → inc n = got n + 1 ∧ F.length < inc n * bs ∧
    party.answersLast = true ∧ party.out (n + party.speaks.toNat) = ackOf (inc n)

/-- What holds of a receiver's data in the course of its part. -/
structure Plays {F : Bytes} {bs : ℕ} (ρ : Script F bs) (A : Endpoint) (x : Dialogue.State)
    (s : TftpReceiver) : Prop where
  blocksize : s.blocksize = bs
  databuffer : s.databuffer.length = bs + 4
  good : s.output.fail = false
  accept : s.output.accept = fun _ => true
  content : s.output.content = if x.phase = .ended then F else F.take (ρ.got x.taken * bs)
  peer : s.isConnected = true → s.mSenderEndpoint = A
  ended : s.operationEnded = decide (x.phase = .ended)
  callbacks : s.callbacks = if x.phase = .ended then [.noerr] else []
  count : x.phase ≠ .ended → s.lastreceiveddatacount.toNat = ρ.got x.taken
  connected : x.phase ≠ .ended → s.isConnected = (ρ.party.speaks || decide (0 < ρ.got x.taken))
  arrived : x.phase = .arrived → s.mLastReceivedSenderEndpoint = A ∧
    s.receivedMsg (dataOf F bs (ρ.inc x.taken)).length = (true, { DataMessage.new bs with
      mBlockNr := UInt16.ofNat (ρ.inc x.taken), mData := block F bs (ρ.inc x.taken - 1) })

variable {F : Bytes} {bs : ℕ} {ρ : Script F bs} {A : Endpoint} {x : Dialogue.State} {s : TftpReceiver}

/-- A receiver as a party. -/
def speaker (ρ : Script F bs) (A : Endpoint) (before : List (Endpoint × Bytes)) : Speaker proactor where
  party := ρ.party
  peer := A
  before := before
  incoming n := dataOf F bs (ρ.inc n)
  size n := (dataOf F bs (ρ.inc n)).length
  data := Plays ρ A

namespace Plays

theorem io (h : s.Plays ρ A x) (io : Io ReceiverHandler Endpoint) : Plays ρ A x { s with io := io } :=
  { h with arrived := h.arrived }

/-- A block arrives. -/
theorem store {n : ℕ} (h : s.Plays ρ A ⟨.waiting, n⟩) : Plays ρ A ⟨.arrived, n⟩
    (s.store A ((dataOf F bs (ρ.inc n)).take s.databuffer.length)) := by
  have hb := h.blocksize
  have hd := h.databuffer
  have hbuf : (s.store A ((dataOf F bs (ρ.inc n)).take s.databuffer.length)).databuffer.length =
      bs + 4 := by
    have hl := List.length_take_le s.databuffer.length (dataOf F bs (ρ.inc n))
    simp only [TftpReceiver.store, List.length_append, List.length_drop]
    omega
  have hmsg := receivedMsg_dataOf (hd.trans (by rw [hb])) A F (ρ.inc n)
  rw [hb] at hmsg
  exact { h with
    databuffer := hbuf
    content := h.content
    count := fun _ => h.count (by simp)
    connected := fun _ => h.connected (by simp)
    arrived := fun _ => ⟨rfl, hmsg⟩ }

end Plays

/-- A handler of the receiver is about to acknowledge block `c`. -/
structure Ready (F : Bytes) (bs : ℕ) (A : Endpoint) (c : ℕ) (s : TftpReceiver) : Prop where
  isOpen : s.io.isOpen = true
  started : s.io.started = true
  ops : s.io.ops = ([], [], [], [])
  waited : ∀ e ∈ s.io.waited, e = .operationAborted
  threw : s.threw = false
  blocksize : s.blocksize = bs
  databuffer : s.databuffer.length = bs + 4
  good : s.output.fail = false
  accept : s.output.accept = fun _ => true
  content : s.output.content = F.take (c * bs)
  connected : s.isConnected = true
  peer : s.mSenderEndpoint = A
  running : s.operationEnded = false
  callbacks : s.callbacks = []
  count : s.lastreceiveddatacount.toNat = c

namespace Ready
variable {c n : ℕ} {before : List (Endpoint × Bytes)}

theorem ack (h : s.Ready F bs A c) : AckMessage.encode ⟨s.lastreceiveddatacount⟩ = ackOf c := by
  rw [ackOf, ← h.count, UInt16.ofNat_toNat]

/-- The ACK goes out. -/
theorem sendNextAck (h : s.Ready F bs A c) (hgot : ρ.got n = c) (hc : ρ.party.speaks = true ∨ 0 < c)
    (hw : (speaker ρ A before).wireAt ⟨.sending, n⟩ = s.io.wire ++ [(A, ackOf c)]) :
    (s.sendNextAck false).io.idleCalls ≤ s.io.idleCalls + 1 ∧
      (speaker ρ A before).At ⟨.sending, n⟩ (s.sendNextAck false) := by
  have hack := h.ack
  rw [sendNextAck_false, if_pos h.connected, hack, h.peer]
  refine ⟨Io.asyncSendTo_idleCalls_le _ _ _, ?_, ?_, ⟨_, ?_, Io.ops_asyncSendTo h.ops h.isOpen _ _⟩,
    ?_, ?_, h.threw, ?_⟩
  · exact (Io.asyncSendTo_isOpen _ _ _).trans h.isOpen
  · exact (Io.asyncSendTo_started _ _ _).trans h.started
  · exact Nat.succ_ne_zero 3
  · intro e he
    refine h.waited e ?_
    simpa [Io.asyncSendTo, h.isOpen, proactor] using he
  · rw [hw]
    simp [Io.asyncSendTo, h.isOpen, proactor]
  · exact {
      blocksize := h.blocksize
      databuffer := h.databuffer
      good := h.good
      accept := h.accept
      content := by rw [if_neg (by simp), hgot]; exact h.content
      peer := fun _ => rfl
      ended := h.running
      callbacks := h.callbacks
      count := fun _ => h.count.trans hgot.symm
      connected := fun _ => h.connected.trans (by rw [hgot]; simpa using hc)
      arrived := fun hx => by cases hx }

/-- The last ACK goes out, and the operation ends. -/
theorem sendLastAck (h : s.Ready F bs A c) (hF : F.length ≤ c * bs)
    (hw : (speaker ρ A before).wireAt ⟨.ended, n⟩ = s.io.wire ++ [(A, ackOf c)]) :
    (TftpReceiver.sendNextAck true s).io.idleCalls ≤ s.io.idleCalls + 1 ∧
      (speaker ρ A before).At ⟨.ended, n⟩ (TftpReceiver.sendNextAck true s) := by
  have hack := h.ack
  have hops := h.ops
  simp only [Io.ops, Prod.mk.injEq] at hops
  obtain ⟨h1, h2, h3, h4⟩ := hops
  rw [sendNextAck_true _ h.connected, if_pos h.isOpen, hack, h.peer, endOperation, endOperationWith,
    if_neg (by rw [h.running]; decide)]
  simp only [if_true]
  refine ⟨?_, rfl, h.started, ⟨rfl, ?_, rfl, ?_⟩, h.waited, ?_, h.threw, ?_⟩
  · rw [Io.close_idleCalls]
    exact Nat.le_succ _
  · simp [proactor, Io.close, Io.abortAll, h1, h2]
  · simp [proactor, Io.refused, Io.close, Io.abortAll, h3, h4]
  · rw [hw]
    rfl
  · exact {
      blocksize := h.blocksize
      databuffer := h.databuffer
      good := h.good
      accept := h.accept
      content := h.content.trans (List.take_of_length_le hF)
      peer := fun _ => rfl
      ended := rfl
      callbacks := by simp [h.callbacks]
      count := fun hx => absurd rfl hx
      connected := fun hx => absurd rfl hx
      arrived := fun hx => by cases hx }

end Ready

/-! ## The handlers -/

section
variable {n : ℕ} {before : List (Endpoint × Bytes)}

/-- The receiver listens, with the timer set anew. -/
theorem startNextReceive_at (h : (speaker ρ A before).In ⟨.waiting, n⟩ s) :
    s.startNextReceive.io.idleCalls ≤ s.io.idleCalls + 1 ∧
      (speaker ρ A before).At ⟨.waiting, n⟩ s.startNextReceive := by
  have hopen : s.io.isOpen = true := h.isOpen
  refine ⟨by simp [startNextReceive], ?_, ?_,
    ⟨_, @Io.ops_asyncReceiveFrom _ _ (s.io.expiresFromNow s.timeoutSeconds.toNat).asyncWait
      h.ops h.isOpen _⟩, ?_, ?_, h.threw, ?_⟩
  · exact (Io.asyncReceiveFrom_isOpen _ _).trans h.isOpen
  · exact (Io.asyncReceiveFrom_started _ _).trans h.started
  · intro e he
    refine Io.waited_timerCancel h.waited e ?_
    simpa [startNextReceive, Io.asyncReceiveFrom, Io.asyncWait, Io.expiresFromNow, hopen, proactor,
      Io.timerCancel] using he
  · exact (Io.asyncReceiveFrom_wire _ _).trans h.wire
  · have hd := h.data
    exact { hd with
      databuffer := List.length_replicate.trans hd.databuffer
      content := hd.content
      count := fun _ => hd.count (by simp)
      connected := fun _ => hd.connected (by simp)
      arrived := fun hx => by cases hx }

theorem speaker_start (h : (speaker ρ A before).In ⟨.idle, 0⟩ s) :
    s.start.io.idleCalls ≤ s.io.idleCalls + 1 ∧
      (speaker ρ A before).At ⟨if ρ.party.speaks then .sending else .waiting, 0⟩ s.start := by
  have hd := h.data
  have hwire : s.io.wire = before := h.wire.trans (Speaker.wireAt_init _)
  have hcon : s.isConnected = ρ.party.speaks := by
    simpa [ρ.first] using hd.connected (by simp)
  have hcontent : s.output.content = F.take (0 * bs) := by
    simpa [ρ.first] using hd.content
  have hcount : s.lastreceiveddatacount.toNat = ρ.got 0 := hd.count (by simp)
  rw [start_good _ hd.good, hcon]
  cases hs : ρ.party.speaks with
  | true =>
    rw [hs] at hcon
    have hready : s.Ready F bs A 0 := {
      isOpen := h.isOpen, started := h.started, ops := h.ops, waited := h.waited, threw := h.threw
      blocksize := hd.blocksize, databuffer := hd.databuffer, good := hd.good, accept := hd.accept
      content := hcontent, connected := hcon, peer := hd.peer hcon
      running := hd.ended, callbacks := hd.callbacks, count := hcount.trans ρ.first }
    refine hready.sendNextAck ρ.first (.inl hs) ?_
    rw [hwire, (speaker ρ A before).wireAt_opening hs, ← ρ.outFirst hs]
    rfl
  | false =>
    refine startNextReceive_at { h with wire := ?_, data := { hd with
      content := hd.content
      count := fun _ => hcount
      connected := fun _ => hd.connected (by simp)
      arrived := fun hx => by cases hx } }
    exact hwire.trans ((speaker ρ A before).wireAt_silent hs).symm

theorem speaker_listen {k : ℕ} (hk : k ≠ 0) (h : (speaker ρ A before).In ⟨.sent, n⟩ s) :
    (s.handleACKsent .success k).io.idleCalls ≤ s.io.idleCalls + 1 ∧
      (speaker ρ A before).At ⟨.waiting, n⟩ (s.handleACKsent .success k) := by
  have hd := h.data
  rw [handleACKsent, if_pos ⟨rfl, hk⟩]
  exact startNextReceive_at { h with wire := h.wire, data := { hd with
    content := hd.content
    count := fun _ => hd.count (by simp)
    connected := fun _ => hd.connected (by simp)
    arrived := fun hx => by cases hx } }

/-- Which branch an arrived block takes. -/
theorem blockBranch_arrived (hn : n < ρ.party.last) (h : Plays ρ A ⟨.arrived, n⟩ s)
    (hle : ρ.inc n ≤ ρ.got n + 1) :
    s.blockBranch .success (dataOf F bs (ρ.inc n)).length =
      if ρ.inc n = ρ.got n + 1 then .expectedBlock else .olderBlock := by
  obtain ⟨hlast, hmsg⟩ := h.arrived rfl
  have hcount : s.lastreceiveddatacount.toNat = ρ.got n := h.count (by simp)
  have hlen := length_block_le F bs (ρ.inc n - 1)
  have hb := ρ.bound n hn
  have hinc : (UInt16.ofNat (ρ.inc n)).toNat = ρ.inc n := UInt16.toNat_ofNat_of_lt' (by
    change ρ.inc n < 65536
    omega)
  have hsize : ¬ s.blocksize + controlBytes < (dataOf F bs (ρ.inc n)).length := by
    rw [h.blocksize, dataOf, length_dataBytes, controlBytes]
    omega
  rw [blockBranch, if_pos rfl, if_neg (fun hh => hh.2 (hlast.trans (h.peer hh.1).symm)), if_neg hsize]
  simp only [hmsg, hinc, hcount]
  rw [if_neg (by decide)]
  split_ifs with h1 h2
  · omega
  · rfl
  · rfl
  · omega

/-- After an older block the last ACK is sent again. -/
theorem ready_retry (h : (speaker ρ A before).In ⟨.arrived, n⟩ s) (hgot : 0 < ρ.got n) :
    Ready F bs A (ρ.got n) { s with io := s.io.timerCancel } :=
  have hd := h.data
  have hcon : s.isConnected = true := by simpa [hgot] using hd.connected (by simp)
  { isOpen := h.isOpen, started := h.started, ops := h.ops
    waited := Io.waited_timerCancel h.waited, threw := h.threw
    blocksize := hd.blocksize, databuffer := hd.databuffer, good := hd.good, accept := hd.accept
    content := hd.content, connected := hcon, peer := hd.peer hcon
    running := hd.ended, callbacks := hd.callbacks, count := hd.count (by simp) }

/-- The expected block is counted and written. -/
theorem ready_writeBlock (h : (speaker ρ A before).In ⟨.arrived, n⟩ s) (hn : n < ρ.party.last)
    (hinc : ρ.inc n = ρ.got n + 1) :
    Ready F bs A (ρ.inc n) ((countBlock { s with io := s.io.timerCancel }).writeBlock
      (block F bs (ρ.inc n - 1))) := by
  have hd := h.data
  have hb := (ρ.bound n hn).2
  have hlast := (hd.arrived rfl).1
  have hcount : (s.lastreceiveddatacount + 1).toNat = ρ.inc n := by
    have hc : s.lastreceiveddatacount.toNat = ρ.got n := hd.count (by simp)
    rw [UInt16.toNat_add, hc, UInt16.toNat_one]
    omega
  have hcontent : s.output.content = F.take (ρ.got n * bs) := hd.content
  have hout : (s.output.write (block F bs (ρ.inc n - 1))).fail = false ∧
      (s.output.write (block F bs (ρ.inc n - 1))).content = F.take (ρ.inc n * bs) := by
    rw [OStream.write_fail, OStream.content_write, hd.good, hd.accept, hcontent, hinc,
      Nat.add_sub_cancel, ← take_append_block]
    exact ⟨rfl, rfl⟩
  rw [writeBlock_good _ _ (by simpa using hd.good), countBlock_output]
  unfold countBlock onConnect
  dsimp only
  split_ifs with hc
  · exact {
      isOpen := h.isOpen, started := h.started, ops := h.ops
      waited := Io.waited_timerCancel h.waited, threw := h.threw
      blocksize := hd.blocksize, databuffer := hd.databuffer, good := hout.1, accept := hd.accept
      content := hout.2, connected := hc, peer := hd.peer hc
      running := hd.ended, callbacks := hd.callbacks, count := hcount }
  · exact {
      isOpen := h.isOpen, started := h.started, ops := h.ops
      waited := Io.waited_timerCancel h.waited, threw := h.threw
      blocksize := hd.blocksize, databuffer := hd.databuffer, good := hout.1, accept := hd.accept
      content := hout.2, connected := rfl, peer := hlast
      running := hd.ended, callbacks := hd.callbacks, count := hcount }

theorem speaker_handle (hbs : 8 ≤ bs) (hn : n < ρ.party.last)
    (h : (speaker ρ A before).In ⟨.arrived, n⟩ s) :
    (s.checkReceivedBlock .success (dataOf F bs (ρ.inc n)).length).io.idleCalls ≤ s.io.idleCalls + 1 ∧
      ∃ x', ρ.party.Move ⟨.arrived, n⟩ x' ∧ (speaker ρ A before).At x'
        (s.checkReceivedBlock .success (dataOf F bs (ρ.inc n)).length) := by
  have hd := h.data
  obtain ⟨size, hsize⟩ : ∃ size, size = (dataOf F bs (ρ.inc n)).length := ⟨_, rfl⟩
  have hbranch := fun hle => blockBranch_arrived hn hd hle
  have hmsg := (hd.arrived rfl).2
  rw [← hsize] at hbranch hmsg ⊢
  have hpos := (ρ.bound n hn).1
  have hfull : size = s.blocksize + controlBytes ↔ ρ.inc n * bs ≤ F.length := by
    have h1 := length_block_lt F (show 0 < bs by omega) (ρ.inc n - 1)
    have h2 := length_block_le F bs (ρ.inc n - 1)
    rw [Nat.sub_add_cancel hpos] at h1
    rw [hsize, dataOf, length_dataBytes, hd.blocksize, controlBytes]
    omega
  have hio : blockBranch .success size { s with io := s.io.timerCancel } =
      s.blockBranch .success size := rfl
  have hmsg' : receivedMsg size { s with io := s.io.timerCancel } = s.receivedMsg size := rfl
  have hclock : s.io.timerCancel.idleCalls = s.io.idleCalls := Io.timerCancel_idleCalls _
  have hwire : (speaker ρ A before).wireAt ⟨.arrived, n⟩ = s.io.wire := h.wire.symm
  have hwio : ∀ d, ((countBlock { s with io := s.io.timerCancel }).writeBlock d).io =
      s.io.timerCancel := by
    intro d
    rw [writeBlock_good _ _ (by simpa using hd.good), countBlock_io]
  rw [checkReceivedBlock]
  simp only [hio]
  rcases Nat.lt_or_eq_of_le (Nat.succ_le_of_lt hn) with hlt | heq
  · obtain ⟨hout, hcase⟩ := ρ.next n hlt
    have hw : (speaker ρ A before).wireAt ⟨.sending, n + 1⟩ =
        s.io.wire ++ [(A, ackOf (ρ.got (n + 1)))] := by
      rw [Speaker.wireAt_answer, hwire, ← hout]
      rfl
    rcases hcase with ⟨hinc, hnext, hF⟩ | ⟨hinc, hnext⟩
    · have hres := (ready_writeBlock h hn hinc).sendNextAck (hnext.trans hinc.symm) (.inr hpos)
        (by rw [hwio, hinc, ← hnext]; exact hw)
      rw [hwio, hclock] at hres
      simp only [hbranch hinc.le, if_pos hinc]
      rw [acceptBlock, hmsg', hmsg, decide_eq_false (not_not.2 (hfull.2 hF))]
      exact ⟨hres.1, _, .answer hlt, hres.2⟩
    · have hres := (ready_retry h (by omega)).sendNextAck hnext (.inr (by omega))
        (by rw [← hnext]; exact hw)
      simp only [hbranch (by omega), if_neg (show ρ.inc n ≠ ρ.got n + 1 by omega)]
      exact ⟨hres.1.trans_eq (by rw [hclock]), _, .answer hlt, hres.2⟩
  · obtain ⟨hinc, hF, ha, hout⟩ := ρ.final n heq
    have hw : (speaker ρ A before).wireAt ⟨.ended, n + 1⟩ = s.io.wire ++ [(A, ackOf (ρ.inc n))] := by
      rw [Speaker.wireAt_answerLast _ heq ha, hwire, ← hout]
      rfl
    have hres := (ready_writeBlock h hn hinc).sendLastAck hF.le (by rw [hwio]; exact hw)
    rw [hwio, hclock] at hres
    simp only [hbranch hinc.le, if_pos hinc]
    have hne : size ≠ s.blocksize + controlBytes := fun hh => absurd (hfull.1 hh) (not_le.2 hF)
    rw [acceptBlock, hmsg', hmsg, decide_eq_true hne]
    exact ⟨hres.1, _, .finish heq, hres.2⟩

/-- **The handlers of a receiver play any script.** -/
theorem speaker_spec (hbs : 8 ≤ bs) : (speaker ρ A before).Spec where
  io_setIo _ _ := rfl
  threw_setIo _ _ := rfl
  data_setIo io _ _ h := Plays.io h io
  io_store _ _ _ := rfl
  threw_store _ _ _ := rfl
  start _ h := speaker_start h
  complete n s h := { h with
    content := show s.output.content = F.take (ρ.got n * bs) from Plays.content h
    count := fun _ => h.count (by simp)
    connected := fun _ => h.connected (by simp)
    arrived := fun hx => by cases hx }
  listen n s k hk h := speaker_listen hk h
  size n s h := by
    have hb := Plays.databuffer h
    have hl := length_block_le F bs (ρ.inc n - 1)
    change min (dataOf F bs (ρ.inc n)).length s.databuffer.length = (dataOf F bs (ρ.inc n)).length
    rw [dataOf, length_dataBytes]
    omega
  store n s io h := (Plays.io h io).store
  handle n s r hn h := by
    have hres := speaker_handle hbs hn h
    rw [← onReceive_eq r] at hres
    exact hres
  timer s := rfl
  refused s k := rfl

/-- A receiver that starts with ACK 0 to a known peer. -/
theorem newConnected_at (before : List (Endpoint × Bytes)) (hfirst : ρ.party.speaks = true)
    (timeoutSeconds : UInt8) : (speaker ρ A before).At ⟨.idle, 0⟩
      (newConnected { wire := before } {} A bs timeoutSeconds) where
  isOpen := rfl
  started := rfl
  ops := rfl
  waited := fun e he => by cases he
  wire := (speaker ρ A before).wireAt_init.symm
  threw := rfl
  data := {
    blocksize := rfl, databuffer := List.length_replicate, good := rfl, accept := rfl
    content := by simp [newConnected, onConnect, new, OStream.content, ρ.first]
    peer := fun _ => rfl, ended := rfl, callbacks := rfl, count := fun _ => ρ.first.symm
    connected := fun _ => by simp [newConnected, onConnect, hfirst]
    arrived := fun hx => by cases hx }

/-- A receiver that waits for DATA 1 of an unknown peer. -/
theorem new_at (before : List (Endpoint × Bytes)) (hfirst : ρ.party.speaks = false)
    (timeoutSeconds : UInt8) :
    (speaker ρ A before).At ⟨.idle, 0⟩ (new { wire := before } {} bs timeoutSeconds) where
  isOpen := rfl
  started := rfl
  ops := rfl
  waited := fun e he => by cases he
  wire := (speaker ρ A before).wireAt_init.symm
  threw := rfl
  data := {
    blocksize := rfl, databuffer := List.length_replicate, good := rfl, accept := rfl
    content := by simp [new, OStream.content, ρ.first]
    peer := fun hc => by cases hc
    ended := rfl, callbacks := rfl, count := fun _ => ρ.first.symm
    connected := fun _ => by simp [new, hfirst, ρ.first]
    arrived := fun hx => by cases hx }

/-- A receiver that has been started with an open socket. -/
theorem newConnected_started (hbs : 8 ≤ bs) (before : List (Endpoint × Bytes))
    (hfirst : ρ.party.speaks = true) (timeoutSeconds : UInt8) :
    (speaker ρ A before).At ⟨if ρ.party.speaks then .sending else .waiting, 0⟩
      (newConnected { started := true, wire := before } {} A bs timeoutSeconds).start :=
  ((speaker_spec hbs).start _ ((newConnected_at before hfirst timeoutSeconds).start (speaker_spec hbs))).2

end

end TftpReceiver

end Ttftp

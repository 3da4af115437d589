/-
  Objects in the proactor style that take part in a dialogue.

  A `Speaker` describes an object as a party of a dialogue with a peer: the
  datagrams it takes, the ones on its wire before the dialogue begins, and what
  holds of its data in each phase.  `Speaker.Spec` asks for one fact about each
  handler; from these `At.step` derives that every event in an orderly network,
  where no operation fails and no timer expires, is a move of the party or the
  call-back of a cancelled wait or of a send on the closed socket, and
  `At.progress` that an object with work to do has an event.
-/
import Ttftp.Lib.Asio
import Ttftp.Lib.Dialogue

namespace Asio

open Dialogue

namespace Io
variable {H A : Type}

/-- The outstanding and the completed operations of the socket. -/
def ops (io : Io H A) : List H × List (H × ErrorCode × ℕ) × List ℕ × List (ErrorCode × ℕ) :=
  (io.receives, io.received, io.sends, io.sent)

/-- The sends that were attempted on a closed socket. -/
def refused (io : Io H A) : List (ErrorCode × ℕ) := io.sent.filter (·.1 = .badDescriptor)

/-- The call-backs that do nothing: those of waits, and of sends on a closed
    socket. -/
def idleCalls (io : Io H A) : ℕ := io.waits + io.waited.length + io.refused.length

/-- The operations of a party, which has at most one at a time; `size` is the
    number of bytes of a received datagram. -/
def OpsAt (size : ℕ → ℕ) (x : State) (io : Io H A) : Prop :=
  match x.phase with
  | .idle => io.ops = ([], [], [], [])
  | .ended => io.receives = [] ∧ io.received = [] ∧ io.sends = [] ∧ io.sent = io.refused
  | .sending => ∃ k ≠ 0, io.ops = ([], [], [k], [])
  | .sent => ∃ k ≠ 0, io.ops = ([], [], [], [(.success, k)])
  | .waiting => ∃ h, io.ops = ([h], [], [], [])
  | .arrived => ∃ h, io.ops = ([], [(h, .success, size x.taken)], [], [])

@[simp] theorem timerCancel_idleCalls (io : Io H A) : io.timerCancel.idleCalls = io.idleCalls := by
  simp only [idleCalls, refused, timerCancel, List.length_append, List.length_replicate]
  omega

@[simp] theorem expiresFromNow_idleCalls (io : Io H A) (n : ℕ) :
    (io.expiresFromNow n).idleCalls = io.idleCalls := timerCancel_idleCalls io

@[simp] theorem asyncWait_idleCalls (io : Io H A) : io.asyncWait.idleCalls = io.idleCalls + 1 := by
  simp only [idleCalls, refused, asyncWait]
  omega

@[simp] theorem asyncReceiveFrom_idleCalls (io : Io H A) (h : H) :
    (io.asyncReceiveFrom h).idleCalls = io.idleCalls := by
  unfold asyncReceiveFrom; split_ifs <;> rfl

theorem asyncSendTo_idleCalls_le (io : Io H A) (dest : A) (d : Bytes) :
    (io.asyncSendTo dest d).idleCalls ≤ io.idleCalls + 1 := by
  unfold asyncSendTo
  split_ifs
  · exact Nat.le_succ _
  · simp only [idleCalls, refused, List.filter_append, List.length_append]
    exact Nat.le_refl _

@[simp] theorem close_idleCalls (io : Io H A) : io.close.idleCalls = io.idleCalls := by
  have haborted : ∀ ks : List ℕ, (ks.map fun _ => (ErrorCode.operationAborted, 0)).filter (·.1 = .badDescriptor) = [] :=
    fun ks => List.filter_eq_nil_iff.2 fun x hx => by
      obtain ⟨k, -, rfl⟩ := List.mem_map.1 hx
      decide
  simp only [idleCalls, refused, close, abortAll, List.filter_append, haborted, List.append_nil]

theorem waited_timerCancel {io : Io H A} (h : ∀ e ∈ io.waited, e = .operationAborted) :
    ∀ e ∈ io.timerCancel.waited, e = .operationAborted := by
  intro e he
  rcases List.mem_append.1 he with he | he
  · exact h e he
  · exact List.eq_of_mem_replicate he

section
variable {io : Io H A} (h : io.ops = ([], [], [], []))
include h

theorem ops_asyncReceiveFrom (ho : io.isOpen = true) (r : H) :
    (io.asyncReceiveFrom r).ops = ([r], [], [], []) := by
  simp only [ops, Prod.mk.injEq] at h
  simp [asyncReceiveFrom, ho, ops, h]

theorem ops_asyncSendTo (ho : io.isOpen = true) (dest : A) (d : Bytes) :
    (io.asyncSendTo dest d).ops = ([], [], [d.length], []) := by
  simp only [ops, Prod.mk.injEq] at h
  simp [asyncSendTo, ho, ops, h]

theorem ops_close : io.close.ops = ([], [], [], []) := by
  simp only [ops, Prod.mk.injEq] at h
  simp [close, abortAll, ops, h]

end

theorem idleCalls_eraseIdx_sent_le (io : Io H A) (i : ℕ) :
    idleCalls { io with sent := io.sent.eraseIdx i } ≤ io.idleCalls :=
  Nat.add_le_add_left ((List.eraseIdx_sublist _ i).filter _).length_le _

theorem idleCalls_eraseIdx_sent_lt {io : Io H A} {i : ℕ} {y : ErrorCode × ℕ} (hy : io.sent[i]? = some y)
    (h : io.sent = io.refused) : idleCalls { io with sent := io.sent.eraseIdx i } < io.idleCalls := by
  have hlt := (List.getElem?_eq_some_iff.1 hy).1
  have hle : ((io.sent.eraseIdx i).filter (·.1 = .badDescriptor)).length ≤ (io.sent.eraseIdx i).length :=
    List.length_filter_le _ _
  rw [List.length_eraseIdx_of_lt hlt] at hle
  have hr : io.refused.length = io.sent.length := by rw [← h]
  simp only [idleCalls, refused] at hr ⊢
  omega

/-! ### Which operation there is, and so the phase -/

namespace OpsAt
variable {size : ℕ → ℕ} {x : State} {io : Io H A}

theorem of_receives (h : io.OpsAt size x) {r : H} {rs : List H} (hr : io.receives = r :: rs) :
    x.phase = .waiting ∧ rs = [] ∧ io.received = [] ∧ io.sends = [] ∧ io.sent = [] := by
  obtain ⟨ph, n⟩ := x
  cases ph with
  | waiting =>
    obtain ⟨r', hr'⟩ := h
    simp only [ops, hr, Prod.mk.injEq, List.cons.injEq] at hr'
    exact ⟨rfl, hr'.1.2, hr'.2⟩
  | _ => simp [OpsAt, ops, hr] at h

theorem of_received (h : io.OpsAt size x) {i : ℕ} {r : H} {e : ErrorCode} {k : ℕ}
    (hx : io.received[i]? = some (r, e, k)) : x.phase = .arrived ∧ e = .success ∧ k = size x.taken ∧
      ops { io with received := io.received.eraseIdx i } = ([], [], [], []) := by
  have hne : io.received ≠ [] := List.ne_nil_of_mem (List.mem_of_getElem? hx)
  obtain ⟨ph, n⟩ := x
  cases ph with
  | arrived =>
    obtain ⟨r', hr'⟩ := h
    simp only [ops, Prod.mk.injEq] at hr'
    obtain ⟨h1, h2, h3, h4⟩ := hr'
    rw [h2, List.getElem?_singleton] at hx
    split_ifs at hx with hi
    cases hx
    exact ⟨rfl, rfl, rfl, by simp [ops, h1, h2, h3, h4, hi]⟩
  | _ => simp [OpsAt, ops, hne] at h

theorem of_sends (h : io.OpsAt size x) {k : ℕ} {ks : List ℕ} (hk : io.sends = k :: ks) :
    x.phase = .sending ∧ k ≠ 0 ∧ ks = [] ∧ io.receives = [] ∧ io.received = [] ∧ io.sent = [] := by
  obtain ⟨ph, n⟩ := x
  cases ph with
  | sending =>
    obtain ⟨k', h0, hk'⟩ := h
    simp only [ops, hk, Prod.mk.injEq, List.cons.injEq] at hk'
    obtain ⟨h1, h2, ⟨rfl, rfl⟩, h4⟩ := hk'
    exact ⟨rfl, h0, rfl, h1, h2, h4⟩
  | _ => simp [OpsAt, ops, hk] at h

theorem of_sent (h : io.OpsAt size x) {i : ℕ} {e : ErrorCode} {k : ℕ}
    (hx : io.sent[i]? = some (e, k)) : x.phase = .sent ∧ e = .success ∧ k ≠ 0 ∧
      ops { io with sent := io.sent.eraseIdx i } = ([], [], [], []) ∨
    x.phase = .ended ∧ e = .badDescriptor := by
  have hne : io.sent ≠ [] := List.ne_nil_of_mem (List.mem_of_getElem? hx)
  obtain ⟨ph, n⟩ := x
  cases ph with
  | sent =>
    obtain ⟨k', h0, hk'⟩ := h
    simp only [ops, Prod.mk.injEq] at hk'
    obtain ⟨h1, h2, h3, h4⟩ := hk'
    rw [h4, List.getElem?_singleton] at hx
    split_ifs at hx with hi
    cases hx
    exact .inl ⟨rfl, rfl, h0, by simp [ops, h1, h2, h3, h4, hi]⟩
  | ended =>
    obtain ⟨-, -, -, h4⟩ := h
    have hm : (e, k) ∈ io.refused := h4 ▸ List.mem_of_getElem? hx
    exact .inr ⟨rfl, by simpa using (List.mem_filter.1 hm).2⟩
  | _ => simp [OpsAt, ops, hne] at h

end OpsAt

end Io

/-- The events of a network in which no operation fails and no timer expires. -/
def Event.Orderly {A : Type} : Event A → Prop
  | .receiveFails _ | .expire => False
  | .sendCompletes e => e = .success
  | _ => True

namespace Proactor
variable {σ H A : Type} {P : Proactor σ H A} {s s' : σ} {e : Event A}

/-- A started object without a handler to run can only receive a datagram. -/
theorem step_quiet (hs : (P.io s).started = true) (hq : (P.io s).Quiet) (ho : e.Orderly)
    (hstep : P.step s e = some s') : ∃ src d r rs, e = .deliver src d ∧ (P.io s).receives = r :: rs ∧
      s' = P.store src (d.take (P.capacity s)) (P.setIo { P.io s with
        receives := rs
        received := [(r, .success, min d.length (P.capacity s))] } s) := by
  obtain ⟨h1, h2, h3, h4⟩ := hq
  obtain ⟨-, hcase⟩ := step_cases hstep
  clear hstep
  cases hcase with
  | start hst => simp [hs] at hst
  | deliver hr => exact ⟨_, _, _, _, rfl, hr, by rw [h1]; rfl⟩
  | receiveFails _ _ => exact ho.elim
  | sendCompletes hk => simp [h2] at hk
  | expire _ => exact ho.elim
  | runReceive hx => simp [h1] at hx
  | runSend hx => simp [h3] at hx
  | runTimer hx => simp [h4] at hx

/-- One whose only operation is a completed receive can only run its handler. -/
theorem step_received (hs : (P.io s).started = true) {r : H} {err : ErrorCode} {n : ℕ}
    (hops : (P.io s).ops = ([], [(r, err, n)], [], [])) (hw : (P.io s).waited = []) (ho : e.Orderly)
    (hstep : P.step s e = some s') :
    e = .runReceive 0 ∧ s' = P.onReceive r err n (P.setIo { P.io s with received := [] } s) := by
  simp only [Io.ops, Prod.mk.injEq] at hops
  obtain ⟨h1, h2, h3, h4⟩ := hops
  obtain ⟨-, hcase⟩ := step_cases hstep
  clear hstep
  cases hcase with
  | start hst => simp [hs] at hst
  | deliver hr => simp [h1] at hr
  | receiveFails _ _ => exact ho.elim
  | sendCompletes hk => simp [h3] at hk
  | expire _ => exact ho.elim
  | @runReceive i r' err' n' hx =>
    rw [h2, List.getElem?_singleton] at hx
    split_ifs at hx with hi
    cases hx
    subst hi
    exact ⟨rfl, by rw [h2]; rfl⟩
  | runSend hx => simp [h4] at hx
  | runTimer hx => simp [hw] at hx

end Proactor

structure Speaker {σ H A : Type} (P : Proactor σ H A) where
  party : Party Bytes
  peer : A
  /-- what is on the wire before the dialogue begins -/
  before : List (A × Bytes)
  /-- the datagrams that are taken, in their order -/
  incoming : ℕ → Bytes
  /-- the number of bytes of them that are received -/
  size : ℕ → ℕ
  data : State → σ → Prop

namespace Speaker
variable {σ H A : Type} {P : Proactor σ H A} (S : Speaker P)

/-- The wire in a state of the party. -/
def wireAt (x : State) : List (A × Bytes) :=
  S.before ++ (List.range (S.party.sent x)).map fun i => (S.peer, S.party.out i)

/-- The object is in a state of the party. -/
structure At (x : State) (s : σ) : Prop where
  isOpen : (P.io s).isOpen = decide (x.phase ≠ .ended)
  started : (P.io s).started = decide (x.phase ≠ .idle)
  ops : (P.io s).OpsAt S.size x
  waited : ∀ e ∈ (P.io s).waited, e = .operationAborted
  wire : (P.io s).wire = S.wireAt x
  threw : P.threw s = false
  data : S.data x s

/-- The object is in a handler that has been called in a state of the party. -/
structure In (x : State) (s : σ) : Prop where
  isOpen : (P.io s).isOpen = true
  started : (P.io s).started = true
  ops : (P.io s).ops = ([], [], [], [])
  waited : ∀ e ∈ (P.io s).waited, e = .operationAborted
  wire : (P.io s).wire = S.wireAt x
  threw : P.threw s = false
  data : S.data x s

/-- What the handlers of a speaker have to do. -/
structure Spec : Prop where
  io_setIo : ∀ io s, P.io (P.setIo io s) = io
  threw_setIo : ∀ io s, P.threw (P.setIo io s) = P.threw s
  data_setIo : ∀ io x s, S.data x s → S.data x (P.setIo io s)
  io_store : ∀ src d s, P.io (P.store src d s) = P.io s
  threw_store : ∀ src d s, P.threw (P.store src d s) = P.threw s
  start : ∀ s, S.In ⟨.idle, 0⟩ s → (P.io (P.start s)).idleCalls ≤ (P.io s).idleCalls + 1 ∧
    S.At ⟨if S.party.speaks then .sending else .waiting, 0⟩ (P.start s)
  complete : ∀ n s, S.data ⟨.sending, n⟩ s → S.data ⟨.sent, n⟩ s
  listen : ∀ n s k, k ≠ 0 → S.In ⟨.sent, n⟩ s →
    (P.io (P.onSend .success k s)).idleCalls ≤ (P.io s).idleCalls + 1 ∧
    S.At ⟨.waiting, n⟩ (P.onSend .success k s)
  size : ∀ n s, S.data ⟨.waiting, n⟩ s → min (S.incoming n).length (P.capacity s) = S.size n
  store : ∀ n s io, S.data ⟨.waiting, n⟩ s → S.data ⟨.arrived, n⟩
    (P.store S.peer ((S.incoming n).take (P.capacity s)) (P.setIo io s))
  handle : ∀ n s h, n < S.party.last → S.In ⟨.arrived, n⟩ s →
    (P.io (P.onReceive h .success (S.size n) s)).idleCalls ≤ (P.io s).idleCalls + 1 ∧
    ∃ x', S.party.Move ⟨.arrived, n⟩ x' ∧ S.At x' (P.onReceive h .success (S.size n) s)
  timer : ∀ s, P.onTimer .operationAborted s = s
  refused : ∀ s k, P.onSend .badDescriptor k s = s

/-! ### The wire -/

theorem wireAt_init : S.wireAt ⟨.idle, 0⟩ = S.before := by
  simp [wireAt, Party.sent]

theorem wireAt_silent (hp : S.party.speaks = false) : S.wireAt ⟨.waiting, 0⟩ = S.before := by
  simp [wireAt, Party.sent, hp]

theorem wireAt_opening (hp : S.party.speaks = true) :
    S.wireAt ⟨.sending, 0⟩ = S.before ++ [(S.peer, S.party.out 0)] := by
  simp [wireAt, Party.sent, hp]

/-- An answer is appended to the wire. -/
theorem wireAt_answer (n : ℕ) : S.wireAt ⟨.sending, n + 1⟩ =
    S.wireAt ⟨.arrived, n⟩ ++ [(S.peer, S.party.out (n + S.party.speaks.toNat))] := by
  have h1 : S.party.sent ⟨.sending, n + 1⟩ = S.party.sent ⟨.arrived, n⟩ + 1 := Nat.add_right_comm _ _ _
  simp only [wireAt, h1, List.range_succ, List.map_append, List.append_assoc]
  rfl

theorem wireAt_answerLast {n : ℕ} (hn : n + 1 = S.party.last) (ha : S.party.answersLast = true) :
    S.wireAt ⟨.ended, n + 1⟩ =
      S.wireAt ⟨.arrived, n⟩ ++ [(S.peer, S.party.out (n + S.party.speaks.toNat))] := by
  have h1 : S.party.sent ⟨.ended, n + 1⟩ = S.party.sent ⟨.arrived, n⟩ + 1 := by
    simp only [Party.sent, Party.total, ha, Bool.toNat_true]
    omega
  simp only [wireAt, h1, List.range_succ, List.map_append, List.append_assoc]
  rfl

theorem wireAt_last {n : ℕ} (hn : n + 1 = S.party.last) (ha : S.party.answersLast = false) :
    S.wireAt ⟨.ended, n + 1⟩ = S.wireAt ⟨.arrived, n⟩ := by
  have h1 : S.party.sent ⟨.ended, n + 1⟩ = S.party.sent ⟨.arrived, n⟩ := by
    simp only [Party.sent, Party.total, ha, Bool.toNat_false]
    omega
  rw [wireAt, wireAt, h1]

variable {S} {x : State} {s : σ}

/-- The moves of the party that are left, and the call-backs that do nothing. -/
def measure (S : Speaker P) (x : State) (s : σ) : ℕ := S.party.rank x + (P.io s).idleCalls

/-- What an event does: a move, which takes a message exactly if the event is the
    delivery of one, or nothing but a call-back. -/
def Steps (S : Speaker P) (x : State) (s : σ) (e : Event A) (s' : σ) : Prop :=
  ∃ x', S.At x' s' ∧ S.measure x' s' + S.party.sent x' < S.measure x s + S.party.sent x ∧
    (S.party.Move x x' ∧ (x.phase = .waiting ↔ e.isDelivery = true) ∨
      x' = x ∧ e.isDelivery = false)

theorem Steps.of_move {e : Event A} {x' : State} {s' : σ} (hv : S.party.Valid x)
    (hm : S.party.Move x x') (hc : (P.io s').idleCalls ≤ (P.io s).idleCalls + 1) (h : S.At x' s')
    (he : x.phase = .waiting ↔ e.isDelivery = true) : S.Steps x s e s' := by
  refine ⟨x', h, ?_, .inl ⟨hm, he⟩⟩
  have := hm.rank_lt hv
  unfold measure
  omega

namespace At

/-- The handler of the only operation runs. -/
theorem handler (h : S.At x s) (hS : S.Spec) (hi : x.phase ≠ .idle) (he : x.phase ≠ .ended)
    {received : List (H × ErrorCode × ℕ)} {sent : List (ErrorCode × ℕ)}
    (ho : Io.ops { P.io s with received := received, sent := sent } = ([], [], [], [])) :
    S.In x (P.setIo { P.io s with received := received, sent := sent } s) where
  isOpen := by rw [hS.io_setIo]; simpa [he] using h.isOpen
  started := by rw [hS.io_setIo]; simpa [hi] using h.started
  ops := by rw [hS.io_setIo]; exact ho
  waited := by rw [hS.io_setIo]; exact h.waited
  wire := by rw [hS.io_setIo]; exact h.wire
  threw := by rw [hS.threw_setIo]; exact h.threw
  data := hS.data_setIo _ _ _ h.data

theorem start (h : S.At ⟨.idle, 0⟩ s) (hS : S.Spec) :
    S.In ⟨.idle, 0⟩ (P.setIo { P.io s with started := true } s) where
  isOpen := by rw [hS.io_setIo]; exact h.isOpen
  started := by rw [hS.io_setIo]
  ops := by rw [hS.io_setIo]; exact h.ops
  waited := by rw [hS.io_setIo]; exact h.waited
  wire := by rw [hS.io_setIo]; exact h.wire
  threw := by rw [hS.threw_setIo]; exact h.threw
  data := hS.data_setIo _ _ _ h.data

theorem eq_idle (h : S.At x s) (hv : S.party.Valid x) (hs : (P.io s).started = false) :
    x = ⟨.idle, 0⟩ := by
  obtain ⟨ph, n⟩ := x
  have hp : ph = .idle := by simpa [h.started] using hs
  subst hp
  have hn : n = 0 := hv
  rw [hn]

theorem deliver {n : ℕ} (h : S.At ⟨.waiting, n⟩ s) (hS : S.Spec) {r : H}
    (ho : (P.io s).ops = ([r], [], [], [])) :
    S.At ⟨.arrived, n⟩ (P.store S.peer ((S.incoming n).take (P.capacity s)) (P.setIo { P.io s with
      receives := []
      received := (P.io s).received ++ [(r, .success, min (S.incoming n).length (P.capacity s))] } s)) where
  isOpen := by rw [hS.io_store, hS.io_setIo]; exact h.isOpen
  started := by rw [hS.io_store, hS.io_setIo]; exact h.started
  ops := by
    simp only [Io.ops, Prod.mk.injEq] at ho
    obtain ⟨h1, h2, h3, h4⟩ := ho
    rw [hS.io_store, hS.io_setIo]
    exact ⟨r, by simp only [Io.ops, h2, h3, h4, List.nil_append, hS.size n s h.data]⟩
  waited := by rw [hS.io_store, hS.io_setIo]; exact h.waited
  wire := by rw [hS.io_store, hS.io_setIo]; exact h.wire
  threw := by rw [hS.threw_store, hS.threw_setIo]; exact h.threw
  data := hS.store n s _ h.data

theorem complete {n k : ℕ} (h : S.At ⟨.sending, n⟩ s) (hS : S.Spec) (hk : k ≠ 0)
    (ho : (P.io s).ops = ([], [], [k], [])) :
    S.At ⟨.sent, n⟩ (P.setIo { P.io s with
      sends := []
      sent := (P.io s).sent ++ [(.success, k)] } s) where
  isOpen := by rw [hS.io_setIo]; exact h.isOpen
  started := by rw [hS.io_setIo]; exact h.started
  ops := by
    simp only [Io.ops, Prod.mk.injEq] at ho
    obtain ⟨h1, h2, h3, h4⟩ := ho
    rw [hS.io_setIo]
    exact ⟨k, hk, by simp [Io.ops, h1, h2, h4]⟩
  waited := by rw [hS.io_setIo]; exact h.waited
  wire := by rw [hS.io_setIo]; exact h.wire
  threw := by rw [hS.threw_setIo]; exact h.threw
  data := hS.data_setIo _ _ _ (hS.complete n s h.data)

/-- The call-back of a cancelled wait changes nothing. -/
theorem eraseWaited (h : S.At x s) (hS : S.Spec) (i : ℕ) :
    S.At x (P.setIo { P.io s with waited := (P.io s).waited.eraseIdx i } s) where
  isOpen := by rw [hS.io_setIo]; exact h.isOpen
  started := by rw [hS.io_setIo]; exact h.started
  ops := by rw [hS.io_setIo]; exact h.ops
  waited := by rw [hS.io_setIo]; exact fun e he => h.waited e (List.mem_of_mem_eraseIdx he)
  wire := by rw [hS.io_setIo]; exact h.wire
  threw := by rw [hS.threw_setIo]; exact h.threw
  data := hS.data_setIo _ _ _ h.data

/-- So does the call-back of a send on the closed socket. -/
theorem eraseRefused {n : ℕ} (h : S.At ⟨.ended, n⟩ s) (hS : S.Spec) (i : ℕ) :
    S.At ⟨.ended, n⟩ (P.setIo { P.io s with sent := (P.io s).sent.eraseIdx i } s) where
  isOpen := by rw [hS.io_setIo]; exact h.isOpen
  started := by rw [hS.io_setIo]; exact h.started
  ops := by
    obtain ⟨h1, h2, h3, h4⟩ := h.ops
    rw [hS.io_setIo]
    refine ⟨h1, h2, h3, (List.filter_eq_self.2 fun y hy => ?_).symm⟩
    have hm : y ∈ (P.io s).refused := h4 ▸ List.mem_of_mem_eraseIdx hy
    exact (List.mem_filter.1 hm).2
  waited := by rw [hS.io_setIo]; exact h.waited
  wire := by rw [hS.io_setIo]; exact h.wire
  threw := by rw [hS.threw_setIo]; exact h.threw
  data := hS.data_setIo _ _ _ h.data

/-- **An orderly event is a move of the party**, or a call-back that does nothing. -/
theorem step (h : S.At x s) (hS : S.Spec) (hv : S.party.Valid x) {e : Event A} {s' : σ}
    (ho : e.Orderly) (hd : ∀ src d, e = .deliver src d → src = S.peer ∧ d = S.incoming x.taken)
    (hstep : P.step s e = some s') : S.Steps x s e s' := by
  obtain ⟨-, hstep⟩ := Proactor.step_cases hstep
  have hops := h.ops
  cases hstep with
  | start hs =>
    obtain rfl := h.eq_idle hv hs
    obtain ⟨hc, hat⟩ := hS.start _ (h.start hS)
    rw [hS.io_setIo] at hc
    exact .of_move hv .start hc hat (by simp [Event.isDelivery])
  | @deliver src d r rs hr =>
    obtain ⟨ph, n⟩ := x
    obtain ⟨hp, rfl, h2, h3, h4⟩ := hops.of_receives hr
    obtain rfl : ph = .waiting := hp
    obtain ⟨rfl, rfl⟩ := hd src d rfl
    refine .of_move hv .take ?_ (h.deliver hS (by rw [Io.ops, hr, h2, h3, h4]))
      (by simp [Event.isDelivery])
    rw [hS.io_store, hS.io_setIo]
    exact Nat.le_succ _
  | receiveFails _ _ => exact ho.elim
  | @sendCompletes e k ks hk =>
    obtain ⟨ph, n⟩ := x
    obtain ⟨hp, hk0, rfl, h1, h2, h4⟩ := hops.of_sends hk
    obtain rfl : ph = .sending := hp
    obtain rfl : e = .success := ho
    refine .of_move hv .complete ?_ (h.complete hS hk0 (by simp [Io.ops, h1, h2, hk, h4]))
      (by simp [Event.isDelivery])
    rw [hS.io_setIo]
    simp [Io.idleCalls, Io.refused]
  | expire _ => exact ho.elim
  | @runReceive i r err k hx =>
    obtain ⟨ph, n⟩ := x
    obtain ⟨hp, rfl, rfl, hz⟩ := hops.of_received hx
    obtain rfl : ph = .arrived := hp
    obtain ⟨hc, x', hm, hat⟩ := hS.handle n _ r hv (h.handler hS (by simp) (by simp) hz)
    rw [hS.io_setIo] at hc
    exact .of_move hv hm hc hat (by simp [Event.isDelivery])
  | @runSend i err k hx =>
    obtain ⟨ph, n⟩ := x
    rcases hops.of_sent hx with ⟨hp, rfl, hk, hz⟩ | ⟨hp, rfl⟩
    · obtain rfl : ph = .sent := hp
      obtain ⟨hc, hat⟩ := hS.listen n _ k hk (h.handler hS (by simp) (by simp) hz)
      refine .of_move hv .listen (hc.trans ?_) hat
        (by simp [Event.isDelivery])
      rw [hS.io_setIo]
      exact Nat.succ_le_succ (Io.idleCalls_eraseIdx_sent_le _ i)
    · obtain rfl : ph = .ended := hp
      rw [hS.refused]
      refine ⟨_, h.eraseRefused hS i, ?_, .inr ⟨rfl, rfl⟩⟩
      unfold measure
      rw [hS.io_setIo]
      exact Nat.add_lt_add_right
        (Nat.add_lt_add_left (Io.idleCalls_eraseIdx_sent_lt hx hops.2.2.2) _) _
  | @runTimer i err hx =>
    obtain rfl : err = .operationAborted := h.waited _ (List.mem_of_getElem? hx)
    have hlt := (List.getElem?_eq_some_iff.1 hx).1
    rw [hS.timer]
    refine ⟨x, h.eraseWaited hS i, ?_, .inr ⟨rfl, rfl⟩⟩
    unfold measure
    rw [hS.io_setIo]
    simp only [Io.idleCalls, Io.refused, List.length_eraseIdx_of_lt hlt]
    omega

/-- Without a delivery no message is taken. -/
theorem silent_step (h : S.At x s) (hS : S.Spec) (hpos : 0 < S.party.last) (hv : S.party.Valid x)
    {e : Event A} {s' : σ} (ho : e.Orderly) (hd : e.isDelivery = false) (hstep : P.step s e = some s') :
    ∃ x', S.At x' s' ∧ S.party.Valid x' ∧ x'.delivered = x.delivered ∧
      (x.phase ≠ .idle → x'.phase ≠ .idle) := by
  obtain ⟨x', hat, -, hcase⟩ := h.step hS hv ho (fun src d he => by rw [he] at hd; cases hd) hstep
  rcases hcase with ⟨hm, hw⟩ | ⟨rfl, -⟩
  · refine ⟨x', hat, hv.move hpos hm, hm.delivered_of_ne fun hx => ?_, fun _ => hm.not_idle⟩
    rw [hw.1 hx] at hd
    cases hd
  · exact ⟨_, hat, hv, rfl, id⟩

/-- The phases in which an object has nothing to do. -/
theorem rests (h : S.At x s) (hs : (P.io s).started = true) (hq : (P.io s).Quiet) :
    x.phase = .waiting ∨ x.phase = .ended := by
  obtain ⟨h2, h3, h4, -⟩ := hq
  have hops := h.ops
  have hst := h.started
  obtain ⟨ph, n⟩ := x
  cases ph with
  | idle => rw [hs] at hst; cases hst
  | sending => obtain ⟨k, -, hk⟩ := hops; simp [Io.ops, h3] at hk
  | sent => obtain ⟨k, -, hk⟩ := hops; simp [Io.ops, h4] at hk
  | waiting => exact .inl rfl
  | arrived => obtain ⟨r, hr⟩ := hops; simp [Io.ops, h2] at hr
  | ended => exact .inr rfl

/-- **An object with something to do has an event**, which is no delivery. -/
theorem progress (h : S.At x s) (hw : ¬ ((P.io s).started = true ∧ (P.io s).Quiet)) :
    ∃ e s', e.Orderly ∧ e.isDelivery = false ∧ P.step s e = some s' := by
  have hstep : ∀ e, P.step s e = P.event s e := fun e => by simp [Proactor.step, h.threw]
  by_cases hs : (P.io s).started = true
  · have hq : ¬ (P.io s).Quiet := fun hq => hw ⟨hs, hq⟩
    simp only [Io.Quiet, not_and_or, ← ne_eq] at hq
    rcases hq with hq | hq | hq | hq
    · obtain ⟨y, ys, hy⟩ := List.exists_cons_of_ne_nil hq
      exact ⟨.runReceive 0, _, trivial, rfl, by rw [hstep, Proactor.event, hy]; rfl⟩
    · obtain ⟨k, ks, hk⟩ := List.exists_cons_of_ne_nil hq
      exact ⟨.sendCompletes .success, _, rfl, rfl, by rw [hstep]; simp only [Proactor.event, hk]; rfl⟩
    · obtain ⟨y, ys, hy⟩ := List.exists_cons_of_ne_nil hq
      exact ⟨.runSend 0, _, trivial, rfl, by rw [hstep, Proactor.event, hy]; rfl⟩
    · obtain ⟨y, ys, hy⟩ := List.exists_cons_of_ne_nil hq
      exact ⟨.runTimer 0, _, trivial, rfl, by rw [hstep, Proactor.event, hy]; rfl⟩
  · exact ⟨.start, _, trivial, rfl, by rw [hstep, Proactor.event, if_neg hs]⟩

/-- Only an object that waits takes a datagram. -/
theorem phase_of_deliver (h : S.At x s) {src : A} {d : Bytes} {s' : σ}
    (hstep : P.step s (.deliver src d) = some s') : x.phase = .waiting := by
  obtain ⟨-, hstep⟩ := Proactor.step_cases hstep
  cases hstep with
  | deliver hr => exact (h.ops.of_receives hr).1

/-- **An orderly event keeps the invariant of the dialogue**, if the datagrams come
    from the peer and in their order. -/
theorem turn {Q : Party Bytes} {y : State} (h : S.At x s) (hS : S.Spec) (hpos : 0 < S.party.last)
    (hinv : Inv S.party Q x y) (hinc : ∀ n < S.party.last, S.incoming n = Q.out n) {e : Event A} {s' : σ}
    (ho : e.Orderly) (hd : ∀ src d, e = .deliver src d → x.phase = .waiting →
      src = S.peer ∧ ((List.range (Q.sent y)).map Q.out)[x.delivered]? = some d)
    (hstep : P.step s e = some s') :
    ∃ x', S.At x' s' ∧ S.measure x' s' + S.party.sent x' < S.measure x s + S.party.sent x ∧
      S.party.sent x ≤ S.party.sent x' ∧ Inv S.party Q x' y ∧
      (e.isDelivery = true → x.phase = .waiting ∧ x.delivered < Q.sent y) ∧
      (x'.phase ≠ .ended → x.phase ≠ .ended ∧ x'.delivered = x.delivered + e.isDelivery.toNat) ∧
      (x.phase ≠ .idle → x'.phase ≠ .idle) := by
  have hdel : ∀ src d, e = .deliver src d → x.phase = .waiting ∧ src = S.peer ∧
      x.delivered < Q.sent y ∧ d = S.incoming x.taken := by
    rintro src d rfl
    have hw := h.phase_of_deliver hstep
    obtain ⟨hsrc, hget⟩ := hd src d rfl hw
    obtain ⟨px, n⟩ := x
    obtain rfl : px = .waiting := hw
    obtain ⟨hlt, heq⟩ := List.getElem?_eq_some_iff.1 hget
    rw [List.length_map, List.length_range] at hlt
    have hn : n < S.party.last := hinv.left
    refine ⟨rfl, hsrc, hlt, ?_⟩
    rw [← heq, hinc n hn]
    simp [State.delivered]
  obtain ⟨x', hat, hlt, hcase⟩ := h.step hS hinv.left ho
    (fun src d he => ⟨(hdel src d he).2.1, (hdel src d he).2.2.2⟩) hstep
  have hmsg : e.isDelivery = true → x.phase = .waiting ∧ x.delivered < Q.sent y := by
    intro hde
    cases e with
    | deliver src d => exact ⟨(hdel src d rfl).1, (hdel src d rfl).2.2.1⟩
    | _ => cases hde
  refine ⟨x', hat, hlt, ?_⟩
  rcases hcase with ⟨hm, hw⟩ | ⟨rfl, hw⟩
  · refine ⟨hm.sent_le hinv.left, hinv.move hpos hm fun hx => (hmsg (hw.1 hx)).2, hmsg,
      fun _ => ⟨hm.not_ended, ?_⟩, fun _ => hm.not_idle⟩
    by_cases hx : x.phase = .waiting
    · rw [hm.delivered_of_waiting hx, hw.1 hx]
      rfl
    · rw [hm.delivered_of_ne hx, Bool.eq_false_iff.2 (mt hw.2 hx)]
      rfl
  · exact ⟨le_rfl, hinv, hmsg, fun hne => ⟨hne, by rw [hw]; rfl⟩, id⟩

/-- An object that waits can take a datagram. -/
theorem delivers (h : S.At x s) (hx : x.phase = .waiting) (src : A) (d : Bytes) :
    ∃ s', P.step s (.deliver src d) = some s' := by
  have hops := h.ops
  obtain ⟨ph, n⟩ := x
  subst hx
  obtain ⟨r, hr⟩ := hops
  have hr' : (P.io s).receives = [r] := congrArg Prod.fst hr
  rw [Proactor.step, h.threw]
  simp only [Proactor.event, hr', Bool.false_eq_true, if_false]
  exact ⟨_, rfl⟩

end At

end Speaker

end Asio

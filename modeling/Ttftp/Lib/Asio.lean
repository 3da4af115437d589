/-
  Asynchronous I/O in the proactor style: one datagram socket, one deadline
  timer and the completion handlers that are ready to run.

  * `Io H A` holds the outstanding operations and the queues of completions of
    one object (`H` names the handlers of its receives, `A` the addresses), and
    its `wire`, the datagrams it has put on the network.  A datagram is on the
    wire when its send is initiated on an open socket;
  * cancelling the timer or the socket completes what is outstanding with
    `operationAborted`; what has completed already is not called back.  On a
    closed socket asynchronous calls complete with `badDescriptor`, and the
    synchronous `sendTo` and `cancel` throw (`none`);
  * a `Proactor` gives the handlers of an object; `Proactor.step` is one event:
    a datagram arrives, an operation fails, the timer expires, or a ready
    handler runs, in any order.
-/
import Ttftp.Lib.Lts
import Ttftp.Lib.Bytes

namespace Asio

/-- The outcome of an asynchronous operation. -/
inductive ErrorCode where
  | success | operationAborted | badDescriptor
  | other (n : ℕ)
  deriving DecidableEq, Repr

structure Io (H A : Type) where
  isOpen : Bool := true
  /-- whether the object has been started -/
  started : Bool := false
  /-- outstanding receives -/
  receives : List H := []
  /-- completed receives, their handlers ready to run -/
  received : List (H × ErrorCode × ℕ) := []
  /-- outstanding sends, with their sizes -/
  sends : List ℕ := []
  /-- completed sends, their handlers ready to run -/
  sent : List (ErrorCode × ℕ) := []
  /-- the seconds the timer was last set to -/
  duration : ℕ := 0
  /-- outstanding waits on the timer -/
  waits : ℕ := 0
  /-- completed waits, their handlers ready to run -/
  waited : List ErrorCode := []
  /-- the datagrams sent so far -/
  wire : List (A × Bytes) := []
  deriving DecidableEq, Repr

namespace Io
variable {H A : Type}

def asyncReceiveFrom (h : H) (io : Io H A) : Io H A :=
  if io.isOpen then { io with receives := io.receives ++ [h] }
  else { io with received := io.received ++ [(h, .badDescriptor, 0)] }

def asyncSendTo (dest : A) (d : Bytes) (io : Io H A) : Io H A :=
  if io.isOpen then { io with wire := io.wire ++ [(dest, d)], sends := io.sends ++ [d.length] }
  else { io with sent := io.sent ++ [(.badDescriptor, 0)] }

/-- An asynchronous send whose completion handler does nothing; its completion
    is not recorded. -/
def asyncSendDetached (dest : A) (d : Bytes) (io : Io H A) : Io H A :=
  if io.isOpen then { io with wire := io.wire ++ [(dest, d)] } else io

/-- The synchronous send. -/
def sendTo (dest : A) (d : Bytes) (io : Io H A) : Option (Io H A) :=
  if io.isOpen then some { io with wire := io.wire ++ [(dest, d)] } else none

/-- Complete all outstanding socket operations as aborted. -/
def abortAll (io : Io H A) : Io H A :=
  { io with
    receives := []
    received := io.received ++ io.receives.map fun h => (h, .operationAborted, 0)
    sends := []
    sent := io.sent ++ io.sends.map fun _ => (.operationAborted, 0) }

def cancel (io : Io H A) : Option (Io H A) := if io.isOpen then some io.abortAll else none

def close (io : Io H A) : Io H A := { io.abortAll with isOpen := false }

def timerCancel (io : Io H A) : Io H A :=
  { io with waits := 0, waited := io.waited ++ List.replicate io.waits .operationAborted }

/-- Setting the expiry time cancels the outstanding waits. -/
def expiresFromNow (seconds : ℕ) (io : Io H A) : Io H A := { io.timerCancel with duration := seconds }

def asyncWait (io : Io H A) : Io H A := { io with waits := io.waits + 1 }

/-- The socket operations outstanding or completed and not yet handled. -/
def tokens (io : Io H A) : ℕ :=
  io.receives.length + io.received.length + io.sends.length + io.sent.length

/-- The datagrams that have arrived and are not yet handled. -/
def arrivals (io : Io H A) : List (H × ErrorCode × ℕ) := io.received.filter (·.2.1 = .success)

/-- No handler is ready to run and no send is outstanding. -/
def Quiet (io : Io H A) : Prop := io.received = [] ∧ io.sends = [] ∧ io.sent = [] ∧ io.waited = []

/-! ### What the operations change -/

section
variable (io : Io H A) (h : H) (dest : A) (d : Bytes) (n : ℕ)

@[simp] theorem asyncReceiveFrom_isOpen : (io.asyncReceiveFrom h).isOpen = io.isOpen := by
  unfold asyncReceiveFrom; split_ifs <;> rfl

@[simp] theorem asyncSendTo_isOpen : (io.asyncSendTo dest d).isOpen = io.isOpen := by
  unfold asyncSendTo; split_ifs <;> rfl

@[simp] theorem asyncSendDetached_isOpen : (io.asyncSendDetached dest d).isOpen = io.isOpen := by
  unfold asyncSendDetached; split_ifs <;> rfl

@[simp] theorem close_isOpen : io.close.isOpen = false := rfl
@[simp] theorem abortAll_isOpen : io.abortAll.isOpen = io.isOpen := rfl
@[simp] theorem timerCancel_isOpen : io.timerCancel.isOpen = io.isOpen := rfl
@[simp] theorem expiresFromNow_isOpen : (io.expiresFromNow n).isOpen = io.isOpen := rfl
@[simp] theorem asyncWait_isOpen : io.asyncWait.isOpen = io.isOpen := rfl

@[simp] theorem asyncReceiveFrom_wire : (io.asyncReceiveFrom h).wire = io.wire := by
  unfold asyncReceiveFrom; split_ifs <;> rfl

@[simp] theorem close_wire : io.close.wire = io.wire := rfl
@[simp] theorem abortAll_wire : io.abortAll.wire = io.wire := rfl
@[simp] theorem timerCancel_wire : io.timerCancel.wire = io.wire := rfl
@[simp] theorem expiresFromNow_wire : (io.expiresFromNow n).wire = io.wire := rfl
@[simp] theorem asyncWait_wire : io.asyncWait.wire = io.wire := rfl

@[simp] theorem asyncReceiveFrom_started : (io.asyncReceiveFrom h).started = io.started := by
  unfold asyncReceiveFrom; split_ifs <;> rfl

@[simp] theorem asyncSendTo_started : (io.asyncSendTo dest d).started = io.started := by
  unfold asyncSendTo; split_ifs <;> rfl

@[simp] theorem asyncSendDetached_started : (io.asyncSendDetached dest d).started = io.started := by
  unfold asyncSendDetached; split_ifs <;> rfl

@[simp] theorem close_started : io.close.started = io.started := rfl
@[simp] theorem abortAll_started : io.abortAll.started = io.started := rfl
@[simp] theorem timerCancel_started : io.timerCancel.started = io.started := rfl
@[simp] theorem expiresFromNow_started : (io.expiresFromNow n).started = io.started := rfl
@[simp] theorem asyncWait_started : io.asyncWait.started = io.started := rfl

@[simp] theorem asyncReceiveFrom_arrivals : (io.asyncReceiveFrom h).arrivals = io.arrivals := by
  unfold asyncReceiveFrom; split_ifs <;> simp [arrivals]

@[simp] theorem asyncSendTo_arrivals : (io.asyncSendTo dest d).arrivals = io.arrivals := by
  unfold asyncSendTo; split_ifs <;> rfl

@[simp] theorem asyncSendDetached_arrivals : (io.asyncSendDetached dest d).arrivals = io.arrivals := by
  unfold asyncSendDetached; split_ifs <;> rfl

@[simp] theorem abortAll_arrivals : io.abortAll.arrivals = io.arrivals := by
  simp [abortAll, arrivals, List.filter_eq_nil_iff]

@[simp] theorem close_arrivals : io.close.arrivals = io.arrivals := abortAll_arrivals io
@[simp] theorem timerCancel_arrivals : io.timerCancel.arrivals = io.arrivals := rfl
@[simp] theorem expiresFromNow_arrivals : (io.expiresFromNow n).arrivals = io.arrivals := rfl
@[simp] theorem asyncWait_arrivals : io.asyncWait.arrivals = io.arrivals := rfl

@[simp] theorem asyncReceiveFrom_tokens : (io.asyncReceiveFrom h).tokens = io.tokens + 1 := by
  unfold asyncReceiveFrom
  split_ifs <;> simp only [tokens, List.length_append, List.length_cons, List.length_nil] <;> omega

@[simp] theorem asyncSendTo_tokens : (io.asyncSendTo dest d).tokens = io.tokens + 1 := by
  unfold asyncSendTo
  split_ifs <;> simp only [tokens, List.length_append, List.length_cons, List.length_nil] <;> omega

@[simp] theorem asyncSendDetached_tokens : (io.asyncSendDetached dest d).tokens = io.tokens := by
  unfold asyncSendDetached; split_ifs <;> rfl

@[simp] theorem abortAll_tokens : io.abortAll.tokens = io.tokens := by
  simp only [tokens, abortAll, List.length_append, List.length_map, List.length_nil]
  omega

@[simp] theorem close_tokens : io.close.tokens = io.tokens := abortAll_tokens io
@[simp] theorem timerCancel_tokens : io.timerCancel.tokens = io.tokens := rfl
@[simp] theorem expiresFromNow_tokens : (io.expiresFromNow n).tokens = io.tokens := rfl
@[simp] theorem asyncWait_tokens : io.asyncWait.tokens = io.tokens := rfl

theorem tokens_eq_zero : io.tokens = 0 ↔
    io.receives = [] ∧ io.received = [] ∧ io.sends = [] ∧ io.sent = [] := by
  simp only [tokens, Nat.add_eq_zero_iff, List.length_eq_zero_iff, and_assoc]

/-- The handler of an only operation runs without any. -/
theorem tokens_eraseIdx_received {io : Io H A} {i : ℕ} {x : H × ErrorCode × ℕ}
    (h : io.received[i]? = some x) (ht : io.tokens ≤ 1) :
    io.tokens = 1 ∧ tokens { io with received := io.received.eraseIdx i } = 0 := by
  have hlt := (List.getElem?_eq_some_iff.1 h).1
  simp only [tokens, List.length_eraseIdx_of_lt hlt] at ht ⊢
  omega

theorem tokens_eraseIdx_sent {io : Io H A} {i : ℕ} {x : ErrorCode × ℕ}
    (h : io.sent[i]? = some x) (ht : io.tokens ≤ 1) :
    io.tokens = 1 ∧ tokens { io with sent := io.sent.eraseIdx i } = 0 := by
  have hlt := (List.getElem?_eq_some_iff.1 h).1
  simp only [tokens, List.length_eraseIdx_of_lt hlt] at ht ⊢
  omega

theorem arrivals_eq_nil {io : Io H A} (h : io.tokens = 0) : io.arrivals = [] := by
  simp [arrivals, ((tokens_eq_zero io).1 h).2.1]

theorem asyncSendTo_wire :
    (io.asyncSendTo dest d).wire = io.wire ++ (if io.isOpen then [(dest, d)] else []) := by
  unfold asyncSendTo; split_ifs <;> simp

theorem asyncSendDetached_wire :
    (io.asyncSendDetached dest d).wire = io.wire ++ (if io.isOpen then [(dest, d)] else []) := by
  unfold asyncSendDetached; split_ifs <;> simp

end

end Io

/-- What can happen to an object. -/
inductive Event (A : Type) where
  | start
  /-- a datagram arrives at an outstanding receive -/
  | deliver (src : A) (d : Bytes)
  | receiveFails (e : ErrorCode)
  | sendCompletes (e : ErrorCode)
  /-- the timer expires -/
  | expire
  /-- the handler of a completed receive, send or wait runs -/
  | runReceive (i : ℕ)
  | runSend (i : ℕ)
  | runTimer (i : ℕ)
  deriving DecidableEq, Repr

def Event.isDelivery {A : Type} : Event A → Bool
  | .deliver _ _ => true
  | _ => false

/-- Whether an expiration of the timer is handled, not a cancelled wait. -/
def Event.handlesExpiry {H A : Type} (io : Io H A) : Event A → Bool
  | .runTimer i => io.waited[i]?.any (· ≠ .operationAborted)
  | _ => false

/-- An object that owns I/O objects, with the handlers of their operations. -/
structure Proactor (σ H A : Type) where
  io : σ → Io H A
  setIo : Io H A → σ → σ
  /-- an exception has left a handler -/
  threw : σ → Bool
  /-- the size of the buffer that receives are given -/
  capacity : σ → ℕ
  /-- store the bytes and the source of a received datagram -/
  store : A → Bytes → σ → σ
  start : σ → σ
  onReceive : H → ErrorCode → ℕ → σ → σ
  onSend : ErrorCode → ℕ → σ → σ
  onTimer : ErrorCode → σ → σ

namespace Proactor
variable {σ H A : Type} (P : Proactor σ H A)

/-- One event.  A datagram longer than the receive buffer is cut off. -/
def event (s : σ) : Event A → Option σ
  | .start =>
    if (P.io s).started then none
    else some (P.start (P.setIo { P.io s with started := true } s))
  | .deliver src d => match (P.io s).receives with
    | [] => none
    | h :: hs => some (P.store src (d.take (P.capacity s)) (P.setIo { P.io s with
        receives := hs
        received := (P.io s).received ++ [(h, .success, min d.length (P.capacity s))] } s))
  | .receiveFails e => match (P.io s).receives with
    | [] => none
    | h :: hs => if e = .success then none else some (P.setIo { P.io s with
        receives := hs
        received := (P.io s).received ++ [(h, e, 0)] } s)
  | .sendCompletes e => match (P.io s).sends with
    | [] => none
    | n :: ns => some (P.setIo { P.io s with
        sends := ns
        sent := (P.io s).sent ++ [(e, if e = .success then n else 0)] } s)
  | .expire =>
    if (P.io s).waits = 0 then none
    else some (P.setIo { P.io s with
      waits := 0
      waited := (P.io s).waited ++ List.replicate (P.io s).waits .success } s)
  | .runReceive i => (P.io s).received[i]?.map fun x =>
      P.onReceive x.1 x.2.1 x.2.2 (P.setIo { P.io s with received := (P.io s).received.eraseIdx i } s)
  | .runSend i => (P.io s).sent[i]?.map fun x =>
      P.onSend x.1 x.2 (P.setIo { P.io s with sent := (P.io s).sent.eraseIdx i } s)
  | .runTimer i => (P.io s).waited[i]?.map fun e =>
      P.onTimer e (P.setIo { P.io s with waited := (P.io s).waited.eraseIdx i } s)

/-- An exception that leaves a handler ends the run. -/
def step (s : σ) (e : Event A) : Option σ := if P.threw s then none else P.event s e

/-- What an event does, case by case. -/
inductive Step (s : σ) : Event A → σ → Prop
  | start : (P.io s).started = false →
      Step s .start (P.start (P.setIo { P.io s with started := true } s))
  | deliver {src : A} {d : Bytes} {h : H} {hs : List H} : (P.io s).receives = h :: hs →
      Step s (.deliver src d) (P.store src (d.take (P.capacity s)) (P.setIo { P.io s with
        receives := hs
        received := (P.io s).received ++ [(h, .success, min d.length (P.capacity s))] } s))
  | receiveFails {e : ErrorCode} {h : H} {hs : List H} : (P.io s).receives = h :: hs → e ≠ .success →
      Step s (.receiveFails e) (P.setIo { P.io s with
        receives := hs
        received := (P.io s).received ++ [(h, e, 0)] } s)
  | sendCompletes {e : ErrorCode} {n : ℕ} {ns : List ℕ} : (P.io s).sends = n :: ns →
      Step s (.sendCompletes e) (P.setIo { P.io s with
        sends := ns
        sent := (P.io s).sent ++ [(e, if e = .success then n else 0)] } s)
  | expire : (P.io s).waits ≠ 0 →
      Step s .expire (P.setIo { P.io s with
        waits := 0
        waited := (P.io s).waited ++ List.replicate (P.io s).waits .success } s)
  | runReceive {i : ℕ} {h : H} {e : ErrorCode} {n : ℕ} : (P.io s).received[i]? = some (h, e, n) →
      Step s (.runReceive i)
        (P.onReceive h e n (P.setIo { P.io s with received := (P.io s).received.eraseIdx i } s))
  | runSend {i : ℕ} {e : ErrorCode} {n : ℕ} : (P.io s).sent[i]? = some (e, n) →
      Step s (.runSend i) (P.onSend e n (P.setIo { P.io s with sent := (P.io s).sent.eraseIdx i } s))
  | runTimer {i : ℕ} {e : ErrorCode} : (P.io s).waited[i]? = some e →
      Step s (.runTimer i) (P.onTimer e (P.setIo { P.io s with waited := (P.io s).waited.eraseIdx i } s))

variable {P}

theorem step_cases {s s' : σ} {e : Event A} (h : P.step s e = some s') :
    P.threw s = false ∧ P.Step s e s' := by
  unfold step at h
  split_ifs at h with ht
  refine ⟨Bool.eq_false_iff.2 ht, ?_⟩
  cases e with
  | start =>
    simp only [event] at h
    split_ifs at h with hs
    cases h
    exact .start (Bool.eq_false_iff.2 hs)
  | deliver src d =>
    simp only [event] at h
    split at h
    · cases h
    · rename_i r rs hr
      cases h
      exact .deliver hr
  | receiveFails e =>
    simp only [event] at h
    split at h
    · cases h
    · rename_i r rs hr
      split_ifs at h with he
      cases h
      exact .receiveFails hr he
  | sendCompletes e =>
    simp only [event] at h
    split at h
    · cases h
    · rename_i n ns hn
      cases h
      exact .sendCompletes hn
  | expire =>
    simp only [event] at h
    split_ifs at h with hw
    cases h
    exact .expire hw
  | runReceive i =>
    obtain ⟨⟨r, err, n⟩, hx, rfl⟩ := Option.map_eq_some_iff.1 h
    exact .runReceive hx
  | runSend i =>
    obtain ⟨⟨err, n⟩, hx, rfl⟩ := Option.map_eq_some_iff.1 h
    exact .runSend hx
  | runTimer i =>
    obtain ⟨err, hx, rfl⟩ := Option.map_eq_some_iff.1 h
    exact .runTimer hx

theorem Step.event_eq {s s' : σ} {e : Event A} (h : P.Step s e s') : P.event s e = some s' := by
  cases h with
  | start hs => simp [event, hs]
  | deliver hr => simp only [event, hr]
  | receiveFails hr he => simp only [event, hr, if_neg he]
  | sendCompletes hn => simp only [event, hn]
  | expire hw => simp only [event, if_neg hw]
  | runReceive hx | runSend hx | runTimer hx => simp only [event, hx, Option.map_some]

theorem Step.step_eq {s s' : σ} {e : Event A} (h : P.Step s e s') (ht : P.threw s = false) : P.step s e = some s' := by
  rw [step, ht, if_neg Bool.false_ne_true, h.event_eq]

/-- A datagram arrives at the only receive, and its handler runs. -/
theorem step_deliver {s : σ} {r : H} (src : A) (d : Bytes)
    (hstore : ∀ io, P.io (P.store src (d.take (P.capacity s)) (P.setIo io s)) = io ∧
      P.threw (P.store src (d.take (P.capacity s)) (P.setIo io s)) = P.threw s)
    (ht : P.threw s = false) (hr : (P.io s).receives = [r]) (hrd : (P.io s).received = []) :
    ∃ s', s' = P.store src (d.take (P.capacity s)) (P.setIo { P.io s with
        receives := []
        received := [(r, .success, min d.length (P.capacity s))] } s) ∧
      P.step s (.deliver src d) = some s' ∧
      P.step s' (.runReceive 0) = some (P.onReceive r .success (min d.length (P.capacity s))
        (P.setIo { P.io s with receives := [], received := [] } s')) := by
  refine ⟨_, rfl, ?_, ?_⟩
  · have hdeliver : P.Step s (.deliver src d) _ := .deliver hr
    have hstep := hdeliver.step_eq ht
    rw [hrd, List.nil_append] at hstep
    exact hstep
  · obtain ⟨hio, hthrew⟩ := hstore { P.io s with
      receives := [], received := [(r, .success, min d.length (P.capacity s))] }
    refine ((Step.runReceive (P := P) (i := 0) (by rw [hio]; rfl)).step_eq (hthrew.trans ht)).trans ?_
    rw [hio]
    rfl

/-- Which events are enabled depends on the operations only. -/
theorem Step.enabled {s s' t : σ} {e : Event A} {k : ℕ} (h : P.Step s e s')
    (hio : P.io t = { P.io s with duration := k }) : ∃ t', P.Step t e t' := by
  cases h with
  | start hs => exact ⟨_, .start (by rw [hio]; exact hs)⟩
  | deliver hr => exact ⟨_, .deliver (by rw [hio]; exact hr)⟩
  | receiveFails hr he => exact ⟨_, .receiveFails (by rw [hio]; exact hr) he⟩
  | sendCompletes hn => exact ⟨_, .sendCompletes (by rw [hio]; exact hn)⟩
  | expire hw => exact ⟨_, .expire (by rw [hio]; exact hw)⟩
  | runReceive hx => exact ⟨_, .runReceive (by rw [hio]; exact hx)⟩
  | runSend hx => exact ⟨_, .runSend (by rw [hio]; exact hx)⟩
  | runTimer hx => exact ⟨_, .runTimer (by rw [hio]; exact hx)⟩

/-- **The rule of bisimulations**: two objects with the same operations take the same events,
    and only what the events make of them has to be compared. -/
theorem step_rel {R : σ → σ → Prop} {s t : σ} {e : Event A} {k : ℕ} (hthrew : P.threw t = P.threw s)
    (hio : P.io t = { P.io s with duration := k }) (h : ∀ s' t', P.Step s e s' → P.Step t e t' → R s' t') :
    Option.Rel R (P.step s e) (P.step t e) := by
  have hback : P.io s = { P.io t with duration := (P.io s).duration } := by rw [hio]
  unfold step
  rw [hthrew]
  split_ifs with ht
  · exact .none
  have hcases : ∀ u u' : σ, P.event u e = some u' → P.threw u = P.threw s → P.Step u e u' := fun u u' hu htu =>
    (step_cases (by rw [step, htu, if_neg ht, hu])).2
  cases hs : P.event s e with
  | none =>
    cases hev : P.event t e with
    | none => exact .none
    | some t' =>
      obtain ⟨s', hs'⟩ := (hcases t t' hev hthrew).enabled hback
      rw [hs'.event_eq] at hs
      cases hs
  | some s' =>
    have hstep := hcases s s' hs rfl
    obtain ⟨t', ht'⟩ := hstep.enabled hio
    rw [ht'.event_eq]
    exact .some (h s' t' hstep ht')

/-- The runs of an object from given initial states. -/
def lts (P : Proactor σ H A) (I : σ → Prop) : Lts σ (Event A) where
  init := I
  step := P.step

end Proactor

end Asio

/-
  Proactors on a strand: ready handlers run in the order in which they became ready.

  A `Strand` is an object together with the times at which its ready handlers became ready,
  in the order of its queues.  An event that runs a handler is `inTurn` if no other handler has
  been ready for longer; those that became ready at once run in any order.  Every run on a
  strand is a run of the object (`run_state`), and an object that can run a handler can run
  one whose turn it is (`exists_inTurn`).
-/
import Ttftp.Lib.Course

namespace Asio

section
variable {α A : Type}

/-- The handler that an event runs: that of a receive, of a send, or of a wait. -/
def Event.receive? : Event A → Option ℕ
  | .runReceive i => some i
  | _ => none

def Event.send? : Event A → Option ℕ
  | .runSend i => some i
  | _ => none

def Event.wait? : Event A → Option ℕ
  | .runTimer i => some i
  | _ => none

/-- Whether an event runs a handler. -/
def Event.runs : Event A → Bool
  | .runReceive _ | .runSend _ | .runTimer _ => true
  | _ => false

/-- A list without the element that is taken. -/
def dropAt (o : Option ℕ) (l : List α) : List α := o.elim l l.eraseIdx

theorem dropAt_subset (o : Option ℕ) (l : List α) : dropAt o l ⊆ l := by
  cases o with
  | none => exact List.Subset.refl l
  | some i => exact fun x hx => List.mem_of_mem_eraseIdx hx

theorem length_dropAt {β : Type} (o : Option ℕ) {l : List α} {l' : List β} (h : l.length = l'.length) :
    (dropAt o l).length = (dropAt o l').length := by
  cases o with
  | none => exact h
  | some i =>
    change (l.eraseIdx i).length = (l'.eraseIdx i).length
    rw [List.length_eraseIdx, List.length_eraseIdx, h]

theorem zip_eraseIdx {β : Type} (l : List α) (l' : List β) (i : ℕ) :
    (l.eraseIdx i).zip (l'.eraseIdx i) = (l.zip l').eraseIdx i := by
  induction l generalizing l' i with
  | nil => simp
  | cons a l ih =>
    cases l' with
    | nil => simp
    | cons b l' =>
      cases i with
      | zero => rfl
      | succ i => simp [ih]

/-- The times of a queue that has become `length` long. -/
def queue (now : ℕ) (ts : List ℕ) (length : ℕ) : List ℕ := ts ++ List.replicate (length - ts.length) now

theorem length_queue {now n : ℕ} {ts : List ℕ} (h : ts.length ≤ n) : (queue now ts n).length = n := by
  rw [queue, List.length_append, List.length_replicate]
  omega

theorem mem_queue {now n m : ℕ} {ts : List ℕ} (h : m ∈ queue now ts n) : m ∈ ts ∨ m = now :=
  (List.mem_append.1 h).imp_right List.eq_of_mem_replicate

/-- What is in the queue was there before, or is new. -/
theorem mem_zip_queue {now : ℕ} {o : Option ℕ} {l xs : List α} {ts : List ℕ} (h : ts.length = l.length) {x : α × ℕ}
    (hx : x ∈ (dropAt o l ++ xs).zip (queue now (dropAt o ts) (dropAt o l ++ xs).length)) :
    x ∈ l.zip ts ∨ x.1 ∈ xs ∧ x.2 = now := by
  rw [queue, List.zip_append (length_dropAt o h).symm] at hx
  refine (List.mem_append.1 hx).imp (fun hx => ?_) fun hx => ?_
  · cases o with
    | none => exact hx
    | some i =>
      rw [dropAt, dropAt, Option.elim_some, Option.elim_some, zip_eraseIdx] at hx
      exact List.mem_of_mem_eraseIdx hx
  · obtain ⟨h1, h2⟩ := List.of_mem_zip hx
    exact ⟨h1, List.eq_of_mem_replicate h2⟩

end

/-! ## Queues only grow -/

namespace Io
variable {H A : Type}

/-- Completions are added at the end. -/
structure Grows (io io' : Io H A) : Prop where
  received : ∃ l, io'.received = io.received ++ l
  sent : ∃ l, io'.sent = io.sent ++ l
  waited : ∃ l, io'.waited = io.waited ++ l

variable {io io' io'' : Io H A}

theorem Grows.of_eq (h1 : io'.received = io.received) (h2 : io'.sent = io.sent) (h3 : io'.waited = io.waited) :
    Grows io io' :=
  ⟨⟨[], by rw [h1, List.append_nil]⟩, ⟨[], by rw [h2, List.append_nil]⟩, ⟨[], by rw [h3, List.append_nil]⟩⟩

theorem Grows.trans (h : Grows io io') (h' : Grows io' io'') : Grows io io'' := by
  obtain ⟨⟨l1, h1⟩, ⟨l2, h2⟩, ⟨l3, h3⟩⟩ := h
  obtain ⟨⟨k1, g1⟩, ⟨k2, g2⟩, ⟨k3, g3⟩⟩ := h'
  exact ⟨⟨l1 ++ k1, by rw [g1, h1, List.append_assoc]⟩, ⟨l2 ++ k2, by rw [g2, h2, List.append_assoc]⟩,
    ⟨l3 ++ k3, by rw [g3, h3, List.append_assoc]⟩⟩

theorem grows_abortAll (io : Io H A) : Grows io io.abortAll := ⟨⟨_, rfl⟩, ⟨_, rfl⟩, ⟨[], (List.append_nil _).symm⟩⟩

theorem grows_close (io : Io H A) : Grows io io.close := ⟨⟨_, rfl⟩, ⟨_, rfl⟩, ⟨[], (List.append_nil _).symm⟩⟩

theorem Call.grows (h : io.Call io') : Grows io io' := by
  cases h with
  | receive h =>
    unfold asyncReceiveFrom
    split_ifs
    · exact .of_eq rfl rfl rfl
    · exact ⟨⟨_, rfl⟩, ⟨[], (List.append_nil _).symm⟩, ⟨[], (List.append_nil _).symm⟩⟩
  | send dest d =>
    unfold asyncSendTo
    split_ifs
    · exact .of_eq rfl rfl rfl
    · exact ⟨⟨[], (List.append_nil _).symm⟩, ⟨_, rfl⟩, ⟨[], (List.append_nil _).symm⟩⟩
  | sendDetached dest d =>
    unfold asyncSendDetached
    split_ifs <;> exact .of_eq rfl rfl rfl
  | sendNow h =>
    unfold sendTo at h
    split_ifs at h
    cases h
    exact .of_eq rfl rfl rfl
  | cancel h =>
    unfold Io.cancel at h
    split_ifs at h
    cases h
    exact grows_abortAll io
  | timerCancel | arm _ => exact ⟨⟨[], (List.append_nil _).symm⟩, ⟨[], (List.append_nil _).symm⟩, ⟨_, rfl⟩⟩

theorem Calls.grows (h : io.Calls io') : Grows io io' := by
  induction h with
  | refl => exact .of_eq rfl rfl rfl
  | tail _ hc ih => exact ih.trans hc.grows

end Io

namespace Reporter
variable {σ H A C : Type} {R : Reporter σ H A C} {P : Proactor σ H A} {s s' : σ} {e : Event A}

theorem Course.grows (h : R.Course s s') : (R.io s).Grows (R.io s') := by
  induction h with
  | refl => exact .of_eq rfl rfl rfl
  | tail _ hm ih =>
    refine ih.trans ?_
    cases hm with
    | calls hc => exact hc.grows
    | ends _ _ _ hio =>
      rw [hio]
      exact Io.grows_close _

/-- **The queues after an event**: one handler has been taken, and others are new. -/
theorem Handles.step_queues (K : Handles P R) (h : P.step s e = some s') :
    (∃ l, (P.io s').received = dropAt e.receive? (P.io s).received ++ l) ∧
    (∃ l, (P.io s').sent = dropAt e.send? (P.io s).sent ++ l) ∧
    ∃ l, (P.io s').waited = dropAt e.wait? (P.io s).waited ++ l := by
  -- the handler runs in a state with the queues without it
  have key : ∀ {t u : σ} {io : Io H A}, P.io t = io → R.Course t u → (∃ l, (P.io u).received = io.received ++ l) ∧
      (∃ l, (P.io u).sent = io.sent ++ l) ∧ ∃ l, (P.io u).waited = io.waited ++ l := by
    rintro t u io rfl hc
    have hg := hc.grows
    rw [K.io, K.io] at hg
    exact ⟨hg.received, hg.sent, hg.waited⟩
  obtain ⟨-, hstep⟩ := Proactor.step_cases h
  cases hstep with
  | start _ =>
    have hq := key (K.io_setIo s { P.io s with started := true }) (K.start _)
    exact hq
  | @deliver src d r rs _ =>
    rw [K.io_store, K.io_setIo]
    exact ⟨⟨_, rfl⟩, ⟨[], (List.append_nil _).symm⟩, ⟨[], (List.append_nil _).symm⟩⟩
  | receiveFails _ _ =>
    rw [K.io_setIo]
    exact ⟨⟨_, rfl⟩, ⟨[], (List.append_nil _).symm⟩, ⟨[], (List.append_nil _).symm⟩⟩
  | sendCompletes _ =>
    rw [K.io_setIo]
    exact ⟨⟨[], (List.append_nil _).symm⟩, ⟨_, rfl⟩, ⟨[], (List.append_nil _).symm⟩⟩
  | expire _ =>
    rw [K.io_setIo]
    exact ⟨⟨[], (List.append_nil _).symm⟩, ⟨[], (List.append_nil _).symm⟩, ⟨_, rfl⟩⟩
  | @runReceive i r err n _ =>
    have hq := key (K.io_setIo s { P.io s with received := (P.io s).received.eraseIdx i }) (K.receive r err n _)
    exact hq
  | @runSend i err n _ =>
    have hq := key (K.io_setIo s { P.io s with sent := (P.io s).sent.eraseIdx i }) (K.sent err n _)
    exact hq
  | @runTimer i err _ =>
    have hq := key (K.io_setIo s { P.io s with waited := (P.io s).waited.eraseIdx i }) (K.timer err _)
    exact hq

end Reporter

/-! ## Strands -/

structure Strand (σ : Type) where
  state : σ
  /-- the number of events so far -/
  now : ℕ := 0
  /-- when the handlers of receives, sends and waits became ready -/
  received : List ℕ := []
  sent : List ℕ := []
  waited : List ℕ := []

namespace Strand
variable {σ H A C : Type}

def ready (q : Strand σ) : List ℕ := q.received ++ (q.sent ++ q.waited)

/-- When the handler that an event runs became ready. -/
def since (q : Strand σ) : Event A → Option ℕ
  | .runReceive i => q.received[i]?
  | .runSend i => q.sent[i]?
  | .runTimer i => q.waited[i]?
  | _ => none

/-- No other handler has been ready for longer. -/
def inTurn (q : Strand σ) (e : Event A) : Bool := (q.since e).all fun n => q.ready.all fun m => n ≤ m

section
variable (P : Proactor σ H A)

def step (q : Strand σ) (e : Event A) : Option (Strand σ) :=
  if q.inTurn e then (P.step q.state e).map fun s => {
    state := s
    now := q.now + 1
    received := queue q.now (dropAt e.receive? q.received) (P.io s).received.length
    sent := queue q.now (dropAt e.send? q.sent) (P.io s).sent.length
    waited := queue q.now (dropAt e.wait? q.waited) (P.io s).waited.length }
  else none

/-- The runs of an object of which no handler is ready at first. -/
def lts (I : σ → Prop) : Lts (Strand σ) (Event A) where
  init q := I q.state ∧ q = { state := q.state }
  step := step P

/-- There is a time for each handler that is ready, before now. -/
structure Timed (q : Strand σ) : Prop where
  received : q.received.length = (P.io q.state).received.length
  sent : q.sent.length = (P.io q.state).sent.length
  waited : q.waited.length = (P.io q.state).waited.length
  past : ∀ n ∈ q.ready, n < q.now

end

variable {P : Proactor σ H A} {R : Reporter σ H A C} {q q' : Strand σ} {e : Event A}

theorem step_cases (h : step P q e = some q') :
    (∀ n ∈ q.since e, ∀ m ∈ q.ready, n ≤ m) ∧ P.step q.state e = some q'.state ∧ q' = {
      state := q'.state
      now := q.now + 1
      received := queue q.now (dropAt e.receive? q.received) (P.io q'.state).received.length
      sent := queue q.now (dropAt e.send? q.sent) (P.io q'.state).sent.length
      waited := queue q.now (dropAt e.wait? q.waited) (P.io q'.state).waited.length } := by
  unfold step at h
  split_ifs at h with hturn
  obtain ⟨s, hs, rfl⟩ := Option.map_eq_some_iff.1 h
  refine ⟨fun n hn m hm => ?_, hs, rfl⟩
  rw [inTurn, show q.since e = some n from hn, Option.all_some, List.all_eq_true] at hturn
  exact of_decide_eq_true (hturn m hm)

theorem step_of_inTurn {s : σ} (hturn : q.inTurn e = true) (h : P.step q.state e = some s) :
    ∃ q', step P q e = some q' ∧ q'.state = s :=
  ⟨_, by rw [step, if_pos hturn, h]; rfl, rfl⟩

/-- **A run on a strand is a run of the object.** -/
theorem run_state {I : σ → Prop} {es : List (Event A)} (h : (lts P I).run q es = some q') :
    (P.lts I).run q.state es = some q'.state := by
  induction es generalizing q with
  | nil =>
    obtain rfl := Option.some.inj h
    rfl
  | cons e es ih =>
    obtain ⟨t, ht, hrun⟩ := Option.bind_eq_some_iff.1 h
    exact Option.bind_eq_some_iff.2 ⟨t.state, (step_cases ht).2.1, ih hrun⟩

theorem Timed.step (K : R.Handles P) (hq : q.Timed P) (h : step P q e = some q') : q'.Timed P := by
  obtain ⟨-, hstep, heq⟩ := step_cases h
  obtain ⟨⟨l1, h1⟩, ⟨l2, h2⟩, ⟨l3, h3⟩⟩ := K.step_queues hstep
  have hlength : ∀ {α : Type} {o : Option ℕ} {ts : List ℕ} {l l' : List α}, ts.length = l.length →
      (dropAt o ts).length ≤ (dropAt o l ++ l').length := fun {α o ts l l'} hl => by
    rw [List.length_append, length_dropAt o hl]
    exact Nat.le_add_right _ _
  have hpast : ∀ {o : Option ℕ} {ts : List ℕ} {k : ℕ}, (∀ n ∈ ts, n < q.now) →
      ∀ n ∈ queue q.now (dropAt o ts) k, n < q.now + 1 := fun hts n hn => by
    rcases mem_queue hn with hn | rfl
    · exact (hts n (dropAt_subset _ _ hn)).trans (Nat.lt_succ_self _)
    · exact Nat.lt_succ_self _
  rw [heq]
  refine ⟨length_queue ?_, length_queue ?_, length_queue ?_, fun n hn => ?_⟩
  · rw [h1]
    exact hlength hq.received
  · rw [h2]
    exact hlength hq.sent
  · rw [h3]
    exact hlength hq.waited
  · have hready : ∀ n ∈ q.ready, n < q.now := hq.past
    rw [ready] at hready
    rcases List.mem_append.1 hn with hn | hn
    · exact hpast (fun n hn => hready n (List.mem_append_left _ hn)) n hn
    · rcases List.mem_append.1 hn with hn | hn
      · exact hpast (fun n hn => hready n (List.mem_append_right _ (List.mem_append_left _ hn))) n hn
      · exact hpast (fun n hn => hready n (List.mem_append_right _ (List.mem_append_right _ hn))) n hn

/-- **The strand is never blocked**: instead of a handler that has to wait, another one can run. -/
theorem exists_inTurn (hq : q.Timed P) {s : σ} (h : P.step q.state e = some s) (hn : q.inTurn e = false) :
    ∃ e' s', e'.runs = true ∧ q.inTurn e' = true ∧ P.step q.state e' = some s' := by
  have ht := (Proactor.step_cases h).1
  have hready : q.ready ≠ [] := fun hnil => by
    rw [inTurn, hnil] at hn
    simp at hn
  obtain ⟨n, hleast⟩ := Option.isSome_iff_exists.1 (List.isSome_min?_of_ne_nil hready)
  obtain ⟨hmem, hleast⟩ := List.min?_eq_some_iff.1 hleast
  have hturn : ∀ e' : Event A, q.since e' = some n → q.inTurn e' = true := fun e' he' => by
    rw [inTurn, he', Option.all_some, List.all_eq_true]
    exact fun m hm => decide_eq_true (hleast m hm)
  have hget : ∀ {α : Type} {ts : List ℕ} {l : List α}, ts.length = l.length → n ∈ ts →
      ∃ (i : ℕ) (x : α), ts[i]? = some n ∧ l[i]? = some x := fun {α ts l} hl hn => by
    obtain ⟨i, hi⟩ := List.mem_iff_getElem?.1 hn
    have hlt := (List.getElem?_eq_some_iff.1 hi).1
    exact ⟨i, _, hi, List.getElem?_eq_getElem (hl ▸ hlt)⟩
  rcases List.mem_append.1 hmem with hmem | hmem
  · obtain ⟨i, ⟨r, err, k⟩, hi, hx⟩ := hget hq.received hmem
    exact ⟨.runReceive i, _, rfl, hturn _ hi, (Proactor.Step.runReceive hx).step_eq ht⟩
  rcases List.mem_append.1 hmem with hmem | hmem
  · obtain ⟨i, ⟨err, k⟩, hi, hx⟩ := hget hq.sent hmem
    exact ⟨.runSend i, _, rfl, hturn _ hi, (Proactor.Step.runSend hx).step_eq ht⟩
  · obtain ⟨i, err, hi, hx⟩ := hget hq.waited hmem
    exact ⟨.runTimer i, _, rfl, hturn _ hi, (Proactor.Step.runTimer hx).step_eq ht⟩

end Strand

end Asio

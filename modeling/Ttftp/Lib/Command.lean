/-
  Commands and the states they pass through.

  A `Command` is built from basic steps by sequence and choice; `exec` is what it does as
  a whole, `states` what it passes through, from the first state to the last.  It is
  `Settled` if from the state on in which the object has ended, nothing changes any more
  that an observer sees.

  The handlers of a proactor, given as commands (`Bodies`), make each of its events a
  command (`Bodies.command`).
-/
import Ttftp.Lib.Asio

inductive Command (σ : Type) where
  | skip
  | basic (f : σ → σ)
  | seq (c d : Command σ)
  | choose (k : σ → Command σ)

namespace Command
variable {σ α : Type}

def exec : Command σ → σ → σ
  | skip, s => s
  | basic f, s => f s
  | seq c d, s => d.exec (c.exec s)
  | choose k, s => (k s).exec s

theorem exec_ite (p : Prop) [Decidable p] (c d : Command σ) (s : σ) :
    (if p then c else d).exec s = if p then c.exec s else d.exec s := apply_ite (exec · s) p c d

/-- A choice by a condition on the state. -/
def cond (b : σ → Bool) (c d : Command σ) : Command σ := choose fun s => if b s then c else d

theorem exec_cond (b : σ → Bool) (c d : Command σ) (s : σ) :
    (cond b c d).exec s = if b s then c.exec s else d.exec s := exec_ite _ c d s

/-- The states a command passes through, from the first to the last. -/
def states : Command σ → σ → List σ
  | skip, s => [s]
  | basic f, s => [s, f s]
  | seq c d, s => c.states s ++ d.states (c.exec s)
  | choose k, s => (k s).states s

theorem first_mem (c : Command σ) (s : σ) : s ∈ c.states s := by
  induction c generalizing s with
  | skip | basic _ => exact List.mem_cons_self
  | seq c d ihc _ => exact List.mem_append_left _ (ihc s)
  | choose k ih => exact ih s s

theorem last_mem (c : Command σ) (s : σ) : c.exec s ∈ c.states s := by
  induction c generalizing s with
  | skip => exact List.mem_singleton_self s
  | basic f => exact List.mem_cons_of_mem _ (List.mem_singleton_self _)
  | seq c d _ ihd => exact List.mem_append_right _ (ihd _)
  | choose k ih => exact ih s s

/-- Once the object has ended it stays so, and what the observer sees stays as it is. -/
def Settled (ended : σ → Bool) (obs : σ → α) (c : Command σ) (s : σ) : Prop :=
  ∀ t ∈ c.states s, ended t = true → ended (c.exec s) = true ∧ obs (c.exec s) = obs t

namespace Settled
variable {ended : σ → Bool} {obs : σ → α} {c d : Command σ} {s t : σ}

theorem skip : Settled ended obs skip s := fun t ht he => by
  cases List.mem_singleton.1 ht
  exact ⟨he, rfl⟩

theorem basic {f : σ → σ} (h : ended s = true → ended (f s) = true ∧ obs (f s) = obs s) :
    Settled ended obs (basic f) s := by
  intro t ht he
  rcases List.mem_cons.1 ht with rfl | ht
  · exact h he
  · cases List.mem_singleton.1 ht
    exact ⟨he, rfl⟩

theorem seq (hc : Settled ended obs c s) (hd : Settled ended obs d (c.exec s)) :
    Settled ended obs (seq c d) s := by
  intro t ht he
  rcases List.mem_append.1 ht with ht | ht
  · obtain ⟨h1, h2⟩ := hc t ht he
    obtain ⟨h3, h4⟩ := hd _ (d.first_mem _) h1
    exact ⟨h3, h4.trans h2⟩
  · exact hd t ht he

theorem choose {k : σ → Command σ} (h : Settled ended obs (k s) s) : Settled ended obs (choose k) s := h

theorem cond {b : σ → Bool} (hc : b s = true → Settled ended obs c s)
    (hd : b s = false → Settled ended obs d s) : Settled ended obs (cond b c d) s := by
  cases hb : b s with
  | true => exact choose (by rw [if_pos hb]; exact hc hb)
  | false => exact choose (by rw [if_neg (by simp [hb])]; exact hd hb)

/-- A change after the end. -/
theorem not_settled (ht : t ∈ c.states s) (he : ended t = true) (h : obs (c.exec s) ≠ obs t) :
    ¬ Settled ended obs c s := fun hs => h (hs t ht he).2

end Settled

end Command

namespace Asio.Proactor
variable {σ H A : Type}

/-- The handlers of an object as commands. -/
structure Bodies (P : Proactor σ H A) where
  start : Command σ
  onReceive : H → ErrorCode → ℕ → Command σ
  onSend : ErrorCode → ℕ → Command σ
  onTimer : ErrorCode → Command σ
  exec_start : ∀ s, start.exec s = P.start s
  exec_onReceive : ∀ h e n s, (onReceive h e n).exec s = P.onReceive h e n s
  exec_onSend : ∀ e n s, (onSend e n).exec s = P.onSend e n s
  exec_onTimer : ∀ e s, (onTimer e).exec s = P.onTimer e s

variable {P : Proactor σ H A}

/-- An event as a command. -/
def Bodies.command (B : P.Bodies) : Event A → Command σ
  | .start => .seq (.basic fun s => P.setIo { P.io s with started := true } s) B.start
  | .runReceive i => .choose fun s => match (P.io s).received[i]? with
    | none => .skip
    | some x => .seq (.basic fun s => P.setIo { P.io s with received := (P.io s).received.eraseIdx i } s)
        (B.onReceive x.1 x.2.1 x.2.2)
  | .runSend i => .choose fun s => match (P.io s).sent[i]? with
    | none => .skip
    | some x => .seq (.basic fun s => P.setIo { P.io s with sent := (P.io s).sent.eraseIdx i } s)
        (B.onSend x.1 x.2)
  | .runTimer i => .choose fun s => match (P.io s).waited[i]? with
    | none => .skip
    | some e => .seq (.basic fun s => P.setIo { P.io s with waited := (P.io s).waited.eraseIdx i } s)
        (B.onTimer e)
  | e => .basic fun s => (P.event s e).getD s

theorem event_of_step {s s' : σ} {e : Event A} (h : P.step s e = some s') : P.event s e = some s' := by
  unfold step at h
  split_ifs at h
  exact h

/-- The command of an event does what its step does. -/
theorem Bodies.exec_command (B : P.Bodies) {s s' : σ} {e : Event A} (h : P.step s e = some s') :
    (B.command e).exec s = s' := by
  have he := event_of_step h
  obtain ⟨-, hstep⟩ := step_cases h
  cases hstep with
  | start _ => exact B.exec_start _
  | deliver _ | receiveFails _ _ | sendCompletes _ | expire _ =>
    change (P.event s _).getD s = _
    rw [he]
    rfl
  | runReceive hx =>
    simp only [command, Command.exec, hx]
    exact B.exec_onReceive _ _ _ _
  | runSend hx =>
    simp only [command, Command.exec, hx]
    exact B.exec_onSend _ _ _
  | runTimer hx =>
    simp only [command, Command.exec, hx]
    exact B.exec_onTimer _ _

/-- **The rule of events**: an event is settled if its handler is, given that the other
    events neither end the object nor show. -/
theorem Bodies.settled (B : P.Bodies) {α : Type} {ended : σ → Bool} {obs : σ → α} {s s' : σ} {e : Event A}
    (h : P.step s e = some s')
    (hio : ∀ s io, io.wire = (P.io s).wire → ended (P.setIo io s) = ended s ∧ obs (P.setIo io s) = obs s)
    (hstore : ∀ s a d, ended (P.store a d s) = ended s ∧ obs (P.store a d s) = obs s)
    (hstart : e = .start →
      Command.Settled ended obs B.start (P.setIo { P.io s with started := true } s))
    (hreceive : ∀ i r err n, e = .runReceive i → (P.io s).received[i]? = some (r, err, n) →
      Command.Settled ended obs (B.onReceive r err n)
        (P.setIo { P.io s with received := (P.io s).received.eraseIdx i } s))
    (hsend : ∀ i err n, e = .runSend i → (P.io s).sent[i]? = some (err, n) →
      Command.Settled ended obs (B.onSend err n)
        (P.setIo { P.io s with sent := (P.io s).sent.eraseIdx i } s))
    (htimer : ∀ i err, e = .runTimer i → (P.io s).waited[i]? = some err →
      Command.Settled ended obs (B.onTimer err)
        (P.setIo { P.io s with waited := (P.io s).waited.eraseIdx i } s)) :
    Command.Settled ended obs (B.command e) s := by
  have hevent := event_of_step h
  obtain ⟨-, hstep⟩ := step_cases h
  cases hstep with
  | start _ =>
    refine .seq (.basic fun he => ?_) (hstart rfl)
    obtain ⟨h1, h2⟩ := hio s { P.io s with started := true } rfl
    exact ⟨h1.trans he, h2⟩
  | @deliver src d r rs hr =>
    refine .basic fun he => ?_
    rw [hevent, Option.getD_some]
    obtain ⟨h1, h2⟩ := hio s { P.io s with
      receives := rs
      received := (P.io s).received ++ [(r, .success, min d.length (P.capacity s))] } rfl
    obtain ⟨h3, h4⟩ := hstore (P.setIo { P.io s with
      receives := rs
      received := (P.io s).received ++ [(r, .success, min d.length (P.capacity s))] } s) src
      (d.take (P.capacity s))
    exact ⟨(h3.trans h1).trans he, h4.trans h2⟩
  | receiveFails _ _ | sendCompletes _ | expire _ =>
    refine .basic fun he => ?_
    rw [hevent, Option.getD_some]
    refine ⟨(hio s _ ?_).1.trans he, (hio s _ ?_).2⟩ <;> rfl
  | runReceive hx =>
    simp only [command]
    refine .choose ?_
    simp only [hx]
    refine .seq (.basic fun he => ?_) (hreceive _ _ _ _ rfl hx)
    refine ⟨(hio s _ ?_).1.trans he, (hio s _ ?_).2⟩ <;> rfl
  | runSend hx =>
    simp only [command]
    refine .choose ?_
    simp only [hx]
    refine .seq (.basic fun he => ?_) (hsend _ _ _ rfl hx)
    refine ⟨(hio s _ ?_).1.trans he, (hio s _ ?_).2⟩ <;> rfl
  | runTimer hx =>
    simp only [command]
    refine .choose ?_
    simp only [hx]
    refine .seq (.basic fun he => ?_) (htimer _ _ rfl hx)
    refine ⟨(hio s _ ?_).1.trans he, (hio s _ ?_).2⟩ <;> rfl

end Asio.Proactor

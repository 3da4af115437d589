/-
  Objects that report their end.

  `Io.Calls` are sequences of calls on the I/O objects, other than closing the socket.
  A `Reporter` is an object that closes its socket and runs its completion callback when its
  operation ends; a `Course` of it is what a piece of its code may do: calls, and the end of
  the operation unless it has ended.  Hence the end is reported once (`Course.reported`), and
  a closed socket sends nothing (`Course.silent`); for a proactor whose handlers are
  courses so it is in every run.
-/
import Ttftp.Lib.Asio

namespace Asio

namespace Io
variable {H A : Type}

/-- A call on the socket or the timer. -/
inductive Call (io : Io H A) : Io H A → Prop
  | receive (h : H) : Call io (io.asyncReceiveFrom h)
  | send (dest : A) (d : Bytes) : Call io (io.asyncSendTo dest d)
  | sendDetached (dest : A) (d : Bytes) : Call io (io.asyncSendDetached dest d)
  | sendNow {io' : Io H A} {dest : A} {d : Bytes} : io.sendTo dest d = some io' → Call io io'
  | cancel {io' : Io H A} : io.cancel = some io' → Call io io'
  | timerCancel : Call io io.timerCancel
  | arm (seconds : ℕ) : Call io (io.expiresFromNow seconds).asyncWait

abbrev Calls : Io H A → Io H A → Prop := Relation.ReflTransGen Call

variable {io io' : Io H A}

theorem Call.started (h : io.Call io') : io'.started = io.started := by
  cases h with
  | receive | send | sendDetached => simp
  | sendNow h =>
    unfold sendTo at h
    split_ifs at h
    cases h
    rfl
  | cancel h =>
    unfold Io.cancel at h
    split_ifs at h
    cases h
    rfl
  | timerCancel => rfl
  | arm => rfl

/-- A closed socket stays closed, and sends nothing. -/
theorem Call.silent (h : io.Call io') (hc : io.isOpen = false) : io'.isOpen = false ∧ io'.wire = io.wire := by
  cases h with
  | receive => simp [hc]
  | send => simp [hc, asyncSendTo_wire]
  | sendDetached => simp [hc, asyncSendDetached_wire]
  | sendNow h => simp [sendTo, hc] at h
  | cancel h => simp [Io.cancel, hc] at h
  | timerCancel => exact ⟨hc, rfl⟩
  | arm => exact ⟨hc, rfl⟩

/-- There is no second wait on the timer. -/
theorem Call.waits (h : io.Call io') (hw : io.waits ≤ 1) : io'.waits ≤ 1 := by
  cases h with
  | receive h =>
    unfold asyncReceiveFrom
    split_ifs <;> exact hw
  | send dest d =>
    unfold asyncSendTo
    split_ifs <;> exact hw
  | sendDetached dest d =>
    unfold asyncSendDetached
    split_ifs <;> exact hw
  | sendNow h =>
    unfold sendTo at h
    split_ifs at h
    cases h
    exact hw
  | cancel h =>
    unfold Io.cancel at h
    split_ifs at h
    cases h
    exact hw
  | timerCancel => exact Nat.zero_le 1
  | arm => exact le_rfl

theorem Calls.waits (h : io.Calls io') (hw : io.waits ≤ 1) : io'.waits ≤ 1 := by
  induction h with
  | refl => exact hw
  | tail _ hc ih => exact hc.waits ih

theorem Calls.started (h : io.Calls io') : io'.started = io.started := by
  induction h with
  | refl => rfl
  | tail _ hc ih => exact hc.started.trans ih

theorem Calls.silent (h : io.Calls io') (hc : io.isOpen = false) : io'.isOpen = false ∧ io'.wire = io.wire := by
  induction h with
  | refl => exact ⟨hc, rfl⟩
  | tail _ hcall ih =>
    obtain ⟨h1, h2⟩ := hcall.silent ih.1
    exact ⟨h1, h2.trans ih.2⟩

end Io

/-- An object with a completion callback; `C` are the codes that it is called with. -/
structure Reporter (σ H A C : Type) where
  io : σ → Io H A
  ended : σ → Bool
  callbacks : σ → List C

namespace Reporter
variable {σ H A C : Type} (R : Reporter σ H A C)

inductive Move (s s' : σ) : Prop
  | calls : (R.io s).Calls (R.io s') → R.ended s' = R.ended s → R.callbacks s' = R.callbacks s → Move s s'
  | ends (code : C) : R.ended s = false → R.ended s' = true → R.io s' = (R.io s).close →
      R.callbacks s' = R.callbacks s ++ [code] → Move s s'

def Course : σ → σ → Prop := Relation.ReflTransGen R.Move

/-- The callback runs when the operation ends, and only then. -/
inductive Reported (s s' : σ) : Prop
  | goesOn : R.ended s' = R.ended s → R.callbacks s' = R.callbacks s → Reported s s'
  | ends (code : C) : R.ended s = false → R.ended s' = true → R.callbacks s' = R.callbacks s ++ [code] →
      Reported s s'

variable {R} {s s' s'' : σ}

theorem Reported.trans (h : R.Reported s s') (h' : R.Reported s' s'') : R.Reported s s'' := by
  cases h with
  | goesOn h1 h2 =>
    cases h' with
    | goesOn h1' h2' => exact .goesOn (h1'.trans h1) (h2'.trans h2)
    | ends code he he' hc => exact .ends code (h1.symm.trans he) he' (by rw [hc, h2])
  | ends code he he' hc =>
    cases h' with
    | goesOn h1' h2' => exact .ends code he (h1'.trans he') (h2'.trans hc)
    | ends _ hn => cases he'.symm.trans hn

theorem Reported.ended (h : R.Reported s s') (he : R.ended s = true) : R.ended s' = true := by
  cases h with
  | goesOn h1 => exact h1.trans he
  | ends _ _ he' => exact he'

namespace Course

theorem refl (s : σ) : R.Course s s := Relation.ReflTransGen.refl

theorem trans (h : R.Course s s') (h' : R.Course s' s'') : R.Course s s'' := Relation.ReflTransGen.trans h h'

theorem move (h : R.Move s s') : R.Course s s' := .single h

/-- Code that only makes calls. -/
theorem calls (h : (R.io s).Calls (R.io s')) (he : R.ended s' = R.ended s) (hc : R.callbacks s' = R.callbacks s) :
    R.Course s s' :=
  move (.calls h he hc)

theorem call (h : (R.io s).Call (R.io s')) (he : R.ended s' = R.ended s) (hc : R.callbacks s' = R.callbacks s) :
    R.Course s s' :=
  calls (.single h) he hc

/-- Code that only changes other fields. -/
theorem sets (h : R.io s' = R.io s) (he : R.ended s' = R.ended s) (hc : R.callbacks s' = R.callbacks s) :
    R.Course s s' :=
  calls (by rw [h]) he hc

theorem started (h : R.Course s s') : (R.io s').started = (R.io s).started := by
  induction h with
  | refl => rfl
  | tail _ hm ih =>
    cases hm with
    | calls hc => exact hc.started.trans ih
    | ends _ _ _ hio => rw [hio, Io.close_started, ih]

theorem waits (h : R.Course s s') (hw : (R.io s).waits ≤ 1) : (R.io s').waits ≤ 1 := by
  induction h with
  | refl => exact hw
  | tail _ hm ih =>
    cases hm with
    | calls hc => exact hc.waits ih
    | ends _ _ _ hio =>
      rw [hio]
      exact ih

/-- **The end is reported once.** -/
theorem reported (h : R.Course s s') : R.Reported s s' := by
  induction h with
  | refl => exact .goesOn rfl rfl
  | tail _ hm ih =>
    refine ih.trans ?_
    cases hm with
    | calls _ he hc => exact .goesOn he hc
    | ends code hn he _ hc => exact .ends code hn he hc

/-- **A closed socket sends nothing.** -/
theorem silent (h : R.Course s s') (hc : (R.io s).isOpen = false) :
    (R.io s').isOpen = false ∧ (R.io s').wire = (R.io s).wire := by
  induction h with
  | refl => exact ⟨hc, rfl⟩
  | tail _ hm ih =>
    obtain ⟨h1, h2⟩ := ih
    cases hm with
    | calls hcalls =>
      obtain ⟨h3, h4⟩ := hcalls.silent h1
      exact ⟨h3, h4.trans h2⟩
    | ends _ _ _ hio => exact ⟨by rw [hio]; rfl, by rw [hio]; exact h2⟩

end Course

/-! ## Proactors -/

/-- The handlers of a proactor are courses of the object. -/
structure Handles (P : Proactor σ H A) (R : Reporter σ H A C) : Prop where
  io : ∀ s, R.io s = P.io s
  io_setIo : ∀ s io, P.io (P.setIo io s) = io
  ended_setIo : ∀ s io, R.ended (P.setIo io s) = R.ended s
  callbacks_setIo : ∀ s io, R.callbacks (P.setIo io s) = R.callbacks s
  io_store : ∀ s a d, P.io (P.store a d s) = P.io s
  ended_store : ∀ s a d, R.ended (P.store a d s) = R.ended s
  callbacks_store : ∀ s a d, R.callbacks (P.store a d s) = R.callbacks s
  start : ∀ s, R.Course s (P.start s)
  receive : ∀ h e n s, R.Course s (P.onReceive h e n s)
  sent : ∀ e n s, R.Course s (P.onSend e n s)
  timer : ∀ e s, R.Course s (P.onTimer e s)

namespace Handles
variable {P : Proactor σ H A} {e : Event A}

/-- What a step does before its handler runs. -/
structure Prepares (P : Proactor σ H A) (R : Reporter σ H A C) (e : Event A) (s t : σ) : Prop where
  ended : R.ended t = R.ended s
  callbacks : R.callbacks t = R.callbacks s
  isOpen : (P.io t).isOpen = (P.io s).isOpen
  wire : (P.io t).wire = (P.io s).wire
  waits : (P.io t).waits ≤ (P.io s).waits
  started : e = .start ∨ (P.io s).started = true → (P.io t).started = true

theorem prepares_setIo (K : Handles P R) {io : Io H A} (ho : io.isOpen = (P.io s).isOpen)
    (hw : io.wire = (P.io s).wire) (hn : io.waits ≤ (P.io s).waits)
    (hs : e = .start ∨ (P.io s).started = true → io.started = true) : Prepares P R e s (P.setIo io s) := by
  have hio := K.io_setIo s io
  exact ⟨K.ended_setIo s io, K.callbacks_setIo s io, by rw [hio, ho], by rw [hio, hw], by rw [hio]; exact hn,
    by rw [hio]; exact hs⟩

theorem step_cases (K : Handles P R) (h : P.step s e = some s') : ∃ t, R.Course t s' ∧ Prepares P R e s t := by
  obtain ⟨-, hstep⟩ := Proactor.step_cases h
  have hstarted : e ≠ .start → e = .start ∨ (P.io s).started = true → (P.io s).started = true :=
    fun he hs => hs.resolve_left he
  cases hstep with
  | start _ => exact ⟨_, K.start _, K.prepares_setIo rfl rfl le_rfl fun _ => rfl⟩
  | @deliver src d r rs _ =>
    have hp : Prepares P R (.deliver src d) s (P.setIo { P.io s with
        receives := rs
        received := (P.io s).received ++ [(r, .success, min d.length (P.capacity s))] } s) :=
      K.prepares_setIo rfl rfl le_rfl (hstarted (by simp))
    refine ⟨_, .refl _, (K.ended_store _ _ _).trans hp.ended, (K.callbacks_store _ _ _).trans hp.callbacks,
      ?_, ?_, ?_, ?_⟩
    · rw [K.io_store]; exact hp.isOpen
    · rw [K.io_store]; exact hp.wire
    · rw [K.io_store]; exact hp.waits
    · rw [K.io_store]; exact hp.started
  | receiveFails _ _ | sendCompletes _ => exact ⟨_, .refl _, K.prepares_setIo rfl rfl le_rfl (hstarted (by simp))⟩
  | expire _ => exact ⟨_, .refl _, K.prepares_setIo rfl rfl (Nat.zero_le _) (hstarted (by simp))⟩
  | @runReceive i r err n _ =>
    exact ⟨_, K.receive r err n _, K.prepares_setIo rfl rfl le_rfl (hstarted (by simp))⟩
  | @runSend i err n _ => exact ⟨_, K.sent err n _, K.prepares_setIo rfl rfl le_rfl (hstarted (by simp))⟩
  | @runTimer i err _ => exact ⟨_, K.timer err _, K.prepares_setIo rfl rfl le_rfl (hstarted (by simp))⟩

theorem step_reported (K : Handles P R) (h : P.step s e = some s') : R.Reported s s' := by
  obtain ⟨t, hcourse, hp⟩ := K.step_cases h
  exact (Reported.goesOn hp.ended hp.callbacks).trans hcourse.reported

/-- A step takes back neither the start nor the end. -/
theorem step_after (K : Handles P R) (h : P.step s e = some s') :
    (e = .start ∨ (P.io s).started = true → (P.io s').started = true) ∧
      (R.ended s = true → R.ended s' = true) := by
  obtain ⟨t, hcourse, hp⟩ := K.step_cases h
  refine ⟨fun hs => ?_, (K.step_reported h).ended⟩
  have hstarted := hcourse.started
  rw [K.io, K.io] at hstarted
  exact hstarted.trans (hp.started hs)

theorem step_waits (K : Handles P R) (h : P.step s e = some s') (hw : (P.io s).waits ≤ 1) :
    (P.io s').waits ≤ 1 := by
  obtain ⟨t, hcourse, hp⟩ := K.step_cases h
  have hwaits := hcourse.waits (by rw [K.io]; exact hp.waits.trans hw)
  rwa [K.io] at hwaits

theorem step_silent (K : Handles P R) (h : P.step s e = some s') (hc : (P.io s).isOpen = false) :
    (P.io s').isOpen = false ∧ (P.io s').wire = (P.io s).wire := by
  obtain ⟨t, hcourse, hp⟩ := K.step_cases h
  have hsilent := hcourse.silent (by rw [K.io, hp.isOpen, hc])
  rw [K.io, K.io] at hsilent
  exact ⟨hsilent.1, hsilent.2.trans hp.wire⟩

/-- The end of an operation is final. -/
theorem run_ended (K : Handles P R) {I : σ → Prop} (he : R.ended s = true) {es : List (Event A)}
    (h : (P.lts I).run s es = some s') : R.ended s' = true := by
  induction es generalizing s with
  | nil => cases h; exact he
  | cons e es ih =>
    obtain ⟨t, ht, hrun⟩ := Option.bind_eq_some_iff.1 h
    exact ih ((K.step_reported ht).ended he) hrun

/-- **An object that has ended and closed its socket** sends and reports nothing in any run. -/
theorem run_over (K : Handles P R) {I : σ → Prop} (hc : (P.io s).isOpen = false) (he : R.ended s = true)
    {es : List (Event A)} (h : (P.lts I).run s es = some s') :
    (P.io s').wire = (P.io s).wire ∧ R.callbacks s' = R.callbacks s := by
  induction es generalizing s with
  | nil => cases h; exact ⟨rfl, rfl⟩
  | cons e es ih =>
    obtain ⟨t, ht, hrun⟩ := Option.bind_eq_some_iff.1 h
    obtain ⟨hc', hw⟩ := K.step_silent ht hc
    have hr := K.step_reported ht
    obtain ⟨hw', hcb⟩ := ih hc' (hr.ended he) hrun
    refine ⟨hw'.trans hw, hcb.trans ?_⟩
    cases hr with
    | goesOn _ h2 => exact h2
    | ends _ hn => cases he.symm.trans hn

end Handles

end Reporter

end Asio

/-
  Objects that do one thing at a time, and watch over it by their timer.

  An object is `Watched` if it has a send outstanding, or a receive with the timer
  set.  `OneByOne` says of the handlers of an object what they leave behind: the
  next operation, watched over, or the end; only the handler of a failed send
  leaves nothing, and some starts leave a receive without a timer.  `guarded_iff`
  concludes in which runs the object is never left alone.
-/
import Ttftp.Lib.Asio

namespace Asio

namespace Io
variable {H A : Type} {io : Io H A}

/-- No handler is ready to run. -/
def Idle (io : Io H A) : Prop := io.received = [] ∧ io.sent = [] ∧ io.waited = []

/-- A send is outstanding, or a receive is and the timer is set. -/
def Watched (io : Io H A) : Prop := io.sends ≠ [] ∨ io.receives ≠ [] ∧ io.waits ≠ 0

/-- There is one operation, and if it is an outstanding receive the timer is set, or
    has expired and its handler is ready. -/
structure Live (io : Io H A) : Prop where
  tokens : io.tokens = 1
  timer : io.receives ≠ [] → io.waits ≠ 0 ∨ ∃ e ∈ io.waited, e ≠ .operationAborted

theorem Live.watched (h : io.Live) (hi : io.Idle) : io.Watched := by
  obtain ⟨h1, h2, h3⟩ := hi
  have ht := h.tokens
  simp only [Io.tokens, h1, h2, List.length_nil, Nat.add_zero] at ht
  by_cases hr : io.receives = []
  · rw [hr, List.length_nil, Nat.zero_add] at ht
    exact .inl fun hs => by simp [hs] at ht
  · refine .inr ⟨hr, (h.timer hr).resolve_right ?_⟩
    rintro ⟨e, he, -⟩
    rw [h3] at he
    cases he

theorem not_watched (h : io.tokens = 0) : ¬ io.Watched := by
  obtain ⟨h1, -, h3, -⟩ := (tokens_eq_zero io).1 h
  rintro (hs | ⟨hr, -⟩)
  · exact hs h3
  · exact hr h1

/-- A new operation is started where there was none. -/
theorem Live.send (h : io.tokens = 0) (dest : A) (d : Bytes) : (io.asyncSendTo dest d).Live := by
  refine ⟨by rw [asyncSendTo_tokens, h], fun hr => absurd ?_ hr⟩
  unfold asyncSendTo
  split_ifs <;> exact ((tokens_eq_zero io).1 h).1

theorem Live.listen (h : io.tokens = 0) (n : ℕ) (r : H) :
    ((io.expiresFromNow n).asyncWait.asyncReceiveFrom r).Live := by
  refine ⟨by rw [asyncReceiveFrom_tokens, asyncWait_tokens, expiresFromNow_tokens, h], fun _ => .inl ?_⟩
  unfold asyncReceiveFrom
  split_ifs <;> exact Nat.succ_ne_zero _

theorem Live.abortAll (h : io.tokens = 1) : io.abortAll.Live :=
  ⟨by rw [abortAll_tokens, h], fun hr => absurd rfl hr⟩

section
variable (h : io.Live)
include h

theorem Live.arrive {r : H} {rs : List H} (hr : io.receives = r :: rs) (x : H × ErrorCode × ℕ) :
    Live { io with receives := rs, received := io.received ++ [x] } := by
  have ht := h.tokens
  simp only [Io.tokens, hr, List.length_cons] at ht
  refine ⟨?_, fun hrs => absurd (List.length_eq_zero_iff.1 (by omega : rs.length = 0)) hrs⟩
  simp only [Io.tokens, List.length_append, List.length_cons, List.length_nil]
  omega

theorem Live.sentOff {n : ℕ} {ns : List ℕ} (hn : io.sends = n :: ns) (x : ErrorCode × ℕ) :
    Live { io with sends := ns, sent := io.sent ++ [x] } := by
  have ht := h.tokens
  simp only [Io.tokens, hn, List.length_cons] at ht
  refine ⟨?_, h.timer⟩
  simp only [Io.tokens, List.length_append, List.length_cons, List.length_nil]
  omega

theorem Live.expire (hw : io.waits ≠ 0) :
    Live { io with waits := 0, waited := io.waited ++ List.replicate io.waits .success } := by
  refine ⟨h.tokens, fun _ => .inr ⟨.success, List.mem_append_right _ ?_, by simp⟩⟩
  exact List.mem_replicate.2 ⟨hw, rfl⟩

/-- A cancelled wait does not matter. -/
theorem Live.eraseAborted {i : ℕ} (hi : io.waited[i]? = some .operationAborted) :
    Live { io with waited := io.waited.eraseIdx i } := by
  refine ⟨h.tokens, fun hr => (h.timer hr).imp_right ?_⟩
  rintro ⟨e, he, hne⟩
  obtain ⟨j, hj⟩ := List.mem_iff_getElem?.1 he
  refine ⟨e, List.mem_eraseIdx_iff_getElem?.2 ⟨j, ?_, hj⟩, hne⟩
  rintro rfl
  rw [hi, Option.some.injEq] at hj
  exact hne hj.symm

end

end Io

variable {σ H A : Type}

/-- What the handlers of an object leave behind.  `wf` is an invariant, `ended` says
    that the object has ended, `bare` that its start leaves a receive without a
    timer, and `last` that the next expiry of the timer ends it. -/
structure OneByOne (P : Proactor σ H A) (wf : σ → Prop) (ended : σ → Bool) (bare last : σ → Prop) :
    Prop where
  io_setIo : ∀ s io, P.io (P.setIo io s) = io
  io_store : ∀ s a d, P.io (P.store a d s) = P.io s
  ended_setIo : ∀ s io, ended (P.setIo io s) = ended s
  wf_setIo : ∀ s io, wf s → io.isOpen = (P.io s).isOpen → wf (P.setIo io s)
  bare_setIo : ∀ s io, bare (P.setIo io s) ↔ bare s
  last_setIo : ∀ s io, last (P.setIo io s) ↔ last s
  wf_step : ∀ s e s', wf s → P.step s e = some s' → wf s'
  ended_step : ∀ s e s', P.step s e = some s' → ended s = true → ended s' = true
  started_step : ∀ s e s', P.step s e = some s' → e = .start ∨ (P.io s).started = true →
    (P.io s').started = true
  start : ∀ s, wf s → ended s = false → (P.io s).tokens = 0 → ¬ bare s →
    ended (P.start s) = true ∨ (P.io (P.start s)).Live
  start_bare : ∀ s, wf s → ended s = false → (P.io s).tokens = 0 → (P.io s).waits = 0 →
    (P.io s).waited = [] → bare s →
    ended (P.start s) = false ∧ (P.io (P.start s)).Idle ∧ ¬ (P.io (P.start s)).Watched
  receive : ∀ h e n s, wf s → ended s = false → (P.io s).tokens = 0 →
    ended (P.onReceive h e n s) = true ∨ (P.io (P.onReceive h e n s)).Live
  sent : ∀ n s, (P.io s).tokens = 0 → n ≠ 0 → (P.io (P.onSend .success n s)).Live
  failed : ∀ e n s, ¬ (e = .success ∧ n ≠ 0) → P.onSend e n s = s
  cancelled : ∀ s, P.onTimer .operationAborted s = s
  expired : ∀ e s, wf s → ended s = false → e ≠ .operationAborted → ¬ last s →
    ended (P.onTimer e s) = false ∧ P.io (P.onTimer e s) = (P.io s).abortAll
  expired_last : ∀ e s, wf s → ended s = false → e ≠ .operationAborted → last s →
    ended (P.onTimer e s) = true

/-- The steps that leave the object alone: a start without a timer; and, as the last
    ready handler, that of a failed send, or one of the timer that finds no
    operation and does not end the object. -/
def Strands (P : Proactor σ H A) (ended : σ → Bool) (bare last : σ → Prop) (s : σ) : Event A → Prop
  | .start => bare s
  | .runSend i => ended s = false ∧ (P.io s).waited = [] ∧
      ∃ e n, (P.io s).sent[i]? = some (e, n) ∧ ¬ (e = .success ∧ n ≠ 0)
  | .runTimer i => ended s = false ∧ (P.io s).tokens = 0 ∧ (P.io s).waited.length = 1 ∧
      ∃ e, (P.io s).waited[i]? = some e ∧ (e = .operationAborted ∨ ¬ last s)
  | _ => False

/-- A started object that has not ended and has no ready handler is watched. -/
def Guarded (P : Proactor σ H A) (ended : σ → Bool) (s : σ) : Prop :=
  (P.io s).started = true → ended s = false → (P.io s).Idle → (P.io s).Watched

/-- Where an object is: not yet started, or ended, or at its next operation, or
    waiting for handlers of the timer only. -/
inductive Stage (P : Proactor σ H A) (ended : σ → Bool) (s : σ) : Prop
  | fresh : (P.io s).started = false → ended s = false → (P.io s).tokens = 0 → (P.io s).waits = 0 →
      (P.io s).waited = [] → Stage P ended s
  | ended : (P.io s).started = true → ended s = true → Stage P ended s
  | live : (P.io s).started = true → (P.io s).Live → Stage P ended s
  | timer : (P.io s).started = true → (P.io s).tokens = 0 → (P.io s).waited ≠ [] → Stage P ended s

namespace OneByOne
variable {P : Proactor σ H A} {wf : σ → Prop} {ended : σ → Bool} {bare last : σ → Prop} {s s' : σ}
  {e : Event A}

/-- What a step has to show. -/
def Keeps (P : Proactor σ H A) (ended : σ → Bool) (bare last : σ → Prop) (s : σ) (e : Event A) (s' : σ) :
    Prop :=
  (¬ Strands P ended bare last s e → Stage P ended s' ∧ Guarded P ended s') ∧
    (Strands P ended bare last s e → ¬ Guarded P ended s')

theorem guarded (h : Stage P ended s) : Guarded P ended s := by
  intro hs he hi
  cases h with
  | fresh h => rw [h] at hs; cases hs
  | ended _ h => rw [h] at he; cases he
  | live _ h => exact h.watched hi
  | timer _ _ h => exact absurd hi.2.2 h

theorem keeps_of_stage (h : Stage P ended s') (hn : ¬ Strands P ended bare last s e) :
    Keeps P ended bare last s e s' :=
  ⟨fun _ => ⟨h, guarded h⟩, fun hb => absurd hb hn⟩

variable (O : OneByOne P wf ended bare last) (hw : wf s) (h : P.step s e = some s')
include O h

/-- An object that has ended stays so. -/
theorem keeps_ended (hs : (P.io s).started = true) (he : ended s = true) :
    Keeps P ended bare last s e s' := by
  refine keeps_of_stage (.ended (O.started_step _ _ _ h (.inr hs)) (O.ended_step _ _ _ h he)) fun hb => ?_
  obtain ⟨-, hstep⟩ := Proactor.step_cases h
  cases hstep with
  | start h0 => rw [h0] at hs; cases hs
  | runSend _ => rw [hb.1] at he; cases he
  | runTimer _ => rw [hb.1] at he; cases he
  | _ => exact hb

include hw

/-- A fresh object can only be started. -/
theorem keeps_fresh (he : ended s = false) (ht : (P.io s).tokens = 0) (hwaits : (P.io s).waits = 0)
    (hwaited : (P.io s).waited = []) : Keeps P ended bare last s e s' := by
  obtain ⟨h1, h2, h3, h4⟩ := (Io.tokens_eq_zero _).1 ht
  obtain ⟨-, hstep⟩ := Proactor.step_cases h
  cases hstep with
  | start _ =>
    have hs' := O.started_step _ _ _ h (.inl rfl)
    have he' := (O.ended_setIo s { P.io s with started := true }).trans he
    by_cases hb : bare s
    · refine ⟨fun hn => absurd hb hn, fun _ hg => ?_⟩
      obtain ⟨g1, g2, g3⟩ := O.start_bare (P.setIo { P.io s with started := true } s)
        (O.wf_setIo _ _ hw rfl) he'
        (by rw [O.io_setIo]; exact ht) (by rw [O.io_setIo]; exact hwaits)
        (by rw [O.io_setIo]; exact hwaited) ((O.bare_setIo _ _).2 hb)
      exact g3 (hg hs' g1 g2)
    · refine keeps_of_stage ?_ hb
      rcases O.start (P.setIo { P.io s with started := true } s) (O.wf_setIo _ _ hw rfl) he'
        (by rw [O.io_setIo]; exact ht) (fun hb' => hb ((O.bare_setIo _ _).1 hb')) with hl | hl
      · exact .ended hs' hl
      · exact .live hs' hl
  | deliver hr => rw [h1] at hr; cases hr
  | receiveFails hr _ => rw [h1] at hr; cases hr
  | sendCompletes hn => rw [h3] at hn; cases hn
  | expire hx => exact absurd hwaits hx
  | runReceive hx => rw [h2] at hx; cases hx
  | runSend hx => rw [h4] at hx; cases hx
  | runTimer hx => rw [hwaited] at hx; cases hx

/-- The handlers of the timer run out. -/
theorem keeps_timer (hs : (P.io s).started = true) (he : ended s = false) (ht : (P.io s).tokens = 0)
    (hwaited : (P.io s).waited ≠ []) : Keeps P ended bare last s e s' := by
  obtain ⟨h1, h2, h3, h4⟩ := (Io.tokens_eq_zero _).1 ht
  have hs' := O.started_step _ _ _ h (.inr hs)
  obtain ⟨-, hstep⟩ := Proactor.step_cases h
  cases hstep with
  | start h0 => rw [h0] at hs; cases hs
  | deliver hr => rw [h1] at hr; cases hr
  | receiveFails hr _ => rw [h1] at hr; cases hr
  | sendCompletes hn => rw [h3] at hn; cases hn
  | runReceive hx => rw [h2] at hx; cases hx
  | runSend hx => rw [h4] at hx; cases hx
  | expire hx =>
    refine keeps_of_stage (.timer hs' ?_ ?_) id
    · rw [O.io_setIo]; exact ht
    · rw [O.io_setIo]; exact fun hnil => hwaited (List.append_eq_nil_iff.1 hnil).1
  | @runTimer i err hx =>
    have hlen := (List.getElem?_eq_some_iff.1 hx).1
    have hw' := O.wf_setIo s { P.io s with waited := (P.io s).waited.eraseIdx i } hw rfl
    have he' := (O.ended_setIo s { P.io s with waited := (P.io s).waited.eraseIdx i }).trans he
    have hio := O.io_setIo s { P.io s with waited := (P.io s).waited.eraseIdx i }
    by_cases hend : err ≠ .operationAborted ∧ last s
    · refine keeps_of_stage (.ended hs' (O.expired_last _ _ hw' he' hend.1 ((O.last_setIo _ _).2 hend.2)))
        fun hb => ?_
      obtain ⟨-, -, -, e, hx', hb⟩ := hb
      cases hx.symm.trans hx'
      exact hb.elim hend.1 fun hb => hb hend.2
    · have hquiet : err = .operationAborted ∨ ¬ last s := by
        by_contra hno
        obtain ⟨g1, g2⟩ := not_or.1 hno
        exact hend ⟨g1, not_not.1 g2⟩
      -- the handler leaves everything as it is, or finds nothing to abort
      obtain ⟨g1, g2, g3⟩ : ended (P.onTimer err (P.setIo { P.io s with
          waited := (P.io s).waited.eraseIdx i } s)) = false ∧
          (P.io (P.onTimer err (P.setIo { P.io s with
            waited := (P.io s).waited.eraseIdx i } s))).tokens = 0 ∧
          (P.io (P.onTimer err (P.setIo { P.io s with
            waited := (P.io s).waited.eraseIdx i } s))).waited = (P.io s).waited.eraseIdx i := by
        by_cases ha : err = .operationAborted
        · rw [ha, O.cancelled, hio]
          exact ⟨he', ht, rfl⟩
        · have hl := (O.last_setIo s { P.io s with waited := (P.io s).waited.eraseIdx i }).not.2
            (hquiet.resolve_left ha)
          obtain ⟨g1, g2⟩ := O.expired err _ hw' he' ha hl
          rw [g2, hio]
          exact ⟨g1, (Io.abortAll_tokens _).trans ht, rfl⟩
      have hlen' := List.length_eraseIdx_of_lt hlen
      by_cases hone : (P.io s).waited.length = 1
      · have hnil : (P.io s).waited.eraseIdx i = [] := List.length_eq_zero_iff.1 (by omega)
        refine ⟨fun hn => absurd ⟨he, ht, hone, err, hx, hquiet⟩ hn, fun _ hg => ?_⟩
        obtain ⟨k1, k2, k3, k4⟩ := (Io.tokens_eq_zero _).1 g2
        exact Io.not_watched g2 (hg hs' g1 ⟨k2, k4, g3.trans hnil⟩)
      · refine keeps_of_stage (.timer hs' g2 fun hnil => ?_) fun hb => hone hb.2.2.1
        rw [g3] at hnil
        rw [hnil, List.length_nil] at hlen'
        omega

/-- The operation goes on, or the next one is started; only a failed send leaves
    none. -/
theorem keeps_live (hs : (P.io s).started = true) (he : ended s = false) (hl : (P.io s).Live) :
    Keeps P ended bare last s e s' := by
  have hs' := O.started_step _ _ _ h (.inr hs)
  obtain ⟨-, hstep⟩ := Proactor.step_cases h
  cases hstep with
  | start h0 => rw [h0] at hs; cases hs
  | deliver hr =>
    refine keeps_of_stage (.live hs' ?_) id
    rw [O.io_store, O.io_setIo]
    exact hl.arrive hr _
  | receiveFails hr _ =>
    refine keeps_of_stage (.live hs' ?_) id
    rw [O.io_setIo]
    exact hl.arrive hr _
  | sendCompletes hn =>
    refine keeps_of_stage (.live hs' ?_) id
    rw [O.io_setIo]
    exact hl.sentOff hn _
  | expire hx =>
    refine keeps_of_stage (.live hs' ?_) id
    rw [O.io_setIo]
    exact hl.expire hx
  | @runReceive i r err n hx =>
    have ht := (Io.tokens_eraseIdx_received hx hl.tokens.le).2
    refine keeps_of_stage ?_ id
    rcases O.receive r err n (P.setIo { P.io s with received := (P.io s).received.eraseIdx i } s)
      (O.wf_setIo _ _ hw rfl) ((O.ended_setIo _ _).trans he) (by rw [O.io_setIo]; exact ht) with hn | hn
    · exact .ended hs' hn
    · exact .live hs' hn
  | @runSend i err n hx =>
    have ht := (Io.tokens_eraseIdx_sent hx hl.tokens.le).2
    have hio := O.io_setIo s { P.io s with sent := (P.io s).sent.eraseIdx i }
    by_cases hok : err = .success ∧ n ≠ 0
    · refine keeps_of_stage (.live hs' ?_) fun hb => ?_
      · rw [hok.1]
        exact O.sent n _ (by rw [hio]; exact ht) hok.2
      · obtain ⟨-, -, e, m, hx', hb⟩ := hb
        cases hx.symm.trans hx'
        exact hb hok
    · have hsame := O.failed err n (P.setIo { P.io s with sent := (P.io s).sent.eraseIdx i } s) hok
      rw [hsame] at hs' ⊢
      obtain ⟨k1, k2, k3, k4⟩ := (Io.tokens_eq_zero _).1 ht
      by_cases hwaited : (P.io s).waited = []
      · refine ⟨fun hn => absurd ⟨he, hwaited, err, n, hx, hok⟩ hn, fun _ hg => ?_⟩
        have hunwatched := hg hs' ((O.ended_setIo _ _).trans he)
        rw [hio] at hunwatched
        exact Io.not_watched ht (hunwatched ⟨k2, k4, hwaited⟩)
      · refine keeps_of_stage (.timer hs' ?_ ?_) fun hb => hwaited hb.2.1
        · rw [hio]; exact ht
        · rw [hio]; exact hwaited
  | @runTimer i err hx =>
    have hio := O.io_setIo s { P.io s with waited := (P.io s).waited.eraseIdx i }
    have hnot : ¬ Strands P ended bare last s (.runTimer i) := by
      intro hb
      have := hl.tokens
      rw [hb.2.1] at this
      cases this
    refine keeps_of_stage ?_ hnot
    by_cases ha : err = .operationAborted
    · rw [ha, O.cancelled] at hs' ⊢
      refine .live hs' ?_
      rw [hio]
      exact hl.eraseAborted (by rw [hx, ha])
    · have hw' := O.wf_setIo s { P.io s with waited := (P.io s).waited.eraseIdx i } hw rfl
      have he' := (O.ended_setIo s { P.io s with waited := (P.io s).waited.eraseIdx i }).trans he
      by_cases hlast : last s
      · exact .ended hs' (O.expired_last err _ hw' he' ha ((O.last_setIo _ _).2 hlast))
      · refine .live hs' ?_
        rw [(O.expired err _ hw' he' ha ((O.last_setIo _ _).not.2 hlast)).2, hio]
        exact Io.Live.abortAll hl.tokens

omit h

/-- One step keeps the object watched, or strands it. -/
theorem keeps (hst : Stage P ended s) (h : P.step s e = some s') : Keeps P ended bare last s e s' := by
  by_cases he : ended s = true
  · have hs : (P.io s).started = true := by
      cases hst with
      | fresh _ h0 => rw [h0] at he; cases he
      | ended h0 => exact h0
      | live h0 => exact h0
      | timer h0 => exact h0
    exact O.keeps_ended h hs he
  · rw [Bool.not_eq_true] at he
    cases hst with
    | fresh _ _ ht hwaits hwaited => exact O.keeps_fresh hw h he ht hwaits hwaited
    | ended _ h0 => rw [he] at h0; cases h0
    | live hs hl => exact O.keeps_live hw h hs he hl
    | timer hs ht hwaited => exact O.keeps_timer hw h hs he ht hwaited

omit hw

/-- **When an object is never left alone**: in a run from a fresh object all states
    are guarded exactly if no step strands the object. -/
theorem guarded_iff {I : σ → Prop} {s₀ : σ} (hw : wf s₀) (hfresh : Stage P ended s₀) (es : List (Event A)) :
    (∀ x ∈ (P.lts I).trace s₀ es, Guarded P ended x.2.2) ↔
      ∀ x ∈ (P.lts I).trace s₀ es, ¬ Strands P ended bare last x.1 x.2.1 := by
  refine Lts.trace_iff (I := fun s => wf s ∧ Stage P ended s) (P := fun x => Guarded P ended x.2.2)
    (fun s e s' hs h => ?_) ⟨hw, hfresh⟩ es
  obtain ⟨k1, k2⟩ := O.keeps hs.1 hs.2 h
  exact ⟨fun hn => ⟨⟨O.wf_step _ _ _ hs.1 h, (k1 hn).1⟩, (k1 hn).2⟩, k2⟩

end OneByOne

end Asio

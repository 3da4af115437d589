/-
  Objects with one operation at a time, and the datagrams that they handle.

  `Io.Leaves k` says that a piece of code leaves at most `k` more operations behind, and
  no received datagram.  The handlers of a `Single` object leave at most one; hence what
  is stored when the handler of a received datagram runs is the datagram that has arrived
  last (`Single.inbox`).  `handled` lists what the handlers of a run were called for.
-/
import Ttftp.Lib.Asio

namespace Asio

namespace Io
variable {H A : Type}

/-- A closed socket that waits for nothing. -/
def Mute (io : Io H A) : Prop := io.isOpen = false ∧ io.receives = []

/-- Receives that have failed report no bytes, and waits that are over have expired or been
    cancelled. -/
structure Regular (io : Io H A) : Prop where
  failed : ∀ x ∈ io.received, x.2.1 ≠ .success → x.2.2 = 0
  waited : ∀ e ∈ io.waited, e = .success ∨ e = .operationAborted

theorem Regular.fresh : Regular ({} : Io H A) :=
  ⟨fun _ hx => absurd hx List.not_mem_nil, fun _ he => absurd he List.not_mem_nil⟩

structure Leaves (k : ℕ) (io io' : Io H A) : Prop where
  tokens : io'.tokens ≤ io.tokens + k
  arrivals : io'.arrivals = io.arrivals
  started : io'.started = io.started
  mute : io.Mute → io'.Mute
  regular : io.Regular → io'.Regular

namespace Leaves
variable {k l : ℕ} {io io' io'' : Io H A}

theorem refl (io : Io H A) : Leaves k io io := ⟨Nat.le_add_right _ _, rfl, rfl, id, id⟩

theorem mono (h : Leaves k io io') (hkl : k ≤ l) : Leaves l io io' :=
  ⟨h.tokens.trans (by omega), h.arrivals, h.started, h.mute, h.regular⟩

theorem trans (h : Leaves k io io') (h' : Leaves l io' io'') : Leaves (k + l) io io'' := by
  refine ⟨?_, h'.arrivals.trans h.arrivals, h'.started.trans h.started, fun hm => h'.mute (h.mute hm),
    fun hr => h'.regular (h.regular hr)⟩
  have h1 := h.tokens
  have h2 := h'.tokens
  omega

/-- Code that leaves nothing, before code that leaves something. -/
theorem after (h' : Leaves l io' io'') (h : Leaves 0 io io') : Leaves l io io'' :=
  (h.trans h').mono (Nat.zero_add l).le

section
variable (io) (r : H) (dest : A) (d : Bytes) (n : ℕ)

theorem asyncReceiveFrom : Leaves 1 io (io.asyncReceiveFrom r) := by
  refine ⟨by simp, by simp, by simp, fun ⟨h, hr⟩ => by simp [Io.asyncReceiveFrom, Mute, h, hr], fun hr => ?_⟩
  unfold Io.asyncReceiveFrom
  split_ifs
  · exact ⟨hr.failed, hr.waited⟩
  · refine ⟨fun x hx hne => ?_, hr.waited⟩
    rcases List.mem_append.1 hx with hx | hx
    · exact hr.failed x hx hne
    · rw [List.mem_singleton.1 hx]

theorem asyncSendTo : Leaves 1 io (io.asyncSendTo dest d) := by
  refine ⟨by simp, by simp, by simp, fun ⟨h, hr⟩ => by simp [Io.asyncSendTo, Mute, h, hr], fun hr => ?_⟩
  unfold Io.asyncSendTo
  split_ifs <;> exact ⟨hr.failed, hr.waited⟩

theorem asyncSendDetached : Leaves 0 io (io.asyncSendDetached dest d) := by
  refine ⟨by simp, by simp, by simp, fun ⟨h, hr⟩ => by simp [Io.asyncSendDetached, Mute, h, hr], fun hr => ?_⟩
  unfold Io.asyncSendDetached
  split_ifs <;> exact ⟨hr.failed, hr.waited⟩

theorem wire (w : List (A × Bytes)) : Leaves 0 io { io with wire := w } :=
  ⟨le_rfl, rfl, rfl, id, fun hr => ⟨hr.failed, hr.waited⟩⟩

theorem abortAll : Leaves 0 io io.abortAll := by
  refine ⟨by simp, by simp, by simp, fun h => ⟨h.1, rfl⟩, fun hr => ⟨fun x hx hne => ?_, hr.waited⟩⟩
  rcases List.mem_append.1 hx with hx | hx
  · exact hr.failed x hx hne
  · obtain ⟨h, -, rfl⟩ := List.mem_map.1 hx
    rfl

theorem close : Leaves 0 io io.close := by
  have h := abortAll io
  refine ⟨by simp, by simp, by simp, fun _ => ⟨rfl, rfl⟩, fun hr => ?_⟩
  exact ⟨(h.regular hr).failed, (h.regular hr).waited⟩

theorem timerCancel : Leaves 0 io io.timerCancel := by
  refine ⟨by simp, by simp, by simp, id, fun hr => ⟨hr.failed, fun e he => ?_⟩⟩
  rcases List.mem_append.1 he with he | he
  · exact hr.waited e he
  · exact .inr (List.eq_of_mem_replicate he)

theorem asyncWait : Leaves 0 io (io.expiresFromNow n).asyncWait := by
  refine ⟨by simp, by simp, by simp, id, fun hr => ?_⟩
  have h := (timerCancel io).regular hr
  exact ⟨h.failed, h.waited⟩

end

end Leaves

/-- A ready handler is the only operation. -/
theorem received_eq_singleton {io : Io H A} {i : ℕ} {x : H × ErrorCode × ℕ} (h : io.received[i]? = some x)
    (ht : io.tokens ≤ 1) : io.received = [x] := by
  have hmem := List.mem_of_getElem? h
  have hlen : io.received.length = 1 := by
    have hpos := List.length_pos_of_mem hmem
    rw [tokens] at ht
    omega
  obtain ⟨y, hy⟩ := List.length_eq_one_iff.1 hlen
  rw [hy, List.mem_singleton] at hmem
  rw [hy, hmem]

theorem mem_arrivals {io : Io H A} {r : H} {n : ℕ} :
    (r, .success, n) ∈ io.arrivals ↔ (r, .success, n) ∈ io.received := by
  simp [arrivals]

end Io

/-! ## The datagrams of a run -/

def Event.datagram {A : Type} : Event A → Option (A × Bytes)
  | .deliver src d => some (src, d)
  | _ => none

section
variable {σ A : Type}

/-- The datagrams that have arrived, in order. -/
def datagrams (tr : List (σ × Event A × σ)) : List (A × Bytes) := tr.filterMap fun x => x.2.1.datagram

theorem datagrams_deliver (tr : List (σ × Event A × σ)) (s s' : σ) (src : A) (d : Bytes) :
    (datagrams (tr ++ [(s, .deliver src d, s')])).getLast? = some (src, d) := by
  simp [datagrams, Event.datagram]

theorem datagrams_other (tr : List (σ × Event A × σ)) (s s' : σ) {e : Event A} (h : e.datagram = none) :
    datagrams (tr ++ [(s, e, s')]) = datagrams tr := by
  simp [datagrams, h]

end

/-! ## What handlers are called for -/

/-- What makes an object act: its start, a datagram, a receive without one, and an
    expiration of the timer. -/
inductive Completion (A : Type) where
  | started
  | datagram (src : A) (d : Bytes)
  | failed (e : ErrorCode)
  | expired
  deriving DecidableEq, Repr

/-- The datagram of a completion. -/
def Completion.received? {A : Type} : Completion A → Option (A × Bytes)
  | .datagram src d => some (src, d)
  | _ => none

section
variable {σ H A : Type}

/-- The completion that an event handles; `last` is the datagram that has arrived last.  The
    handlers of sends and of cancelled waits do not count. -/
def completion (P : Proactor σ H A) (last : Option (A × Bytes)) (s : σ) : Event A → Option (Completion A)
  | .start => some .started
  | .runReceive i => (P.io s).received[i]?.bind fun x =>
      if x.2.1 = .success then last.map fun y => .datagram y.1 y.2 else some (.failed x.2.1)
  | .runTimer i => (P.io s).waited[i]?.bind fun e => if e = .operationAborted then none else some .expired
  | _ => none

theorem completion_datagram {P : Proactor σ H A} {last : Option (A × Bytes)} {s : σ} {e : Event A} {src : A}
    {d : Bytes} (h : completion P last s e = some (.datagram src d)) :
    ∃ i r n, e = .runReceive i ∧ (P.io s).received[i]? = some (r, .success, n) ∧ last = some (src, d) := by
  cases e with
  | runReceive i =>
    obtain ⟨⟨r, err, n⟩, hx, h⟩ := Option.bind_eq_some_iff.1 h
    dsimp only at h
    split_ifs at h with he
    · obtain ⟨y, hy, hc⟩ := Option.map_eq_some_iff.1 h
      cases hc
      exact ⟨i, r, n, rfl, by rw [hx, he], hy⟩
    · cases h
  | runTimer i =>
    obtain ⟨err, -, h⟩ := Option.bind_eq_some_iff.1 h
    split_ifs at h
    cases h
  | start => cases h
  | deliver src d => cases h
  | receiveFails e => cases h
  | sendCompletes e => cases h
  | expire => cases h
  | runSend i => cases h

/-- The completions that are handled in a run, each with the state that it finds. -/
def handledFrom (P : Proactor σ H A) : Option (A × Bytes) → List (σ × Event A × σ) → List (σ × Completion A)
  | _, [] => []
  | last, x :: tr => ((completion P last x.1 x.2.1).map fun c => (x.1, c)).toList ++
      handledFrom P (x.2.1.datagram.or last) tr

def handled (P : Proactor σ H A) (tr : List (σ × Event A × σ)) : List (σ × Completion A) :=
  handledFrom P none tr

theorem handled_append (P : Proactor σ H A) (tr : List (σ × Event A × σ)) (s s' : σ) (e : Event A) :
    handled P (tr ++ [(s, e, s')]) = handled P tr ++
      ((completion P (datagrams tr).getLast? s e).map fun c => (s, c)).toList := by
  have key : ∀ (tr : List (σ × Event A × σ)) (last : Option (A × Bytes)),
      handledFrom P last (tr ++ [(s, e, s')]) = handledFrom P last tr ++
        ((completion P ((datagrams tr).getLast?.or last) s e).map fun c => (s, c)).toList := by
    intro tr
    induction tr with
    | nil => intro last; simp [handledFrom, datagrams]
    | cons x tr ih =>
      intro last
      rw [List.cons_append, handledFrom, handledFrom, ih, List.append_assoc]
      congr 4
      cases hx : x.2.1.datagram with
      | none => simp [datagrams, hx]
      | some y =>
        have hd : datagrams (x :: tr) = y :: datagrams tr := by simp [datagrams, hx]
        rw [hd, List.getLast?_cons]
        cases (datagrams tr).getLast? <;> rfl
  rw [handled, handled, key, Option.or_none]

end

/-- The datagrams that are handled in a run, in order. -/
def handledDatagrams {σ H A : Type} (P : Proactor σ H A) (tr : List (σ × Event A × σ)) : List (A × Bytes) :=
  (handled P tr).filterMap fun x => x.2.received?

theorem handledDatagrams_append {σ H A : Type} (P : Proactor σ H A) (tr : List (σ × Event A × σ)) (s s' : σ)
    (e : Event A) : handledDatagrams P (tr ++ [(s, e, s')]) = handledDatagrams P tr ++
      ((completion P (datagrams tr).getLast? s e).bind Completion.received?).toList := by
  rw [handledDatagrams, handled_append, List.filterMap_append, handledDatagrams]
  cases completion P (datagrams tr).getLast? s e with
  | none => rfl
  | some c => cases c <;> rfl

/-! ## Objects with one operation -/

variable {σ H A : Type}

/-- `holds src d n s` says that the first `n` bytes of the datagram `d` from `src` are
    stored. -/
structure Single (P : Proactor σ H A) (holds : A → Bytes → ℕ → σ → Prop) : Prop where
  io_setIo : ∀ s io, P.io (P.setIo io s) = io
  io_store : ∀ s a d, P.io (P.store a d s) = P.io s
  capacity_setIo : ∀ s io, P.capacity (P.setIo io s) = P.capacity s
  start : ∀ s, (P.io s).Leaves 1 (P.io (P.start s))
  receive : ∀ h e n s, (P.io s).Leaves 1 (P.io (P.onReceive h e n s))
  sent : ∀ e n s, (P.io s).Leaves 1 (P.io (P.onSend e n s))
  timer : ∀ e s, (P.io s).Leaves 0 (P.io (P.onTimer e s))
  holds_setIo : ∀ src d n s io, holds src d n s → holds src d n (P.setIo io s)
  holds_timer : ∀ src d n e s, holds src d n s → holds src d n (P.onTimer e s)
  holds_store : ∀ src d s,
    holds src d (min d.length (P.capacity s)) (P.store src (d.take (P.capacity s)) s)

/-- After the transitions `tr` there is at most one operation, and the datagram that waits
    to be handled, if any, is the one that has arrived last. -/
structure Inbox (P : Proactor σ H A) (holds : A → Bytes → ℕ → σ → Prop)
    (tr : List (σ × Event A × σ)) (s : σ) : Prop where
  tokens : (P.io s).tokens ≤ 1
  fresh : (P.io s).started = false → (P.io s).tokens = 0
  arrived : ∀ h n, (h, .success, n) ∈ (P.io s).received →
    ∃ src d, (datagrams tr).getLast? = some (src, d) ∧ holds src d n s

/-- The `i`-th ready handler of a receive gets the datagram `d` from `src`. -/
def Gets (P : Proactor σ H A) (tr : List (σ × Event A × σ)) (s : σ) (i : ℕ) (src : A) (d : Bytes) : Prop :=
  (∃ h n, (P.io s).received[i]? = some (h, .success, n)) ∧ (datagrams tr).getLast? = some (src, d)

/-- The datagram that has arrived and is not yet handled. -/
def waiting (P : Proactor σ H A) (tr : List (σ × Event A × σ)) (s : σ) : List (A × Bytes) :=
  if (P.io s).arrivals = [] then [] else (datagrams tr).getLast?.toList

/-- Each datagram that has arrived is handled once, or still waits. -/
def HandledOnce (P : Proactor σ H A) (tr : List (σ × Event A × σ)) (s : σ) : Prop :=
  datagrams tr = handledDatagrams P tr ++ waiting P tr s

namespace Single
variable {P : Proactor σ H A} {holds : A → Bytes → ℕ → σ → Prop} {tr : List (σ × Event A × σ)}
  {s s' : σ} {e : Event A}

/-- An object that waits for no handler of a datagram. -/
theorem inbox_of_arrivals (ht : (P.io s).tokens ≤ 1) (hf : (P.io s).started = false → (P.io s).tokens = 0)
    (ha : (P.io s).arrivals = []) : Inbox P holds tr s := by
  refine ⟨ht, hf, fun h n hm => ?_⟩
  rw [← Io.mem_arrivals, ha] at hm
  cases hm

/-- The handler of the only operation has run. -/
theorem inbox_of_leaves (io : Io H A) (ht : io.tokens = 0) (hs : io.started = true)
    (h : io.Leaves 1 (P.io s')) : Inbox P holds tr s' := by
  refine inbox_of_arrivals ?_ (fun hn => ?_) (h.arrivals.trans (Io.arrivals_eq_nil ht))
  · have := h.tokens
    omega
  · rw [h.started, hs] at hn
    cases hn

variable (S : Single P holds)
include S

/-- Nothing happens to the receives. -/
theorem inbox_of_io {io : Io H A} (hi : Inbox P holds tr s) (he : e.datagram = none)
    (ht : io.tokens = (P.io s).tokens) (hs : io.started = (P.io s).started)
    (hr : io.received = (P.io s).received) : Inbox P holds (tr ++ [(s, e, s')]) (P.setIo io s) := by
  refine ⟨by rw [S.io_setIo, ht]; exact hi.tokens, fun hn => ?_, fun h n hm => ?_⟩
  · rw [S.io_setIo] at hn ⊢
    rw [ht]
    exact hi.fresh (hs.symm.trans hn)
  · rw [S.io_setIo, hr] at hm
    obtain ⟨src, d, hd, hh⟩ := hi.arrived h n hm
    exact ⟨src, d, by rw [datagrams_other _ _ _ he]; exact hd, S.holds_setIo _ _ _ _ _ hh⟩

theorem inbox_step (hi : Inbox P holds tr s) (h : P.step s e = some s') :
    Inbox P holds (tr ++ [(s, e, s')]) s' := by
  obtain ⟨-, hstep⟩ := Proactor.step_cases h
  have hrun : (P.io s).tokens ≠ 0 → (P.io s).started = true := by
    intro ht
    by_contra hs
    exact ht (hi.fresh (Bool.eq_false_iff.2 hs))
  cases hstep with
  | start hs =>
    have hl := S.start (P.setIo { P.io s with started := true } s)
    rw [S.io_setIo] at hl
    exact inbox_of_leaves { P.io s with started := true } (hi.fresh hs) rfl hl
  | @deliver src d r rs hr =>
    have ht := hi.tokens
    simp only [Io.tokens, hr, List.length_cons] at ht
    have hnil : (P.io s).received = [] := List.length_eq_zero_iff.1 (by omega)
    refine ⟨?_, fun hn => ?_, fun h n hm => ?_⟩
    · rw [S.io_store, S.io_setIo]
      simp only [Io.tokens, List.length_append, List.length_cons, List.length_nil]
      omega
    · rw [S.io_store, S.io_setIo] at hn
      have hs := hrun (by simp only [Io.tokens, hr, List.length_cons]; omega)
      exact absurd (hs.symm.trans hn) (by simp)
    · rw [S.io_store, S.io_setIo, hnil, List.nil_append, List.mem_singleton, Prod.mk.injEq, Prod.mk.injEq] at hm
      obtain ⟨-, -, rfl⟩ := hm
      refine ⟨src, d, datagrams_deliver _ _ _ _ _, ?_⟩
      have hstore := S.holds_store src d (P.setIo { P.io s with
        receives := rs
        received := (P.io s).received ++ [(r, .success, min d.length (P.capacity s))] } s)
      rwa [S.capacity_setIo] at hstore
  | @receiveFails err r rs hr hne =>
    have ht := hi.tokens
    simp only [Io.tokens, hr, List.length_cons] at ht
    refine ⟨?_, fun hn => ?_, fun h n hm => ?_⟩
    · rw [S.io_setIo]
      simp only [Io.tokens, List.length_append, List.length_cons, List.length_nil]
      omega
    · rw [S.io_setIo] at hn
      have hs := hrun (by simp only [Io.tokens, hr, List.length_cons]; omega)
      exact absurd (hs.symm.trans hn) (by simp)
    · rw [S.io_setIo, List.mem_append, List.mem_singleton, Prod.mk.injEq, Prod.mk.injEq] at hm
      obtain ⟨src, d, hd, hh⟩ := hi.arrived h n (hm.resolve_right fun hm => hne hm.2.1.symm)
      exact ⟨src, d, by rw [datagrams_other _ _ _ rfl]; exact hd, S.holds_setIo _ _ _ _ _ hh⟩
  | sendCompletes hn =>
    refine S.inbox_of_io hi rfl ?_ rfl rfl
    simp only [Io.tokens, hn, List.length_append, List.length_cons, List.length_nil]
    omega
  | expire _ => exact S.inbox_of_io hi rfl rfl rfl rfl
  | @runReceive i r err n hx =>
    obtain ⟨h1, h0⟩ := Io.tokens_eraseIdx_received hx hi.tokens
    have hl := S.receive r err n (P.setIo { P.io s with received := (P.io s).received.eraseIdx i } s)
    rw [S.io_setIo] at hl
    exact inbox_of_leaves _ h0 (hrun (by omega)) hl
  | @runSend i err n hx =>
    obtain ⟨h1, h0⟩ := Io.tokens_eraseIdx_sent hx hi.tokens
    have hl := S.sent err n (P.setIo { P.io s with sent := (P.io s).sent.eraseIdx i } s)
    rw [S.io_setIo] at hl
    exact inbox_of_leaves _ h0 (hrun (by omega)) hl
  | @runTimer i err hx =>
    have hl := S.timer err (P.setIo { P.io s with waited := (P.io s).waited.eraseIdx i } s)
    rw [S.io_setIo] at hl
    refine ⟨hl.tokens.trans hi.tokens, fun hn => ?_, fun h n hm => ?_⟩
    · have h0 := hl.tokens
      have h1 : (P.io s).tokens = 0 := hi.fresh (hl.started.symm.trans hn)
      exact Nat.le_zero.1 (h0.trans h1.le)
    · rw [← Io.mem_arrivals, hl.arrivals, Io.mem_arrivals] at hm
      obtain ⟨src, d, hd, hh⟩ := hi.arrived h n hm
      exact ⟨src, d, by rw [datagrams_other _ _ _ rfl]; exact hd,
        S.holds_timer _ _ _ _ _ (S.holds_setIo _ _ _ _ _ hh)⟩

/-- **Every run keeps its inbox**: one operation at a time, and the stored datagram is the
    last one. -/
theorem inbox {I : σ → Prop} {s₀ : σ} (h₀ : (P.io s₀).tokens = 0) {es : List (Event A)} {s : σ}
    (h : (P.lts I).run s₀ es = some s) : Inbox P holds ((P.lts I).trace s₀ es) s := by
  refine Lts.run_inv (L := P.lts I) (fun tr s => Inbox P holds tr s) ?_ (fun _ _ _ _ hi => S.inbox_step hi) h
  exact inbox_of_arrivals (by omega) (fun _ => h₀) (Io.arrivals_eq_nil h₀)

omit S in
/-- A step that neither brings nor handles a datagram. -/
theorem handledOnce_other (h : HandledOnce P tr s) (hd : e.datagram = none)
    (hc : (completion P (datagrams tr).getLast? s e).bind Completion.received? = none)
    (ha : (P.io s').arrivals = (P.io s).arrivals) : HandledOnce P (tr ++ [(s, e, s')]) s' := by
  rw [HandledOnce, waiting, datagrams_other _ _ _ hd, handledDatagrams_append, hc, ha, Option.toList_none,
    List.append_nil]
  exact h

theorem handledOnce_step (hi : Inbox P holds tr s) (ho : HandledOnce P tr s) (h : P.step s e = some s') :
    HandledOnce P (tr ++ [(s, e, s')]) s' := by
  obtain ⟨-, hstep⟩ := Proactor.step_cases h
  cases hstep with
  | start _ =>
    refine handledOnce_other ho rfl rfl ((S.start _).arrivals.trans ?_)
    rw [S.io_setIo]
    rfl
  | @deliver src d r rs hr =>
    have ht := hi.tokens
    simp only [Io.tokens, hr, List.length_cons] at ht
    have hnil : (P.io s).received = [] := List.length_eq_zero_iff.1 (by omega)
    have hbefore : waiting P tr s = [] := if_pos (by rw [Io.arrivals, hnil]; rfl)
    rw [HandledOnce, hbefore, List.append_nil] at ho
    have hafter : ∀ (t : List (σ × Event A × σ)) (y : A × Bytes), (datagrams t).getLast? = some y →
        waiting P t (P.store src (d.take (P.capacity s)) (P.setIo { P.io s with
          receives := rs
          received := (P.io s).received ++ [(r, .success, min d.length (P.capacity s))] } s)) = [y] := by
      intro t y hy
      rw [waiting, S.io_store, S.io_setIo, if_neg (by simp [Io.arrivals]), hy]
      rfl
    rw [HandledOnce, hafter _ _ (datagrams_deliver _ _ _ _ _), handledDatagrams_append]
    change datagrams (tr ++ _) = handledDatagrams P tr ++ [] ++ [(src, d)]
    rw [List.append_nil, ← ho, datagrams, datagrams, List.filterMap_append]
    rfl
  | @receiveFails err r rs hr hne =>
    refine handledOnce_other ho rfl rfl ?_
    rw [S.io_setIo]
    simp [Io.arrivals, hne]
  | sendCompletes _ | expire _ =>
    refine handledOnce_other ho rfl rfl ?_
    rw [S.io_setIo]
    rfl
  | @runReceive i r err n hx =>
    have hone := Io.received_eq_singleton hx hi.tokens
    have hnone : (P.io (P.onReceive r err n
        (P.setIo { P.io s with received := (P.io s).received.eraseIdx i } s))).arrivals = [] := by
      rw [(S.receive _ _ _ _).arrivals, S.io_setIo]
      exact Io.arrivals_eq_nil (Io.tokens_eraseIdx_received hx hi.tokens).2
    by_cases he : err = .success
    · subst he
      have hwaits : waiting P tr s = (datagrams tr).getLast?.toList :=
        if_neg (by rw [Io.arrivals, hone]; simp)
      have hc : (completion P (datagrams tr).getLast? s (.runReceive i)).bind Completion.received? =
          (datagrams tr).getLast? := by
        simp only [completion, hx, Option.bind_some, if_true]
        cases (datagrams tr).getLast? <;> rfl
      rw [HandledOnce, waiting, if_pos hnone, datagrams_other _ _ _ rfl, handledDatagrams_append, hc, List.append_nil,
        ← hwaits]
      exact ho
    · refine handledOnce_other ho rfl ?_ (hnone.trans ?_)
      · simp [completion, hx, he, Completion.received?]
      · rw [Io.arrivals, hone]
        simp [he]
  | @runSend i err n _ =>
    refine handledOnce_other ho rfl rfl ((S.sent _ _ _).arrivals.trans ?_)
    rw [S.io_setIo]
    rfl
  | @runTimer i err hx =>
    refine handledOnce_other ho rfl ?_ ((S.timer _ _).arrivals.trans ?_)
    · simp only [completion, hx, Option.bind_some]
      split_ifs <;> rfl
    · rw [S.io_setIo]
      rfl

/-- **No datagram is handled twice**, and none is lost. -/
theorem handledOnce {I : σ → Prop} {s₀ : σ} (h₀ : (P.io s₀).tokens = 0) {es : List (Event A)} {s : σ}
    (h : (P.lts I).run s₀ es = some s) : HandledOnce P ((P.lts I).trace s₀ es) s := by
  have hinv : Inbox P holds ((P.lts I).trace s₀ es) s ∧ HandledOnce P ((P.lts I).trace s₀ es) s := by
    refine Lts.run_inv (L := P.lts I) (fun tr s => Inbox P holds tr s ∧ HandledOnce P tr s) ⟨?_, ?_⟩ ?_ h
    · exact inbox_of_arrivals (by omega) (fun _ => h₀) (Io.arrivals_eq_nil h₀)
    · rw [HandledOnce, waiting, if_pos (Io.arrivals_eq_nil h₀)]
      rfl
    · exact fun _ _ _ _ hi he => ⟨S.inbox_step hi.1 he, S.handledOnce_step hi.1 hi.2 he⟩
  exact hinv.2

/-- **An idle object stays idle**: without an operation only the timer is left. -/
theorem idle_step (hs : (P.io s).started = true) (ht : (P.io s).tokens = 0) (h : P.step s e = some s') :
    ((P.io s').started = true ∧ (P.io s').tokens = 0) ∧ (e = .expire ∨ ∃ i, e = .runTimer i) := by
  obtain ⟨-, hstep⟩ := Proactor.step_cases h
  obtain ⟨hr, hrd, hn, hnd⟩ := (Io.tokens_eq_zero _).1 ht
  cases hstep with
  | start hf => exact absurd (hs.symm.trans hf) (by simp)
  | deliver hx => rw [hr] at hx; cases hx
  | receiveFails hx _ => rw [hr] at hx; cases hx
  | sendCompletes hx => rw [hn] at hx; cases hx
  | expire _ => exact ⟨⟨by rw [S.io_setIo]; exact hs, by rw [S.io_setIo]; exact ht⟩, .inl rfl⟩
  | runReceive hx => rw [hrd] at hx; cases hx
  | runSend hx => rw [hnd] at hx; cases hx
  | @runTimer i err _ =>
    have hl := S.timer err (P.setIo { P.io s with waited := (P.io s).waited.eraseIdx i } s)
    rw [S.io_setIo] at hl
    exact ⟨⟨hl.started.trans hs, Nat.le_zero.1 (hl.tokens.trans ht.le)⟩, .inr ⟨i, rfl⟩⟩

/-- Only the start starts an object. -/
theorem started_step (h : P.step s e = some s') : e = .start ∨ (P.io s').started = (P.io s).started := by
  obtain ⟨-, hstep⟩ := Proactor.step_cases h
  cases hstep with
  | start _ => exact .inl rfl
  | deliver _ => exact .inr (by rw [S.io_store, S.io_setIo])
  | receiveFails _ _ | sendCompletes _ | expire _ => exact .inr (by rw [S.io_setIo])
  | @runReceive i r err n _ =>
    have hl := S.receive r err n (P.setIo { P.io s with received := (P.io s).received.eraseIdx i } s)
    exact .inr (hl.started.trans (by rw [S.io_setIo]))
  | @runSend i err n _ =>
    have hl := S.sent err n (P.setIo { P.io s with sent := (P.io s).sent.eraseIdx i } s)
    exact .inr (hl.started.trans (by rw [S.io_setIo]))
  | @runTimer i err _ =>
    have hl := S.timer err (P.setIo { P.io s with waited := (P.io s).waited.eraseIdx i } s)
    exact .inr (hl.started.trans (by rw [S.io_setIo]))

/-- **Every step keeps the completions regular.** -/
theorem regular_step (hr : (P.io s).Regular) (h : P.step s e = some s') : (P.io s').Regular := by
  obtain ⟨-, hstep⟩ := Proactor.step_cases h
  cases hstep with
  | start _ =>
    have hl := S.start (P.setIo { P.io s with started := true } s)
    rw [S.io_setIo] at hl
    exact hl.regular ⟨hr.failed, hr.waited⟩
  | @deliver src d r rs _ =>
    rw [S.io_store, S.io_setIo]
    refine ⟨fun x hx hne => ?_, hr.waited⟩
    rcases List.mem_append.1 hx with hx | hx
    · exact hr.failed x hx hne
    · rw [List.mem_singleton.1 hx] at hne
      exact absurd rfl hne
  | receiveFails _ _ =>
    rw [S.io_setIo]
    refine ⟨fun x hx hne => ?_, hr.waited⟩
    rcases List.mem_append.1 hx with hx | hx
    · exact hr.failed x hx hne
    · rw [List.mem_singleton.1 hx]
  | sendCompletes _ =>
    rw [S.io_setIo]
    exact ⟨hr.failed, hr.waited⟩
  | expire _ =>
    rw [S.io_setIo]
    refine ⟨hr.failed, fun e he => ?_⟩
    rcases List.mem_append.1 he with he | he
    · exact hr.waited e he
    · exact .inl (List.eq_of_mem_replicate he)
  | @runReceive i r err n _ =>
    have hl := S.receive r err n (P.setIo { P.io s with received := (P.io s).received.eraseIdx i } s)
    rw [S.io_setIo] at hl
    exact hl.regular ⟨fun x hx => hr.failed x (List.mem_of_mem_eraseIdx hx), hr.waited⟩
  | @runSend i err n _ =>
    have hl := S.sent err n (P.setIo { P.io s with sent := (P.io s).sent.eraseIdx i } s)
    rw [S.io_setIo] at hl
    exact hl.regular ⟨hr.failed, hr.waited⟩
  | @runTimer i err _ =>
    have hl := S.timer err (P.setIo { P.io s with waited := (P.io s).waited.eraseIdx i } s)
    rw [S.io_setIo] at hl
    exact hl.regular ⟨hr.failed, fun e he => hr.waited e (List.mem_of_mem_eraseIdx he)⟩

/-- **A closed object without arrivals** gets no more datagrams. -/
theorem mute_step (hs : (P.io s).started = true) (hm : (P.io s).Mute) (ha : (P.io s).arrivals = [])
    (h : P.step s e = some s') : ((P.io s').Mute ∧ (P.io s').arrivals = []) ∧
      ∀ last src d, completion P last s e ≠ some (.datagram src d) := by
  refine ⟨?_, fun last src d hc => ?_⟩
  · obtain ⟨-, hstep⟩ := Proactor.step_cases h
    cases hstep with
    | start hf => exact absurd (hs.symm.trans hf) (by simp)
    | deliver hx => rw [hm.2] at hx; cases hx
    | receiveFails hx _ => rw [hm.2] at hx; cases hx
    | sendCompletes _ => exact ⟨by rw [S.io_setIo]; exact hm, by rw [S.io_setIo]; exact ha⟩
    | expire _ => exact ⟨by rw [S.io_setIo]; exact hm, by rw [S.io_setIo]; exact ha⟩
    | @runReceive i r err n _ =>
      have hl := S.receive r err n (P.setIo { P.io s with received := (P.io s).received.eraseIdx i } s)
      rw [S.io_setIo] at hl
      refine ⟨hl.mute hm, hl.arrivals.trans ?_⟩
      exact List.sublist_nil.1 (ha ▸ (List.eraseIdx_sublist _ i).filter _)
    | @runSend i err n _ =>
      have hl := S.sent err n (P.setIo { P.io s with sent := (P.io s).sent.eraseIdx i } s)
      rw [S.io_setIo] at hl
      exact ⟨hl.mute hm, hl.arrivals.trans ha⟩
    | @runTimer i err _ =>
      have hl := S.timer err (P.setIo { P.io s with waited := (P.io s).waited.eraseIdx i } s)
      rw [S.io_setIo] at hl
      exact ⟨hl.mute hm, hl.arrivals.trans ha⟩
  · obtain ⟨i, r, n, -, hx, -⟩ := completion_datagram hc
    have := Io.mem_arrivals.2 (List.mem_of_getElem? hx)
    rw [ha] at this
    cases this

end Single

/-- What a handler gets is stored. -/
theorem Inbox.holds_of_gets {P : Proactor σ H A} {holds : A → Bytes → ℕ → σ → Prop}
    {tr : List (σ × Event A × σ)} {s : σ} (hi : Inbox P holds tr s) {i : ℕ} {src : A} {d : Bytes} {h : H}
    {n : ℕ} (hg : Gets P tr s i src d) (hx : (P.io s).received[i]? = some (h, .success, n)) :
    holds src d n s := by
  obtain ⟨src', d', hd, hh⟩ := hi.arrived h n (List.mem_of_getElem? hx)
  rw [hg.2, Option.some.injEq, Prod.mk.injEq] at hd
  obtain ⟨rfl, rfl⟩ := hd
  exact hh

end Asio

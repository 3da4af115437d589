/-
  The retry budget of a receiver on its strand (`retry_budget`).

  Where ready handlers run in the order in which they became ready, no expiration is left in
  the queue when a receiver starts to listen: the timer is set by the handler of the ACK's
  send, and an expiration that is queued then was queued before that send had completed
  (`Punctual`).  Hence the condition of `retry_budget_iff` always holds.
-/
import Ttftp.Lib.Strand
import Ttftp.Proof.RetryBudget

namespace Ttftp

open Bytes Asio

namespace TftpReceiver

/-- The runs of a receiver on a strand. -/
def strand : Lts (Strand TftpReceiver) (Event Endpoint) := Strand.lts proactor Constructed

/-! ## What sets the timer -/

/-- From `s` to `s'`, unless the operation ends or the receiver has no peer, the timer is not
    set and no send completes. -/
def Spares (s s' : TftpReceiver) : Prop :=
  s'.operationEnded = false → s'.isConnected = true → s'.io.waits = s.io.waits ∧ s'.io.sent = s.io.sent

namespace Spares
variable {s s' t : TftpReceiver}

theorem of_ended (h : s'.operationEnded = true) : Spares s s' := fun hr =>
  absurd (hr.symm.trans h) Bool.false_ne_true

theorem of_io (hw : t.io.waits = s.io.waits) (hs : t.io.sent = s.io.sent) (h : Spares t s') : Spares s s' :=
  fun hr hc => ⟨(h hr hc).1.trans hw, (h hr hc).2.trans hs⟩

theorem sendErrorMsg (c : UInt16) (m : Bytes) (e : Endpoint) (h : Spares (s.sendErrorMsg c m e) s') :
    Spares s s' := by
  refine of_io ?_ ?_ h
  all_goals
    unfold TftpReceiver.sendErrorMsg Io.asyncSendDetached
    dsimp only
    split_ifs <;> rfl

theorem sendNextAck (hs : s.WellFormed) (l : Bool) : Spares s (s.sendNextAck l) := by
  cases hc : s.isConnected with
  | false =>
    intro _ hc'
    rw [TftpReceiver.sendNextAck] at hc'
    simp only [hc, Bool.false_eq_true, if_false] at hc'
    exact absurd hc' Bool.false_ne_true
  | true =>
    cases l with
    | false =>
      rw [sendNextAck_false, if_pos hc]
      intro hr _
      have hopen : s.io.isOpen = true := by rw [hs.isOpen, show s.operationEnded = false from hr]; rfl
      dsimp only
      rw [Io.asyncSendTo, if_pos hopen]
      exact ⟨rfl, rfl⟩
    | true =>
      rw [sendNextAck_true s hc]
      split_ifs with hopen
      · exact of_ended (endOperation_ended _ _)
      · refine of_ended ?_
        rw [hs.isOpen, Bool.not_eq_true, Bool.not_eq_false'] at hopen
        exact hopen

theorem acceptBlock (hs : s.WellFormed) (n : ℕ) : Spares s (s.acceptBlock n) := by
  unfold TftpReceiver.acceptBlock
  have hwf := hs.countBlock.writeBlock (s.receivedMsg n).2.mData
  cases hf : s.countBlock.output.fail with
  | true =>
    refine of_ended ((After.sendNextAck _ _).ended ?_)
    rw [writeBlock, if_pos hf]
    exact outputFileError_ended _
  | false =>
    have hio : (s.countBlock.writeBlock (s.receivedMsg n).2.mData).io = s.io := by
      rw [writeBlock, if_neg (by rw [hf]; exact Bool.false_ne_true)]
      exact countBlock_io s
    exact of_io (by rw [hio]) (by rw [hio]) (sendNextAck hwf _)

/-- What is received cancels the timer, and an ACK is sent. -/
theorem checkReceivedBlock (hs : s.WellFormed) (err : ErrorCode) (n : ℕ) :
    Spares { s with io := s.io.timerCancel } (s.checkReceivedBlock err n) := by
  have h : WellFormed { s with io := s.io.timerCancel } := hs.io _ rfl
  unfold TftpReceiver.checkReceivedBlock
  dsimp only
  split
  · exact sendErrorMsg _ _ _ (sendNextAck (h.sendErrorMsg _ _ _) _)
  · exact of_ended (endOperationWith_ended _ _)
  · exact of_ended (endOperationWith_ended _ _)
  · exact sendNextAck h _
  · exact acceptBlock h _
  · exact of_ended (endOperationWith_ended _ _)
  · exact sendNextAck h _
  · exact of_ended (endOperation_ended _ _)

theorem start (hs : s.WellFormed) : Spares s s.start := by
  cases hf : s.output.fail with
  | false =>
    rw [start_good s hf]
    split_ifs with hc
    · exact sendNextAck hs _
    · exact fun _ hc' => absurd hc' hc
  | true =>
    refine of_ended ?_
    unfold TftpReceiver.start
    rw [if_pos hf]
    exact (After.of_course (Course.start_rest _)).ended (outputFileError_ended s)

end Spares

section
variable {s s' : TftpReceiver} {e : Event Endpoint}

theorem startNextReceive_queues (s : TftpReceiver) : s.startNextReceive.io.sends = s.io.sends ∧
    s.startNextReceive.io.sent = s.io.sent ∧
    s.startNextReceive.io.waited = s.io.waited ++ List.replicate s.io.waits .operationAborted := by
  unfold startNextReceive Io.asyncReceiveFrom
  dsimp only
  split_ifs <;> exact ⟨rfl, rfl, rfl⟩

/-- The handler of a send sets the timer, or does nothing. -/
theorem handleACKsent_cases (err : ErrorCode) (n : ℕ) (s : TftpReceiver) :
    s.handleACKsent err n = s.startNextReceive ∨ s.handleACKsent err n = s := by
  unfold handleACKsent
  split_ifs
  · exact .inl rfl
  · exact .inr rfl

/-- The handler of the timer aborts what is outstanding, or does nothing, unless it ends the
    operation. -/
theorem handleReadTimeout_cases (hs : s.WellFormed) (he : s.operationEnded = false) (err : ErrorCode)
    (hr : (s.handleReadTimeout err).operationEnded = false) : s.handleReadTimeout err = s ∨
      s.handleReadTimeout err = { s with io := s.io.abortAll, timeoutcount := s.timeoutcount + 1 } := by
  by_cases ha : err = .operationAborted
  · rw [handleReadTimeout, if_pos ha]
    exact .inl rfl
  · by_cases hl : s.LastExpiry
    · exact absurd (hr.symm.trans (handleReadTimeout_last hs he ha hl)) Bool.false_ne_true
    · exact .inr (handleReadTimeout_retry hs he ha hl)

/-- What a step does to the timer of a receiver that has a peer and goes on: it is off, and
    nothing has been sent; it is set by the handler of a send; or nothing happens to it. -/
inductive Arms (s : TftpReceiver) (e : Event Endpoint) (s' : TftpReceiver) : Prop
  | off : s'.io.waits = 0 → s'.io.sent = [] → Arms s e s'
  | listens {i k : ℕ} : s.isConnected = true → e = .runSend i → i < s.io.sent.length →
      s'.io.sends = [] → s'.io.sent = [] → s'.io.waited = s.io.waited ++ List.replicate k .operationAborted →
      Arms s e s'
  | keeps : s.isConnected = true → s'.io.waits = s.io.waits →
      (s'.io.sends ≠ [] ∨ s'.io.sent ≠ [] → s.io.sends ≠ [] ∨ s.io.sent ≠ []) →
      s'.io.waited = dropAt e.wait? s.io.waited → Arms s e s'

theorem step_arms (hs : s.WellFormed) (ht : s.io.tokens ≤ 1)
    (hfresh : s.io.started = false → s.io.tokens = 0 ∧ s.io.waits = 0)
    (hsends : s.isConnected = true → s.io.waits ≠ 0 → s.io.sent = []) (h : proactor.step s e = some s')
    (hr : s'.operationEnded = false) (hc : s'.isConnected = true) : Arms s e s' := by
  obtain ⟨-, hstep⟩ := Proactor.step_cases h
  cases hstep with
  | start hst =>
    obtain ⟨h0, hw⟩ := hfresh hst
    have hio := Spares.start (s := { s with io := { s.io with started := true } }) (hs.io _ rfl) hr hc
    exact .off (hio.1.trans hw) (hio.2.trans ((Io.tokens_eq_zero _).1 h0).2.2.2)
  | deliver _ | receiveFails _ _ => exact .keeps hc rfl id rfl
  | @sendCompletes err n ns hn =>
    have hsends : s.io.sends = n :: ns := hn
    exact .keeps hc rfl (fun _ => .inl (by rw [hsends]; exact List.cons_ne_nil _ _)) rfl
  | expire hw => exact .off rfl (hsends hc hw)
  | @runReceive i r err n hx =>
    obtain ⟨-, h0⟩ := Io.tokens_eraseIdx_received hx ht
    have hio := Spares.checkReceivedBlock (s := { s with io := { s.io with received := s.io.received.eraseIdx i } })
      (hs.io _ rfl) err n
    rw [← onReceive_eq r] at hio
    obtain ⟨h1, h2⟩ := hio hr hc
    exact .off h1 (h2.trans ((Io.tokens_eq_zero _).1 h0).2.2.2)
  | @runSend i err n hx =>
    have hlt := (List.getElem?_eq_some_iff.1 hx).1
    obtain ⟨-, h0⟩ := Io.tokens_eraseIdx_sent hx ht
    obtain ⟨-, -, h1, h2⟩ := (Io.tokens_eq_zero _).1 h0
    change Arms s _ (handleACKsent err n { s with io := { s.io with sent := s.io.sent.eraseIdx i } })
    change (handleACKsent err n { s with io := { s.io with sent := s.io.sent.eraseIdx i } }).isConnected = true at hc
    rcases handleACKsent_cases err n { s with io := { s.io with sent := s.io.sent.eraseIdx i } } with heq | heq
    all_goals rw [heq] at hc ⊢
    · obtain ⟨g1, g2, g3⟩ := startNextReceive_queues { s with io := { s.io with sent := s.io.sent.eraseIdx i } }
      exact .listens hc rfl hlt (g1.trans h1) (g2.trans h2) g3
    · exact .keeps hc rfl (fun hne => absurd hne (not_or.2 ⟨not_not.2 h1, not_not.2 h2⟩)) rfl
  | @runTimer i err hx =>
    have hrun : s.operationEnded = false := Bool.eq_false_iff.2 fun he =>
      Bool.false_ne_true (hr.symm.trans ((step_after h).2 he))
    rcases handleReadTimeout_cases (s := { s with io := { s.io with waited := s.io.waited.eraseIdx i } })
      (hs.io _ rfl) hrun err hr with heq | heq
    all_goals
      change Arms s _ (handleReadTimeout err { s with io := { s.io with waited := s.io.waited.eraseIdx i } })
      change (handleReadTimeout err { s with io := { s.io with waited := s.io.waited.eraseIdx i } }).isConnected =
        true at hc
      rw [heq] at hc ⊢
    · exact .keeps hc rfl id rfl
    · refine .keeps hc rfl (fun hne => ?_) rfl
      -- what has been aborted was outstanding
      have hsent : { s.io with waited := s.io.waited.eraseIdx i }.abortAll.sent ≠ [] := hne.resolve_left fun hn => hn rfl
      by_contra hno
      rw [not_or, not_not, not_not] at hno
      exact hsent (by simp [Io.abortAll, hno.1, hno.2])

end

/-! ## Punctual receivers -/

/-- A receiver on a strand that has a peer: an expiration that is still queued was there before
    anything that has been sent, so that none is left when the timer is set. -/
structure Punctual (q : Strand TftpReceiver) : Prop where
  timed : q.Timed proactor
  fresh : q.state.io.started = false → q.state.io.waits = 0 ∧ q.state.io.waited = []
  timer : q.state.operationEnded = false → q.state.isConnected = true → q.state.io.waits ≠ 0 →
    ∀ err ∈ q.state.io.waited, err = .operationAborted
  sends : q.state.operationEnded = false → q.state.isConnected = true →
    q.state.io.sends ≠ [] ∨ q.state.io.sent ≠ [] → q.state.io.waits = 0
  older : q.state.operationEnded = false → q.state.isConnected = true →
    ∀ x ∈ q.state.io.waited.zip q.waited, x.1 ≠ .operationAborted → ∀ n ∈ q.sent, x.2 < n

namespace Punctual
variable {q q' : Strand TftpReceiver} {e : Event Endpoint}
  {tr : List (TftpReceiver × Event Endpoint × TftpReceiver)}

/-- The turn of a send's handler comes when no expiration is queued. -/
theorem waited_of_turn (h : Punctual q) (hr : q.state.operationEnded = false)
    (hc : q.state.isConnected = true) {i : ℕ} (hi : i < q.state.io.sent.length)
    (hturn : ∀ n ∈ q.sent[i]?, ∀ m ∈ q.ready, n ≤ m) :
    ∀ err ∈ q.state.io.waited, err = .operationAborted := by
  intro err herr
  by_contra ha
  obtain ⟨j, hj⟩ := List.mem_iff_getElem?.1 herr
  have hlt := (List.getElem?_eq_some_iff.1 hj).1
  have hwaited : q.waited.length = q.state.io.waited.length := h.timed.waited
  have hsent : q.sent.length = q.state.io.sent.length := h.timed.sent
  obtain ⟨n, hn⟩ : ∃ n, q.sent[i]? = some n := ⟨_, List.getElem?_eq_getElem (by omega)⟩
  obtain ⟨m, hm⟩ : ∃ m, q.waited[j]? = some m := ⟨_, List.getElem?_eq_getElem (by omega)⟩
  have hpair : (err, m) ∈ q.state.io.waited.zip q.waited :=
    List.mem_of_getElem? (List.getElem?_zip_eq_some.2 ⟨hj, hm⟩)
  have holder := h.older hr hc _ hpair ha n (List.mem_of_getElem? hn)
  have hle := hturn n hn m (List.mem_append_right _ (List.mem_append_right _ (List.mem_of_getElem? hm)))
  exact absurd holder (Nat.not_lt.2 hle)

/-- Nothing happens before the start. -/
theorem fresh_step (h : Punctual q) (hb : Budgeted tr q.state) {s' : TftpReceiver}
    (hs : proactor.step q.state e = some s') (hst : q.state.io.started = false) : e = .start := by
  have h0 := hb.inbox.fresh hst
  obtain ⟨hr, hrd, hsd, hst'⟩ := (Io.tokens_eq_zero _).1 h0
  obtain ⟨hw, hwd⟩ := h.fresh hst
  have hnone : ∀ {α : Type} {l : List α} {i : ℕ} {x : α}, l = [] → l[i]? ≠ some x := by
    rintro α l i x rfl hx
    cases hx
  obtain ⟨-, hstep⟩ := Proactor.step_cases hs
  cases hstep with
  | start _ => rfl
  | deliver hx => exact absurd (hr.symm.trans hx) (List.cons_ne_nil _ _).symm
  | receiveFails hx _ => exact absurd (hr.symm.trans hx) (List.cons_ne_nil _ _).symm
  | sendCompletes hx => exact absurd (hsd.symm.trans hx) (List.cons_ne_nil _ _).symm
  | expire hx => exact absurd hw hx
  | runReceive hx => exact absurd hx (hnone hrd)
  | runSend hx => exact absurd hx (hnone hst')
  | runTimer hx => exact absurd hx (hnone hwd)

theorem step (h : Punctual q) (hb : Budgeted tr q.state) (hstep : Strand.step proactor q e = some q') :
    Punctual q' := by
  obtain ⟨hturn, hs, heq⟩ := Strand.step_cases hstep
  have htimed := h.timed.step handles hstep
  obtain ⟨hstarted, hended⟩ := step_after hs
  have hrun : q'.state.operationEnded = false → q.state.operationEnded = false := fun hr =>
    Bool.eq_false_iff.2 fun he => Bool.false_ne_true (hr.symm.trans (hended he))
  have harms : q'.state.operationEnded = false → q'.state.isConnected = true → Arms q.state e q'.state := fun hr =>
    step_arms hb.wf hb.inbox.tokens (fun hst => ⟨hb.inbox.fresh hst, (h.fresh hst).1⟩) (fun hc hw => by
      by_contra hne
      exact hw (h.sends (hrun hr) hc (.inr hne))) hs hr
  have hno : q'.state.io.sent = [] → q'.sent = [] := fun hnil =>
    List.length_eq_zero_iff.1 (htimed.sent.trans (by rw [show proactor.io q'.state = q'.state.io from rfl, hnil]; rfl))
  refine ⟨htimed, fun hst => ?_, fun hr hc hw => ?_, fun hr hc hne => ?_, fun hr hc x hx ha n hn => ?_⟩
  · have hst₀ : q.state.io.started = false := Bool.eq_false_iff.2 fun he =>
      Bool.false_ne_true (hst.symm.trans (hstarted (.inr he)))
    exact absurd (hst.symm.trans (hstarted (.inl (h.fresh_step hb hs hst₀)))) Bool.false_ne_true
  · cases harms hr hc with
    | off h1 _ => exact absurd h1 hw
    | listens hc₀ he hi _ _ h3 =>
      subst he
      intro err herr
      rw [h3] at herr
      rcases List.mem_append.1 herr with herr | herr
      · exact h.waited_of_turn (hrun hr) hc₀ hi hturn err herr
      · exact List.eq_of_mem_replicate herr
    | keeps hc₀ h1 _ h3 =>
      rw [h3]
      exact fun err herr => h.timer (hrun hr) hc₀ (by rwa [← h1]) err (dropAt_subset _ _ herr)
  · cases harms hr hc with
    | off h1 _ => exact h1
    | listens _ _ _ h1 h2 _ => exact absurd hne (by simp [h1, h2])
    | keeps hc₀ h1 h2 _ =>
      rw [h1]
      exact h.sends (hrun hr) hc₀ (h2 hne)
  · cases harms hr hc with
    | off _ h2 =>
      rw [hno h2] at hn
      cases hn
    | listens _ _ _ _ h2 _ =>
      rw [hno h2] at hn
      cases hn
    | keeps hc₀ _ _ h3 =>
      have hwaited : q'.waited = queue q.now (dropAt e.wait? q.waited) q'.state.io.waited.length :=
        congrArg Strand.waited heq
      have hsent : q'.sent = queue q.now (dropAt e.send? q.sent) q'.state.io.sent.length := congrArg Strand.sent heq
      rw [hwaited, h3, ← List.append_nil (dropAt e.wait? q.state.io.waited)] at hx
      have hx := (mem_zip_queue h.timed.waited hx).resolve_right fun hx => by cases hx.1
      rw [hsent] at hn
      rcases mem_queue hn with hn | rfl
      · exact h.older (hrun hr) hc₀ x hx ha n (dropAt_subset _ _ hn)
      · exact h.timed.past _ (List.mem_append_right _ (List.mem_append_right _ (List.of_mem_zip hx).2))

theorem init {s₀ : TftpReceiver} (h₀ : Constructed s₀) : Punctual { state := s₀ } := by
  have hio : s₀.io = {} := by
    cases h₀ with
    | unknown => rfl
    | known => rfl
    | data1 =>
      unfold newConnectedData1
      dsimp only
      split_ifs <;> rfl
  refine ⟨⟨?_, ?_, ?_, fun n hn => by cases hn⟩, fun _ => ⟨?_, ?_⟩, fun _ _ _ => ?_, fun _ _ _ => ?_,
    fun _ _ x hx => ?_⟩
  all_goals dsimp only
  · rw [show proactor.io s₀ = s₀.io from rfl, hio]
    rfl
  · rw [show proactor.io s₀ = s₀.io from rfl, hio]
    rfl
  · rw [show proactor.io s₀ = s₀.io from rfl, hio]
    rfl
  · rw [hio]
  · rw [hio]
  · rw [hio]
    exact fun err herr => by cases herr
  · rw [hio]
  · rw [List.zip_nil_right] at hx
    cases hx

theorem run {s₀ : TftpReceiver} (h₀ : Constructed s₀) {es : List (Event Endpoint)}
    (h : strand.run { state := s₀ } es = some q) : Punctual q := by
  have hinv : Punctual q ∧ ∃ tr, Budgeted tr q.state := by
    refine Lts.run_inv (L := strand) (fun _ q => Punctual q ∧ ∃ tr, Budgeted tr q.state) ⟨init h₀, [], .init h₀⟩ ?_ h
    rintro - q e q' ⟨hq, tr, hb⟩ hstep
    exact ⟨hq.step hb hstep, _, hb.step (Strand.step_cases hstep).2.1⟩
  exact hinv.1

end Punctual

/-! ## The farewell -/

/-- Only the timer expires. -/
def OnlyTimerOn (x : Strand TftpReceiver × Event Endpoint × Strand TftpReceiver) : Prop :=
  OnlyTimer (x.1.state, x.2.1, x.2.2.state)

theorem Countdown.onlyTimer_of_runs {s s' : TftpReceiver} {e : Event Endpoint} (hc : s.Countdown)
    (h : lts.step s e = some s') (he : e.runs = true) : OnlyTimer (s, e, s') := by
  have hd : ∀ src d, e ≠ .deliver src d := by
    rintro src d rfl
    cases he
  have hf : ∀ err, e ≠ .receiveFails err := by
    rintro err rfl
    cases he
  cases hc with
  | listening hrun hio hk => exact (listening_step hrun hio hk h hd hf).1.onlyTimer hd hf
  | aborted hrun hio hws => exact (aborted_step hrun hio hws h).1.onlyTimer hd hf
  | @sending m n ws w hrun hm hio hws =>
    cases e with
    | start | deliver | receiveFails | sendCompletes | expire => cases he
    | runReceive i =>
      obtain ⟨r, err, k, hx, -⟩ := step_runReceive h
      rw [hio] at hx
      cases hx
    | runSend i =>
      obtain ⟨err, k, hx, -⟩ := step_runSend h
      rw [hio] at hx
      cases hx
    | runTimer i =>
      obtain ⟨rfl, -, -⟩ := cancelled_step (by rw [hio]; exact hws) h
      refine ⟨hd, hf, fun _ y hy => ?_⟩
      have hy : y ∈ s.io.sent := hy
      rw [hio] at hy
      cases hy
  | sent hrun hm hio hws => exact (sent_step hrun hm hio hws h).1.onlyTimer hd hf
  | ended hg => exact (Countdown.ended (gone_step hg h).1).onlyTimer hd hf

/-- **What a receiver sends that is left alone with its timer**, on its strand. -/
theorem Countdown.sends_strand {q : Strand TftpReceiver} (hq : q.Timed proactor) (hc : q.state.Countdown) :
    strand.Sends OnlyTimerOn (fun t => t.state.io.wire) q q.state.left := by
  refine @Lts.Sends.of_left _ _ _ strand OnlyTimerOn (fun t => t.state.io.wire) q
    (fun q => q.Timed proactor ∧ q.state.Countdown) (fun q => q.state.left) (fun q => q.state.effort) ?_ ?_ ⟨hq, hc⟩
  · rintro q e q' ⟨hq, hc⟩ hstep hA
    obtain ⟨hc', hp⟩ := hc.step (Strand.step_cases hstep).2.1 hA
    exact ⟨⟨hq.step handles hstep, hc'⟩, hp.effort, hp.left⟩
  · -- instead of a handler whose turn it is not, another one can run
    rintro q ⟨hq, hc⟩ hrests
    refine hc.rests fun e s hs hA => ?_
    cases hturn : q.inTurn e with
    | true =>
      obtain ⟨q', hq', rfl⟩ := Strand.step_of_inTurn hturn hs
      exact hrests e q' hq' hA
    | false =>
      obtain ⟨e', s', hruns, hturn', hs'⟩ := Strand.exists_inTurn hq hs hturn
      obtain ⟨q', hq', rfl⟩ := Strand.step_of_inTurn hturn' hs'
      exact hrests e' q' hq' (hc.onlyTimer_of_runs hs' hruns)

/-- **The retry budget of a receiver.**  In every run on a strand, in which ready handlers run
    in the order in which they became ready, the expirations since the last block are counted,
    and the fifth ends the operation; and if only the timer expires from a state in which the
    receiver listens, it sends its ACK once for each expiration that is left, and then an ERROR
    message, on the strand as in any other order of the handlers. -/
theorem retry_budget {s₀ : TftpReceiver} (h₀ : Constructed s₀) {es : List (Event Endpoint)} {q : Strand TftpReceiver}
    (h : strand.run { state := s₀ } es = some q) : RetryBudget s₀ es q.state ∧
      (q.state.Listens → strand.Sends OnlyTimerOn (fun t => t.state.io.wire) q
        (List.replicate (4 - q.state.timeoutcount.toNat) q.state.currentAck ++ [q.state.timeoutError])) := by
  have hq := Punctual.run h₀ h
  have hrun : lts.run s₀ es = some q.state := Strand.run_state h
  have hprompt : q.state.Listens → ∀ err ∈ q.state.io.waited, err = .operationAborted := fun hl =>
    hq.timer hl.running hl.connected hl.timer
  refine ⟨(retry_budget_iff h₀ hrun).2 fun hl _ => hprompt hl, fun hl => ?_⟩
  obtain ⟨hc, hleft⟩ := hl.left (Budgeted.run h₀ hrun) fun _ => hprompt hl
  rw [← hleft]
  exact hc.sends_strand hq.timed

/-- DATA 1 arrives, and the timer expires before it is handled.  The expiration is handled
    before the receiver listens again, and counts. -/
theorem retry_budget_queued_expiration : ∃ es q, strand.run { state := newConnected {} {} ⟨1, 2⟩ 8 2 } es = some q ∧
    q.state.Listens ∧ q.state.lastreceiveddatacount = 1 ∧ q.state.timeoutcount = 1 ∧
    RetryBudget (newConnected {} {} ⟨1, 2⟩ 8 2) es q.state ∧
    strand.Sends OnlyTimerOn (fun t => t.state.io.wire) q
      (List.replicate 3 q.state.currentAck ++ [q.state.timeoutError]) := by
  obtain ⟨es, hes⟩ : ∃ es : List (Event Endpoint), es = [.start, .sendCompletes .success, .runSend 0,
    .deliver ⟨1, 2⟩ [0, 3, 0, 1, 1, 2, 3, 4, 5, 6, 7, 8], .expire, .runReceive 0, .sendCompletes .success, .runTimer 0,
    .runSend 0] := ⟨_, rfl⟩
  obtain ⟨q, hrun, hl, hd, ht⟩ : ∃ q, strand.run { state := newConnected {} {} ⟨1, 2⟩ 8 2 } es = some q ∧
      q.state.Listens ∧ q.state.lastreceiveddatacount = 1 ∧ q.state.timeoutcount = 1 := by
    rw [hes]
    exact ⟨_, rfl, ⟨rfl, rfl, List.cons_ne_nil _ _, Nat.one_ne_zero⟩, rfl, rfl⟩
  obtain ⟨hbudget, hsends⟩ := retry_budget (.known false (fun _ => true) ⟨1, 2⟩ 8 2) hrun
  have hleft := hsends hl
  rw [ht] at hleft
  exact ⟨es, q, hrun, hl, hd, ht, hbudget, hleft⟩

end TftpReceiver

end Ttftp

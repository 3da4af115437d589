/-
  Foreign datagrams do not disturb a receiver (`receiver_undisturbed`).

  `rounds` runs a receiver through a sequence of completions, one while it waits for each,
  and lets it send its ACK in between; the foreign datagrams can be deleted from the
  sequence.
-/
import Mathlib.Data.List.Dedup
import Ttftp.Proof.Foreign
import Ttftp.Proof.Watch

namespace Ttftp

open Bytes Asio

namespace TftpReceiver

theorem Constructed.io_eq {s : TftpReceiver} (h : Constructed s) (ht : s.threw = false) : s.io = {} := by
  cases h with
  | unknown => rfl
  | known => rfl
  | data1 =>
    unfold newConnectedData1
    dsimp only
    split_ifs <;> rfl

/-! ## Rounds -/

/-- The completion comes to be handled; an expiration aborts the receive. -/
def bring : Completion Endpoint → List (Event Endpoint)
  | .started => [.start]
  | .datagram src d => [.deliver src d, .runReceive 0]
  | .failed e => [.receiveFails e, .runReceive 0]
  | .expired => [.expire, .runTimer 0, .runReceive 0]

/-- The ACK is sent; a cancelled wait does nothing. -/
def settle : List (Event Endpoint) := [.runTimer 0, .sendCompletes .success, .runSend 0]

/-- A completion is handled, and what it makes the receiver send is sent. -/
def round (c : Completion Endpoint) (s : TftpReceiver) : TftpReceiver := lts.attempt s (bring c ++ settle)

/-- The receiver is started, and handles a sequence of completions. -/
def rounds (s : TftpReceiver) (cs : List (Completion Endpoint)) : TftpReceiver :=
  (Completion.started :: cs).foldl (fun s c => s.round c) s

/-- The sequence without the foreign datagrams that `s` would handle in it. -/
def deleteForeign (s : TftpReceiver) : List (Completion Endpoint) → List (Completion Endpoint)
  | [] => []
  | c :: cs => (if s.reception.isForeign c then [] else [c]) ++ deleteForeign (s.round c) cs

/-! ### Where a round begins and ends -/

/-- The receiver waits for a datagram, and nothing else is outstanding. -/
structure Waiting (s : TftpReceiver) : Prop where
  wf : s.WellFormed
  running : s.operationEnded = false
  threw : s.threw = false
  io : ∃ h n w, s.io = { started := true, receives := [h], waits := 1, duration := n, wire := w }

/-- The receiver sends an ACK, or waits already; a cancelled wait may be left. -/
structure Settling (s : TftpReceiver) : Prop where
  wf : s.WellFormed
  running : s.operationEnded = false
  threw : s.threw = false
  io : ∃ ws n w, (ws = [] ∨ ws = [ErrorCode.operationAborted]) ∧
    (s.io = { started := true, sends := [4], waited := ws, duration := n, wire := w } ∨
      ∃ h, s.io = { started := true, receives := [h], waits := 1, waited := ws, duration := n, wire := w })

/-- The operation has ended, and nothing is received any more. -/
structure Done (s : TftpReceiver) : Prop where
  wf : s.WellFormed
  ended : s.operationEnded = true
  started : s.io.started = true
  tokens : s.io.tokens ≤ 1
  mute : s.io.Mute
  arrivals : s.io.arrivals = []

section
variable {s : TftpReceiver}

theorem step_eq (h : s.threw = false) (e : Event Endpoint) : lts.step s e = proactor.event s e :=
  if_neg (by change ¬ s.threw = true; rw [h]; exact Bool.false_ne_true)

theorem startNextReceive_io {u : List ErrorCode} {n : ℕ} {w : List (Endpoint × Bytes)}
    (h : s.io = { started := true, waited := u, duration := n, wire := w }) :
    ∃ r n', s.startNextReceive.io =
      { started := true, receives := [r], waits := 1, waited := u, duration := n', wire := w } := by
  refine ⟨if s.isConnected then .checkReceivedBlock else .handleFirstBlockWithoutConnect,
    s.timeoutSeconds.toNat, ?_⟩
  simp [startNextReceive, h, Io.asyncReceiveFrom, Io.asyncWait, Io.expiresFromNow, Io.timerCancel]

/-- A cancelled wait does nothing. -/
theorem Settling.drain (h : s.Settling) : ∃ t : TftpReceiver, t.Settling ∧ Tells s t s.reception [] ∧
    t.io.waited = [] ∧ lts.attempt s settle = lts.attempt t [.sendCompletes .success, .runSend 0] := by
  obtain ⟨ws, n, w, hws, hio⟩ := h.io
  rcases hws with rfl | rfl
  · refine ⟨s, h, .silent rfl rfl, by rcases hio with hio | ⟨r, hio⟩ <;> rw [hio], ?_⟩
    refine Lts.attempt_skip ?_ _
    rw [step_eq h.threw]
    rcases hio with hio | ⟨r, hio⟩ <;> simp [Proactor.event, proactor, hio]
  · refine ⟨{ s with io := { s.io with waited := [] } }, ?_, .silent rfl rfl, rfl, ?_⟩
    · refine ⟨h.wf.io _ rfl, h.running, h.threw, [], n, w, .inl rfl, ?_⟩
      rcases hio with hio | ⟨r, hio⟩
      · exact .inl (by simp [hio])
      · exact .inr ⟨r, by simp [hio]⟩
    · refine Lts.attempt_step ?_ _
      rw [step_eq h.threw]
      rcases hio with hio | ⟨r, hio⟩ <;> simp [Proactor.event, proactor, hio, handleReadTimeout]

theorem Settling.settle (h : s.Settling) :
    (lts.attempt s settle).Waiting ∧ Tells s (lts.attempt s settle) s.reception [] := by
  obtain ⟨t, ht, htells, hwaited, heq⟩ := h.drain
  rw [heq]
  obtain ⟨ws, n, w, -, hio | ⟨r, hio⟩⟩ := ht.io
  · have hws : ws = [] := by rw [hio] at hwaited; exact hwaited
    subst hws
    have h1 : lts.step t (.sendCompletes .success) =
        some { t with io := { t.io with sends := [], sent := [(.success, 4)] } } := by
      rw [step_eq ht.threw]
      simp [Proactor.event, proactor, hio]
    have h2 : lts.step { t with io := { t.io with sends := [], sent := [(.success, 4)] } } (.runSend 0) =
        some (startNextReceive { t with io := { t.io with sends := [], sent := [] } }) := by
      rw [step_eq]
      · simp [Proactor.event, proactor, handleACKsent]
      · exact ht.threw
    rw [Lts.attempt_step h1, Lts.attempt_step h2]
    have hwf := (ht.wf.io { t.io with sends := [], sent := [] } rfl).startNextReceive
    obtain ⟨r, n', hr⟩ := startNextReceive_io (s := { t with io := { t.io with sends := [], sent := [] } })
      (u := []) (n := n) (w := w) (by simp [hio])
    refine ⟨⟨hwf, ht.running, ht.threw, r, n', w, hr⟩, htells.trans (.silent htells.reception ?_)⟩
    exact (congrArg Io.wire hr).trans (congrArg Io.wire hio).symm
  · have hws : ws = [] := by rw [hio] at hwaited; exact hwaited
    subst hws
    have h1 : lts.step t (.sendCompletes .success) = none := by
      rw [step_eq ht.threw]
      simp [Proactor.event, proactor, hio]
    have h2 : lts.step t (.runSend 0) = none := by
      rw [step_eq ht.threw]
      simp [Proactor.event, proactor, hio]
    rw [Lts.attempt_skip h1, Lts.attempt_skip h2]
    exact ⟨⟨ht.wf, ht.running, ht.threw, r, n, w, hio⟩, htells⟩

/-! ### A completion is handled -/

theorem sendNextAck_settling (hs : s.WellFormed) (hrun : s.operationEnded = false) (ht : s.threw = false)
    {ws : List ErrorCode} (hws : ws = [] ∨ ws = [ErrorCode.operationAborted]) {n : ℕ}
    {w : List (Endpoint × Bytes)} (h : s.io = { started := true, waited := ws, duration := n, wire := w }) :
    (s.sendNextAck false).Settling := by
  have hwf := hs.sendNextAck false
  rw [sendNextAck_false] at hwf ⊢
  split_ifs at hwf ⊢
  · refine ⟨hwf, hrun, ht, ws, n,
      w ++ [(s.mSenderEndpoint, AckMessage.encode ⟨s.lastreceiveddatacount⟩)], hws, .inl ?_⟩
    simp [h, Io.asyncSendTo]
  · obtain ⟨r, n', hr⟩ := startNextReceive_io (s := { s with lastsentack := ⟨s.lastreceiveddatacount⟩ }) h
    exact ⟨hwf, hrun, ht, ws, n', w, hws, .inr ⟨r, hr⟩⟩

theorem sendErrorMsg_io {ws : List ErrorCode} {n : ℕ} {w : List (Endpoint × Bytes)}
    (h : s.io = { started := true, waited := ws, duration := n, wire := w }) (c : UInt16) (m : Bytes)
    (e : Endpoint) : ∃ w', (s.sendErrorMsg c m e).io =
      { started := true, waited := ws, duration := n, wire := w' } := by
  refine ⟨w ++ [(e, ErrorMessage.encode ⟨c, m⟩)], ?_⟩
  simp [sendErrorMsg, h, Io.asyncSendDetached]

/-- What ends the operation leaves nothing to receive. -/
theorem done_of_leaves {t : TftpReceiver} {k : ℕ} (hwf : t.WellFormed) (he : t.operationEnded = true)
    (hl : s.io.Leaves k t.io) (hs : s.io.started = true) (ht : s.io.tokens + k ≤ 1) (ha : s.io.arrivals = [])
    (hm : t.io.Mute) : t.Done where
  wf := hwf
  ended := he
  started := hl.started.trans hs
  tokens := hl.tokens.trans ht
  mute := hm
  arrivals := hl.arrivals.trans ha

theorem endOperationWith_mute (h : s.operationEnded = false) (code : TftpUserFacingErrorCode) :
    (s.endOperationWith code).io.Mute := by
  rw [endOperationWith, if_neg (by simp [h])]
  exact ⟨rfl, rfl⟩

theorem fail_done (hs : s.WellFormed) (hrun : s.operationEnded = false) (hst : s.io.started = true)
    (ht : s.io.tokens ≤ 1) (ha : s.io.arrivals = []) (c : UInt16) (m : Bytes) (e : Endpoint)
    (code : TftpUserFacingErrorCode) : ((s.sendErrorMsg c m e).endOperationWith code).Done :=
  done_of_leaves (k := 0) ((hs.sendErrorMsg c m e).endOperationWith code) (endOperationWith_ended _ _)
    ((endOperationWith_leaves _ code).after (sendErrorMsg_leaves s c m e)) hst ht ha
    (endOperationWith_mute (s := s.sendErrorMsg c m e) hrun code)

theorem acceptBlock_settling (hs : s.WellFormed) (hrun : s.operationEnded = false) (ht : s.threw = false)
    {ws : List ErrorCode} (hws : ws = [] ∨ ws = [ErrorCode.operationAborted]) {n : ℕ}
    {w : List (Endpoint × Bytes)} (h : s.io = { started := true, waited := ws, duration := n, wire := w })
    (m : ℕ) : (s.acceptBlock m).Settling ∨ (s.acceptBlock m).Done := by
  have hst : s.io.started = true := by rw [h]
  have htok : s.io.tokens = 0 := by rw [h]; rfl
  have hwf := hs.acceptBlock m
  have hl := acceptBlock_leaves s m
  have hce : s.countBlock.operationEnded = false := (countBlock_operationEnded s).trans hrun
  unfold acceptBlock at hwf hl ⊢
  generalize (s.receivedMsg m).2.mData = p at hwf hl ⊢
  generalize decide (m ≠ s.blocksize + controlBytes) = l at hwf hl ⊢
  have hc : (s.countBlock.writeBlock p).isConnected = true := by simp
  cases hf : s.output.fail with
  | true =>
    have hw : s.countBlock.writeBlock p =
        { s.countBlock.outputFileError with output := s.output.write p } := by simp [writeBlock, hf]
    have hm : (s.countBlock.writeBlock p).io.Mute := by
      rw [hw]
      exact endOperationWith_mute (s := s.countBlock.sendErrorMsg _ _ _) hce _
    have he : (s.countBlock.writeBlock p).operationEnded = true := by
      rw [hw]
      exact outputFileError_ended _
    exact .inr (done_of_leaves hwf ((After.sendNextAck l _).ended he) hl hst (by omega) (Io.arrivals_eq_nil htok)
      ((sendNextAck_leaves _ l).mute hm))
  | false =>
    obtain ⟨t, htd⟩ : ∃ t, t = s.countBlock.writeBlock p := ⟨_, rfl⟩
    have hw : t = { s.countBlock with output := s.output.write p } := by simp [htd, writeBlock, hf]
    have hwft : t.WellFormed := by
      rw [hw]
      exact ⟨hs.countBlock.isOpen, hs.countBlock.databuffer⟩
    have hio : t.io = { started := true, waited := ws, duration := n, wire := w } := by
      rw [hw]
      exact (countBlock_io s).trans h
    have het : t.operationEnded = false := by rw [hw]; exact hce
    rw [← htd] at hc hwf hl ⊢
    cases l with
    | true =>
      have hopen : t.io.isOpen = true := by rw [hwft.isOpen, het]; rfl
      rw [sendNextAck_true t hc, if_pos hopen] at hwf hl ⊢
      refine .inr (done_of_leaves hwf (endOperation_ended _ _) hl hst (by omega) (Io.arrivals_eq_nil htok)
        (endOperationWith_mute ?_ _))
      exact het
    | false =>
      have htt : t.threw = false := by
        rw [hw]
        have : s.countBlock.threw = s.threw := by unfold countBlock; split_ifs <;> rfl
        exact this.trans ht
      exact .inl (sendNextAck_settling hwft het htt hws hio)

/-- The handler of a receive lets the receiver settle, or is its last. -/
theorem receive_settling (hs : s.WellFormed) (hrun : s.operationEnded = false) (ht : s.threw = false) {k : ℕ}
    (hk : k ≤ 1) {n : ℕ} {w : List (Endpoint × Bytes)}
    (h : s.io = { started := true, waits := k, duration := n, wire := w }) (err : ErrorCode) (m : ℕ) :
    (s.checkReceivedBlock err m).Settling ∨ (s.checkReceivedBlock err m).Done := by
  obtain ⟨t, htd⟩ : ∃ t, t = { s with io := s.io.timerCancel } := ⟨_, rfl⟩
  have hwf : t.WellFormed := by rw [htd]; exact hs.io _ rfl
  have hrt : t.operationEnded = false := by rw [htd]; exact hrun
  have htt : t.threw = false := by rw [htd]; exact ht
  obtain ⟨ws, hws, hio⟩ : ∃ ws, (ws = [] ∨ ws = [ErrorCode.operationAborted]) ∧
      t.io = { started := true, waited := ws, duration := n, wire := w } := by
    refine ⟨List.replicate k .operationAborted, ?_, ?_⟩
    · rcases Nat.le_one_iff_eq_zero_or_eq_one.1 hk with rfl | rfl
      · exact .inl rfl
      · exact .inr rfl
    · rw [htd, h]
      rfl
  have hst : t.io.started = true := by rw [hio]
  have htok : t.io.tokens = 0 := by rw [hio]; rfl
  have ha := Io.arrivals_eq_nil htok
  unfold checkReceivedBlock
  dsimp only
  rw [← htd]
  split
  · obtain ⟨w', hw'⟩ := sendErrorMsg_io hio TftpErrorCode.unknownTrId.toUInt16
      (ascii "Remote host is not the partner of the transfer on this port") s.mLastReceivedSenderEndpoint
    exact .inl (sendNextAck_settling (hwf.sendErrorMsg _ _ _) hrt htt hws hw')
  · exact .inr (fail_done hwf hrt hst (by omega) ha _ _ _ _)
  · exact .inr (fail_done hwf hrt hst (by omega) ha _ _ _ _)
  · exact .inl (sendNextAck_settling hwf hrt htt hws hio)
  · exact acceptBlock_settling hwf hrt htt hws hio m
  · exact .inr (fail_done hwf hrt hst (by omega) ha _ _ _ _)
  · exact .inl (sendNextAck_settling hwf hrt htt hws hio)
  · exact .inr (done_of_leaves (hwf.endOperationWith _) (endOperation_ended _ _) (endOperationWith_leaves _ _) hst
      (by omega) ha (endOperationWith_mute hrt _))

/-! ### The end -/

/-- The end of an operation is final. -/
theorem Done.step (h : s.Done) {e : Event Endpoint} {s' : TftpReceiver} (he : lts.step s e = some s') :
    s'.Done ∧ Tells s s' s.reception [] := by
  have hi : Inbox proactor Holds [] s :=
    Single.inbox_of_arrivals h.tokens (fun hn => absurd (h.started.symm.trans hn) (by simp)) h.arrivals
  obtain ⟨⟨hm, ha⟩, hno⟩ := single.mute_step h.started h.mute h.arrivals he
  have htells := refines h.wf hi he
  have hr : Tells s s' s.reception [] := by
    cases hc : completion proactor (datagrams ([] : List (TftpReceiver × Event Endpoint × TftpReceiver))).getLast? s e with
    | none => rw [hc] at htells; exact htells
    | some c =>
      rw [hc] at htells
      have h1 : s.reception.handle s.blocksize c = s.reception :=
        Reception.handle_ended h.ended fun src d hd => hno _ src d (hd ▸ hc)
      have h2 : s.reception.replies s.blocksize c = [] := Reception.replies_ended h.ended
      rw [Option.elim_some, Option.elim_some, h1, h2] at htells
      exact htells
  have hi' := single.inbox_step hi he
  refine ⟨⟨h.wf.step he, (congrArg Reception.ended hr.reception).trans h.ended, ?_, hi'.tokens, hm, ha⟩, hr⟩
  rcases single.started_step he with rfl | hs
  · obtain ⟨-, hstep⟩ := Proactor.step_cases he
    cases hstep with
    | start hn => exact absurd (h.started.symm.trans hn) (by simp)
  · exact hs.trans h.started

theorem Done.attempt (h : s.Done) (es : List (Event Endpoint)) :
    (lts.attempt s es).Done ∧ Tells s (lts.attempt s es) s.reception [] :=
  Lts.attempt_inv (L := lts) (I := fun t => t.Done ∧ Tells s t s.reception [])
    (fun t e t' ht he => by
      obtain ⟨hd, htells⟩ := ht.1.step he
      rw [ht.2.reception] at htells
      exact ⟨hd, ht.2.trans htells⟩)
    ⟨h, .silent rfl rfl⟩ es

/-! ### Rounds -/

/-- A datagram, a failure or an expiration: what a waiting receiver may come to handle. -/
def Comes (c : Completion Endpoint) : Prop := c ≠ .started ∧ c ≠ .failed .success

/-- The replies of a round; the receive that an expiration aborts repeats the ACK. -/
def roundReplies (bs : ℕ) (r : Reception) (c : Completion Endpoint) : List Reply :=
  r.replies bs c ++
    (if c = .expired then (r.handle bs c).replies bs (.failed .operationAborted) else [])

theorem bring_datagram (h : s.Waiting) (src : Endpoint) (d : Bytes) :
    ((lts.attempt s (bring (.datagram src d))).Settling ∨ (lts.attempt s (bring (.datagram src d))).Done) ∧
      Tells s (lts.attempt s (bring (.datagram src d))) (s.reception.handle s.blocksize (.datagram src d))
        (s.reception.replies s.blocksize (.datagram src d)) := by
  obtain ⟨r, n, w, hio⟩ := h.io
  obtain ⟨t, ht, h1, h2⟩ := Proactor.step_deliver (P := proactor) (s := s) src d (fun _ => ⟨rfl, rfl⟩)
    h.threw (show s.io.receives = [r] by rw [hio]) (show s.io.received = [] by rw [hio])
  obtain ⟨u, hu⟩ : ∃ u : TftpReceiver, u = { s.store src (d.take s.databuffer.length) with
    io := { s.io with receives := [], received := [] } } := ⟨_, rfl⟩
  replace h2 : lts.step t (.runReceive 0) = some (u.checkReceivedBlock .success (min d.length s.databuffer.length)) := by
    refine h2.trans ?_
    rw [ht, hu]
    exact congrArg some (onReceive_eq r _ _ _)
  have hwfu : u.WellFormed := by
    rw [hu]
    exact (h.wf.store src d).io _ rfl
  have hh : u.Holds src d (min d.length s.databuffer.length) := by rw [hu]; exact (holds_store src d s).io _
  have hru : u.reception = s.reception := by rw [hu]; rfl
  have hbu : u.blocksize = s.blocksize := by rw [hu]; rfl
  have hwire : u.io.wire = s.io.wire := by rw [hu]
  rw [bring, Lts.attempt_step h1, Lts.attempt_step h2, Lts.attempt_nil]
  constructor
  · have hiou : u.io = { started := true, waits := 1, duration := n, wire := w } := by
      have hio' : u.io = { s.io with receives := [], received := [] } := by rw [hu]
      rw [hio', hio]
    refine receive_settling hwfu ?_ ?_ le_rfl hiou _ _
    · rw [hu]; exact h.running
    · rw [hu]; exact h.threw
  · have htells := datagram_tells hwfu hh
    rw [hru, hbu] at htells
    exact htells.after hwire hbu

/-- A receive that has failed is handled. -/
theorem handle_failed {t : TftpReceiver} {r : ReceiverHandler} {err : ErrorCode} {k n : ℕ} {w : List (Endpoint × Bytes)}
    (hwf : t.WellFormed) (hrun : t.operationEnded = false) (ht : t.threw = false) (hk : k ≤ 1)
    (hio : t.io = { started := true, received := [(r, err, 0)], waits := k, duration := n, wire := w })
    (he : err ≠ .success) :
    ((lts.attempt t [.runReceive 0]).Settling ∨ (lts.attempt t [.runReceive 0]).Done) ∧
      Tells t (lts.attempt t [.runReceive 0]) (t.reception.handle t.blocksize (.failed err))
        (t.reception.replies t.blocksize (.failed err)) := by
  obtain ⟨u, hu⟩ : ∃ u : TftpReceiver, u = { t with
    io := { started := true, waits := k, duration := n, wire := w } } := ⟨_, rfl⟩
  have hstep : lts.step t (.runReceive 0) = some (u.checkReceivedBlock err 0) := by
    rw [step_eq ht]
    simp only [Proactor.event, proactor, hu, hio, List.getElem?_cons_zero, Option.map_some, onReceive_eq,
      List.eraseIdx_cons_zero]
  have hwfu : u.WellFormed := by
    rw [hu]
    exact hwf.io _ (by rw [hio])
  have hru : u.reception = t.reception := by rw [hu]; rfl
  have hbu : u.blocksize = t.blocksize := by rw [hu]
  rw [Lts.attempt_step hstep, Lts.attempt_nil]
  constructor
  · refine receive_settling hwfu ?_ ?_ hk (n := n) (w := w) (by rw [hu]) _ _
    · rw [hu]; exact hrun
    · rw [hu]; exact ht
  · have htells := failed_tells hwfu he 0
    rw [hru, hbu] at htells
    exact htells.after (by rw [hu, hio]) hbu

theorem bring_failed (h : s.Waiting) {err : ErrorCode} (he : err ≠ .success) :
    ((lts.attempt s (bring (.failed err))).Settling ∨ (lts.attempt s (bring (.failed err))).Done) ∧
      Tells s (lts.attempt s (bring (.failed err))) (s.reception.handle s.blocksize (.failed err))
        (s.reception.replies s.blocksize (.failed err)) := by
  obtain ⟨r, n, w, hio⟩ := h.io
  obtain ⟨t, ht⟩ : ∃ t : TftpReceiver, t = { s with
    io := { started := true, received := [(r, err, 0)], waits := 1, duration := n, wire := w } } := ⟨_, rfl⟩
  have hstep : lts.step s (.receiveFails err) = some t := by
    rw [step_eq h.threw, ht]
    simp [Proactor.event, proactor, hio, he]
  have hwf : t.WellFormed := by
    rw [ht]
    exact h.wf.io _ (by rw [hio])
  have hrt : t.reception = s.reception := by rw [ht]; rfl
  have hbt : t.blocksize = s.blocksize := by rw [ht]
  obtain ⟨hstage, htells⟩ := handle_failed hwf (by rw [ht]; exact h.running) (by rw [ht]; exact h.threw) le_rfl
    (by rw [ht]) he
  rw [hrt, hbt] at htells
  rw [bring, Lts.attempt_step hstep]
  exact ⟨hstage, htells.after (by rw [ht, hio]) hbt⟩

/-- The expiration cancels the receive, whose handler repeats the ACK. -/
theorem bring_expired (h : s.Waiting) :
    ((lts.attempt s (bring .expired)).Settling ∨ (lts.attempt s (bring .expired)).Done) ∧
      Tells s (lts.attempt s (bring .expired)) (s.reception.handle s.blocksize .expired)
        (roundReplies s.blocksize s.reception .expired) := by
  obtain ⟨r, n, w, hio⟩ := h.io
  obtain ⟨t, ht⟩ : ∃ t : TftpReceiver, t = { s with
    io := { started := true, receives := [r], waited := [.success], duration := n, wire := w } } := ⟨_, rfl⟩
  have h1 : lts.step s .expire = some t := by
    rw [step_eq h.threw, ht]
    simp [Proactor.event, proactor, hio]
  obtain ⟨u, hu⟩ : ∃ u : TftpReceiver, u = { s with
    io := { started := true, receives := [r], duration := n, wire := w } } := ⟨_, rfl⟩
  have h2 : lts.step t (.runTimer 0) = some (u.handleReadTimeout .success) := by
    rw [step_eq]
    · simp only [Proactor.event, proactor, ht, hu, List.getElem?_cons_zero, Option.map_some,
        List.eraseIdx_cons_zero]
    · rw [ht]
      exact h.threw
  have hwfu : u.WellFormed := by
    rw [hu]
    exact h.wf.io _ (by rw [hio])
  have hru : u.reception = s.reception := by rw [hu]; rfl
  have hbu : u.blocksize = s.blocksize := by rw [hu]
  have hrun : u.operationEnded = false := by rw [hu]; exact h.running
  have htells : Tells s (u.handleReadTimeout .success) (s.reception.handle s.blocksize .expired)
      (s.reception.replies s.blocksize .expired) := by
    have := expired_tells hwfu (e := .success) (by simp)
    rw [hru, hbu] at this
    exact this.after (by rw [hu, hio]) hbu
  rw [bring, Lts.attempt_step h1, Lts.attempt_step h2, roundReplies, if_pos rfl]
  obtain ⟨v, hv⟩ : ∃ v : TftpReceiver, v = { u with
    io := { started := true, received := [(r, .operationAborted, 0)], duration := n, wire := w }
    timeoutcount := s.timeoutcount + 1 } := ⟨_, rfl⟩
  have hcancel : u.io.cancel = some v.io := by rw [hv, hu]; rfl
  have hwfv : v.WellFormed := by rw [hv]; exact ⟨by rw [hrun]; rfl, hwfu.databuffer⟩
  by_cases hle : s.timeoutcount + 1 ≤ retransmissionsUntilTimeout
  · -- the aborted receive is handled
    have hexp : u.handleReadTimeout .success = v := by
      rw [handleReadTimeout, if_neg (by simp), hcancel]
      simp [hv, hu, hle]
    obtain ⟨hstage, hab⟩ := handle_failed (r := r) (n := n) (w := w) hwfv (by rw [hv]; exact hrun)
      (by rw [hv, hu]; exact h.threw) (Nat.zero_le 1) (by rw [hv])
      (by simp : ErrorCode.operationAborted ≠ .success)
    have hbv : v.blocksize = s.blocksize := by rw [hv, hu]
    rw [hexp] at htells ⊢
    rw [htells.reception, hbv] at hab
    refine ⟨hstage, ?_⟩
    have := htells.trans hab
    rwa [Reception.handle, if_pos rfl] at this
  · -- the operation has ended
    have hexp : u.handleReadTimeout .success = (v.sendErrorMsg 4 (ascii "Timeout while waiting for Data Packet " ++
        decimal (v.lastreceiveddatacount.toNat + 1)) v.mSenderEndpoint).endOperation .success := by
      rw [handleReadTimeout, if_neg (by simp), hcancel]
      simp [hv, hu, hle]
    rw [hexp] at htells ⊢
    have hd : ((v.sendErrorMsg 4 (ascii "Timeout while waiting for Data Packet " ++
        decimal (v.lastreceiveddatacount.toNat + 1)) v.mSenderEndpoint).endOperation .success).Done := by
      refine fail_done hwfv ?_ ?_ ?_ ?_ _ _ _ _
      · rw [hv]; exact hrun
      · rw [hv]
      · rw [hv]; exact le_rfl
      · rw [hv]; rfl
    obtain ⟨hd', hquiet⟩ := hd.attempt [.runReceive 0]
    rw [htells.reception] at hquiet
    have hended : (s.reception.handle s.blocksize .expired).ended = true := by
      rw [← htells.reception]
      exact hd.ended
    rw [Reception.replies_ended hended]
    exact ⟨.inr hd', htells.trans hquiet⟩

/-- A round of a waiting receiver. -/
theorem round_spec (h : s.Waiting) {c : Completion Endpoint} (hc : Comes c) :
    ((s.round c).Waiting ∨ (s.round c).Done) ∧
      Tells s (s.round c) (s.reception.handle s.blocksize c) (roundReplies s.blocksize s.reception c) := by
  obtain ⟨hstage, htells⟩ : ((lts.attempt s (bring c)).Settling ∨ (lts.attempt s (bring c)).Done) ∧
      Tells s (lts.attempt s (bring c)) (s.reception.handle s.blocksize c)
        (roundReplies s.blocksize s.reception c) := by
    cases c with
    | started => exact absurd rfl hc.1
    | datagram src d =>
      rw [roundReplies, if_neg (by simp), List.append_nil]
      exact bring_datagram h src d
    | failed e =>
      rw [roundReplies, if_neg (by simp), List.append_nil]
      exact bring_failed h fun he => hc.2 (by rw [he])
    | expired => exact bring_expired h
  rw [round, Lts.attempt_append, ← List.append_nil (roundReplies _ _ _)]
  rcases hstage with hs | hd
  · obtain ⟨hw, hquiet⟩ := hs.settle
    rw [htells.reception] at hquiet
    exact ⟨.inl hw, htells.trans hquiet⟩
  · obtain ⟨hd', hquiet⟩ := hd.attempt TftpReceiver.settle
    rw [htells.reception] at hquiet
    exact ⟨.inr hd', htells.trans hquiet⟩

/-- The first round. -/
theorem start_round (h : Constructed s) (ht : s.threw = false) :
    (s.round .started).Waiting ∨ (s.round .started).Done := by
  obtain ⟨t, htd⟩ : ∃ t : TftpReceiver, t = { s with io := { started := true } } := ⟨_, rfl⟩
  have hio : s.io = {} := h.io_eq ht
  have hrun : s.operationEnded = false := by
    have := h.wellFormed.isOpen
    rw [hio] at this
    simpa using this.symm
  have h1 : lts.step s .start = some t.start := by
    rw [step_eq ht, htd]
    simp [Proactor.event, proactor, hio]
  have hwf : t.WellFormed := by
    rw [htd]
    exact h.wellFormed.io _ (by rw [hio])
  have hrt : t.operationEnded = false := by rw [htd]; exact hrun
  have htt : t.threw = false := by rw [htd]; exact ht
  have hti : t.io = { started := true } := by rw [htd]
  have hstage : t.start.Settling ∨ t.start.Done := by
    have hwfs := hwf.start
    have hl := start_leaves t
    unfold start at hwfs hl ⊢
    dsimp only at hwfs hl ⊢
    by_cases hf : t.output.fail = true
    · rw [if_pos hf] at hwfs hl ⊢
      have hm : t.outputFileError.io.Mute := endOperationWith_mute (s := t.sendErrorMsg _ _ _) hrt _
      have he := outputFileError_ended t
      refine .inr (done_of_leaves hwfs ?_ hl (by rw [hti]) (by rw [hti]; exact le_rfl) (by rw [hti]; rfl) ?_)
      · split_ifs
        · exact (After.sendNextAck _ _).ended he
        · exact he
      · split_ifs
        · exact (sendNextAck_leaves _ _).mute hm
        · exact (startNextReceive_leaves _).mute hm
    · rw [if_neg hf] at hwfs ⊢
      split_ifs at hwfs ⊢
      · exact .inl (sendNextAck_settling hwf hrt htt (.inl rfl) (n := 0) (w := []) hti)
      · obtain ⟨r, n', hr⟩ := startNextReceive_io (s := t) (u := []) (n := 0) (w := []) hti
        exact .inl ⟨hwfs, hrt, htt, [], n', [], .inl rfl, .inr ⟨r, hr⟩⟩
  rw [round, Lts.attempt_append, bring, Lts.attempt_step h1, Lts.attempt_nil]
  rcases hstage with hs | hd
  · exact .inl hs.settle.1
  · exact .inr (hd.attempt TftpReceiver.settle).1

end

/-! ### Rounds without the foreign datagrams -/

/-- Two receivers with the same past, apart from foreign datagrams. -/
structure Parallel (s₀ s t : TftpReceiver) : Prop where
  run : ∃ es, lts.run s₀ es = some s
  run' : ∃ es, lts.run s₀ es = some t
  stage : s.Waiting ∧ t.Waiting ∨ s.Done ∧ t.Done
  blocksize : t.blocksize = s.blocksize
  reception : t.reception = s.reception
  acks : ∀ n, n ∈ ackNrs t.io.wire ↔ n ∈ ackNrs s.io.wire

theorem run_round {s₀ s : TftpReceiver} (h : ∃ es, lts.run s₀ es = some s) (c : Completion Endpoint) :
    ∃ es, lts.run s₀ es = some (s.round c) := by
  obtain ⟨es, hes⟩ := h
  obtain ⟨es', -, hes'⟩ := Lts.run_attempt (L := lts) s (bring c ++ settle)
  exact ⟨es ++ es', by rw [Lts.run_append, hes]; exact hes'⟩

namespace Parallel
variable {s₀ s t : TftpReceiver} {c : Completion Endpoint}

/-- Whether a round was the last can be told from the reception. -/
theorem stage_of_reception (hs : s.Waiting ∨ s.Done) (ht : t.Waiting ∨ t.Done) (h : t.reception = s.reception) :
    s.Waiting ∧ t.Waiting ∨ s.Done ∧ t.Done := by
  have he : t.operationEnded = s.operationEnded := congrArg Reception.ended h
  rcases hs with hs | hs <;> rcases ht with ht | ht
  · exact .inl ⟨hs, ht⟩
  · have := hs.running.symm.trans (he.symm.trans ht.ended)
    cases this
  · have := ht.running.symm.trans (he.trans hs.ended)
    cases this
  · exact .inr ⟨hs, ht⟩

theorem both (h : Parallel s₀ s t) (hc : Comes c) : Parallel s₀ (s.round c) (t.round c) := by
  rcases h.stage with ⟨hs, ht⟩ | ⟨hs, ht⟩
  · obtain ⟨hs1, hs2⟩ := round_spec hs hc
    obtain ⟨ht1, ht2⟩ := round_spec ht hc
    rw [h.reception, h.blocksize] at ht2
    have hr := ht2.reception.trans hs2.reception.symm
    refine ⟨run_round h.run c, run_round h.run' c, stage_of_reception hs1 ht1 hr,
      (ht2.blocksize.trans h.blocksize).trans hs2.blocksize.symm, hr, fun n => ?_⟩
    rw [ht2.acks, hs2.acks, List.mem_append, List.mem_append, h.acks]
  · obtain ⟨hs1, hs2⟩ := hs.attempt (bring c ++ settle)
    obtain ⟨ht1, ht2⟩ := ht.attempt (bring c ++ settle)
    refine ⟨run_round h.run c, run_round h.run' c, .inr ⟨hs1, ht1⟩,
      (ht2.blocksize.trans h.blocksize).trans hs2.blocksize.symm,
      (ht2.reception.trans h.reception).trans hs2.reception.symm, fun n => ?_⟩
    rw [round, round, ht2.acks, hs2.acks, List.mem_append, List.mem_append, h.acks]

theorem foreign (h : Parallel s₀ s t) (h₀ : Constructed s₀) (hf : s.reception.isForeign c = true) :
    Parallel s₀ (s.round c) t := by
  obtain ⟨es, hes⟩ := h.run
  have htr := Tracks.run h₀ hes
  obtain ⟨src, d, hcd, -⟩ := Reception.isForeign_iff.1 hf
  rcases h.stage with ⟨hs, ht⟩ | ⟨hs, ht⟩
  · have hc : Comes c := by rw [hcd]; exact ⟨by simp, by simp⟩
    obtain ⟨hs1, hs2⟩ := round_spec hs hc
    rw [Reception.handle_foreign hf] at hs2
    have hr := h.reception.trans hs2.reception.symm
    refine ⟨run_round h.run c, h.run', stage_of_reception hs1 (.inl ht) hr,
      h.blocksize.trans hs2.blocksize.symm, hr, fun n => ?_⟩
    rw [hs2.acks, List.mem_append, h.acks, roundReplies, if_neg (by rw [hcd]; simp), List.append_nil]
    have hst : s.io.started = true := by
      obtain ⟨r, n', w, hio⟩ := hs.io
      rw [hio]
    exact ⟨.inl, fun hn => hn.elim id (htr.mem_replies_foreign hst hf)⟩
  · obtain ⟨hs1, hs2⟩ := hs.attempt (bring c ++ settle)
    refine ⟨run_round h.run c, h.run', .inr ⟨hs1, ht⟩, h.blocksize.trans hs2.blocksize.symm,
      h.reception.trans hs2.reception.symm, fun n => ?_⟩
    rw [round, hs2.acks, List.mem_append, h.acks]
    exact ⟨.inl, fun hn => hn.elim id fun hn => by cases hn⟩

theorem rounds (h₀ : Constructed s₀) {cs : List (Completion Endpoint)} (hcs : ∀ c ∈ cs, Comes c)
    (h : Parallel s₀ s t) : Parallel s₀ (cs.foldl (fun s c => s.round c) s)
      ((deleteForeign s cs).foldl (fun s c => s.round c) t) := by
  induction cs generalizing s t with
  | nil => exact h
  | cons c cs ih =>
    have hcs' := fun x hx => hcs x (List.mem_cons_of_mem _ hx)
    rw [deleteForeign]
    split_ifs with hf
    · exact ih hcs' (h.foreign h₀ hf)
    · exact ih hcs' (h.both (hcs c List.mem_cons_self))

end Parallel

/-- The same output and the same ACKs, apart from repetitions. -/
def SameResult (s t : TftpReceiver) : Prop :=
  t.output = s.output ∧ (ackNrs t.io.wire).dedup = (ackNrs s.io.wire).dedup

theorem dedup_eq_of_mem {l l' : List ℕ} (h : l.Pairwise (· ≤ ·)) (h' : l'.Pairwise (· ≤ ·))
    (hm : ∀ n, n ∈ l ↔ n ∈ l') : l.dedup = l'.dedup := by
  have hperm : l.dedup.Perm l'.dedup := by
    rw [List.perm_ext_iff_of_nodup (List.nodup_dedup l) (List.nodup_dedup l')]
    exact fun n => by rw [List.mem_dedup, List.mem_dedup, hm]
  exact hperm.eq_of_pairwise (fun a b _ _ hab hba => le_antisymm hab hba) (h.sublist (List.dedup_sublist l))
    (h'.sublist (List.dedup_sublist l'))

theorem sameResult_of_acks {s₀ s t : TftpReceiver} (h₀ : Constructed s₀) (hs : ∃ es, lts.run s₀ es = some s)
    (ht : ∃ es, lts.run s₀ es = some t) (ho : t.output = s.output)
    (hm : ∀ n, n ∈ ackNrs t.io.wire ↔ n ∈ ackNrs s.io.wire) : SameResult s t := by
  obtain ⟨es, hs⟩ := hs
  obtain ⟨es', ht⟩ := ht
  exact ⟨ho, dedup_eq_of_mem (acknowledges h₀ h₀.wire ht).sorted (acknowledges h₀ h₀.wire hs).sorted hm⟩

theorem sameResult_rounds {s₀ : TftpReceiver} (h₀ : Constructed s₀) {cs : List (Completion Endpoint)}
    (hcs : ∀ c ∈ cs, Comes c) :
    SameResult (s₀.rounds cs) (s₀.rounds (deleteForeign (s₀.round .started) cs)) := by
  cases ht : s₀.threw with
  | true =>
    have hskip : ∀ es, lts.attempt s₀ es = s₀ := fun es =>
      Lts.attempt_inv (L := lts) (I := fun t => t = s₀) (fun t e t' he hst => by
        have := (Proactor.step_cases hst).1
        rw [he] at this
        exact absurd (this.symm.trans ht) (by simp)) rfl es
    have hall : ∀ cs : List (Completion Endpoint), cs.foldl (fun s c => s.round c) s₀ = s₀ := by
      intro cs
      induction cs with
      | nil => rfl
      | cons c cs ih => rw [List.foldl_cons, round, hskip, ih]
    rw [TftpReceiver.rounds, TftpReceiver.rounds, hall, hall]
    exact ⟨rfl, rfl⟩
  | false =>
    have hrun := run_round ⟨[], (rfl : lts.run s₀ [] = some s₀)⟩ .started
    have hpar := Parallel.rounds h₀ hcs ⟨hrun, hrun,
      (start_round h₀ ht).imp (fun h => ⟨h, h⟩) (fun h => ⟨h, h⟩), rfl, rfl, fun _ => Iff.rfl⟩
    exact sameResult_of_acks h₀ hpar.run hpar.run' (congrArg Reception.output hpar.reception) hpar.acks

/-- **Foreign datagrams do not disturb a receiver**: none changes anything; runs, and
    sequences of rounds, have the same result without them; and each that comes before the
    end is answered by one error. -/
theorem receiver_undisturbed {s₀ : TftpReceiver} (h₀ : Constructed s₀) :
    (∀ es s i src d s', lts.run s₀ es = some s → s.isConnected = true → s.operationEnded = false →
      Gets proactor (lts.trace s₀ es) s i src d → src ≠ s.mSenderEndpoint →
      lts.step s (.runReceive i) = some s' → Unmoved src s s') ∧
    (∀ es es' s s', lts.run s₀ es = some s → lts.run s₀ es' = some s' →
      (handled proactor (lts.trace s₀ es')).map (·.2) = withoutForeign (handled proactor (lts.trace s₀ es)) →
      SameResult s s') ∧
    (∀ cs, (∀ c ∈ cs, Comes c) →
      SameResult (s₀.rounds cs) (s₀.rounds (deleteForeign (s₀.round .started) cs))) ∧
    (∀ es s, lts.run s₀ es = some s → unknownTrIds s.io.wire =
      (handled proactor (lts.trace s₀ es)).countP fun x => x.1.reception.isForeign x.2 && !x.1.operationEnded) := by
  refine ⟨fun es s i src d s' hs hc he hg hne hstep => (Tracks.run h₀ hs).unmoved hg hc he hne hstep,
    fun es es' s s' hs hs' heq => ?_, fun cs hcs => sameResult_rounds h₀ hcs,
    fun es s hs => (Tracks.run h₀ hs).errors⟩
  have ht := Tracks.run h₀ hs
  have ht' := Tracks.run h₀ hs'
  have hr : s'.reception = s.reception := by rw [ht'.reception, heq, ht.keptReception]
  refine sameResult_of_acks h₀ ⟨es, hs⟩ ⟨es', hs'⟩ (congrArg Reception.output hr) fun n => ?_
  rw [ht'.acks, heq, ht.keptAcks]

/-- A datagram from a third host, before the only block. -/
theorem receiver_undisturbed_one_stranger : ∃ s s',
    lts.run (newConnected {} {} ⟨1, 2⟩ 8 2) [.start, .sendCompletes .success, .runSend 0,
      .deliver ⟨8, 9⟩ [0, 3, 0, 1, 7], .runReceive 0, .sendCompletes .success, .runSend 0,
      .deliver ⟨1, 2⟩ [0, 3, 0, 1, 5], .runReceive 0] = some s ∧
    lts.run (newConnected {} {} ⟨1, 2⟩ 8 2) [.start, .sendCompletes .success, .runSend 0,
      .deliver ⟨1, 2⟩ [0, 3, 0, 1, 5], .runReceive 0] = some s' ∧
    SameResult s s' ∧ unknownTrIds s.io.wire = 1 := by
  obtain ⟨es, hes⟩ : ∃ es : List (Event Endpoint), es = [.start, .sendCompletes .success, .runSend 0,
    .deliver ⟨8, 9⟩ [0, 3, 0, 1, 7], .runReceive 0, .sendCompletes .success, .runSend 0,
    .deliver ⟨1, 2⟩ [0, 3, 0, 1, 5], .runReceive 0] := ⟨_, rfl⟩
  obtain ⟨s, hs⟩ : ∃ s, lts.run (newConnected {} {} ⟨1, 2⟩ 8 2) es = some s := by rw [hes]; exact ⟨_, rfl⟩
  obtain ⟨s', hs'⟩ : ∃ s', lts.run (newConnected {} {} ⟨1, 2⟩ 8 2) [.start, .sendCompletes .success, .runSend 0,
    .deliver ⟨1, 2⟩ [0, 3, 0, 1, 5], .runReceive 0] = some s' := ⟨_, rfl⟩
  obtain ⟨-, hruns, -, herrors⟩ := receiver_undisturbed (.known false (fun _ => true) ⟨1, 2⟩ 8 2)
  refine ⟨s, s', by rw [← hes]; exact hs, hs', hruns es _ s s' hs hs' ?_, ?_⟩
  · rw [hes]
    rfl
  · rw [herrors es s hs, hes]
    rfl

end TftpReceiver

end Ttftp

/-
  A receiver that is left alone with its timer (`Countdown.sends`).

  An expiration aborts the receive, the handler of the aborted receive repeats the ACK, and
  once that is sent the receiver listens again, until the last expiration sends an ERROR
  message.  `left` is what this puts on the wire, and `effort` bounds its steps.  Late
  expirations are handled in the place of those to come (`rush`).
-/
import Mathlib.Data.List.Perm.Basic
import Ttftp.Lib.Countdown
import Ttftp.Proof.FailedStream
import Ttftp.Proof.Rounds

namespace Ttftp

open Bytes Asio

namespace TftpReceiver

/-! ## Only the timer -/

/-- No send has failed before the operation has ended. -/
def SendsSucceed (x : TftpReceiver × Event Endpoint × TftpReceiver) : Prop :=
  x.2.2.operationEnded = false → ∀ y ∈ x.2.2.io.sent, y.1 = .success

instance (x : TftpReceiver × Event Endpoint × TftpReceiver) : Decidable (SendsSucceed x) :=
  inferInstanceAs (Decidable (_ → _))

/-- Nothing arrives, and nothing fails; only the timer expires. -/
structure OnlyTimer (x : TftpReceiver × Event Endpoint × TftpReceiver) : Prop where
  silent : ∀ src d, x.2.1 ≠ .deliver src d
  received : ∀ e, x.2.1 ≠ .receiveFails e
  sent : SendsSucceed x

def currentAck (s : TftpReceiver) : Endpoint × Bytes :=
  (s.mSenderEndpoint, AckMessage.encode ⟨s.lastreceiveddatacount⟩)

/-- The ERROR message that the fifth expiration sends. -/
def timeoutError (s : TftpReceiver) : Endpoint × Bytes :=
  (s.mSenderEndpoint, ErrorMessage.encode ⟨4, ascii "Timeout while waiting for Data Packet " ++
    decimal (s.lastreceiveddatacount.toNat + 1)⟩)

/-- The expirations whose handlers are ready to run. -/
def expiries (ws : List ErrorCode) : ℕ := ws.countP (· ≠ .operationAborted)

theorem expiries_eraseIdx {ws : List ErrorCode} {i : ℕ} {err : ErrorCode} (h : ws[i]? = some err) :
    expiries ws = expiries (ws.eraseIdx i) + if err = .operationAborted then 0 else 1 := by
  obtain ⟨hi, rfl⟩ := List.getElem?_eq_some_iff.1 h
  rw [expiries, ← (List.getElem_cons_eraseIdx_perm hi).countP_eq (· ≠ .operationAborted), List.countP_cons, expiries]
  by_cases ha : ws[i] = .operationAborted <;> simp [ha]

theorem expiries_expire (ws : List ErrorCode) (k : ℕ) :
    expiries (ws ++ List.replicate k .success) = expiries ws + k := by
  rw [expiries, List.countP_append, List.countP_replicate, expiries]
  simp

/-- An expiration that is ready. -/
theorem exists_expiry {ws : List ErrorCode} (h : expiries ws ≠ 0) :
    ∃ (i : ℕ) (err : ErrorCode), ws[i]? = some err ∧ err ≠ .operationAborted := by
  obtain ⟨err, hmem, ha⟩ := List.countP_pos_iff.1 (Nat.pos_of_ne_zero h)
  obtain ⟨i, hi⟩ := List.mem_iff_getElem?.1 hmem
  exact ⟨i, err, hi, by simpa using ha⟩

theorem expiries_eq_zero {ws : List ErrorCode} : expiries ws = 0 ↔ ∀ err ∈ ws, err = .operationAborted := by
  simp [expiries, List.countP_eq_zero]

/-! ## What is left -/

/-- A connected receiver that goes on. -/
structure Running (s : TftpReceiver) : Prop where
  wf : s.WellFormed
  running : s.operationEnded = false
  threw : s.threw = false
  connected : s.isConnected = true
  within : s.timeoutcount.toNat ≤ 4

theorem Running.io {s : TftpReceiver} (h : s.Running) (io : Io ReceiverHandler Endpoint)
    (ho : io.isOpen = s.io.isOpen) : Running { s with io := io } :=
  ⟨h.wf.io io ho, h.running, h.threw, h.connected, h.within⟩

/-- The operation has ended; what was outstanding has been aborted. -/
structure Gone (s : TftpReceiver) : Prop where
  ended : s.operationEnded = true
  connected : s.isConnected = true
  started : s.io.started = true
  isOpen : s.io.isOpen = false
  receives : s.io.receives = []
  sends : s.io.sends = []
  received : ∀ x ∈ s.io.received, x.2.1 = .operationAborted
  sent : ∀ x ∈ s.io.sent, x.1 ≠ .success

/-- Where a receiver is while only its timer expires: it listens, and the timer is set or has
    expired; the receive has been aborted; the ACK is being sent, or has been; or the
    operation has ended.  Expirations are late only if the next is the last. -/
inductive Countdown (s : TftpReceiver) : Prop
  | listening {r : ReceiverHandler} {k n : ℕ} {ws : List ErrorCode} {w : List (Endpoint × Bytes)} : s.Running →
      s.io = { started := true, receives := [r], waits := k, waited := ws, duration := n, wire := w } →
      expiries ws + k = 1 ∨ s.timeoutcount.toNat = 4 ∧ expiries ws + k ≠ 0 → Countdown s
  | aborted {r : ReceiverHandler} {n : ℕ} {ws : List ErrorCode} {w : List (Endpoint × Bytes)} : s.Running →
      s.io = { started := true, received := [(r, .operationAborted, 0)], waited := ws, duration := n, wire := w } →
      expiries ws = 0 → Countdown s
  | sending {m n : ℕ} {ws : List ErrorCode} {w : List (Endpoint × Bytes)} : s.Running → m ≠ 0 →
      s.io = { started := true, sends := [m], waited := ws, duration := n, wire := w } → expiries ws = 0 →
      Countdown s
  | sent {m n : ℕ} {ws : List ErrorCode} {w : List (Endpoint × Bytes)} : s.Running → m ≠ 0 →
      s.io = { started := true, sent := [(.success, m)], waited := ws, duration := n, wire := w } →
      expiries ws = 0 → Countdown s
  | ended : s.Gone → Countdown s

/-- What is left to send; a receive that has been aborted is worth an ACK. -/
def left (s : TftpReceiver) : List (Endpoint × Bytes) :=
  if s.operationEnded then []
  else List.replicate (s.io.received.length + (4 - s.timeoutcount.toNat)) s.currentAck ++ [s.timeoutError]

/-- A bound on the steps that are left. -/
def effort (s : TftpReceiver) : ℕ :=
  2 * s.io.waits + s.io.waited.length +
    if s.operationEnded then 2 * s.io.received.length + s.io.sent.length
    else 5 * (4 - s.timeoutcount.toNat) + 2 + 5 * s.io.received.length + 4 * s.io.sends.length + 3 * s.io.sent.length

/-- From `s` to `s'` at least `k` of the steps are taken, and what is sent was left to send. -/
structure Pays (k : ℕ) (s s' : TftpReceiver) : Prop where
  effort : s'.effort + k ≤ s.effort
  left : ∃ w, s'.io.wire = s.io.wire ++ w ∧ s.left = w ++ s'.left

section
variable {s s' : TftpReceiver} {e : Event Endpoint} {r : ReceiverHandler} {i m k n : ℕ} {err : ErrorCode}
  {ws : List ErrorCode} {w : List (Endpoint × Bytes)}

/-- Nothing is sent. -/
theorem Pays.silent (he : s'.effort + k ≤ s.effort) (hw : s'.io.wire = s.io.wire) (hl : s'.left = s.left) :
    Pays k s s' :=
  ⟨he, [], by rw [hw, List.append_nil], hl.symm⟩

theorem Pays.trans {u : TftpReceiver} (h : Pays k s u) (h' : Pays m u s') : Pays (k + m) s s' := by
  have h1 := h.effort
  have h2 := h'.effort
  obtain ⟨w, hw, hl⟩ := h.left
  obtain ⟨w', hw', hl'⟩ := h'.left
  exact ⟨by omega, w ++ w', by rw [hw', hw, List.append_assoc], by rw [hl, hl', List.append_assoc]⟩

/-- No send has failed before the end. -/
theorem Countdown.onlyTimer (h : s'.Countdown) (hd : ∀ src d, e ≠ .deliver src d)
    (hf : ∀ err, e ≠ .receiveFails err) : OnlyTimer (s, e, s') := by
  refine ⟨hd, hf, fun he y hy => ?_⟩
  dsimp only at he hy
  cases h with
  | listening _ hio | aborted _ hio | sending _ _ hio =>
    rw [hio] at hy
    cases hy
  | sent _ _ hio =>
    rw [hio] at hy
    rw [List.mem_singleton.1 hy]
  | ended hg => exact absurd (he.symm.trans hg.ended) Bool.false_ne_true

/-! ### The handlers -/

theorem step_runReceive (h : lts.step s (.runReceive i) = some s') : ∃ r err m,
    s.io.received[i]? = some (r, err, m) ∧
      s' = checkReceivedBlock err m { s with io := { s.io with received := s.io.received.eraseIdx i } } := by
  obtain ⟨-, hstep⟩ := Proactor.step_cases h
  cases hstep with
  | @runReceive i r err m hx => exact ⟨r, err, m, hx, onReceive_eq r err m _⟩

theorem step_runSend (h : lts.step s (.runSend i) = some s') : ∃ err m, s.io.sent[i]? = some (err, m) ∧
    s' = handleACKsent err m { s with io := { s.io with sent := s.io.sent.eraseIdx i } } := by
  obtain ⟨-, hstep⟩ := Proactor.step_cases h
  cases hstep with
  | @runSend i err m hx => exact ⟨err, m, hx, rfl⟩

theorem step_runTimer (h : lts.step s (.runTimer i) = some s') : ∃ err, s.io.waited[i]? = some err ∧
    s' = handleReadTimeout err { s with io := { s.io with waited := s.io.waited.eraseIdx i } } := by
  obtain ⟨-, hstep⟩ := Proactor.step_cases h
  cases hstep with
  | @runTimer i err hx => exact ⟨err, hx, rfl⟩

theorem lastExpiry_iff (h : s.timeoutcount.toNat ≤ 4) : s.LastExpiry ↔ s.timeoutcount.toNat = 4 := by
  rw [LastExpiry, UInt16.lt_iff_toNat_lt, UInt16.toNat_add, UInt16.toNat_one, Nat.mod_eq_of_lt (by omega)]
  change 4 < s.timeoutcount.toNat + 1 ↔ _
  omega

theorem toNat_timeoutcount_add_one (h : s.timeoutcount.toNat ≤ 4) :
    (s.timeoutcount + 1).toNat = s.timeoutcount.toNat + 1 := by
  rw [UInt16.toNat_add, UInt16.toNat_one, Nat.mod_eq_of_lt (by omega)]

/-- The last expiration says so, and ends the operation. -/
theorem handleReadTimeout_over (hrun : s.Running) (ha : err ≠ .operationAborted) (hl : s.timeoutcount.toNat = 4) :
    s.handleReadTimeout err = { s with
      io := ({ s.io.abortAll with wire := s.io.wire ++ [s.timeoutError] } : Io _ _).close
      timeoutcount := s.timeoutcount + 1
      operationEnded := true
      callbacks := s.callbacks ++ [if err = .success then .noerr else .unspecified] } := by
  have hlast : s.LastExpiry := (lastExpiry_iff hrun.within).2 hl
  have hopen : s.io.isOpen = true := by rw [hrun.wf.isOpen, hrun.running]; rfl
  have hcancel : s.io.cancel = some s.io.abortAll := if_pos hopen
  obtain ⟨u, hu⟩ : ∃ u : TftpReceiver, u = { s with
    io := s.io.abortAll, timeoutcount := s.timeoutcount + 1 } := ⟨_, rfl⟩
  have hexp : s.handleReadTimeout err = (u.sendErrorMsg 4 (ascii "Timeout while waiting for Data Packet " ++
      decimal (u.lastreceiveddatacount.toNat + 1)) u.mSenderEndpoint).endOperation err := by
    rw [handleReadTimeout, if_neg ha, hcancel]
    dsimp only
    rw [if_neg (UInt16.not_le.2 hlast), hu]
  rw [hexp, endOperation, fail_eq (by rw [hu]; exact hopen) (by rw [hu]; exact hrun.running), hu]
  rfl

/-- An aborted receive repeats the ACK. -/
theorem checkReceivedBlock_aborted (hc : s.isConnected = true) (m : ℕ) :
    s.checkReceivedBlock .operationAborted m = { s with
      lastsentack := ⟨s.lastreceiveddatacount⟩
      io := s.io.timerCancel.asyncSendTo s.mSenderEndpoint (AckMessage.encode ⟨s.lastreceiveddatacount⟩) } := by
  rw [checkReceivedBlock, blockBranch, if_neg (by simp), if_pos rfl]
  dsimp only
  rw [sendNextAck_false, if_pos hc]

/-- The handler of a wait is taken. -/
theorem erase_pays (hx : s.io.waited[i]? = some err) :
    Pays 1 s { s with io := { s.io with waited := s.io.waited.eraseIdx i } } := by
  have hlen := List.length_eraseIdx_add_one (List.getElem?_eq_some_iff.1 hx).1
  refine .silent ?_ rfl rfl
  simp only [effort]
  omega

/-- That of a cancelled one does nothing. -/
theorem cancelled_step (hws : expiries s.io.waited = 0) (h : lts.step s (.runTimer i) = some s') :
    s' = { s with io := { s.io with waited := s.io.waited.eraseIdx i } } ∧
      expiries (s.io.waited.eraseIdx i) = 0 ∧ Pays 1 s s' := by
  obtain ⟨err, hx, rfl⟩ := step_runTimer h
  have herase := expiries_eraseIdx hx
  have ha : err = .operationAborted := by
    by_contra ha
    rw [if_neg ha] at herase
    omega
  rw [if_pos ha] at herase
  rw [handleReadTimeout, if_pos ha]
  exact ⟨rfl, by omega, erase_pays hx⟩

/-! ### The steps -/

/-- An expiration aborts the receive. -/
theorem expired_pays (hrun : s.Running)
    (hio : s.io = { started := true, receives := [r], waited := ws, duration := n, wire := w })
    (hws : expiries ws = 0) (hlt : s.timeoutcount.toNat ≠ 4) (ha : err ≠ .operationAborted) :
    (s.handleReadTimeout err).Countdown ∧ Pays 0 s (s.handleReadTimeout err) := by
  have hle := hrun.within
  have hsucc := toNat_timeoutcount_add_one hle
  have habort : s.io.abortAll =
      { started := true, received := [(r, .operationAborted, 0)], waited := ws, duration := n, wire := w } := by
    rw [hio]
    rfl
  rw [handleReadTimeout_retry hrun.wf hrun.running ha (mt (lastExpiry_iff hle).1 hlt), habort]
  constructor
  · refine .aborted ⟨⟨?_, hrun.wf.databuffer⟩, hrun.running, hrun.threw, hrun.connected, ?_⟩ rfl hws
    · rw [hrun.running]
      rfl
    · rw [hsucc]
      omega
  · refine .silent ?_ (by rw [hio]) ?_
    · simp only [effort, hio, hrun.running, hsucc, List.length_nil, List.length_singleton, Bool.false_eq_true, if_false]
      omega
    · have hone : 1 + (4 - (s.timeoutcount + 1).toNat) = 4 - s.timeoutcount.toNat := by omega
      simp only [left, hio, hrun.running, currentAck, timeoutError, List.length_nil, List.length_singleton, hone,
        Nat.zero_add, Bool.false_eq_true, if_false]

/-- The last one ends the operation. -/
theorem over_pays (hrun : s.Running)
    (hio : s.io = { started := true, receives := [r], waits := k, waited := ws, duration := n, wire := w })
    (hl : s.timeoutcount.toNat = 4) (ha : err ≠ .operationAborted) :
    (s.handleReadTimeout err).Countdown ∧ Pays 0 s (s.handleReadTimeout err) := by
  rw [handleReadTimeout_over hrun ha hl]
  constructor
  · refine .ended ⟨rfl, hrun.connected, ?_, rfl, rfl, rfl, ?_, ?_⟩ <;> simp [hio, Io.abortAll, Io.close]
  · refine ⟨?_, [s.timeoutError], rfl, ?_⟩
    · simp [effort, hio, hrun.running, Io.abortAll, Io.close, hl]
    · simp [left, hio, hrun.running, hl]

theorem listening_step (hrun : s.Running)
    (hio : s.io = { started := true, receives := [r], waits := k, waited := ws, duration := n, wire := w })
    (hk : expiries ws + k = 1 ∨ s.timeoutcount.toNat = 4 ∧ expiries ws + k ≠ 0) (h : lts.step s e = some s')
    (hd : ∀ src d, e ≠ .deliver src d) (hf : ∀ err, e ≠ .receiveFails err) : s'.Countdown ∧ Pays 1 s s' := by
  obtain ⟨-, hstep⟩ := Proactor.step_cases h
  cases hstep with
  | start hs => exact absurd hs (by simp [proactor, hio])
  | @deliver src d => exact absurd rfl (hd src d)
  | @receiveFails err => exact absurd rfl (hf err)
  | sendCompletes hn => exact absurd hn (by simp [proactor, hio])
  | runReceive hx => exact absurd hx (by simp [proactor, hio])
  | runSend hx => exact absurd hx (by simp [proactor, hio])
  | expire hw =>
    have hk0 : k ≠ 0 := by
      have hw : s.io.waits ≠ 0 := hw
      rwa [hio] at hw
    constructor
    · have hnew : ({ s.io with waits := 0, waited := s.io.waited ++ List.replicate s.io.waits .success } : Io _ _) =
          { started := true, receives := [r], waited := ws ++ List.replicate k .success, duration := n, wire := w } := by
        rw [hio]
      refine .listening (k := 0) (hrun.io _ rfl) hnew ?_
      rw [expiries_expire]
      exact hk
    · refine .silent ?_ rfl rfl
      simp only [effort, proactor, hio, List.length_append, List.length_replicate]
      omega
  | @runTimer i _ _ =>
    obtain ⟨err, hx, heq⟩ := step_runTimer h
    rw [heq]
    have hpays := erase_pays hx
    have herase : expiries ws = _ := expiries_eraseIdx (by rwa [hio] at hx)
    obtain ⟨u, hu⟩ : ∃ u : TftpReceiver, u = { s with io := { s.io with waited := s.io.waited.eraseIdx i } } :=
      ⟨_, rfl⟩
    have hrunu : u.Running := by
      rw [hu]
      exact hrun.io _ rfl
    have hiou : u.io =
        { started := true, receives := [r], waits := k, waited := ws.eraseIdx i, duration := n, wire := w } := by
      rw [hu, hio]
    have htime : u.timeoutcount = s.timeoutcount := by rw [hu]
    rw [← hu] at hpays ⊢
    by_cases ha : err = .operationAborted
    · -- a cancelled wait does nothing
      rw [if_pos ha] at herase
      rw [handleReadTimeout, if_pos ha]
      exact ⟨.listening hrunu hiou (by rw [htime]; rwa [herase] at hk), hpays⟩
    · rw [if_neg ha] at herase
      by_cases hlast : u.timeoutcount.toNat = 4
      · obtain ⟨hc, hp⟩ := over_pays hrunu hiou hlast ha
        exact ⟨hc, hpays.trans hp⟩
      · -- the timer is not set while its handler is ready
        have hzero : k = 0 ∧ expiries (ws.eraseIdx i) = 0 := by
          rw [htime] at hlast
          omega
        rw [hzero.1] at hiou
        obtain ⟨hc, hp⟩ := expired_pays hrunu hiou hzero.2 hlast ha
        exact ⟨hc, hpays.trans hp⟩

theorem aborted_step (hrun : s.Running)
    (hio : s.io = { started := true, received := [(r, .operationAborted, 0)], waited := ws, duration := n, wire := w })
    (hws : expiries ws = 0) (h : lts.step s e = some s') : s'.Countdown ∧ Pays 1 s s' := by
  obtain ⟨-, hstep⟩ := Proactor.step_cases h
  cases hstep with
  | start hs => exact absurd hs (by simp [proactor, hio])
  | deliver hr => exact absurd hr (by simp [proactor, hio])
  | receiveFails hr _ => exact absurd hr (by simp [proactor, hio])
  | sendCompletes hn => exact absurd hn (by simp [proactor, hio])
  | runSend hx => exact absurd hx (by simp [proactor, hio])
  | expire hw => exact absurd (congrArg Io.waits hio) hw
  | @runReceive i _ _ _ _ =>
    obtain ⟨r', err, m, hx, heq⟩ := step_runReceive h
    rw [hio, List.getElem?_singleton] at hx
    split_ifs at hx with hi
    cases hx
    obtain ⟨u, hu⟩ : ∃ u : TftpReceiver, u = { s with io := { s.io with received := s.io.received.eraseIdx i } } :=
      ⟨_, rfl⟩
    have hiou : u.io = { started := true, waited := ws, duration := n, wire := w } := by
      rw [hu, hio, hi]
      rfl
    have hsend : u.io.timerCancel.asyncSendTo u.mSenderEndpoint (AckMessage.encode ⟨u.lastreceiveddatacount⟩) =
        { started := true, sends := [4], waited := ws, duration := n, wire := w ++ [s.currentAck] } := by
      rw [hiou, hu]
      simp [Io.timerCancel, Io.asyncSendTo, currentAck]
    rw [heq, ← hu, checkReceivedBlock_aborted (by rw [hu]; exact hrun.connected), hsend, hu]
    constructor
    · refine .sending (m := 4) (n := n) (w := w ++ [s.currentAck])
        ⟨⟨?_, hrun.wf.databuffer⟩, hrun.running, hrun.threw, hrun.connected, hrun.within⟩ (by omega) rfl hws
      rw [hrun.running]
      rfl
    · refine ⟨?_, [s.currentAck], by rw [hio], ?_⟩
      · simp only [effort, hio, hrun.running, Bool.false_eq_true, if_false, List.length_cons, List.length_nil]
        omega
      · have hsucc : 1 + (4 - s.timeoutcount.toNat) = (4 - s.timeoutcount.toNat) + 1 := Nat.add_comm _ _
        simp [left, hio, hrun.running, currentAck, timeoutError, hsucc, List.replicate_succ]
  | runTimer _ =>
    obtain ⟨heq, hzero, hp⟩ := cancelled_step (by rw [hio]; exact hws) h
    refine ⟨?_, hp⟩
    rw [hio] at hzero
    rw [heq]
    exact .aborted (r := r) (n := n) (w := w) (hrun.io _ rfl) (by rw [hio]) hzero

theorem sending_step (hrun : s.Running) (hm : m ≠ 0)
    (hio : s.io = { started := true, sends := [m], waited := ws, duration := n, wire := w })
    (hws : expiries ws = 0) (h : lts.step s e = some s') (hA : OnlyTimer (s, e, s')) :
    s'.Countdown ∧ Pays 1 s s' := by
  obtain ⟨-, hstep⟩ := Proactor.step_cases h
  cases hstep with
  | start hs => exact absurd hs (by simp [proactor, hio])
  | deliver hr => exact absurd hr (by simp [proactor, hio])
  | receiveFails hr _ => exact absurd hr (by simp [proactor, hio])
  | runReceive hx => exact absurd hx (by simp [proactor, hio])
  | runSend hx => exact absurd hx (by simp [proactor, hio])
  | expire hw => exact absurd (congrArg Io.waits hio) hw
  | @sendCompletes err m' ms hn =>
    obtain ⟨rfl, rfl⟩ : m = m' ∧ ms = [] := by
      have hn : s.io.sends = m' :: ms := hn
      rw [hio] at hn
      simpa using hn
    have herr : err = .success := hA.sent hrun.running _ (List.mem_append_right _ (List.mem_singleton_self _))
    subst herr
    constructor
    · refine .sent (m := m) (n := n) (w := w) (hrun.io _ rfl) hm ?_ hws
      change ({ s.io with sends := [], sent := s.io.sent ++ [(.success, m)] } : Io _ _) = _
      rw [hio]
      rfl
    · refine .silent ?_ rfl rfl
      simp only [effort, proactor, hio, hrun.running, Bool.false_eq_true, if_false, List.length_append,
        List.length_cons, List.length_nil]
      omega
  | runTimer _ =>
    obtain ⟨heq, hzero, hp⟩ := cancelled_step (by rw [hio]; exact hws) h
    refine ⟨?_, hp⟩
    rw [hio] at hzero
    rw [heq]
    exact .sending (n := n) (w := w) (hrun.io _ rfl) hm (by rw [hio]) hzero

theorem sent_step (hrun : s.Running) (hm : m ≠ 0)
    (hio : s.io = { started := true, sent := [(.success, m)], waited := ws, duration := n, wire := w })
    (hws : expiries ws = 0) (h : lts.step s e = some s') : s'.Countdown ∧ Pays 1 s s' := by
  obtain ⟨-, hstep⟩ := Proactor.step_cases h
  cases hstep with
  | start hs => exact absurd hs (by simp [proactor, hio])
  | deliver hr => exact absurd hr (by simp [proactor, hio])
  | receiveFails hr _ => exact absurd hr (by simp [proactor, hio])
  | runReceive hx => exact absurd hx (by simp [proactor, hio])
  | sendCompletes hn => exact absurd hn (by simp [proactor, hio])
  | expire hw => exact absurd (congrArg Io.waits hio) hw
  | @runSend i _ _ _ =>
    obtain ⟨err, m', hx, heq⟩ := step_runSend h
    rw [hio, List.getElem?_singleton] at hx
    split_ifs at hx with hi
    cases hx
    obtain ⟨u, hu⟩ : ∃ u : TftpReceiver, u = { s with io := { s.io with sent := s.io.sent.eraseIdx i } } := ⟨_, rfl⟩
    have hiou : u.io = { started := true, waited := ws, duration := n, wire := w } := by
      rw [hu, hio, hi]
      rfl
    have hrunu : u.Running := by
      rw [hu]
      exact hrun.io _ rfl
    have htime : u.startNextReceive.timeoutcount = s.timeoutcount := by rw [hu]; rfl
    obtain ⟨r, n', hr⟩ := startNextReceive_io hiou
    have hnext : u.startNextReceive.Running :=
      ⟨hrunu.wf.startNextReceive, hrunu.running, hrunu.threw, hrunu.connected, hrunu.within⟩
    rw [heq, ← hu, handleACKsent, if_pos ⟨rfl, hm⟩]
    refine ⟨.listening hnext hr (.inl (by rw [hws])), .silent ?_ ?_ ?_⟩
    · simp only [effort, hr, hio, hnext.running, htime, hrun.running, List.length_nil, List.length_singleton,
        Bool.false_eq_true, if_false]
      omega
    · rw [hr, hio]
    · rw [left, left, hr, hio, hnext.running, htime, hrun.running, hu]
      rfl
  | runTimer _ =>
    obtain ⟨heq, hzero, hp⟩ := cancelled_step (by rw [hio]; exact hws) h
    refine ⟨?_, hp⟩
    rw [hio] at hzero
    rw [heq]
    exact .sent (n := n) (w := w) (hrun.io _ rfl) hm (by rw [hio]) hzero

/-- Nothing is sent after the end; a late expiration throws. -/
theorem gone_step (hg : s.Gone) (h : lts.step s e = some s') : s'.Gone ∧ Pays 1 s s' := by
  have hwire := (handles.step_silent h hg.isOpen).2
  have hended := (step_after h).2 hg.ended
  obtain ⟨hgone, heffort⟩ : s'.Gone ∧ s'.effort + 1 ≤ s.effort := by
    obtain ⟨-, hstep⟩ := Proactor.step_cases h
    cases hstep with
    | start hs => exact absurd (hs.symm.trans hg.started) Bool.false_ne_true
    | deliver hr => exact absurd (hg.receives.symm.trans hr) (by simp)
    | receiveFails hr _ => exact absurd (hg.receives.symm.trans hr) (by simp)
    | sendCompletes hn => exact absurd (hg.sends.symm.trans hn) (by simp)
    | expire hw =>
      have hw0 : s.io.waits ≠ 0 := hw
      refine ⟨⟨hg.ended, hg.connected, hg.started, hg.isOpen, hg.receives, hg.sends, hg.received, hg.sent⟩, ?_⟩
      simp only [effort, proactor, hg.ended, List.length_append, List.length_replicate, if_true]
      omega
    | @runReceive i _ _ _ _ =>
      obtain ⟨r, err, m, hx, heq⟩ := step_runReceive h
      have ha : err = .operationAborted := hg.received _ (List.mem_of_getElem? hx)
      have hlen := List.length_eraseIdx_add_one (List.getElem?_eq_some_iff.1 hx).1
      obtain ⟨u, hu⟩ : ∃ u : TftpReceiver, u = { s with io := { s.io with received := s.io.received.eraseIdx i } } :=
        ⟨_, rfl⟩
      have hsend : u.io.timerCancel.asyncSendTo u.mSenderEndpoint (AckMessage.encode ⟨u.lastreceiveddatacount⟩) =
          { u.io.timerCancel with sent := u.io.sent ++ [(.badDescriptor, 0)] } := by
        refine if_neg ?_
        rw [hu, Io.timerCancel_isOpen, hg.isOpen]
        exact Bool.false_ne_true
      rw [heq, ← hu, ha, checkReceivedBlock_aborted (by rw [hu]; exact hg.connected), hsend, hu]
      refine ⟨⟨hg.ended, hg.connected, hg.started, hg.isOpen, hg.receives, hg.sends, fun x hx => ?_, fun x hx => ?_⟩,
        ?_⟩
      · exact hg.received x (List.mem_of_mem_eraseIdx hx)
      · rcases List.mem_append.1 hx with hx | hx
        · exact hg.sent x hx
        · rw [List.mem_singleton.1 hx]
          exact ErrorCode.noConfusion
      · simp only [effort, hg.ended, if_true, Io.timerCancel, List.length_append, List.length_replicate,
          List.length_singleton]
        omega
    | runSend _ =>
      obtain ⟨err, m, hx, heq⟩ := step_runSend h
      have hne := hg.sent _ (List.mem_of_getElem? hx)
      have hlen := List.length_eraseIdx_add_one (List.getElem?_eq_some_iff.1 hx).1
      rw [heq, handleACKsent, if_neg fun hs => hne hs.1]
      refine ⟨⟨hg.ended, hg.connected, hg.started, hg.isOpen, hg.receives, hg.sends, hg.received, fun x hx => ?_⟩, ?_⟩
      · exact hg.sent x (List.mem_of_mem_eraseIdx hx)
      · simp only [effort, hg.ended, if_true]
        omega
    | @runTimer i _ _ =>
      obtain ⟨err, hx, heq⟩ := step_runTimer h
      have hpays := (erase_pays hx).effort
      obtain ⟨u, hu⟩ : ∃ u : TftpReceiver, u = { s with io := { s.io with waited := s.io.waited.eraseIdx i } } :=
        ⟨_, rfl⟩
      have hgu : u.Gone := by
        rw [hu]
        exact ⟨hg.ended, hg.connected, hg.started, hg.isOpen, hg.receives, hg.sends, hg.received, hg.sent⟩
      have hcancel : u.io.cancel = none := if_neg (by rw [hgu.isOpen]; exact Bool.false_ne_true)
      rw [← hu] at hpays
      rw [heq, ← hu, handleReadTimeout, hcancel]
      split_ifs
      · exact ⟨hgu, hpays⟩
      · exact ⟨⟨hgu.ended, hgu.connected, hgu.started, hgu.isOpen, hgu.receives, hgu.sends, hgu.received, hgu.sent⟩,
          hpays⟩
  refine ⟨hgone, .silent heffort hwire ?_⟩
  rw [left, left, if_pos hended, if_pos hg.ended]

/-! ### The countdown -/

theorem Countdown.step (hc : s.Countdown) (h : lts.step s e = some s') (hA : OnlyTimer (s, e, s')) :
    s'.Countdown ∧ Pays 1 s s' := by
  cases hc with
  | listening hrun hio hk => exact listening_step hrun hio hk h hA.silent hA.received
  | aborted hrun hio hws => exact aborted_step hrun hio hws h
  | sending hrun hm hio hws => exact sending_step hrun hm hio hws h hA
  | sent hrun hm hio hws => exact sent_step hrun hm hio hws h
  | ended hg => exact (gone_step hg h).imp_left .ended

theorem expire_step (ht : s.threw = false) (hw : s.io.waits ≠ 0) : lts.step s .expire = some { s with
    io := { s.io with waits := 0, waited := s.io.waited ++ List.replicate s.io.waits .success } } :=
  (Proactor.Step.expire (P := proactor) hw).step_eq ht

theorem runTimer_step (ht : s.threw = false) (hx : s.io.waited[i]? = some err) : lts.step s (.runTimer i) =
    some (handleReadTimeout err { s with io := { s.io with waited := s.io.waited.eraseIdx i } }) :=
  (Proactor.Step.runTimer (P := proactor) hx).step_eq ht

theorem runReceive_step (ht : s.threw = false) (hx : s.io.received[i]? = some (r, err, m)) :
    ∃ s', lts.step s (.runReceive i) = some s' :=
  ⟨_, (Proactor.Step.runReceive (P := proactor) hx).step_eq ht⟩

theorem sendCompletes_step {ms : List ℕ} (ht : s.threw = false) (hn : s.io.sends = m :: ms) (err : ErrorCode) :
    lts.step s (.sendCompletes err) = some { s with
      io := { s.io with sends := ms, sent := s.io.sent ++ [(err, if err = .success then m else 0)] } } :=
  (Proactor.Step.sendCompletes (P := proactor) (e := err) hn).step_eq ht

theorem runSend_step (ht : s.threw = false) (hx : s.io.sent[i]? = some (err, m)) :
    ∃ s', lts.step s (.runSend i) = some s' :=
  ⟨_, (Proactor.Step.runSend (P := proactor) hx).step_eq ht⟩

/-- A receiver that has not ended has something left to do. -/
theorem Countdown.rests (hc : s.Countdown) (h : lts.Rests OnlyTimer s) : s.left = [] := by
  have hno : ∀ e s', lts.step s e = some s' → (∀ src d, e ≠ .deliver src d) → (∀ err, e ≠ .receiveFails err) →
      s'.Countdown → False :=
    fun e s' hstep hd hf hc' => h e s' hstep (hc'.onlyTimer hd hf)
  cases hc with
  | @listening r k n ws w hrun hio hk =>
    have hlisten := fun e s' hstep hd hf => hno e s' hstep hd hf (listening_step hrun hio hk hstep hd hf).1
    by_cases hk0 : k = 0
    · obtain ⟨i, err, hx, -⟩ := exists_expiry (show expiries ws ≠ 0 by omega)
      exact (hlisten _ _ (runTimer_step hrun.threw (by rw [hio]; exact hx)) (by simp) (by simp)).elim
    · exact (hlisten _ _ (expire_step hrun.threw (by rw [hio]; exact hk0)) (by simp) (by simp)).elim
  | @aborted r n ws w hrun hio hws =>
    obtain ⟨s', hstep⟩ := runReceive_step (i := 0) hrun.threw (by rw [hio]; rfl)
    exact (hno _ _ hstep (by simp) (by simp) (aborted_step hrun hio hws hstep).1).elim
  | @sending m n ws w hrun hm hio hws =>
    have hstep := sendCompletes_step hrun.threw (congrArg Io.sends hio) .success
    refine (h _ _ hstep ⟨by simp, by simp, fun _ y hy => ?_⟩).elim
    have hy : y ∈ s.io.sent ++ [(ErrorCode.success, m)] := hy
    rw [hio] at hy
    rw [List.mem_singleton.1 hy]
  | @sent m n ws w hrun hm hio hws =>
    obtain ⟨s', hstep⟩ := runSend_step (i := 0) hrun.threw (by rw [hio]; rfl)
    exact (hno _ _ hstep (by simp) (by simp) (sent_step hrun hm hio hws hstep).1).elim
  | ended hg => rw [left, if_pos hg.ended]

/-- **What a receiver sends that is left alone with its timer.** -/
theorem Countdown.sends (h : s.Countdown) : lts.Sends OnlyTimer (fun t => t.io.wire) s s.left :=
  .of_left (I := Countdown) (fun _ _ _ hc hstep hA => by
    obtain ⟨hc', hp⟩ := hc.step hstep hA
    exact ⟨hc', hp.effort, hp.left⟩) (fun _ hc hr => hc.rests hr) h

/-! ### Late expirations -/

/-- A late expiration is counted, and aborts nothing but the receive. -/
theorem rush_step {rs : List ReceiverHandler} {xs : List (ReceiverHandler × ErrorCode × ℕ)} (hrun : s.Running)
    (hio : s.io = { started := true, receives := rs, received := xs, waited := ws, duration := n, wire := w })
    (hone : rs = [r] ∧ xs = [] ∨ rs = [] ∧ xs = [(r, .operationAborted, 0)])
    (hx : ws[i]? = some err) (ha : err ≠ .operationAborted) (hl : s.timeoutcount.toNat ≠ 4) :
    ∃ v : TftpReceiver, lts.step s (.runTimer i) = some v ∧ v.Running ∧
      v.io =
        { started := true, received := [(r, .operationAborted, 0)], waited := ws.eraseIdx i, duration := n, wire := w } ∧
      v.timeoutcount.toNat = s.timeoutcount.toNat + 1 ∧ v.currentAck = s.currentAck ∧
      v.timeoutError = s.timeoutError := by
  have hstep := runTimer_step hrun.threw (show s.io.waited[i]? = some err by rw [hio]; exact hx)
  have hsucc := toNat_timeoutcount_add_one hrun.within
  have hle := hrun.within
  have herase : ({ s.io with waited := s.io.waited.eraseIdx i } : Io _ _).isOpen = s.io.isOpen := rfl
  have habort : ({ s.io with waited := s.io.waited.eraseIdx i } : Io _ _).abortAll =
      { started := true, received := [(r, .operationAborted, 0)], waited := ws.eraseIdx i, duration := n, wire := w } := by
    rw [hio]
    rcases hone with ⟨rfl, rfl⟩ | ⟨rfl, rfl⟩ <;> rfl
  rw [handleReadTimeout_retry (hrun.io _ herase).wf hrun.running ha (mt (lastExpiry_iff hrun.within).1 hl)] at hstep
  refine ⟨_, hstep, ⟨⟨?_, hrun.wf.databuffer⟩, hrun.running, hrun.threw, hrun.connected, ?_⟩, habort, hsucc, rfl, rfl⟩
  · rw [habort, hrun.running]
    rfl
  · rw [hsucc]
    omega

/-- If all expirations are handled before an aborted receive is, they repeat the ACK only once. -/
theorem rush {j : ℕ} (hrun : s.Running) {rs : List ReceiverHandler} {xs : List (ReceiverHandler × ErrorCode × ℕ)}
    (hio : s.io = { started := true, receives := rs, received := xs, waited := ws, duration := n, wire := w })
    (hone : rs = [r] ∧ xs = [] ∧ expiries ws ≠ 0 ∨ rs = [] ∧ xs = [(r, .operationAborted, 0)])
    (hj : expiries ws = j) : ∃ es t, lts.RunIn OnlyTimer s es t ∧ t.io.wire = s.io.wire ++
      (List.replicate (5 - (s.timeoutcount.toNat + j)) s.currentAck ++ [s.timeoutError]) := by
  induction j generalizing s rs xs ws with
  | zero =>
    obtain ⟨rfl, rfl⟩ := hone.resolve_left fun h => h.2.2 hj
    obtain ⟨es, t, hr, hw⟩ := (Countdown.aborted hrun hio hj).sends.exists_whole
    refine ⟨es, t, hr, hw.trans ?_⟩
    have hle := hrun.within
    have hnr : [(r, ErrorCode.operationAborted, 0)].length + (4 - s.timeoutcount.toNat) =
        5 - (s.timeoutcount.toNat + 0) := by
      rw [List.length_singleton]
      omega
    rw [left, if_neg (by rw [hrun.running]; exact Bool.false_ne_true), hio, hnr]
  | succ j ih =>
    obtain ⟨i, err, hx, ha⟩ := exists_expiry (show expiries ws ≠ 0 by omega)
    have herase := expiries_eraseIdx hx
    rw [if_neg ha] at herase
    by_cases hl : s.timeoutcount.toNat = 4
    · have hstep := runTimer_step hrun.threw (show s.io.waited[i]? = some err by rw [hio]; exact hx)
      have hrunu := hrun.io { s.io with waited := s.io.waited.eraseIdx i } rfl
      rw [handleReadTimeout_over hrunu ha hl] at hstep
      refine ⟨_, _, .single hstep ⟨by simp, by simp, fun he => by cases he⟩, ?_⟩
      have hnr : 5 - (s.timeoutcount.toNat + (j + 1)) = 0 := by omega
      rw [hnr]
      rfl
    · have hone' : rs = [r] ∧ xs = [] ∨ rs = [] ∧ xs = [(r, .operationAborted, 0)] :=
        hone.imp_left fun h => ⟨h.1, h.2.1⟩
      obtain ⟨v, hstep, hrunv, hiov, htime, hack, herr⟩ := rush_step hrun hio hone' hx ha hl
      obtain ⟨es, t, hr, hw⟩ := ih hrunv hiov (.inr ⟨rfl, rfl⟩) (by omega)
      refine ⟨_, t, .cons hstep ⟨by simp, by simp, fun _ y hy => ?_⟩ hr, ?_⟩
      · have hy : y ∈ v.io.sent := hy
        rw [hiov] at hy
        cases hy
      · rw [hw, hiov, hio, htime, hack, herr, Nat.add_assoc, Nat.add_comm 1 j]

end

end TftpReceiver

end Ttftp

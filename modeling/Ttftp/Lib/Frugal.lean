/-
  Objects that send no more than they are paid for.

  `Io.Spends` bounds the cost of what is put on the wire.  A `Frugal` object pays for the
  messages it sends with the price of the message it has received; an aborted receive
  is worth one, which the expiration that aborted it has paid.  `Frugal.step` is the
  balance of one event.
-/
import Mathlib.Algebra.Order.BigOperators.Group.List
import Mathlib.Algebra.Order.Ring.Nat
import Ttftp.Lib.Asio

namespace Asio

namespace Io
variable {H A : Type}

def spent (cost : Bytes → ℕ) (w : List (A × Bytes)) : ℕ := (w.map fun x => cost x.2).sum

/-- Messages that cost at most `b` are put on the wire, none of them on that of a closed
    socket, and no receive completes. -/
structure Spends (cost : Bytes → ℕ) (b : ℕ) (io io' : Io H A) : Prop where
  wire : ∃ w, io'.wire = io.wire ++ w ∧ spent cost w ≤ b ∧ (io.isOpen = false → w = [])
  closed : io.isOpen = false → io'.isOpen = false
  received : io'.isOpen = true → io'.received = io.received

namespace Spends
variable {cost : Bytes → ℕ} {b c : ℕ} {io io' io'' : Io H A}

theorem of_eq (hw : io'.wire = io.wire) (ho : io'.isOpen = io.isOpen) (hr : io'.received = io.received) :
    Spends cost b io io' :=
  ⟨⟨[], by rw [hw, List.append_nil], Nat.zero_le _, fun _ => rfl⟩, ho.trans, fun _ => hr⟩

theorem refl (cost : Bytes → ℕ) (b : ℕ) (io : Io H A) : Spends cost b io io := of_eq rfl rfl rfl

theorem mono (h : Spends cost b io io') (hbc : b ≤ c) : Spends cost c io io' := by
  obtain ⟨w, hw, hb, hc⟩ := h.wire
  exact ⟨⟨w, hw, hb.trans hbc, hc⟩, h.closed, h.received⟩

theorem trans (h : Spends cost b io io') (h' : Spends cost c io' io'') : Spends cost (b + c) io io'' := by
  obtain ⟨w, hw, hb, hc⟩ := h.wire
  obtain ⟨w', hw', hb', hc'⟩ := h'.wire
  refine ⟨⟨w ++ w', by rw [hw', hw, List.append_assoc], ?_, fun ho => ?_⟩, h'.closed ∘ h.closed, fun ho => ?_⟩
  · simp only [spent, List.map_append, List.sum_append] at hb hb' ⊢
    omega
  · rw [hc ho, hc' (h.closed ho), List.append_nil]
  · refine (h'.received ho).trans (h.received ?_)
    by_contra hn
    rw [h'.closed (Bool.eq_false_iff.2 hn)] at ho
    cases ho

/-- A closed socket spends nothing. -/
theorem wire_closed (h : Spends cost b io io') (ho : io.isOpen = false) :
    io'.wire = io.wire ∧ io'.isOpen = false := by
  obtain ⟨w, hw, -, hc⟩ := h.wire
  exact ⟨by rw [hw, hc ho, List.append_nil], h.closed ho⟩

theorem of_closed (h : Spends cost b io io') (ho : io.isOpen = false) : Spends cost c io io' := by
  obtain ⟨hw, ho'⟩ := h.wire_closed ho
  exact ⟨⟨[], by rw [hw, List.append_nil], Nat.zero_le _, fun _ => rfl⟩, h.closed, h.received⟩

theorem asyncSendTo (io : Io H A) (dest : A) {d : Bytes} (h : cost d ≤ b) :
    Spends cost b io (io.asyncSendTo dest d) := by
  refine ⟨⟨_, asyncSendTo_wire io dest d, ?_, fun ho => by simp [ho]⟩, fun ho => by simpa using ho, fun _ => ?_⟩
  · split_ifs
    · simpa [spent] using h
    · exact Nat.zero_le _
  · unfold Io.asyncSendTo
    split_ifs <;> rfl

theorem asyncSendDetached (io : Io H A) (dest : A) {d : Bytes} (h : cost d ≤ b) :
    Spends cost b io (io.asyncSendDetached dest d) := by
  refine ⟨⟨_, asyncSendDetached_wire io dest d, ?_, fun ho => by simp [ho]⟩, fun ho => by simpa using ho,
    fun _ => ?_⟩
  · split_ifs
    · simpa [spent] using h
    · exact Nat.zero_le _
  · unfold Io.asyncSendDetached
    split_ifs <;> rfl

theorem asyncReceiveFrom (io : Io H A) (r : H) : Spends cost b io (io.asyncReceiveFrom r) := by
  refine ⟨⟨[], by simp, Nat.zero_le _, fun _ => rfl⟩, fun ho => by simpa using ho, fun ho => ?_⟩
  rw [asyncReceiveFrom_isOpen] at ho
  rw [Io.asyncReceiveFrom, if_pos ho]

theorem close (io : Io H A) : Spends cost b io io.close :=
  ⟨⟨[], by simp, Nat.zero_le _, fun _ => rfl⟩, fun _ => rfl, fun ho => Bool.noConfusion ho⟩

/-- What is aborted on the way to the end does not matter. -/
theorem of_abortAll (h : Spends cost b io.abortAll io') (ho : io'.isOpen = false) : Spends cost b io io' :=
  ⟨h.wire, h.closed, fun ho' => absurd (ho.symm.trans ho') (by simp)⟩

end Spends

end Io

variable {σ H A : Type}

/-- What a handler leaves behind that spends at most `b`: an invariant `wf`, and no more
    than one operation unless the object has ended. -/
structure Handles (P : Proactor σ H A) (wf : σ → Prop) (ended : σ → Bool) (cost : Bytes → ℕ) (b : ℕ)
    (s s' : σ) : Prop where
  wf : wf s'
  spends : (P.io s).Spends cost b (P.io s')
  started : (P.io s').started = (P.io s).started
  tokens : (P.io s).tokens = 0 → ended s' = true ∨ (P.io s').tokens ≤ 1

/-- A message costs what `cost` says, and one from the peer is worth its `price`; a
    received one of length `n`, the last to have been stored, is worth `offer n`.
    `opening` is the cost of the start, and `met` holds once the peer has sent something. -/
structure Frugal (P : Proactor σ H A) (wf : σ → Prop) (ended : σ → Bool) (met : σ → Prop) (peer : A)
    (cost price : Bytes → ℕ) (opening : σ → ℕ) (offer : ℕ → σ → ℕ) : Prop where
  io_setIo : ∀ s io, P.io (P.setIo io s) = io
  io_store : ∀ s a d, P.io (P.store a d s) = P.io s
  wf_setIo : ∀ s io, wf s → io.isOpen = (P.io s).isOpen → wf (P.setIo io s)
  ended_setIo : ∀ s io, ended (P.setIo io s) = ended s
  ended_store : ∀ s a d, ended (P.store a d s) = ended s
  met_setIo : ∀ s io, met (P.setIo io s) ↔ met s
  opening_setIo : ∀ s io, opening (P.setIo io s) = opening s
  offer_setIo : ∀ n s io, offer n (P.setIo io s) = offer n s
  capacity_setIo : ∀ s io, P.capacity (P.setIo io s) = P.capacity s
  isOpen : ∀ s, wf s → (P.io s).isOpen = !ended s
  deliver : ∀ s d, wf s → wf (P.store peer (d.take (P.capacity s)) s) ∧
    met (P.store peer (d.take (P.capacity s)) s) ∧ (ended s = false →
      offer (min d.length (P.capacity s)) (P.store peer (d.take (P.capacity s)) s) ≤ price d)
  start : ∀ s, wf s → Handles P wf ended cost (opening s) s (P.start s)
  receive : ∀ h e n s, wf s → (ended s = false → e = .success → met s) →
    Handles P wf ended cost (if e = .success then offer n s else 1) s (P.onReceive h e n s)
  sent : ∀ e n s, wf s → Handles P wf ended cost 0 s (P.onSend e n s)
  cancelled : ∀ s, P.onTimer .operationAborted s = s
  expired : ∀ e s, wf s → e ≠ .operationAborted → wf (P.onTimer e s) ∧
    (P.io (P.onTimer e s)).started = (P.io s).started ∧
    (ended (P.onTimer e s) = true ∧ (P.io s).Spends cost 0 (P.io (P.onTimer e s)) ∨
      ended (P.onTimer e s) = false ∧ P.io (P.onTimer e s) = (P.io s).abortAll ∧
      (met s → met (P.onTimer e s)) ∧ ∀ n, offer n (P.onTimer e s) = offer n s)

/-- What the event brings. -/
def Event.worth (price : Bytes → ℕ) : Event A → ℕ
  | .deliver _ d => price d
  | _ => 0

namespace Frugal
variable {P : Proactor σ H A} {wf : σ → Prop} {ended : σ → Bool} {met : σ → Prop} {peer : A}
  {cost price : Bytes → ℕ} {opening : σ → ℕ} {offer : ℕ → σ → ℕ} {s s' : σ} {e : Event A}

/-- What the completed receives are worth. -/
def offers (offer : ℕ → σ → ℕ) (s : σ) (xs : List (H × ErrorCode × ℕ)) : ℕ :=
  (xs.map fun x => if x.2.1 = .success then offer x.2.2 s else 1).sum

/-- What an object may still spend without being paid. -/
def pending (P : Proactor σ H A) (ended : σ → Bool) (opening : σ → ℕ) (offer : ℕ → σ → ℕ) (s : σ) : ℕ :=
  if ended s then 0
  else (if (P.io s).started then 0 else opening s) + offers offer s (P.io s).received

/-- The states of an object, until it has ended. -/
structure Active (P : Proactor σ H A) (met : σ → Prop) (s : σ) : Prop where
  fresh : (P.io s).started = false → (P.io s).tokens = 0 ∧ (P.io s).waits = 0 ∧ (P.io s).waited = []
  tokens : (P.io s).tokens ≤ 1
  met : (∃ x ∈ (P.io s).received, x.2.1 = .success) → met s

/-- The balance of an event. -/
structure Balance (P : Proactor σ H A) (wf : σ → Prop) (ended : σ → Bool) (met : σ → Prop)
    (cost : Bytes → ℕ) (opening : σ → ℕ) (offer : ℕ → σ → ℕ) (b : ℕ) (s s' : σ) : Prop where
  wf : wf s'
  active : ended s' = false → Active P met s'
  wire : ∃ w, (P.io s').wire = (P.io s).wire ++ w ∧
    Io.spent cost w + pending P ended opening offer s' ≤ pending P ended opening offer s + b

theorem pending_ended (h : ended s = true) : pending P ended opening offer s = 0 := if_pos h

theorem pending_active (h : ended s = false) (hs : (P.io s).started = true) :
    pending P ended opening offer s = offers offer s (P.io s).received := by
  rw [pending, if_neg (by simp [h]), if_pos hs, Nat.zero_add]

theorem pending_started (h : ended s = true ∨ (P.io s).received = []) (hs : (P.io s).started = true) :
    pending P ended opening offer s = 0 := by
  cases he : ended s with
  | true => exact pending_ended he
  | false =>
    rw [pending_active he hs, h.resolve_left (by simp [he])]
    rfl

theorem offer_le_offers {x : H × ErrorCode × ℕ} {xs : List (H × ErrorCode × ℕ)} (hx : x ∈ xs) :
    (if x.2.1 = .success then offer x.2.2 s else 1) ≤ offers offer s xs :=
  List.le_sum_of_mem (List.mem_map_of_mem hx)

section
variable (F : Frugal P wf ended met peer cost price opening offer)
include F

/-- An object that has ended spends nothing. -/
theorem balance_of_ended {b c : ℕ} {io : Io H A} (hw : wf s) (he : ended s = true) (hw' : wf s')
    (hwire : io.wire = (P.io s).wire) (ho : io.isOpen = (P.io s).isOpen) (h : io.Spends cost c (P.io s')) :
    Balance P wf ended met cost opening offer b s s' := by
  have hc : io.isOpen = false := by rw [ho, F.isOpen s hw, he]; rfl
  obtain ⟨hw₁, hc'⟩ := h.wire_closed hc
  have he' : ended s' = true := by
    rw [F.isOpen s' hw'] at hc'
    simpa using hc'
  refine ⟨hw', fun hn => ?_, [], by rw [hw₁, hwire, List.append_nil], ?_⟩
  · rw [he'] at hn
    cases hn
  · rw [pending_ended he']
    exact Nat.zero_le _

/-- The handler of the only operation is paid by what is pending. -/
theorem balance_of_handles {b c : ℕ} {io : Io H A} (hw : wf s)
    (h : Handles P wf ended cost c (P.setIo io s) s') (hwire : io.wire = (P.io s).wire)
    (ho : io.isOpen = (P.io s).isOpen)
    (hc : ended s = false → io.started = true ∧ io.tokens = 0 ∧ c ≤ pending P ended opening offer s + b) :
    Balance P wf ended met cost opening offer b s s' := by
  have hspends := h.spends
  have hstarted := h.started
  have htokens := h.tokens
  simp only [F.io_setIo] at hspends hstarted htokens
  cases he : ended s with
  | true => exact F.balance_of_ended hw he h.wf hwire ho hspends
  | false =>
  obtain ⟨hs, ht, hc⟩ := hc he
  have hr : ended s' = false → (P.io s').received = [] := by
    intro he
    rw [hspends.received (by rw [F.isOpen s' h.wf, he]; rfl)]
    exact ((Io.tokens_eq_zero io).1 ht).2.1
  obtain ⟨w, hw, hb, -⟩ := hspends.wire
  refine ⟨h.wf, fun he => ⟨fun hn => ?_, (htokens ht).resolve_left (by simp [he]), ?_⟩, w, by rw [hw, hwire], ?_⟩
  · rw [hstarted, hs] at hn
    cases hn
  · rintro ⟨x, hx, -⟩
    rw [hr he] at hx
    cases hx
  · rw [pending_started ?_ (hstarted.trans hs)]
    · omega
    · cases he : ended s' with
      | true => exact .inl rfl
      | false => exact .inr (hr he)

/-- Nothing happens to the receives. -/
theorem balance_of_setIo {b : ℕ} {io : Io H A} (hw : wf s) (ha : ended s = false → Active P met s)
    (hs : ended s = false → (P.io s).started = true) (ho : io.isOpen = (P.io s).isOpen)
    (hwire : io.wire = (P.io s).wire) (hst : io.started = (P.io s).started)
    (hr : io.received = (P.io s).received) (ht : io.tokens = (P.io s).tokens) :
    Balance P wf ended met cost opening offer b s (P.setIo io s) := by
  have hw' := F.wf_setIo s io hw ho
  cases he : ended s with
  | true => exact F.balance_of_ended hw he hw' hwire ho (c := 0) (by rw [F.io_setIo]; exact .refl _ _ _)
  | false =>
    have he' : ended (P.setIo io s) = false := (F.ended_setIo s io).trans he
    have hst' : (P.io (P.setIo io s)).started = true := by rw [F.io_setIo, hst, hs he]
    refine ⟨hw', fun _ => ⟨fun hn => ?_, ?_, fun hx => ?_⟩, [], ?_, ?_⟩
    · rw [hst'] at hn
      cases hn
    · rw [F.io_setIo, ht]
      exact (ha he).tokens
    · rw [F.io_setIo, hr] at hx
      exact (F.met_setIo s io).2 ((ha he).met hx)
    · rw [F.io_setIo, hwire, List.append_nil]
    · rw [pending_active he' hst', pending_active he (hs he), F.io_setIo, hr]
      simp only [offers, F.offer_setIo, Io.spent, List.map_nil, List.sum_nil]
      omega

/-- What arrives is worth its price. -/
theorem balance_of_deliver {io : Io H A} {d : Bytes} {r : H} (hw : wf s)
    (ha : ended s = false → Active P met s) (hs : ended s = false → (P.io s).started = true)
    (ho : io.isOpen = (P.io s).isOpen) (hwire : io.wire = (P.io s).wire)
    (hst : io.started = (P.io s).started) (ht : io.tokens = (P.io s).tokens)
    (hr : io.received = (P.io s).received ++ [(r, .success, min d.length (P.capacity s))]) :
    Balance P wf ended met cost opening offer (price d + 0) s
      (P.store peer (d.take (P.capacity s)) (P.setIo io s)) := by
  obtain ⟨hw', hm, hoffer⟩ := F.deliver (P.setIo io s) d (F.wf_setIo s io hw ho)
  rw [F.capacity_setIo] at hw' hm hoffer
  have hio : P.io (P.store peer (d.take (P.capacity s)) (P.setIo io s)) = io := by
    rw [F.io_store, F.io_setIo]
  cases he : ended s with
  | true => exact F.balance_of_ended hw he hw' hwire ho (c := 0) (by rw [hio]; exact .refl _ _ _)
  | false =>
    have ht' := ht.trans_le (ha he).tokens
    simp only [Io.tokens, hr, List.length_append, List.length_cons, List.length_nil] at ht'
    have hreceived : (P.io s).received = [] := List.length_eq_zero_iff.1 (by omega)
    have he' : ended (P.store peer (d.take (P.capacity s)) (P.setIo io s)) = false := by
      rw [F.ended_store, F.ended_setIo, he]
    have hs' : (P.io (P.store peer (d.take (P.capacity s)) (P.setIo io s))).started = true := by
      rw [hio, hst, hs he]
    have hoffer := hoffer ((F.ended_setIo s io).trans he)
    refine ⟨hw', fun _ => ⟨fun hn => ?_, ?_, fun _ => hm⟩, [], by rw [hio, hwire, List.append_nil], ?_⟩
    · rw [hs'] at hn
      cases hn
    · rw [hio, ht]
      exact (ha he).tokens
    · rw [pending_active he' hs', hio, hr, hreceived]
      simp only [offers, Io.spent, List.nil_append, List.map_nil, List.map_cons, List.sum_cons, List.sum_nil,
        if_pos]
      omega

/-- An expiration pays for the receive that it aborts. -/
theorem balance_of_expired {io : Io H A} {err : ErrorCode} (hw : wf s)
    (ha : ended s = false → Active P met s) (hs : ended s = false → (P.io s).started = true)
    (he : err ≠ .operationAborted) (ho : io.isOpen = (P.io s).isOpen)
    (hwire : io.wire = (P.io s).wire) (hst : io.started = (P.io s).started)
    (hr : io.received = (P.io s).received) (ht : io.tokens = (P.io s).tokens) :
    Balance P wf ended met cost opening offer (0 + 1) s (P.onTimer err (P.setIo io s)) := by
  obtain ⟨hw', hst', hcases⟩ := F.expired err (P.setIo io s) (F.wf_setIo s io hw ho) he
  rw [F.io_setIo] at hst' hcases
  rcases hcases with ⟨hend, hspends⟩ | ⟨hend, hio, hmet, hoffer⟩
  · obtain ⟨w, hw₁, hb, -⟩ := hspends.wire
    refine ⟨hw', fun hn => ?_, w, by rw [hw₁, hwire], ?_⟩
    · rw [hend] at hn
      cases hn
    · rw [pending_ended hend]
      omega
  · have hend₀ : ended s = false := by
      have hopen := F.isOpen _ hw'
      rw [hio, Io.abortAll_isOpen, ho, F.isOpen s hw, hend] at hopen
      simpa using hopen
    have hs' : (P.io (P.onTimer err (P.setIo io s))).started = true := by rw [hst', hst, hs hend₀]
    have ht' := ht.trans_le (ha hend₀).tokens
    refine ⟨hw', fun _ => ⟨fun hn => ?_, ?_, fun hx => hmet ((F.met_setIo s io).2 ((ha hend₀).met ?_))⟩, [], ?_, ?_⟩
    · rw [hs'] at hn
      cases hn
    · rw [hio, Io.abortAll_tokens]
      exact ht'
    · rw [← hr]
      obtain ⟨x, hx, hsucc⟩ := hx
      rw [hio, Io.abortAll, List.mem_append] at hx
      refine ⟨x, hx.resolve_right fun hx => ?_, hsucc⟩
      obtain ⟨_, -, rfl⟩ := List.mem_map.1 hx
      cases hsucc
    · rw [hio, Io.abortAll_wire, hwire, List.append_nil]
    · rw [pending_active hend hs', pending_active hend₀ (hs hend₀), hio, ← hr]
      have hlen : io.receives.length ≤ 1 := by
        simp only [Io.tokens] at ht'
        omega
      simp only [offers, hoffer, F.offer_setIo, Io.abortAll, Io.spent, List.map_append, List.map_map,
        List.sum_append, List.map_nil, List.sum_nil]
      have haborted : (io.receives.map ((fun x : H × ErrorCode × ℕ => if x.2.1 = .success then offer x.2.2 s else 1) ∘
          fun h => (h, .operationAborted, 0))).sum = io.receives.length := by
        simp [Function.comp_def]
      omega

/-- **The balance of an event.**  What is sent is paid for by what was pending, the message
    that arrives and the expiration that is handled. -/
theorem step (hw : wf s) (ha : ended s = false → Active P met s) (h : P.step s e = some s')
    (hd : ∀ src d, e = .deliver src d → src = peer) (hf : ∀ err, e ≠ .receiveFails err) :
    Balance P wf ended met cost opening offer (e.worth price + (e.handlesExpiry (P.io s)).toNat) s s' := by
  obtain ⟨-, hstep⟩ := Proactor.step_cases h
  -- only a started object has something to handle
  have hrun : ¬ ((P.io s).tokens = 0 ∧ (P.io s).waits = 0 ∧ (P.io s).waited = []) →
      ended s = false → (P.io s).started = true := by
    intro hn he
    by_contra hs
    exact hn ((ha he).fresh (Bool.eq_false_iff.2 hs))
  cases hstep with
  | start hs =>
    have hh := F.start _ (F.wf_setIo s { P.io s with started := true } hw rfl)
    rw [F.opening_setIo] at hh
    refine F.balance_of_handles hw hh rfl rfl fun he => ⟨rfl, ((ha he).fresh hs).1, ?_⟩
    rw [pending, if_neg (by simp [he]), if_neg (by simp [hs])]
    omega
  | receiveFails _ _ => exact absurd rfl (hf _)
  | sendCompletes hn =>
    refine F.balance_of_setIo hw ha (hrun fun h0 => ?_) rfl rfl rfl rfl ?_
    · simp [((Io.tokens_eq_zero _).1 h0.1).2.2.1] at hn
    · simp only [Io.tokens, hn, List.length_append, List.length_cons, List.length_nil]
      omega
  | expire hn =>
    exact F.balance_of_setIo hw ha (hrun fun h0 => hn h0.2.1) rfl rfl rfl rfl rfl
  | @deliver src d r rs hr =>
    cases hd src d rfl
    refine F.balance_of_deliver hw ha (hrun fun h0 => ?_) rfl rfl rfl ?_ rfl
    · simp [((Io.tokens_eq_zero _).1 h0.1).1] at hr
    · simp only [Io.tokens, hr, List.length_append, List.length_cons, List.length_nil]
      omega
  | @runReceive i r err n hx =>
    have hio := F.wf_setIo s { P.io s with received := (P.io s).received.eraseIdx i } hw rfl
    have hmem := List.mem_of_getElem? hx
    have hh := F.receive r err n _ hio fun he hs => (F.met_setIo _ _).2
      ((ha ((F.ended_setIo _ _).symm.trans he)).met ⟨_, hmem, hs⟩)
    rw [F.offer_setIo] at hh
    refine F.balance_of_handles hw hh rfl rfl fun he => ?_
    have hs := hrun (fun h0 => by simp [((Io.tokens_eq_zero _).1 h0.1).2.1] at hmem) he
    obtain ⟨-, ht⟩ := Io.tokens_eraseIdx_received hx (ha he).tokens
    refine ⟨hs, ht, ?_⟩
    rw [pending_active he hs]
    exact (offer_le_offers hmem).trans (Nat.le_add_right _ _)
  | @runSend i err n hx =>
    have hh := F.sent err n _ (F.wf_setIo s { P.io s with sent := (P.io s).sent.eraseIdx i } hw rfl)
    refine F.balance_of_handles hw hh rfl rfl fun he => ?_
    have hs := hrun (fun h0 => by simp [((Io.tokens_eq_zero _).1 h0.1).2.2.2] at hx) he
    obtain ⟨-, ht⟩ := Io.tokens_eraseIdx_sent hx (ha he).tokens
    exact ⟨hs, ht, Nat.zero_le _⟩
  | @runTimer i err hx =>
    have hs := hrun fun h0 => by simp [h0.2.2] at hx
    have hb : (Event.handlesExpiry (P.io s) (.runTimer i : Event A)).toNat =
        if err = .operationAborted then 0 else 1 := by
      simp only [Event.handlesExpiry, hx, Option.any_some]
      split_ifs with he <;> simp [he]
    rw [hb]
    by_cases he : err = .operationAborted
    · rw [he, F.cancelled]
      exact F.balance_of_setIo hw ha hs rfl rfl rfl rfl rfl
    · rw [if_neg he]
      exact F.balance_of_expired hw ha hs he rfl rfl rfl rfl rfl

end

end Frugal

end Asio

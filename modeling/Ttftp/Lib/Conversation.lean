/-
  Two speakers joined by a network that delivers every datagram once and in order.

  `Joined` is the invariant of their states and of the numbers of datagrams that
  have been delivered to each; what reaches an object after its end is discarded.
  `Joined.left_step` is one event of the left object (the other side is
  `Joined.symm`), `Joined.both_ended` says that they come to rest only at their
  ends, and `Joined.progress` that they are never stuck before.
-/
import Ttftp.Lib.Speaker

namespace Asio

open Dialogue

variable {σ τ H H' A : Type} {P : Proactor σ H A} {Q : Proactor τ H' A}

/-- The two fit together: each takes what the other one sends. -/
structure Linked (S : Speaker P) (T : Speaker Q) : Prop where
  matched : Matched S.party T.party
  left : S.Spec
  right : T.Spec
  toLeft : ∀ n < S.party.last, S.incoming n = T.party.out n
  toRight : ∀ n < T.party.last, T.incoming n = S.party.out n

/-- Two objects in the course of their dialogue; `i` and `j` datagrams have been
    delivered to the left and to the right one. -/
structure Joined (S : Speaker P) (T : Speaker Q) (x y : State) (s : σ) (t : τ) (i j : ℕ) : Prop where
  left : S.At x s
  right : T.At y t
  inv : Inv S.party T.party x y
  toLeft : i ≤ T.party.sent y ∧ (x.phase ≠ .ended → i = x.delivered)
  toRight : j ≤ S.party.sent x ∧ (y.phase ≠ .ended → j = y.delivered)

/-- The datagram with the next number. -/
def Speaker.message (T : Speaker Q) (y : State) (i : ℕ) : Option Bytes :=
  ((List.range (T.party.sent y)).map T.party.out)[i]?

/-- A bound on the number of events that are left. -/
def remaining (S : Speaker P) (T : Speaker Q) (x y : State) (s : σ) (t : τ) (i j : ℕ) : ℕ :=
  S.measure x s + (S.party.sent x - j) + (T.measure y t + (T.party.sent y - i))

theorem Linked.symm {S : Speaker P} {T : Speaker Q} (h : Linked S T) : Linked T S :=
  ⟨h.matched.symm, h.right, h.left, h.toRight, h.toLeft⟩

theorem Speaker.message_eq_some {T : Speaker Q} {y : State} {i : ℕ} {d : Bytes} :
    T.message y i = some d ↔ i < T.party.sent y ∧ T.party.out i = d := by
  rw [Speaker.message, List.getElem?_eq_some_iff]
  constructor
  · rintro ⟨hlt, hd⟩
    rw [List.length_map, List.length_range] at hlt
    exact ⟨hlt, by simpa using hd⟩
  · rintro ⟨hlt, hd⟩
    exact ⟨by simpa using hlt, by simpa using hd⟩

namespace Joined
variable {S : Speaker P} {T : Speaker Q} {x y : State} {s : σ} {t : τ} {i j : ℕ}

theorem symm (h : Joined S T x y s t i j) : Joined T S y x t s j i :=
  ⟨h.right, h.left, h.inv.symm, h.toRight, h.toLeft⟩

theorem init (hs : S.At ⟨.idle, 0⟩ s) (ht : T.At ⟨.idle, 0⟩ t) :
    Joined S T ⟨.idle, 0⟩ ⟨.idle, 0⟩ s t 0 0 :=
  ⟨hs, ht, .init _ _, ⟨Nat.zero_le _, fun _ => rfl⟩, ⟨Nat.zero_le _, fun _ => rfl⟩⟩

/-- **An event of the left object keeps the two joined**, and fewer are left. -/
theorem left_step (h : Joined S T x y s t i j) (hL : Linked S T) {e : Event A} {s' : σ}
    (ho : e.Orderly) (hd : ∀ src d, e = .deliver src d → src = S.peer ∧ T.message y i = some d)
    (hstep : P.step s e = some s') :
    ∃ x', Joined S T x' y s' t (i + e.isDelivery.toNat) j ∧
      remaining S T x' y s' t (i + e.isDelivery.toNat) j < remaining S T x y s t i j ∧
      (x.phase ≠ .idle → x'.phase ≠ .idle) := by
  have hd' : ∀ src d, e = .deliver src d → x.phase = .waiting →
      src = S.peer ∧ T.message y x.delivered = some d := by
    intro src d he hw
    rw [← h.toLeft.2 (by rw [hw]; decide)]
    exact hd src d he
  obtain ⟨x', hat, hlt, hsent, hinv, hdel, hptr, hne⟩ :=
    h.left.turn hL.left hL.matched.left.1 h.inv hL.toLeft ho hd' hstep
  have hle : i + e.isDelivery.toNat ≤ T.party.sent y := by
    cases hde : e.isDelivery with
    | false => exact h.toLeft.1
    | true =>
      obtain ⟨hw, hlt⟩ := hdel hde
      rw [h.toLeft.2 (by rw [hw]; decide)]
      exact hlt
  have hj := h.toRight.1
  refine ⟨x', ⟨hat, h.right, hinv, ⟨hle, fun hne => ?_⟩, ⟨hj.trans hsent, h.toRight.2⟩⟩, ?_, hne⟩
  · obtain ⟨hne', heq⟩ := hptr hne
    rw [heq, h.toLeft.2 hne']
  · unfold remaining
    omega

/-- A datagram for the left object is discarded. -/
theorem left_discard (h : Joined S T x y s t i j) (hc : (P.io s).isOpen = false)
    (hi : i < T.party.sent y) : Joined S T x y s t (i + 1) j ∧
      remaining S T x y s t (i + 1) j < remaining S T x y s t i j := by
  have hx : x.phase = .ended := by simpa [h.left.isOpen] using hc
  refine ⟨⟨h.left, h.right, h.inv, ⟨hi, fun hne => absurd hx hne⟩, h.toRight⟩, ?_⟩
  unfold remaining
  omega

theorem right_step (h : Joined S T x y s t i j) (hL : Linked S T) {e : Event A} {t' : τ}
    (ho : e.Orderly) (hd : ∀ src d, e = .deliver src d → src = T.peer ∧ S.message x j = some d)
    (hstep : Q.step t e = some t') :
    ∃ y', Joined S T x y' s t' i (j + e.isDelivery.toNat) ∧
      remaining S T x y' s t' i (j + e.isDelivery.toNat) < remaining S T x y s t i j ∧
      (y.phase ≠ .idle → y'.phase ≠ .idle) := by
  obtain ⟨y', hj, hlt, hne⟩ := h.symm.left_step hL.symm ho hd hstep
  refine ⟨y', hj.symm, ?_, hne⟩
  unfold remaining at hlt ⊢
  omega

theorem right_discard (h : Joined S T x y s t i j) (hc : (Q.io t).isOpen = false)
    (hj : j < S.party.sent x) : Joined S T x y s t i (j + 1) ∧
      remaining S T x y s t i (j + 1) < remaining S T x y s t i j := by
  obtain ⟨hj', hlt⟩ := h.symm.left_discard hc hj
  refine ⟨hj'.symm, ?_⟩
  unfold remaining at hlt ⊢
  omega

/-- What the left object waits for when it has nothing to do. -/
theorem left_rest (h : Joined S T x y s t i j) (hs : (P.io s).started = true) (hq : (P.io s).Quiet)
    (hi : i = T.party.sent y) :
    x.phase = .ended ∨ x.phase = .waiting ∧ x.delivered = T.party.sent y := by
  rcases h.left.rests hs hq with hx | hx
  · exact .inr ⟨hx, by rw [← h.toLeft.2 (by rw [hx]; decide), hi]⟩
  · exact .inl hx

/-- **At rest both have ended.** -/
theorem both_ended (h : Joined S T x y s t i j) (hL : Linked S T)
    (hs : (P.io s).started = true ∧ (P.io s).Quiet ∧ i = T.party.sent y)
    (ht : (Q.io t).started = true ∧ (Q.io t).Quiet ∧ j = S.party.sent x) :
    x.phase = .ended ∧ y.phase = .ended :=
  h.inv.both_ended hL.matched (h.left_rest hs.1 hs.2.1 hs.2.2) (h.symm.left_rest ht.1 ht.2.1 ht.2.2)

/-- **The left object has an event** if it is not at rest: one of its own, the
    delivery of a datagram, or the discarding of one. -/
theorem left_progress (h : Joined S T x y s t i j)
    (hr : ¬ ((P.io s).started = true ∧ (P.io s).Quiet ∧ i = T.party.sent y)) :
    (∃ e s', e.Orderly ∧ e.isDelivery = false ∧ P.step s e = some s') ∨
    (∃ d s', T.message y i = some d ∧ P.step s (.deliver S.peer d) = some s') ∨
      (P.io s).isOpen = false ∧ i < T.party.sent y := by
  by_cases hq : (P.io s).started = true ∧ (P.io s).Quiet
  · have hlt : i < T.party.sent y :=
      lt_of_le_of_ne h.toLeft.1 fun hi => hr ⟨hq.1, hq.2, hi⟩
    rcases h.left.rests hq.1 hq.2 with hx | hx
    · obtain ⟨s', hs'⟩ := h.left.delivers hx S.peer (T.party.out i)
      exact .inr (.inl ⟨_, s', Speaker.message_eq_some.2 ⟨hlt, rfl⟩, hs'⟩)
    · exact .inr (.inr ⟨by simp [h.left.isOpen, hx], hlt⟩)
  · exact .inl (h.left.progress hq)

end Joined

end Asio

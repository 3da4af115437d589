/-
  Two parties that take turns over a network that delivers every message once and
  in order.

  A party takes a fixed number of messages, and answers each of them (the last
  one if `answersLast`) by one message of its own; `speaks` says whether it also
  sends one when it starts.  `Move` lists what a party does between two messages,
  `Inv` relates the states of two parties, and `Inv.both_ended` says that the two
  can come to rest only when both have ended, provided that each sends as many
  messages as the other one takes.
-/
import Mathlib.Order.Lattice
import Mathlib.Order.Nat

namespace Dialogue

inductive Phase where
  | idle | sending | sent | waiting | arrived | ended
  deriving DecidableEq, Repr

structure Party (M : Type) where
  /-- whether it sends a message when it starts -/
  speaks : Bool
  /-- the number of messages it takes -/
  last : ℕ
  /-- whether it answers the last one -/
  answersLast : Bool
  /-- the messages it sends, in their order -/
  out : ℕ → M

/-- The phase of a party and the number of messages it has handled. -/
structure State where
  phase : Phase
  taken : ℕ
  deriving DecidableEq, Repr

/-- The messages that have been delivered. -/
def State.delivered (x : State) : ℕ := if x.phase = .arrived then x.taken + 1 else x.taken

namespace Party
variable {M N : Type} (P : Party M)

/-- The number of messages a party sends in all. -/
def total : ℕ := P.last - 1 + P.speaks.toNat + P.answersLast.toNat

/-- The number of messages sent so far. -/
def sent (x : State) : ℕ :=
  match x.phase with
  | .idle => 0
  | .ended => P.total
  | _ => x.taken + P.speaks.toNat

def Valid (x : State) : Prop :=
  match x.phase with
  | .idle => x.taken = 0
  | .ended => x.taken = P.last
  | _ => x.taken < P.last

inductive Move : State → State → Prop
  | start : Move ⟨.idle, 0⟩ ⟨if P.speaks then .sending else .waiting, 0⟩
  | complete {n : ℕ} : Move ⟨.sending, n⟩ ⟨.sent, n⟩
  | listen {n : ℕ} : Move ⟨.sent, n⟩ ⟨.waiting, n⟩
  | take {n : ℕ} : Move ⟨.waiting, n⟩ ⟨.arrived, n⟩
  | answer {n : ℕ} : n + 1 < P.last → Move ⟨.arrived, n⟩ ⟨.sending, n + 1⟩
  | finish {n : ℕ} : n + 1 = P.last → Move ⟨.arrived, n⟩ ⟨.ended, n + 1⟩

variable {P} {x x' : State}

theorem Valid.move (hP : 0 < P.last) (h : P.Valid x) (hm : P.Move x x') : P.Valid x' := by
  cases hm with
  | start => cases hs : P.speaks <;> simpa [Valid, hs] using hP
  | complete => exact h
  | listen => exact h
  | take => exact h
  | answer hn => exact hn
  | finish hn => exact hn

/-- A move takes no message back. -/
theorem Move.sent_le (h : P.Valid x) (hm : P.Move x x') : P.sent x ≤ P.sent x' := by
  cases hm with
  | start => exact Nat.zero_le _
  | complete => exact le_rfl
  | listen => exact le_rfl
  | take => exact le_rfl
  | answer hn => simp only [sent]; omega
  | finish hn => simp only [sent, total]; omega

theorem Move.delivered_of_ne (hm : P.Move x x') (h : x.phase ≠ .waiting) :
    x'.delivered = x.delivered := by
  cases hm with
  | start => cases P.speaks <;> rfl
  | complete => rfl
  | listen => rfl
  | take => exact absurd rfl h
  | answer hn => rfl
  | finish hn => rfl

theorem Move.delivered_of_waiting (hm : P.Move x x') (h : x.phase = .waiting) :
    x'.delivered = x.delivered + 1 := by
  cases hm with
  | take => rfl
  | _ => cases h

theorem Move.not_ended (hm : P.Move x x') : x.phase ≠ .ended := by
  cases hm <;> simp

theorem Move.not_idle (hm : P.Move x x') : x'.phase ≠ .idle := by
  cases hm with
  | start => cases P.speaks <;> simp
  | _ => simp

/-! ### Termination -/

def rank (x : State) : ℕ :=
  10 * (P.last - x.taken) +
    match x.phase with
    | .idle => 12 | .sending => 8 | .sent => 6 | .waiting => 4 | .arrived => 2 | .ended => 0

/-- **Every move brings a party closer to its end**, also if it sends a message. -/
theorem Move.rank_lt (h : P.Valid x) (hm : P.Move x x') :
    P.rank x' + P.sent x' + 1 < P.rank x + P.sent x := by
  cases hm with
  | start => cases hs : P.speaks <;> simp [rank, sent, hs]
  | complete => simp only [rank, sent]; omega
  | listen => simp only [rank, sent]; omega
  | take => simp only [rank, sent]; omega
  | answer hn => simp only [rank, sent]; omega
  | finish hn =>
    have := P.answersLast.toNat_le
    simp only [rank, sent, total]
    omega

end Party

/-! ## Two parties -/

section
variable {M N : Type} {P : Party M} {Q : Party N} {x x' y : State}

/-- Somebody begins, and each sends as many messages as the other one takes. -/
structure Matched (P : Party M) (Q : Party N) : Prop where
  begins : P.speaks = true ∨ Q.speaks = true
  left : 0 < P.last ∧ P.last ≤ Q.total
  right : 0 < Q.last ∧ Q.last ≤ P.total

theorem Matched.symm (h : Matched P Q) : Matched Q P := ⟨h.begins.symm, h.right, h.left⟩

/-- What has been delivered to one has been sent by the other. -/
structure Inv (P : Party M) (Q : Party N) (x y : State) : Prop where
  left : P.Valid x
  right : Q.Valid y
  toLeft : x.delivered ≤ Q.sent y
  toRight : y.delivered ≤ P.sent x

theorem Inv.symm (h : Inv P Q x y) : Inv Q P y x := ⟨h.right, h.left, h.toRight, h.toLeft⟩

theorem Inv.init (P : Party M) (Q : Party N) : Inv P Q ⟨.idle, 0⟩ ⟨.idle, 0⟩ :=
  ⟨rfl, rfl, Nat.zero_le _, Nat.zero_le _⟩

/-- **A move keeps the invariant**, if a message that it takes is there. -/
theorem Inv.move (h : Inv P Q x y) (hP : 0 < P.last) (hm : P.Move x x')
    (ht : x.phase = .waiting → x.delivered < Q.sent y) : Inv P Q x' y := by
  refine ⟨h.left.move hP hm, h.right, ?_, h.toRight.trans (hm.sent_le h.left)⟩
  by_cases hw : x.phase = .waiting
  · rw [hm.delivered_of_waiting hw]
    exact ht hw
  · rw [hm.delivered_of_ne hw]
    exact h.toLeft

/-- A party that waits for a message although the other one has ended would be
    one that takes more messages than the other one sends. -/
theorem Inv.not_waiting_ended (h : Inv P Q x y) (hM : Matched P Q) (hx : x.phase = .waiting)
    (hx' : x.delivered = Q.sent y) : y.phase ≠ .ended := by
  intro hy
  obtain ⟨px, n⟩ := x
  obtain ⟨py, m⟩ := y
  subst hx hy
  have hn : n < P.last := h.left
  have hs : n = Q.total := hx'
  have := hM.left.2
  omega

/-- **Both have ended** when both are at rest: none of them has anything to do
    but to wait for a message, and all messages have been delivered to those
    that wait. -/
theorem Inv.both_ended (h : Inv P Q x y) (hM : Matched P Q)
    (hx : x.phase = .ended ∨ x.phase = .waiting ∧ x.delivered = Q.sent y)
    (hy : y.phase = .ended ∨ y.phase = .waiting ∧ y.delivered = P.sent x) :
    x.phase = .ended ∧ y.phase = .ended := by
  rcases hx with hx | ⟨hx, hx'⟩
  · rcases hy with hy | ⟨hy, hy'⟩
    · exact ⟨hx, hy⟩
    · exact absurd hx (h.symm.not_waiting_ended hM.symm hy hy')
  · rcases hy with hy | ⟨hy, hy'⟩
    · exact absurd hy (h.not_waiting_ended hM hx hx')
    · -- each would have answered every message of the other one, and one of them has begun
      obtain ⟨px, n⟩ := x
      obtain ⟨py, m⟩ := y
      subst hx hy
      have h1 : n = m + Q.speaks.toNat := hx'
      have h2 : m = n + P.speaks.toNat := hy'
      have h3 : P.speaks.toNat = 0 := by omega
      have h4 : Q.speaks.toNat = 0 := by omega
      rcases hM.begins with hb | hb
      · rw [hb] at h3; cases h3
      · rw [hb] at h4; cases h4

end

end Dialogue

/-
  The stop-and-wait protocol over a network that loses, duplicates, delays and
  reorders messages.

  The sender numbers its blocks from 1 and moves on when the block it is sending
  is acknowledged; the receiver takes the blocks in order, and may acknowledge
  the last one it took at any time.  What has been sent may arrive at any later
  time, any number of times, so the network is given by the sets of the numbers
  sent so far.  `Inv.reach`: the two never get further apart than one block, in
  spite of old duplicates.
-/
import Mathlib.Data.Set.Insert
import Mathlib.Logic.Relation

namespace StopAndWait

structure State where
  /-- the block being sent, 0 before the first one -/
  sending : ℕ
  /-- the last block taken -/
  received : ℕ
  /-- the blocks sent so far -/
  data : Set ℕ
  /-- the acknowledgements sent so far -/
  acks : Set ℕ

/-- Nothing has been sent yet. -/
def init (first : ℕ) : State := ⟨first, 0, ∅, ∅⟩

inductive Step : State → State → Prop
  | send {s : State} : 1 ≤ s.sending → Step s { s with data := insert s.sending s.data }
  | accept {s : State} : s.received + 1 ∈ s.data → Step s { s with received := s.received + 1 }
  | ack {s : State} : Step s { s with acks := insert s.received s.acks }
  | advance {s : State} : s.sending ∈ s.acks → Step s { s with sending := s.sending + 1 }

/-- Any number of steps. -/
abbrev Steps : State → State → Prop := Relation.ReflTransGen Step

/-- The invariant of the protocol: the sender is at most one block ahead, and no
    message in the network is from the future. -/
structure Inv (s : State) : Prop where
  data : ∀ i ∈ s.data, 1 ≤ i ∧ i ≤ s.sending
  acks : ∀ i ∈ s.acks, i ≤ s.received
  received_le : s.received ≤ s.sending
  sending_le : s.sending ≤ s.received + 1

theorem Inv.init {first : ℕ} (h : first ≤ 1) : Inv (init first) :=
  ⟨fun _ hi => hi.elim, fun _ hi => hi.elim, Nat.zero_le _, h⟩

theorem Inv.step {s s' : State} (hs : Inv s) (h : Step s s') : Inv s' := by
  cases h with
  | send h1 =>
    refine ⟨fun i hi => ?_, hs.acks, hs.received_le, hs.sending_le⟩
    rcases Set.mem_insert_iff.1 hi with rfl | hi
    · exact ⟨h1, le_rfl⟩
    · exact hs.data i hi
  | accept h1 =>
    have h2 := (hs.data _ h1).2
    exact ⟨hs.data, fun i hi => Nat.le_succ_of_le (hs.acks i hi), h2,
      Nat.le_succ_of_le hs.sending_le⟩
  | ack =>
    refine ⟨hs.data, fun i hi => ?_, hs.received_le, hs.sending_le⟩
    rcases Set.mem_insert_iff.1 hi with rfl | hi
    · exact le_rfl
    · exact hs.acks i hi
  | advance h1 =>
    exact ⟨fun i hi => ⟨(hs.data i hi).1, Nat.le_succ_of_le (hs.data i hi).2⟩, hs.acks,
      Nat.le_succ_of_le hs.received_le, Nat.succ_le_succ (hs.acks _ h1)⟩

/-- **The invariant holds in every run.** -/
theorem Inv.reach {first : ℕ} (h : first ≤ 1) {s : State} (hs : Steps (StopAndWait.init first) s) :
    Inv s := by
  induction hs with
  | refl => exact .init h
  | tail _ h ih => exact ih.step h

/-- No block in the network is beyond the next one. -/
theorem Inv.data_le {s : State} (hs : Inv s) {i : ℕ} (hi : i ∈ s.data) : i ≤ s.received + 1 :=
  (hs.data i hi).2.trans hs.sending_le

/-- No acknowledgement in the network is beyond the block being sent. -/
theorem Inv.acks_le {s : State} (hs : Inv s) {i : ℕ} (hi : i ∈ s.acks) : i ≤ s.sending :=
  (hs.acks i hi).trans hs.received_le

end StopAndWait

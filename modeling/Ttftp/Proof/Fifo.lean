/-
  Over an in-order network a transfer completes.

  The two ends take turns: the sender plays `Tftpsender.script`, the receiver
  `TftpReceiver.script`, and exactly one of them begins (`script_linked`).
  What the transfer has achieved at its rest is read off the ends of the two scripts;
  that it does come to rest follows as it cannot get stuck before, and every event
  brings it closer to its end (`fifo_completes`).
-/
import Ttftp.Transfer
import Ttftp.Lib.Conversation
import Ttftp.Proof.SenderParty
import Ttftp.Proof.ReceiverParty

namespace Ttftp

open Bytes Asio
open Dialogue (Party Matched)

/-- The number of the last block, which is short. -/
def lastBlock (F : Bytes) (bs : ℕ) : ℕ := F.length / bs + 1

section
variable {F : Bytes} {bs : ℕ}

theorem lastBlock_le (hF : F.length < 65535 * bs) : lastBlock F bs ≤ 65535 :=
  Nat.div_lt_of_lt_mul (by rwa [Nat.mul_comm])

/-- All blocks before the last one are full. -/
theorem full_of_lt_lastBlock {i : ℕ} (h : i < lastBlock F bs) : i * bs ≤ F.length :=
  (Nat.mul_le_mul_right _ (Nat.le_of_lt_succ h)).trans (Nat.div_mul_le_self _ _)

theorem short_lastBlock (hbs : 8 ≤ bs) : F.length < lastBlock F bs * bs := by
  rw [lastBlock, Nat.mul_comm]
  exact Nat.lt_mul_div_succ _ (by omega)

/-- The part of a sender that sends each block once; it begins with DATA 1, or
    waits for ACK 0. -/
def Tftpsender.script (hbs : 8 ≤ bs) (hF : F.length < 65535 * bs) (speaks : Bool) :
    Tftpsender.Script F bs where
  party := {
    speaks := speaks
    last := lastBlock F bs + 1 - speaks.toNat
    answersLast := false
    out := fun m => dataOf F bs (m + 1) }
  inc n := n + speaks.toNat
  cur n := n + speaks.toNat
  code := .noerr
  first := Nat.zero_add _
  outFirst _ := rfl
  bound n hn := by
    have := lastBlock_le hF
    dsimp only at hn
    omega
  next n hn := by
    dsimp only at hn ⊢
    exact ⟨full_of_lt_lastBlock (by omega), by rw [Nat.add_right_comm],
      .inl ⟨rfl, Nat.add_right_comm _ _ _⟩⟩
  final n hn := by
    have hone := speaks.toNat_le
    have hK : 1 ≤ lastBlock F bs := Nat.succ_pos _
    dsimp only at hn ⊢
    rw [show n + speaks.toNat = lastBlock F bs by omega]
    exact ⟨short_lastBlock hbs, .inl ⟨rfl, rfl, rfl⟩⟩

/-- The part of a receiver that gets each block once; it begins with ACK 0, or
    waits for DATA 1. -/
def TftpReceiver.script (hbs : 8 ≤ bs) (hF : F.length < 65535 * bs) (speaks : Bool) :
    TftpReceiver.Script F bs where
  party := {
    speaks := speaks
    last := lastBlock F bs
    answersLast := true
    out := fun m => ackOf (m + (!speaks).toNat) }
  inc n := n + 1
  got n := n
  first := rfl
  outFirst hs := by
    dsimp only at hs ⊢
    rw [hs]
    rfl
  bound n hn := ⟨Nat.succ_pos n, (Nat.succ_le_of_lt hn).trans (lastBlock_le hF)⟩
  next n hn := by
    refine ⟨?_, .inl ⟨rfl, rfl, full_of_lt_lastBlock hn⟩⟩
    cases speaks <;> rfl
  final n hn := by
    refine ⟨rfl, ?_, rfl, ?_⟩
    · rw [show n + 1 = lastBlock F bs from hn]
      exact short_lastBlock hbs
    · cases speaks <;> rfl

/-- The two match if exactly one of them begins. -/
theorem script_matched (hbs : 8 ≤ bs) (hF : F.length < 65535 * bs) (speaks : Bool) :
    Matched (Tftpsender.script hbs hF speaks).party (TftpReceiver.script hbs hF (!speaks)).party := by
  have hK : 0 < lastBlock F bs := Nat.succ_pos _
  cases speaks with
  | false =>
    refine ⟨.inr rfl, ⟨Nat.succ_pos _, ?_⟩, hK, ?_⟩
    · change lastBlock F bs + 1 ≤ lastBlock F bs - 1 + 1 + 1
      omega
    · exact le_rfl
  | true =>
    refine ⟨.inl rfl, ⟨hK, ?_⟩, hK, ?_⟩
    · change lastBlock F bs ≤ lastBlock F bs - 1 + 0 + 1
      omega
    · change lastBlock F bs ≤ lastBlock F bs - 1 + 1 + 0
      omega

end

/-- What has been sent to the peer. -/
theorem sentTo_wireAt {σ H : Type} {P : Proactor σ H Endpoint} (S : Speaker P) (x : Dialogue.State) :
    sentTo S.peer (S.wireAt x) =
      sentTo S.peer S.before ++ (List.range (S.party.sent x)).map S.party.out := by
  rw [Speaker.wireAt, sentTo_append]
  congr 1
  rw [sentTo, List.filter_eq_self.2 (by simp), List.map_map]
  rfl

theorem fifoAllows_deliver {peer src : Endpoint} {next : Option Bytes} {d : Bytes} :
    fifoAllows peer next (.deliver src d) = true ↔ src = peer ∧ next = some d := by
  simp [fifoAllows]

theorem orderly_of_fifoAllows {peer : Endpoint} {next : Option Bytes} {e : Event Endpoint}
    (h : fifoAllows peer next e = true) : e.Orderly := by
  cases e with
  | sendCompletes e => exact (of_decide_eq_true h : e = .success)
  | receiveFails e => cases h
  | expire => cases h
  | _ => trivial

theorem fifoAllows_of_orderly {peer : Endpoint} {next : Option Bytes} {e : Event Endpoint}
    (h : e.Orderly) (hd : e.isDelivery = false) : fifoAllows peer next e = true := by
  cases e with
  | sendCompletes e => exact decide_eq_true (show e = .success from h)
  | receiveFails e => exact h.elim
  | expire => exact h.elim
  | deliver src d => cases hd
  | _ => rfl

/-- The ends of a transfer fit together, whatever has been sent before. -/
theorem script_linked {F : Bytes} {bs : ℕ} (hbs : 8 ≤ bs) (hbs' : bs ≤ 65464)
    (hF : F.length < 65535 * bs) (speaks : Bool) (A B : Endpoint) (before before' : List (Endpoint × Bytes)) :
    Linked (Tftpsender.speaker (Tftpsender.script hbs hF speaks) B before)
      (TftpReceiver.speaker (TftpReceiver.script hbs hF (!speaks)) A before') where
  matched := script_matched hbs hF speaks
  left := Tftpsender.speaker_spec hbs hbs'
  right := TftpReceiver.speaker_spec hbs
  toLeft n _ := by cases speaks <;> rfl
  toRight n _ := rfl

namespace FifoTransfer
variable {A B : Endpoint} {F : Bytes} {bs : ℕ} {hbs : 8 ≤ bs} {hF : F.length < 65535 * bs}
  {speaks : Bool} {t : FifoTransfer} {x y : Dialogue.State}

/-- The two ends of a transfer are in the course of their dialogue. -/
abbrev InTurn (A B : Endpoint) (hbs : 8 ≤ bs) (hF : F.length < 65535 * bs) (speaks : Bool)
    (t : FifoTransfer) (x y : Dialogue.State) : Prop :=
  Joined (Tftpsender.speaker (Tftpsender.script hbs hF speaks) B [])
    (TftpReceiver.speaker (TftpReceiver.script hbs hF (!speaks)) A []) x y t.sender t.receiver
    t.toSender t.toReceiver

/-- A bound on the number of events that are left. -/
abbrev left (A B : Endpoint) (hbs : 8 ≤ bs) (hF : F.length < 65535 * bs) (speaks : Bool)
    (t : FifoTransfer) (x y : Dialogue.State) : ℕ :=
  remaining (Tftpsender.speaker (Tftpsender.script hbs hF speaks) B [])
    (TftpReceiver.speaker (TftpReceiver.script hbs hF (!speaks)) A []) x y t.sender t.receiver
    t.toSender t.toReceiver

theorem init_inTurn (h : (fifo A B F bs).init t) (hbs : 8 ≤ bs) (hF : F.length < 65535 * bs) :
    ∃ speaks, t.InTurn A B hbs hF speaks ⟨.idle, 0⟩ ⟨.idle, 0⟩ := by
  obtain ⟨s, r, i, j⟩ := t
  obtain ⟨h, rfl, rfl⟩ := h
  cases h with
  | rrq t t' => exact ⟨true, .init (Tftpsender.newConnected_at [] rfl t) (TftpReceiver.new_at [] rfl t')⟩
  | wrq t t' => exact ⟨false, .init (Tftpsender.new_at [] rfl t) (TftpReceiver.newConnected_at [] rfl t')⟩

namespace InTurn

/-- What has been sent to the sender, and to the receiver. -/
theorem sentTo (h : t.InTurn A B hbs hF speaks x y) :
    sentTo A t.receiver.io.wire = (List.range ((TftpReceiver.script hbs hF (!speaks)).party.sent y)).map
      (TftpReceiver.script hbs hF (!speaks)).party.out ∧
    sentTo B t.sender.io.wire = (List.range ((Tftpsender.script hbs hF speaks).party.sent x)).map
      (Tftpsender.script hbs hF speaks).party.out := by
  rw [show t.receiver.io.wire = _ from h.right.wire, show t.sender.io.wire = _ from h.left.wire]
  exact ⟨sentTo_wireAt (TftpReceiver.speaker (TftpReceiver.script hbs hF (!speaks)) A []) y,
    sentTo_wireAt (Tftpsender.speaker (Tftpsender.script hbs hF speaks) B []) x⟩

theorem length_sentTo (h : t.InTurn A B hbs hF speaks x y) :
    (Ttftp.sentTo A t.receiver.io.wire).length = (TftpReceiver.script hbs hF (!speaks)).party.sent y ∧
    (Ttftp.sentTo B t.sender.io.wire).length = (Tftpsender.script hbs hF speaks).party.sent x := by
  simp only [h.sentTo, List.length_map, List.length_range, and_self]

/-- **Every event keeps the ends in turn**, and brings the transfer closer to its
    end. -/
theorem step (h : t.InTurn A B hbs hF speaks x y) (hbs' : bs ≤ 65464) {e : FifoEvent} {t' : FifoTransfer}
    (hstep : step A B t e = some t') : ∃ x' y', t'.InTurn A B hbs hF speaks x' y' ∧
      left A B hbs hF speaks t' x' y' < left A B hbs hF speaks t x y := by
  have hL := script_linked hbs hbs' hF speaks A B [] []
  cases e with
  | sender e =>
    simp only [FifoTransfer.step] at hstep
    split_ifs at hstep with ha
    obtain ⟨s', hs', rfl⟩ := Option.map_eq_some_iff.1 hstep
    obtain ⟨x', hj, hlt, -⟩ := Joined.left_step h hL (orderly_of_fifoAllows ha) (fun src d he => by
      subst he
      rw [fifoAllows_deliver, h.sentTo.1] at ha
      exact ha) hs'
    exact ⟨x', y, hj, hlt⟩
  | receiver e =>
    simp only [FifoTransfer.step] at hstep
    split_ifs at hstep with ha
    obtain ⟨r', hr', rfl⟩ := Option.map_eq_some_iff.1 hstep
    obtain ⟨y', hj, hlt, -⟩ := Joined.right_step h hL (orderly_of_fifoAllows ha) (fun src d he => by
      subst he
      rw [fifoAllows_deliver, h.sentTo.2] at ha
      exact ha) hr'
    exact ⟨x, y', hj, hlt⟩
  | discardToSender =>
    simp only [FifoTransfer.step] at hstep
    split_ifs at hstep with ha
    cases hstep
    rw [Bool.and_eq_true, decide_eq_true_eq, h.length_sentTo.1, Bool.not_eq_true'] at ha
    obtain ⟨hj, hlt⟩ := Joined.left_discard h ha.1 ha.2
    exact ⟨x, y, hj, hlt⟩
  | discardToReceiver =>
    simp only [FifoTransfer.step] at hstep
    split_ifs at hstep with ha
    cases hstep
    rw [Bool.and_eq_true, decide_eq_true_eq, h.length_sentTo.2, Bool.not_eq_true'] at ha
    obtain ⟨hj, hlt⟩ := Joined.right_discard h ha.1 ha.2
    exact ⟨x, y, hj, hlt⟩

/-- At rest both ends have ended. -/
theorem ended (h : t.InTurn A B hbs hF speaks x y) (hbs' : bs ≤ 65464) (hr : t.AtRest A B) :
    x.phase = .ended ∧ y.phase = .ended :=
  Joined.both_ended h (script_linked hbs hbs' hF speaks A B [] [])
    ⟨hr.started.1, hr.quiet.1, hr.toSender.trans h.length_sentTo.1⟩
    ⟨hr.started.2, hr.quiet.2, hr.toReceiver.trans h.length_sentTo.2⟩

/-- A transfer that is not at rest has an event. -/
theorem progress (h : t.InTurn A B hbs hF speaks x y) (hr : ¬ t.AtRest A B) :
    ∃ e t', FifoTransfer.step A B t e = some t' := by
  by_cases hs : t.sender.io.started = true ∧ t.sender.io.Quiet ∧
      t.toSender = (TftpReceiver.script hbs hF (!speaks)).party.sent y
  · have hr' : ¬ (t.receiver.io.started = true ∧ t.receiver.io.Quiet ∧
        t.toReceiver = (Tftpsender.script hbs hF speaks).party.sent x) := fun hr' =>
      hr ⟨⟨hs.1, hr'.1⟩, ⟨hs.2.1, hr'.2.1⟩, hs.2.2.trans h.length_sentTo.1.symm,
        hr'.2.2.trans h.length_sentTo.2.symm⟩
    rcases h.symm.left_progress hr' with ⟨e, s', ho, hd, hstep⟩ | ⟨d, s', hm, hstep⟩ | ⟨hc, hlt⟩
    · exact ⟨.receiver e, _, (if_pos (fifoAllows_of_orderly ho hd)).trans (by rw [hstep]; rfl)⟩
    · refine ⟨.receiver (.deliver A d), _, (if_pos ?_).trans (congrArg (Option.map _) hstep)⟩
      rw [fifoAllows_deliver, h.sentTo.2]
      exact ⟨rfl, hm⟩
    · refine ⟨.discardToReceiver, _, if_pos ?_⟩
      rw [Bool.and_eq_true, decide_eq_true_eq, h.length_sentTo.2, Bool.not_eq_true']
      exact ⟨hc, hlt⟩
  · rcases Joined.left_progress h hs with ⟨e, s', ho, hd, hstep⟩ | ⟨d, s', hm, hstep⟩ | ⟨hc, hlt⟩
    · exact ⟨.sender e, _, (if_pos (fifoAllows_of_orderly ho hd)).trans (by rw [hstep]; rfl)⟩
    · refine ⟨.sender (.deliver B d), _, (if_pos ?_).trans (congrArg (Option.map _) hstep)⟩
      rw [fifoAllows_deliver, h.sentTo.1]
      exact ⟨rfl, hm⟩
    · refine ⟨.discardToSender, _, if_pos ?_⟩
      rw [Bool.and_eq_true, decide_eq_true_eq, h.length_sentTo.1, Bool.not_eq_true']
      exact ⟨hc, hlt⟩

end InTurn

theorem reach_inTurn (hbs : 8 ≤ bs) (hbs' : bs ≤ 65464) (hF : F.length < 65535 * bs)
    (h : (fifo A B F bs).Reach t) : ∃ speaks x y, t.InTurn A B hbs hF speaks x y := by
  refine h.inv (fun t => ∃ speaks x y, t.InTurn A B hbs hF speaks x y) (fun t h => ?_)
    fun t e t' _ ⟨speaks, x, y, h⟩ hstep => ?_
  · obtain ⟨speaks, hj⟩ := init_inTurn h hbs hF
    exact ⟨speaks, _, _, hj⟩
  · obtain ⟨x', y', hj, -⟩ := h.step hbs' hstep
    exact ⟨speaks, x', y', hj⟩

/-- Both ends have ended and have reported success once, the receiver's stream holds the
    file, and each block of the file has been sent once, the last of them a short one. -/
structure Completed (B : Endpoint) (F : Bytes) (blocksize : ℕ) (t : FifoTransfer) : Prop where
  ended : t.sender.operationEnded = true ∧ t.receiver.operationEnded = true
  callbacks : t.sender.callbacks = [.noerr] ∧ t.receiver.callbacks = [.noerr]
  content : t.receiver.output.content = F
  wire : t.sender.io.wire = (List.range (F.length / blocksize + 1)).map fun i => (B, dataOf F blocksize (i + 1))
  short : (block F blocksize (F.length / blocksize)).length < blocksize
  empty : blocksize ∣ F.length → block F blocksize (F.length / blocksize) = []

/-- It comes to rest, whatever has happened so far. -/
theorem fifo_comes_to_rest (hbs : 8 ≤ bs) (hbs' : bs ≤ 65464) (hF : F.length < 65535 * bs)
    (h : (fifo A B F bs).Reach t) :
    ∃ es t', (fifo A B F bs).run t es = some t' ∧ t'.AtRest A B := by
  obtain ⟨speaks, x, y, hj⟩ := reach_inTurn hbs hbs' hF h
  have hstep : ∀ t n, (∃ x y, t.InTurn A B hbs hF speaks x y ∧ left A B hbs hF speaks t x y = n) →
      ¬ t.AtRest A B → ∃ e t' n', (fifo A B F bs).step t e = some t' ∧
        (∃ x y, t'.InTurn A B hbs hF speaks x y ∧ left A B hbs hF speaks t' x y = n') ∧ n' < n := by
    rintro t n ⟨x, y, hj, rfl⟩ hr
    obtain ⟨e, t', he⟩ := hj.progress hr
    obtain ⟨x', y', hj', hlt⟩ := hj.step hbs' he
    exact ⟨e, t', _, he, ⟨x', y', hj', rfl⟩, hlt⟩
  obtain ⟨es, t', -, hrun, -, hr⟩ := Lts.exists_rest hstep ⟨x, y, hj, rfl⟩
  exact ⟨es, t', hrun, hr⟩

/-- It cannot go on forever. -/
theorem fifo_bounded (hbs : 8 ≤ bs) (hbs' : bs ≤ 65464) (hF : F.length < 65535 * bs)
    (h : (fifo A B F bs).Reach t) :
    ∃ n, ∀ es t', (fifo A B F bs).run t es = some t' → es.length ≤ n := by
  obtain ⟨speaks, x, y, hj⟩ := reach_inTurn hbs hbs' hF h
  refine ⟨_, fun es t' hrun => Lts.run_length_le (I := fun t n =>
    ∃ x y, t.InTurn A B hbs hF speaks x y ∧ left A B hbs hF speaks t x y = n) ?_ ⟨x, y, hj, rfl⟩ hrun⟩
  rintro t n e t' ⟨x, y, hj, rfl⟩ hstep
  obtain ⟨x', y', hj', hlt⟩ := hj.step hbs' hstep
  exact ⟨_, ⟨x', y', hj', rfl⟩, hlt⟩

/-- Where it is at rest it has completed. -/
theorem fifo_completed (hbs : 8 ≤ bs) (hbs' : bs ≤ 65464) (hF : F.length < 65535 * bs)
    (h : (fifo A B F bs).Reach t) (hr : t.AtRest A B) : t.Completed B F bs := by
  obtain ⟨speaks, x, y, hj⟩ := reach_inTurn hbs hbs' hF h
  obtain ⟨hx, hy⟩ := hj.ended hbs' hr
  have hs := hj.left.data
  have hrec := hj.right.data
  have htotal : (Tftpsender.speaker (Tftpsender.script hbs hF speaks) B []).party.sent x =
      F.length / bs + 1 := by
    obtain ⟨px, n⟩ := x
    obtain rfl : px = .ended := hx
    cases speaks <;> rfl
  refine ⟨⟨?_, ?_⟩, ⟨?_, ?_⟩, ?_, ?_, ?_, fun hdvd => ?_⟩
  · rw [hs.ended, hx]
    rfl
  · rw [hrec.ended, hy]
    rfl
  · rw [hs.callbacks, if_pos hx]
    rfl
  · rw [hrec.callbacks, if_pos hy]
  · rw [hrec.content, if_pos hy]
  · refine Eq.trans hj.left.wire ?_
    rw [Speaker.wireAt, htotal]
    rfl
  · rw [length_block_lt F (by omega)]
    exact short_lastBlock hbs
  · rw [← List.length_eq_zero_iff, length_block, Nat.div_mul_cancel hdvd, Nat.sub_self, Nat.min_zero]

/-- **A transfer over an in-order network completes.**  Whatever has happened so far, it can go
    on to a rest, it cannot go on forever, and wherever it is at rest it has completed. -/
theorem fifo_completes (hbs : 8 ≤ bs) (hbs' : bs ≤ 65464) (hF : F.length < 65535 * bs)
    (h : (fifo A B F bs).Reach t) :
    (t.AtRest A B → t.Completed B F bs) ∧
    (∃ es t', (fifo A B F bs).run t es = some t' ∧ t'.AtRest A B) ∧
    ∃ n, ∀ es t', (fifo A B F bs).run t es = some t' → es.length ≤ n :=
  ⟨fifo_completed hbs hbs' hF h, fifo_comes_to_rest hbs hbs' hF h, fifo_bounded hbs hbs' hF h⟩

/-- A file of twenty bytes, in three blocks. -/
def threeBlocks : Bytes := (List.range 20).map UInt8.ofNat

theorem fifo_completes_three_blocks : ∃ t, (fifo ⟨1, 1⟩ ⟨2, 2⟩ threeBlocks 8).Reach t ∧ t.AtRest ⟨1, 1⟩ ⟨2, 2⟩ ∧
    t.Completed ⟨2, 2⟩ threeBlocks 8 := by
  have hinit : (fifo ⟨1, 1⟩ ⟨2, 2⟩ threeBlocks 8).Reach
      ⟨.newConnected {} (.ofFile (some threeBlocks)) ⟨2, 2⟩ 1 8 2, .new {} {} 8 2, 0, 0⟩ :=
    .init (And.intro (Pairing.rrq 2 2) ⟨rfl, rfl⟩)
  obtain ⟨-, ⟨es, t, hrun, hrest⟩, -⟩ := fifo_completes (by decide) (by decide) (by decide) hinit
  have hreach := hinit.run hrun
  exact ⟨t, hreach, hrest, (fifo_completes (by decide) (by decide) (by decide) hreach).1 hrest⟩

end FifoTransfer

end Ttftp

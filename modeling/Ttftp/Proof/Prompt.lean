/-
  A sender with a prompt peer: which files it sends whole.

  Below 65535 blocks the sender plays `Tftpsender.script`, as over an in-order network
  (`PromptTransfer.Serves`).  A file that fills block 65535 is never sent whole: no
  sender gets past that block (`Sent.bound`), so that no short block is ever sent.
-/
import Ttftp.Proof.Fifo
import Ttftp.Proof.Discipline

namespace Ttftp

open Bytes Asio
open Dialogue (Party)

namespace PromptTransfer
variable {B : Endpoint} {F : Bytes} {bs : ℕ} {t : PromptTransfer}

/-- What the first ACK is for a sender that speaks first, or not. -/
def firstAckOf (speaks : Bool) : ℤ := speaks.toNat

/-- The ACKs for the blocks of a file. -/
theorem promptAcks_blocks (B : Endpoint) (F : Bytes) (bs : ℕ) (speaks : Bool) (m : ℕ) :
    promptAcks B (firstAckOf speaks) ((List.range m).map fun i => (B, dataOf F bs (i + 1))) =
      (List.range (m + (!speaks).toNat)).map fun n => ackOf (n + speaks.toNat) := by
  have hack : ∀ i, AckMessage.encode ⟨ntohs (dataOf F bs i) 2⟩ = ackOf i := fun i =>
    congrArg (fun nr => AckMessage.encode ⟨nr⟩) (ntohs_htons (htons _) _ _)
  have hdata : dataSent ((List.range m).map fun i => (B, dataOf F bs (i + 1))) =
      (List.range m).map fun i => dataOf F bs (i + 1) := by
    rw [dataSent, List.map_map, List.filter_eq_self.2]
    · rfl
    · intro d hd
      obtain ⟨i, -, rfl⟩ := List.mem_map.1 hd
      exact decide_eq_true (ntohs_dataBytes _ _)
  have hfilter : ((List.range m).map fun i => (B, dataOf F bs (i + 1))).filter (·.1 = B) =
      (List.range m).map fun i => (B, dataOf F bs (i + 1)) :=
    List.filter_eq_self.2 (by simp)
  rw [promptAcks, hfilter, hdata, List.map_map]
  cases speaks with
  | false =>
    rw [show m + (!false).toNat = m + 1 from rfl, List.range_succ_eq_map, List.map_cons, List.map_map]
    simp only [firstAckOf, Bool.toNat_false, Nat.cast_zero, if_true, Function.comp_def, hack]
    rfl
  | true =>
    simp only [firstAckOf, Bool.toNat_true, Function.comp_def, hack]
    rfl

/-- The sender is in the course of its part. -/
structure Serves (B : Endpoint) (hbs : 8 ≤ bs) (hF : F.length < 65535 * bs) (speaks : Bool)
    (t : PromptTransfer) (x : Dialogue.State) : Prop where
  at_ : (Tftpsender.speaker (Tftpsender.script hbs hF speaks) B []).At x t.sender
  valid : (Tftpsender.script hbs hF speaks).party.Valid x
  delivered : t.toSender = x.delivered

namespace Serves
variable {hbs : 8 ≤ bs} {hF : F.length < 65535 * bs} {speaks : Bool} {x : Dialogue.State}

theorem init {s : Tftpsender} (h : Starts B F bs (firstAckOf speaks) s) :
    Serves B hbs hF speaks ⟨s, 0⟩ ⟨.idle, 0⟩ := by
  generalize hf : firstAckOf speaks = firstAck at h
  cases h with
  | known _ t => exact ⟨Tftpsender.newConnected_at [] hf.symm t, rfl, rfl⟩
  | unknown t =>
    have hs : speaks = false := by
      cases speaks with
      | false => rfl
      | true => cases hf
    exact ⟨Tftpsender.new_at [] hs t, rfl, rfl⟩

theorem acks (h : t.Serves B hbs hF speaks x) : promptAcks B (firstAckOf speaks) t.sender.io.wire =
    (List.range ((Tftpsender.script hbs hF speaks).party.sent x + (!speaks).toNat)).map
      fun n => ackOf (n + speaks.toNat) := by
  rw [show t.sender.io.wire = _ from h.at_.wire]
  exact promptAcks_blocks B F bs speaks _

/-- The next ACK is the one that the sender waits for. -/
theorem next (h : t.Serves B hbs hF speaks x) (hx : x.phase = .waiting) :
    (promptAcks B (firstAckOf speaks) t.sender.io.wire)[t.toSender]? = some (ackOf (x.taken + speaks.toNat)) := by
  obtain ⟨ph, n⟩ := x
  obtain rfl : ph = .waiting := hx
  have hlt : n < n + speaks.toNat + (!speaks).toNat := by cases speaks <;> simp
  rw [h.acks, show t.toSender = n from h.delivered, List.getElem?_map]
  change ((List.range (n + speaks.toNat + (!speaks).toNat))[n]?).map _ = _
  rw [List.getElem?_range hlt]
  rfl

/-- Every event keeps the sender in its part, and brings it closer to the end. -/
theorem step (h : t.Serves B hbs hF speaks x) (hbs' : bs ≤ 65464) {e : Event Endpoint} {t' : PromptTransfer}
    (hstep : PromptTransfer.step B (firstAckOf speaks) t e = some t') : ∃ x', t'.Serves B hbs hF speaks x' ∧
      (Tftpsender.speaker (Tftpsender.script hbs hF speaks) B []).measure x' t'.sender +
          (Tftpsender.script hbs hF speaks).party.sent x' <
        (Tftpsender.speaker (Tftpsender.script hbs hF speaks) B []).measure x t.sender +
          (Tftpsender.script hbs hF speaks).party.sent x := by
  have hpos : 0 < (Tftpsender.script hbs hF speaks).party.last := by
    have hK : 1 ≤ lastBlock F bs := Nat.succ_pos _
    have hone := speaks.toNat_le
    change 0 < lastBlock F bs + 1 - speaks.toNat
    omega
  simp only [PromptTransfer.step] at hstep
  split_ifs at hstep with ha
  obtain ⟨s', hs', rfl⟩ := Option.map_eq_some_iff.1 hstep
  have hd : ∀ src d, e = .deliver src d → src = B ∧ d = ackOf (x.taken + speaks.toNat) := by
    rintro src d rfl
    rw [fifoAllows_deliver, h.next (h.at_.phase_of_deliver hs')] at ha
    exact ⟨ha.1, (Option.some.inj ha.2).symm⟩
  obtain ⟨x', hat, hlt, hcase⟩ := h.at_.step (Tftpsender.speaker_spec hbs hbs') h.valid
    (orderly_of_fifoAllows ha) hd hs'
  refine ⟨x', ?_, hlt⟩
  rcases hcase with ⟨hm, hw⟩ | ⟨rfl, he⟩
  · refine ⟨hat, h.valid.move hpos hm, ?_⟩
    by_cases hx : x.phase = .waiting
    · rw [hm.delivered_of_waiting hx, hw.1 hx, h.delivered]
      rfl
    · rw [hm.delivered_of_ne hx, Bool.eq_false_iff.2 (mt hw.2 hx), h.delivered]
      rfl
  · exact ⟨hat, h.valid, by rw [he]; exact h.delivered⟩

/-- The sender comes to rest at its end only. -/
theorem ended (h : t.Serves B hbs hF speaks x) (hr : t.AtRest B (firstAckOf speaks)) : x.phase = .ended := by
  have henabled : ∀ e s', fifoAllows B (promptAcks B (firstAckOf speaks) t.sender.io.wire)[t.toSender]? e = true →
      Tftpsender.proactor.step t.sender e ≠ some s' := by
    intro e s' ha hs'
    have hnone := hr e
    rw [PromptTransfer.step, if_pos ha, hs'] at hnone
    cases hnone
  have hquiet : t.sender.io.started = true ∧ t.sender.io.Quiet := by
    by_contra hno
    obtain ⟨e, s', ho, hd, hs'⟩ := h.at_.progress hno
    exact henabled e s' (fifoAllows_of_orderly ho hd) hs'
  rcases h.at_.rests hquiet.1 hquiet.2 with hx | hx
  · obtain ⟨s', hs'⟩ := h.at_.delivers hx B (ackOf (x.taken + speaks.toNat))
    exact absurd hs' (henabled _ s' (fifoAllows_deliver.2 ⟨rfl, h.next hx⟩))
  · exact hx

/-- At its end it has sent the file. -/
theorem sentWhole (h : t.Serves B hbs hF speaks x) (hx : x.phase = .ended) :
    t.SentWhole F bs (firstAckOf speaks) := by
  obtain ⟨ph, n⟩ := x
  obtain rfl : ph = .ended := hx
  have htotal : (Tftpsender.script hbs hF speaks).party.total = F.length / bs + 1 := by cases speaks <;> rfl
  refine ⟨?_, ?_, ?_⟩
  · have hwire : t.sender.io.wire = (List.range (F.length / bs + 1)).map fun i => (B, dataOf F bs (i + 1)) := by
      rw [← htotal]
      exact h.at_.wire
    have hdata : dataSent t.sender.io.wire = (List.range (F.length / bs + 1)).map fun i => dataOf F bs (i + 1) := by
      rw [hwire, dataSent, List.map_map, List.filter_eq_self.2]
      · rfl
      · intro d hd
        obtain ⟨i, -, rfl⟩ := List.mem_map.1 hd
        exact decide_eq_true (ntohs_dataBytes _ _)
    rw [hdata, List.map_map]
    rfl
  · have hn : n = lastBlock F bs + 1 - speaks.toNat := h.valid
    rw [show t.toSender = n from h.delivered, hn, lastBlock]
    cases speaks with
    | false =>
      rw [if_pos (show firstAckOf false = 0 from rfl), Bool.toNat_false]
      omega
    | true =>
      rw [if_neg (show firstAckOf true ≠ 0 by decide), Bool.toNat_true]
      omega
  · exact h.at_.data.callbacks

end Serves

theorem Starts.sendsFile {firstAck : ℤ} {s : Tftpsender} (h : Starts B F bs firstAck s) :
    Tftpsender.SendsFile F bs s ∧ ∃ speaks, firstAck = firstAckOf speaks := by
  cases h with
  | known hack t =>
    refine ⟨.known B hack t, ?_⟩
    rcases hack with rfl | rfl
    · exact ⟨false, rfl⟩
    · exact ⟨true, rfl⟩
  | unknown t => exact ⟨.unknown (.inl rfl) t, false, rfl⟩

/-- In a run of the transfer the sender makes a run of its own. -/
theorem reach_advanced {firstAck : ℤ} (hbs : 8 ≤ bs) (hbs' : bs ≤ 65464)
    (h : (prompt B F bs firstAck).Reach t) : ∃ n, t.sender.Advanced F bs n := by
  refine h.inv (fun t => ∃ n, t.sender.Advanced F bs n) (fun t h => ⟨0, .init h.1.sendsFile.1⟩)
    fun t e t' _ ⟨n, hs⟩ hstep => ?_
  simp only [prompt, step] at hstep
  split_ifs at hstep
  obtain ⟨s', hs', rfl⟩ := Option.map_eq_some_iff.1 hstep
  obtain ⟨n', hn', -⟩ := hs.step hbs hbs' hs'
  exact ⟨n', hn'⟩

/-- A file that fills block 65535 is not sent whole: no short block is ever sent. -/
theorem not_sentWhole {firstAck : ℤ} (hbs : 8 ≤ bs) (hbs' : bs ≤ 65464) (hF : 65535 * bs ≤ F.length)
    (h : (prompt B F bs firstAck).Reach t) : ¬ t.SentWhole F bs firstAck := by
  intro hw
  obtain ⟨n, hd, -⟩ := reach_advanced hbs hbs' h
  have hlast : block F bs (F.length / bs) ∈ (dataSent t.sender.io.wire).map (List.drop 4) := by
    rw [hw.data]
    exact List.mem_map.2 ⟨_, List.mem_range.2 (Nat.lt_succ_self _), rfl⟩
  obtain ⟨d, hmem, hdrop⟩ := List.mem_map.1 hlast
  have hdata := hd.sent.data d hmem
  have hnr := (hd.sent.numbers (blockNr d)).1 (List.mem_map.2 ⟨d, hmem, rfl⟩)
  have hbound := hd.sent.bound
  have hblock : block F bs (blockNr d - 1) = block F bs (F.length / bs) := by
    rw [← hdrop, hdata, blockNr_dataOf _ _ (by omega)]
    rfl
  have hshort : (block F bs (F.length / bs)).length < bs := by
    rw [length_block_lt F (by omega)]
    exact short_lastBlock hbs
  rw [← hblock, length_block_lt F (by omega), Nat.sub_add_cancel hnr.1] at hshort
  have hmul : blockNr d * bs ≤ 65535 * bs := Nat.mul_le_mul_right _ (by omega)
  omega

/-- **Which files a sender sends whole** to a peer that acknowledges promptly: whatever
    has happened so far, the transfer comes to rest, and where it does the file has been
    sent block by block and the last ACK has ended it, exactly if the file does not fill
    block 65535. -/
theorem sent_whole_iff (hbs : 8 ≤ bs) (hbs' : bs ≤ 65464) {firstAck : ℤ} {s₀ : Tftpsender}
    (h₀ : Starts B F bs firstAck s₀) :
    (∀ es t, (prompt B F bs firstAck).run ⟨s₀, 0⟩ es = some t →
      (t.AtRest B firstAck → t.SentWhole F bs firstAck) ∧
      ∃ es' t', (prompt B F bs firstAck).run t es' = some t' ∧ t'.AtRest B firstAck) ↔
    F.length < 65535 * bs := by
  have hinit : (prompt B F bs firstAck).Reach ⟨s₀, 0⟩ := .init ⟨h₀, rfl⟩
  constructor
  · intro h
    by_contra hF
    obtain ⟨-, es', t', hrun, hrest⟩ := h [] _ rfl
    exact not_sentWhole hbs hbs' (not_lt.1 hF) (hinit.run hrun) ((h es' t' hrun).1 hrest)
  · intro hF es t hrun
    obtain ⟨speaks, rfl⟩ := h₀.sendsFile.2
    have hserves : ∃ x, t.Serves B hbs hF speaks x := by
      refine (hinit.run hrun).inv (fun t => ∃ x, t.Serves B hbs hF speaks x) ?_ ?_
      · rintro ⟨s, i⟩ ⟨h, rfl⟩
        exact ⟨_, .init h⟩
      · rintro t e t' - ⟨x, h⟩ hstep
        obtain ⟨x', h', -⟩ := h.step hbs' hstep
        exact ⟨x', h'⟩
    obtain ⟨x, hx⟩ := hserves
    refine ⟨fun hr => hx.sentWhole (hx.ended hr), ?_⟩
    have hprogress : ∀ t n, (∃ x, t.Serves B hbs hF speaks x ∧
        (Tftpsender.speaker (Tftpsender.script hbs hF speaks) B []).measure x t.sender +
          (Tftpsender.script hbs hF speaks).party.sent x = n) → ¬ t.AtRest B (firstAckOf speaks) →
        ∃ e t' n', (prompt B F bs (firstAckOf speaks)).step t e = some t' ∧
          (∃ x, t'.Serves B hbs hF speaks x ∧
            (Tftpsender.speaker (Tftpsender.script hbs hF speaks) B []).measure x t'.sender +
              (Tftpsender.script hbs hF speaks).party.sent x = n') ∧ n' < n := by
      rintro t n ⟨x, hx, rfl⟩ hr
      obtain ⟨e, he⟩ := not_forall.1 hr
      obtain ⟨t', ht'⟩ := Option.ne_none_iff_exists'.1 he
      obtain ⟨x', hx', hlt⟩ := hx.step hbs' ht'
      exact ⟨e, t', _, ht', ⟨x', hx', rfl⟩, hlt⟩
    obtain ⟨es', t', -, hrun', -, hr⟩ := Lts.exists_rest hprogress ⟨x, hx, rfl⟩
    exact ⟨es', t', hrun', hr⟩

/-- A file of three blocks is sent whole. -/
theorem sent_whole_three_blocks : ∃ es t, (prompt ⟨1, 2⟩ FifoTransfer.threeBlocks 8 1).run
      ⟨.newConnected {} (.ofFile (some FifoTransfer.threeBlocks)) ⟨1, 2⟩ 1 8 2, 0⟩ es = some t ∧
    t.AtRest ⟨1, 2⟩ 1 ∧ t.SentWhole FifoTransfer.threeBlocks 8 1 := by
  have hall := (@sent_whole_iff ⟨1, 2⟩ FifoTransfer.threeBlocks 8 (by decide) (by decide) 1 _
    (.known (.inr rfl) 2)).2 (by decide)
  obtain ⟨-, es, t, hrun, hrest⟩ := hall [] _ rfl
  exact ⟨es, t, hrun, hrest, (hall es t hrun).1 hrest⟩

/-- A file of 65535 full blocks is not. -/
theorem zeros_not_sent_whole : ¬ ∀ B F bs firstAck s₀, 8 ≤ bs → bs ≤ 65464 → Starts B F bs firstAck s₀ →
    ∀ es t, (prompt B F bs firstAck).run ⟨s₀, 0⟩ es = some t →
      (t.AtRest B firstAck → t.SentWhole F bs firstAck) ∧
      ∃ es' t', (prompt B F bs firstAck).run t es' = some t' ∧ t'.AtRest B firstAck := by
  intro h
  have hstarts : Starts ⟨1, 2⟩ (List.replicate (65535 * 8) 0) 8 1
      (.newConnected {} (.ofFile (some (List.replicate (65535 * 8) 0))) ⟨1, 2⟩ 1 8 2) := .known (.inr rfl) 2
  have hall := h _ _ _ _ _ (by decide) (by decide) hstarts
  obtain ⟨-, es', t', hrun, hrest⟩ := hall [] _ rfl
  have hreach : (prompt ⟨1, 2⟩ (List.replicate (65535 * 8) 0) 8 1).Reach
      ⟨.newConnected {} (.ofFile (some (List.replicate (65535 * 8) 0))) ⟨1, 2⟩ 1 8 2, 0⟩ := .init ⟨hstarts, rfl⟩
  exact not_sentWhole (by decide) (by decide) (by rw [List.length_replicate]) (hreach.run hrun)
    ((hall es' t' hrun).1 hrest)

end PromptTransfer

end Ttftp

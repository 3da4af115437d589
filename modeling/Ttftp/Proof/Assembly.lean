/-
  What a receiver assembles (`receiver_discipline`): the blocks that its peer sends first
  while each is the next one, in their order and each once; and it acknowledges what it has
  written.
-/
import Ttftp.Proof.Reception

namespace Ttftp

open Bytes Asio

namespace TftpReceiver

/-- The objects of the two constructors that take no block, with a fresh socket and an
    empty stream that accepts all writes. -/
inductive Fresh (bs : ℕ) : TftpReceiver → Prop
  | unknown (timeoutSeconds : UInt8) : Fresh bs (new {} {} bs timeoutSeconds)
  | known (remote : Endpoint) (timeoutSeconds : UInt8) :
      Fresh bs (newConnected {} {} remote bs timeoutSeconds)

theorem Fresh.constructed {bs : ℕ} {s : TftpReceiver} (h : Fresh bs s) : Constructed s := by
  cases h with
  | unknown t => exact .unknown false (fun _ => true) bs t
  | known remote t => exact .known false (fun _ => true) remote bs t

/-- What is handled is the next block, block `nr`, from `src` with the payload `p`. -/
def OffersBlock (bs nr : ℕ) (src : Endpoint) (p : Bytes) (x : TftpReceiver × Completion Endpoint) : Prop :=
  x.1.lastreceiveddatacount.toNat + 1 = nr ∧ ∃ d, x.2 = .datagram src d ∧
    (Reception.message bs d).1 = true ∧ (Reception.message bs d).2.mBlockNr.toNat = nr ∧
    (Reception.message bs d).2.mData = p

/-- The first datagram with the next block `nr`, among those whose source is `ok`. -/
def FirstBlock (ok : TftpReceiver → Endpoint → Prop) (bs : ℕ) (hs : List (TftpReceiver × Completion Endpoint))
    (src : Endpoint) (nr : ℕ) (p : Bytes) : Prop :=
  ∃ h₁ x h₂, hs = h₁ ++ x :: h₂ ∧ OffersBlock bs nr src p x ∧ ok x.1 src ∧
    ∀ y ∈ h₁, ∀ src' p', OffersBlock bs nr src' p' y → ¬ ok y.1 src'

/-- From the peer, or from anybody as long as there is no peer. -/
def FromPeer (s : TftpReceiver) (src : Endpoint) : Prop := s.isConnected = true → src = s.mSenderEndpoint

/-- After the transitions `tr`, the blocks `ps` have been written: each is the first that
    was offered, and all come from one endpoint. -/
structure Assembled (ok : TftpReceiver → Endpoint → Prop) (bs : ℕ)
    (tr : List (TftpReceiver × Event Endpoint × TftpReceiver)) (s : TftpReceiver) (ps : List Bytes) : Prop where
  count : s.lastreceiveddatacount.toNat = ps.length
  writes : s.output.writes = ps.map (·, true)
  content : s.output.content = ps.flatten
  blocks : ∀ i p, ps[i]? = some p → FirstBlock ok bs (handled proactor tr) s.mSenderEndpoint (i + 1) p
  full : ∀ i p, ps[i]? = some p → i + 1 < ps.length → p.length = bs
  /-- an ACK carries the number of blocks that have been written when it is sent -/
  acks : ∀ x ∈ tr, ∃ w, x.2.2.io.wire = x.1.io.wire ++ w ∧ ∀ n ∈ ackNrs w, n = x.2.2.output.writes.length
  sorted : (ackNrs s.io.wire).Pairwise (· ≤ ·)

/-! ## The last block -/

/-- Nothing is received any more. -/
def Over (s : TftpReceiver) : Prop := s.io.started = true ∧ (s.io.tokens = 0 ∨ s.threw = true)

theorem Over.step {s s' : TftpReceiver} {e : Event Endpoint} (ho : s.Over) (h : proactor.step s e = some s') :
    s'.Over ∧ (e = .expire ∨ ∃ i, e = .runTimer i) := by
  have ht : s.io.tokens = 0 := ho.2.resolve_right fun ht =>
    absurd ((Proactor.step_cases h).1.symm.trans ht) (by simp)
  obtain ⟨⟨h1, h2⟩, h3⟩ := single.idle_step ho.1 ht h
  exact ⟨⟨h1, .inl h2⟩, h3⟩

/-- After a short block there is nothing left to do, or the last ACK has thrown. -/
theorem acceptBlock_over {s : TftpReceiver} (hs : s.io.started = true) (ht : s.io.tokens = 0) {n : ℕ}
    (hn : n ≠ s.blocksize + controlBytes) : (s.acceptBlock n).Over := by
  obtain ⟨t, htd⟩ : ∃ t, t = s.countBlock.writeBlock (s.receivedMsg n).2.mData := ⟨_, rfl⟩
  have hl : s.io.Leaves 0 t.io := by
    rw [← countBlock_io s, htd]
    unfold writeBlock
    split_ifs
    · exact outputFileError_leaves _
    · exact .refl _
  have hc : t.isConnected = true := by rw [htd]; simp
  rw [acceptBlock, ← htd, decide_eq_true hn, sendNextAck_true t hc]
  split_ifs
  · have hlast : s.io.Leaves 0 (endOperation .success { t with
        lastsentack := ⟨t.lastreceiveddatacount⟩
        io := { t.io with
          wire := t.io.wire ++ [(t.mSenderEndpoint, AckMessage.encode ⟨t.lastreceiveddatacount⟩)] } }).io :=
      (endOperationWith_leaves _ _).after ((Io.Leaves.wire _ _).after hl)
    exact ⟨hlast.started.trans hs, .inl (Nat.le_zero.1 (hlast.tokens.trans ht.le))⟩
  · exact ⟨hl.started.trans hs, .inr rfl⟩

theorem datagram_over {s : TftpReceiver} (hs : s.WellFormed) {src : Endpoint} {d : Bytes} {n : ℕ}
    (h : s.Holds src d n) (hst : s.io.started = true) (ht : s.io.tokens = 0)
    (hk : s.reception.kind s.blocksize src d = .next)
    (hne : (Reception.message s.blocksize d).2.mData.length ≠ s.blocksize) :
    (s.checkReceivedBlock .success n).Over := by
  have hwf : WellFormed { s with io := s.io.timerCancel } := hs.io _ rfl
  have hb := blockBranch_success hwf (h.io s.io.timerCancel)
  have hk' : (reception { s with io := s.io.timerCancel }).kind s.blocksize src d = .next := hk
  rw [checkReceivedBlock]
  dsimp only at hb ⊢
  rw [hb, hk']
  refine acceptBlock_over (s := { s with io := s.io.timerCancel }) hst ht ?_
  -- a datagram that fills the buffer has a full payload
  rintro rfl
  obtain ⟨-, hm⟩ := Reception.kind_next hk
  obtain ⟨-, -, hp⟩ := DataMessage.decode_true hm
  have hn := h.length
  rw [hs.databuffer, controlBytes] at hn
  refine hne ?_
  rw [Reception.message, hp, List.length_drop, List.length_take, controlBytes]
  dsimp only at hn
  omega

/-! ## Whole runs -/

theorem FirstBlock.append {ok : TftpReceiver → Endpoint → Prop} {bs nr : ℕ} {src : Endpoint} {p : Bytes}
    {hs : List (TftpReceiver × Completion Endpoint)} (h : FirstBlock ok bs hs src nr p)
    (l : List (TftpReceiver × Completion Endpoint)) : FirstBlock ok bs (hs ++ l) src nr p := by
  obtain ⟨h₁, x, h₂, rfl, hx⟩ := h
  exact ⟨h₁, x, h₂ ++ l, by rw [List.append_assoc]; rfl, hx⟩

/-- What the completions `hs` have made of the receiver. -/
structure Gathers (bs : ℕ) (hs : List (TftpReceiver × Completion Endpoint)) (s : TftpReceiver)
    (ps : List Bytes) : Prop where
  wf : s.WellFormed
  blocksize : s.blocksize = bs
  count : s.lastreceiveddatacount.toNat = ps.length
  output : s.output = { writes := ps.map (·, true) }
  blocks : ∀ i p, ps[i]? = some p → FirstBlock FromPeer bs hs s.mSenderEndpoint (i + 1) p
  full : ∀ i p, ps[i]? = some p → i + 1 < ps.length → p.length = bs
  /-- a short block is the last one -/
  last : ∀ p, ps.getLast? = some p → p.length ≠ bs → s.Over
  met : ps ≠ [] → s.isConnected = true
  /-- whatever the peer has offered has been taken -/
  counted : ∀ y ∈ hs, ∀ nr src p, OffersBlock bs nr src p y → FromPeer y.1 src → nr ≤ ps.length

namespace Gathers
variable {bs : ℕ} {hs l : List (TftpReceiver × Completion Endpoint)} {s s' : TftpReceiver} {ps : List Bytes}

theorem init (h : Fresh bs s) : Gathers bs [] s [] := by
  cases h <;> exact {
    wf := ⟨rfl, List.length_replicate⟩
    blocksize := rfl
    count := rfl
    output := rfl
    blocks := fun i p h => by cases h
    full := fun i p h => by cases h
    last := fun p h => by cases h
    met := fun h => absurd rfl h
    counted := fun y hy => by cases hy }

/-- Nothing is accepted. -/
theorem keep (h : Gathers bs hs s ps) (hwf : s'.WellFormed) (hb : s'.blocksize = s.blocksize)
    (hr : s.reception.Same s'.reception) (ho : s.Over → s'.Over)
    (hl : ∀ y ∈ l, ∀ nr src p, OffersBlock bs nr src p y → ¬ FromPeer y.1 src) : Gathers bs (hs ++ l) s' ps where
  wf := hwf
  blocksize := hb.trans h.blocksize
  count := (congrArg UInt16.toNat hr.count).trans h.count
  output := hr.output.trans h.output
  blocks i p hp := by
    have hpeer : s'.mSenderEndpoint = s.mSenderEndpoint := hr.peer
    rw [hpeer]
    exact (h.blocks i p hp).append l
  full := h.full
  last p hp hne := ho (h.last p hp hne)
  met hp := hr.connected.trans (h.met hp)
  counted y hy nr src p hoff hfrom := by
    rcases List.mem_append.1 hy with hy | hy
    · exact h.counted y hy nr src p hoff hfrom
    · exact absurd hfrom (hl y hy nr src p hoff)

/-- The next block is accepted. -/
theorem accept (h : Gathers bs hs s ps) (hwf : s'.WellFormed) (hb : s'.blocksize = s.blocksize)
    {src : Endpoint} {d : Bytes} (hk : s.reception.kind bs src d = .next)
    (hr : s'.reception = s.reception.accept bs src (Reception.message bs d).2.mData) (hrun : ¬ s.Over)
    (ho : (Reception.message bs d).2.mData.length ≠ bs → s'.Over) :
    Gathers bs (hs ++ [(s, .datagram src d)]) s' (ps ++ [(Reception.message bs d).2.mData]) := by
  obtain ⟨hf, hm⟩ := Reception.kind_next hk
  have hnr : (Reception.message bs d).2.mBlockNr.toNat = s.lastreceiveddatacount.toNat + 1 :=
    Reception.nr_next hk
  have hfrom : FromPeer s src := fun hc => by
    by_contra hne
    exact hf ⟨hc, hne⟩
  have hoffer : OffersBlock bs (ps.length + 1) src (Reception.message bs d).2.mData (s, .datagram src d) :=
    ⟨by rw [h.count], d, rfl, hm, by rw [hnr, h.count], rfl⟩
  have hcount : s'.lastreceiveddatacount = s.lastreceiveddatacount + 1 := congrArg Reception.count hr
  have hpeer : s'.mSenderEndpoint = src := congrArg Reception.peer hr
  generalize (Reception.message bs d).2.mData = p at *
  have hlen : (ps ++ [p]).length = ps.length + 1 := by rw [List.length_append]; rfl
  -- a short block would have been the last one
  have hlast : ∀ q, ps.getLast? = some q → q.length = bs := by
    intro q hq
    by_contra hne
    exact hrun (h.last q hq hne)
  refine ⟨hwf, hb.trans h.blocksize, ?_, ?_, ?_, ?_, ?_, fun _ => congrArg Reception.connected hr, ?_⟩
  · have hnext : (s.lastreceiveddatacount + 1).toNat = s.lastreceiveddatacount.toNat + 1 :=
      Reception.toNat_count_add_one hk
    rw [hcount, hnext, h.count, hlen]
  · have hout : s'.output = s.output.write p := congrArg Reception.output hr
    rw [hout, h.output, List.map_append]
    rfl
  · intro i q hq
    rw [hpeer]
    by_cases hi : i < ps.length
    · rw [List.getElem?_append_left hi] at hq
      have hne : ps ≠ [] := fun h0 => by rw [h0] at hi; exact absurd hi (Nat.not_lt_zero _)
      rw [hfrom (h.met hne)]
      exact (h.blocks i q hq).append _
    · have hi' : i = ps.length := by
        have := (List.getElem?_eq_some_iff.1 hq).1
        omega
      subst hi'
      rw [List.getElem?_concat_length, Option.some.injEq] at hq
      subst hq
      refine ⟨hs, (s, .datagram src d), [], rfl, hoffer, hfrom, fun y hy src' p' hoff hfr => ?_⟩
      have := h.counted y hy _ src' p' hoff hfr
      omega
  · intro i q hq hi
    rw [hlen] at hi
    rw [List.getElem?_append_left (by omega)] at hq
    by_cases hi' : i + 1 < ps.length
    · exact h.full i q hq hi'
    · refine hlast q ?_
      rw [List.getLast?_eq_getElem?, ← hq]
      congr 1
      omega
  · intro q hq hne
    rw [List.getLast?_concat, Option.some.injEq] at hq
    subst hq
    exact ho hne
  · intro y hy nr src' p' hoff hfr
    rw [hlen]
    rcases List.mem_append.1 hy with hy | hy
    · exact (h.counted y hy nr src' p' hoff hfr).trans (Nat.le_succ _)
    · rw [List.mem_singleton.1 hy] at hoff
      rw [← hoff.1, h.count]

/-- A datagram that is no next block offers none, or does not come from the peer. -/
theorem offers_nothing {c : Completion Endpoint}
    (hk : ∀ src d, c = .datagram src d → s.reception.kind bs src d ≠ .next) :
    ∀ nr src p, OffersBlock bs nr src p (s, c) → ¬ FromPeer s src := by
  rintro nr src p ⟨hnr, d, rfl, hm, hnr', -⟩ hfrom
  refine hk src d rfl ?_
  have hnr : s.lastreceiveddatacount.toNat + 1 = nr := hnr
  have hf : ¬ s.reception.Foreign src := fun hf => hf.2 (hfrom hf.1)
  have hc : s.reception.count = s.lastreceiveddatacount := rfl
  unfold Reception.kind
  rw [if_neg hf, if_neg (by rw [hm]; exact Bool.noConfusion), if_neg (by rw [hnr', hc]; omega),
    if_pos (by rw [hnr', hc, hnr])]

theorem step {tr : List (TftpReceiver × Event Endpoint × TftpReceiver)}
    (h : Gathers bs (handled proactor tr) s ps) (hi : Inbox proactor Holds tr s) {e : Event Endpoint}
    (he : proactor.step s e = some s') :
    ∃ ps', Gathers bs (handled proactor (tr ++ [(s, e, s')])) s' ps' := by
  have htells := refines h.wf hi he
  have hwf := h.wf.step he
  rw [handled_append]
  generalize hc : completion proactor (datagrams tr).getLast? s e = c at htells ⊢
  cases c with
  | none =>
    have hr : s'.reception = s.reception := htells.reception
    exact ⟨ps, h.keep hwf htells.blocksize (by rw [hr]; exact ⟨rfl, rfl, rfl, rfl⟩)
      (fun ho => (ho.step he).1) (fun y hy => by cases hy)⟩
  | some c =>
    have hr : s'.reception = s.reception.handle s.blocksize c := htells.reception
    rw [h.blocksize] at hr
    by_cases hk : ∀ src d, c = .datagram src d → s.reception.kind bs src d ≠ .next
    · refine ⟨ps, h.keep hwf htells.blocksize (by rw [hr]; exact Reception.handle_same hk)
        (fun ho => (ho.step he).1) fun y hy => ?_⟩
      rw [List.mem_singleton.1 hy]
      exact offers_nothing hk
    · push Not at hk
      obtain ⟨src, d, rfl, hk⟩ := hk
      obtain ⟨i, r, n, rfl, hx, hlast⟩ := completion_datagram hc
      rw [Reception.handle, hk] at hr
      refine ⟨_, h.accept hwf htells.blocksize hk hr (fun ho => ?_) fun hne => ?_⟩
      · obtain hx | ⟨j, hx⟩ := (ho.step he).2 <;> cases hx
      · -- the handler is the one of a short block
        obtain ⟨-, hstep⟩ := Proactor.step_cases he
        have hh : s.Holds src d n := hi.holds_of_gets ⟨⟨r, n, hx⟩, hlast⟩ hx
        obtain ⟨h1, h0⟩ := Io.tokens_eraseIdx_received hx hi.tokens
        have hst : s.io.started = true := by
          by_contra hst
          have := hi.fresh (Bool.eq_false_iff.2 hst)
          omega
        cases hstep with
        | @runReceive _ r' err n' hx' =>
          rw [hx, Option.some.injEq, Prod.mk.injEq, Prod.mk.injEq] at hx'
          obtain ⟨rfl, rfl, rfl⟩ := hx'
          change (onReceive r .success n _).Over
          rw [onReceive_eq]
          exact datagram_over (h.wf.io { s.io with received := s.io.received.eraseIdx i } rfl)
            (hh.io _) hst h0 (by rw [← h.blocksize] at hk; exact hk)
            (by rw [← h.blocksize] at hne; exact hne)

theorem run {s₀ : TftpReceiver} (h₀ : Fresh bs s₀) {es : List (Event Endpoint)} (h : lts.run s₀ es = some s) :
    ∃ ps, Gathers bs (handled proactor (lts.trace s₀ es)) s ps :=
  (Lts.run_inv (L := lts)
    (fun tr s => Inbox proactor Holds tr s ∧ ∃ ps, Gathers bs (handled proactor tr) s ps)
    ⟨inbox h₀.constructed (rfl : lts.run s₀ [] = some s₀), [], init h₀⟩
    (fun _ _ _ _ ⟨hi, _, hg⟩ he => ⟨single.inbox_step hi he, hg.step hi he⟩) h).2

end Gathers

/-- **What a receiver assembles**, whatever arrives and in whatever order the handlers run. -/
theorem receiver_discipline {bs : ℕ} {s₀ s : TftpReceiver} (h₀ : Fresh bs s₀) {es : List (Event Endpoint)}
    (h : lts.run s₀ es = some s) : ∃ ps, Assembled FromPeer bs (lts.trace s₀ es) s ps := by
  obtain ⟨ps, hg⟩ := Gathers.run h₀ h
  have hack := acknowledges h₀.constructed (by cases h₀ <;> rfl) h
  refine ⟨ps, hg.count, by rw [hg.output], ?_, hg.blocks, hg.full, fun x hx => ?_, hack.sorted⟩
  · rw [hg.output, OStream.content, List.filter_eq_self.2 (by simp)]
    simp [List.flatMap_map]
  · obtain ⟨w, hw, hn⟩ := hack.acks x hx
    obtain ⟨hreach, hstep⟩ := Lts.mem_trace (.init h₀.constructed) hx
    exact ⟨w, hw, fun n hmem => (hn n hmem).trans (WriteInv.reach (hreach.step hstep)).count.symm⟩

/-- One block of one byte, from a host that becomes the peer. -/
theorem receiver_discipline_one_byte : ∃ s ps,
    lts.run (new {} {} 512 2) [.start, .deliver ⟨1, 2⟩ (dataBytes 1 [7]), .runReceive 0] = some s ∧
      Assembled FromPeer 512 (lts.trace (new {} {} 512 2)
        [.start, .deliver ⟨1, 2⟩ (dataBytes 1 [7]), .runReceive 0]) s ps := by
  obtain ⟨s, hs⟩ : ∃ s, lts.run (new {} {} 512 2)
    [.start, .deliver ⟨1, 2⟩ (dataBytes 1 [7]), .runReceive 0] = some s := ⟨_, rfl⟩
  obtain ⟨ps, h⟩ := receiver_discipline (.unknown 2) hs
  exact ⟨s, ps, hs, h⟩

/-- A block from a host that is not the peer is not taken, although it is the first one. -/
theorem receiver_discipline_stranger : ¬ ∀ bs s₀ s es, 1 ≤ bs → Fresh bs s₀ → lts.run s₀ es = some s →
    ∃ ps, Assembled (fun _ _ => True) bs (lts.trace s₀ es) s ps := by
  intro h
  obtain ⟨es, hes⟩ : ∃ es : List (Event Endpoint), es = [.start, .sendCompletes .success, .runSend 0,
    .deliver ⟨8, 9⟩ (dataBytes 1 [7]), .runReceive 0, .sendCompletes .success, .runSend 0,
    .deliver ⟨1, 2⟩ (dataBytes 1 [5]), .runReceive 0] := ⟨_, rfl⟩
  obtain ⟨s, hs⟩ : ∃ s, lts.run (newConnected {} {} ⟨1, 2⟩ 8 2) es = some s := by rw [hes]; exact ⟨_, rfl⟩
  obtain ⟨ps, ha⟩ := h 8 _ s es (by decide) (.known ⟨1, 2⟩ 2) hs
  have hcount : s.lastreceiveddatacount = 1 ∧ s.mSenderEndpoint = ⟨1, 2⟩ := by
    rw [hes] at hs
    cases hs
    exact ⟨rfl, rfl⟩
  -- the stranger's block has been handled before the peer's
  have hhandled : (handled proactor (lts.trace (newConnected {} {} ⟨1, 2⟩ 8 2) es)).map
      (fun y => (y.1.lastreceiveddatacount, y.2)) = [(0, .started), (0, .datagram ⟨8, 9⟩ (dataBytes 1 [7])),
        (0, .datagram ⟨1, 2⟩ (dataBytes 1 [5]))] := by rw [hes]; rfl
  have hlen : 0 < ps.length := by rw [← ha.count, hcount.1]; decide
  obtain ⟨h₁, x, h₂, heq, ⟨-, d, hx, -⟩, -, hno⟩ := ha.blocks 0 _ (List.getElem?_eq_getElem hlen)
  rw [heq, List.map_append, List.map_cons] at hhandled
  rw [hcount.2] at hx
  rcases h₁ with _ | ⟨y, _ | ⟨z, h₁⟩⟩
  · have hx' := congrArg (fun l => l.head?.map Prod.snd) hhandled
    rw [List.map_nil, List.nil_append] at hx'
    cases hx.symm.trans (Option.some.inj hx')
  · have hx' := congrArg (fun l => l[1]?.map Prod.snd) hhandled
    cases hx.symm.trans (Option.some.inj hx')
  · have hz := Option.some.inj (congrArg (fun l => l[1]?) hhandled)
    rw [Prod.mk.injEq] at hz
    refine hno z (by simp) ⟨8, 9⟩ [7] ⟨by rw [hz.1]; rfl, _, hz.2, ?_⟩ trivial
    exact ⟨rfl, rfl, rfl⟩

end TftpReceiver

end Ttftp

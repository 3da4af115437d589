/-
  A sender and a receiver among strangers.

  Whatever a started sender hears, it sends the blocks of its file one after the other, and
  it does not get beyond the first one without an ACK from its peer (`Serves`).  A receiver
  writes the payloads of the blocks in their order if what its peer sends it carries them
  (`Stores`); what others send does not matter.
-/
import Ttftp.Proof.Assembly
import Ttftp.Proof.Correspondents
import Ttftp.Proof.Discipline

namespace Ttftp

open Bytes Asio

/-! ## The sender -/

/-- What is sent as a DATA message is one of the first `n` blocks. -/
theorem Sent.dataOf_of_mem {F : Bytes} {bs n : ℕ} {w : List (Endpoint × Bytes)} (h : Sent F bs n w)
    {p : Endpoint × Bytes} (hp : p ∈ w) (hd : ntohs p.2 0 = TftpOpcode.data.toUInt16) :
    ∃ i, 1 ≤ i ∧ i ≤ n ∧ p.2 = dataOf F bs i := by
  have hmem : p.2 ∈ dataSent w := List.mem_filter.2 ⟨List.mem_map_of_mem hp, decide_eq_true hd⟩
  obtain ⟨h1, hn⟩ := (h.numbers _).1 (List.mem_map_of_mem (f := blockNr) hmem)
  exact ⟨blockNr p.2, h1, hn, h.data _ hmem⟩

namespace Tftpsender

/-- The handler of an ACK from the peer. -/
def HandlesAck (s : Tftpsender) (e : Event Endpoint) : Prop :=
  ∃ i r, e = .runReceive i ∧ s.io.received[i]? = some (r, .success, opcodeLength + blockNrLength) ∧
    s.receivedMsg.1 = true ∧ s.wrongRemoteHost = false

/-- A started sender moves on when it handles an ACK from its peer, and only then. -/
theorem Disciplined.step_started {F : Bytes} {bs n : ℕ} {s s' : Tftpsender} {e : Event Endpoint}
    (h : s.Disciplined F bs n) (hc : s.Current n) (hbs : 8 ≤ bs) (hbs' : bs ≤ 65464)
    (hs : s.io.started = true) (hstep : proactor.step s e = some s') :
    ∃ n', s'.Disciplined F bs n' ∧ s'.Current n' ∧ (n' = n ∨ s.HandlesAck e) := by
  have hwf := h.wf.step hstep
  obtain ⟨-, hstep⟩ := Proactor.step_cases hstep
  cases hstep with
  | start hf => exact absurd (hs.symm.trans hf) (by simp)
  | deliver _ => exact ⟨n, { h with wf := hwf }, hc, .inl rfl⟩
  | receiveFails _ _ | sendCompletes _ | expire _ => exact ⟨n, h.io _ rfl rfl, hc, .inl rfl⟩
  | @runReceive i r err m hx =>
    have ht : Disciplined F bs n { s with io := { s.io with received := s.io.received.eraseIdx i } } :=
      h.io _ rfl rfl
    obtain ⟨n', h1, h2, h3⟩ := ht.checkAckForLastBlock hbs hbs' hc err m
    rw [← onReceive_eq r] at h1 h2
    refine ⟨n', h1, h2, h3.imp_right fun h3 => ?_⟩
    obtain ⟨rfl, rfl, hpeer, hmsg⟩ := ackBranch_expectedAck h3.2.2
    exact ⟨i, r, rfl, hx, congrArg Prod.fst hmsg, hpeer⟩
  | @runSend i err m _ =>
    have ht : Disciplined F bs n { s with io := { s.io with sent := s.io.sent.eraseIdx i } } := h.io _ rfl rfl
    refine ⟨n, ht.handleBlockSent err m, fun he => ?_, .inl rfl⟩
    change (Tftpsender.handleBlockSent err m _).operationEnded = false at he
    change (Tftpsender.handleBlockSent err m _).lastsentdatacount.toNat = n
    unfold Tftpsender.handleBlockSent at he ⊢
    split_ifs at he ⊢ <;> exact hc he
  | @runTimer i err _ =>
    have ht : Disciplined F bs n { s with io := { s.io with waited := s.io.waited.eraseIdx i } } := h.io _ rfl rfl
    obtain ⟨h1, h2⟩ := ht.handleReadTimeout hc err
    exact ⟨n, h1, h2, .inl rfl⟩

/-- What is taken for an ACK is one. -/
theorem Holds.opcode_ack {s : Tftpsender} (hs : s.WellFormed) (hbs : 4 ≤ s.blocksize) {src : Endpoint} {d : Bytes}
    (h : s.Holds src d 4) (hm : s.receivedMsg.1 = true) : ntohs d 0 = TftpOpcode.ack.toUInt16 := by
  have hcap : min s.ackbuffer.length s.blocksize = 4 := by rw [hs.ackbuffer]; omega
  have hbuf : s.ackbuffer = d.take 4 := by
    rw [← hcap, ← h.bytes, List.take_of_length_le (by rw [hs.ackbuffer])]
  have hlen : (d.take 4).length = 4 := by rw [← hbuf, hs.ackbuffer]
  unfold Tftpsender.receivedMsg AckMessage.decode memory at hm
  dsimp only at hm
  rw [hbuf, ntohs_append (by omega), ntohs_take (by omega)] at hm
  split_ifs at hm with hne
  exact not_not.1 hne

/-- A started sender of `F` that has got to block `n`: apart from `w₀` it has sent blocks and errors. -/
structure Sends (F : Bytes) (bs n : ℕ) (w₀ : List (Endpoint × Bytes)) (s : Tftpsender) : Prop where
  started : s.io.started = true
  disciplined : s.Disciplined F bs n
  current : s.Current n
  wire : ∀ p ∈ s.io.wire, p ∈ w₀ ∨ IsDataMessage bs p.2 ∨ IsErrorMessage p.2

namespace Sends
variable {F : Bytes} {bs n : ℕ} {w₀ : List (Endpoint × Bytes)} {s s' : Tftpsender} {e : Event Endpoint}

/-- What may be sent is sent. -/
theorem grow (h : ∀ p ∈ s.io.wire, p ∈ w₀ ∨ IsDataMessage bs p.2 ∨ IsErrorMessage p.2) (hbs : s.blocksize = bs)
    (hw : ∃ w, s'.io.wire = s.io.wire ++ w ∧ ∀ x ∈ w, s.correspondents.May IsDataMessage x) :
    ∀ p ∈ s'.io.wire, p ∈ w₀ ∨ IsDataMessage bs p.2 ∨ IsErrorMessage p.2 := by
  obtain ⟨w, hw, hmay⟩ := hw
  intro p hp
  rcases List.mem_append.1 (hw ▸ hp) with hp | hp
  · exact h p hp
  · rw [← hbs]
    exact .inr (hmay p hp).plain

/-- A sender that waits for an ACK before it sends block 1. -/
theorem start_waiting (hf : s.input.fail = false) (hc : s.lastsentdatacount = 0) : s.start = s.startNextReceive := by
  rw [Tftpsender.start, if_neg, if_neg]
  · rw [hc]
    decide
  · rw [hf]
    exact Bool.false_ne_true

/-- A sender that is about to start. -/
theorem start (hwf : s.WellFormed) (hstarted : s.io.started = true) (hbs : 8 ≤ bs) (hbs' : bs ≤ 65464)
    (hblock : s.blocksize = bs) (hcontent : s.input.content = F) (hf : s.input.fail = false)
    (hdone : s.sendingdone = false) (hle : s.lastsentdatacount.toNat ≤ 1) (hw : dataSent s.io.wire = []) :
    ∃ n ≤ s.lastsentdatacount.toNat, s.start.Sends F bs n s.io.wire := by
  have hfalse : decide (F.length < 0 * bs) = false := decide_eq_false (by omega)
  have hnone : Sent F bs 0 s.io.wire := by
    refine ⟨Nat.zero_le _, ?_, fun k => ?_, fun d hd => ?_⟩
    · rw [blockNrs, hw]
      exact .nil
    · rw [blockNrs, hw]
      simp only [List.map_nil, List.not_mem_nil, false_iff]
      omega
    · rw [hw] at hd
      cases hd
  have hd : s.Disciplined F bs 0 :=
    ⟨hwf, hblock, hcontent, hnone, fun _ => hf.trans hfalse.symm, fun _ => hdone.trans hfalse.symm⟩
  obtain ⟨n, h1, h2, h3⟩ := hd.start hbs hbs' (.inl ⟨rfl, hle⟩)
  refine ⟨n, ?_, (start_leaves s).started.trans hstarted, h1, h2, grow (fun p hp => .inl hp) hblock
    (Posts.start hwf).wire⟩
  by_cases hzero : s.lastsentdatacount = 0
  · -- nothing has been sent
    have hsent := (h1.sent.numbers n).2
    rw [start_waiting hf hzero, show s.startNextReceive.io.wire = s.io.wire from Io.asyncReceiveFrom_wire _ _,
      blockNrs, hw] at hsent
    by_contra hn
    exact absurd (hsent ⟨by omega, le_rfl⟩) List.not_mem_nil
  · have hpos : s.lastsentdatacount.toNat ≠ 0 := fun h0 => hzero (UInt16.toNat_inj.1 h0)
    omega

theorem step (h : s.Sends F bs n w₀) (hbs : 8 ≤ bs) (hbs' : bs ≤ 65464) (hstep : proactor.step s e = some s') :
    ∃ n', s'.Sends F bs n' w₀ ∧ (n' = n ∨ s.HandlesAck e) := by
  have hstarted : s'.io.started = true := by
    rcases single.started_step hstep with rfl | hs
    · obtain ⟨-, hs⟩ := Proactor.step_cases hstep
      cases hs with
      | start hf => exact absurd (h.started.symm.trans hf) (by simp)
    · exact hs.trans h.started
  obtain ⟨n', hd, hc, hn⟩ := h.disciplined.step_started h.current hbs hbs' h.started hstep
  obtain ⟨w, hw, hmay⟩ := (posting.step h.disciplined.wf hstep).2
  refine ⟨n', ⟨hstarted, hd, hc, grow h.wire h.disciplined.blocksize ⟨w, hw, fun x hx => ?_⟩⟩, hn⟩
  exact hmay x hx

/-- What it has sent. -/
theorem sent_cases (h : s.Sends F bs n w₀) {p : Endpoint × Bytes} (hp : p ∈ s.io.wire) :
    p ∈ w₀ ∨ IsErrorMessage p.2 ∨ ∃ i, 1 ≤ i ∧ i ≤ n ∧ p.2 = dataOf F bs i := by
  rcases h.wire p hp with hp₀ | ⟨nr, payload, heq, -⟩ | herr
  · exact .inl hp₀
  · exact .inr (.inr (h.disciplined.sent.dataOf_of_mem hp (by rw [heq, ntohs_dataBytes])))
  · exact .inr (.inl herr)

end Sends

/-- A sender with the peer `c`, after the transitions `tr`: it has got beyond block `n₀` only if
    the peer has sent an ACK. -/
structure Supplies (F : Bytes) (bs n₀ : ℕ) (c : Endpoint) (w₀ : List (Endpoint × Bytes))
    (tr : List (Tftpsender × Event Endpoint × Tftpsender)) (s : Tftpsender) : Prop where
  inbox : Inbox proactor Holds tr s
  connected : s.isConnected = true
  peer : s.mReceiverEndpoint = c
  blocks : ∃ n, s.Sends F bs n w₀ ∧ (n = n₀ ∨ ∃ d, (c, d) ∈ datagrams tr ∧ ntohs d 0 = TftpOpcode.ack.toUInt16)

namespace Supplies
variable {F : Bytes} {bs n₀ : ℕ} {c : Endpoint} {w₀ : List (Endpoint × Bytes)}
  {tr : List (Tftpsender × Event Endpoint × Tftpsender)} {s s' : Tftpsender} {e : Event Endpoint}

/-- A sender that is about to start; an OACK is acknowledged before block 1 is sent. -/
theorem start {ack : ℤ} {t : UInt8} (hbs : 8 ≤ bs) (hbs' : bs ≤ 65464) (hack : ack = 0 ∨ ack = 1)
    (hw : dataSent w₀ = []) : ∃ n₀ ≤ ack.toNat,
      (newConnected { started := true, wire := w₀ } (.ofFile (some F)) c ack bs t).start.Supplies F bs n₀ c w₀ [] := by
  obtain ⟨s, hs⟩ : ∃ s, s = newConnected { started := true, wire := w₀ } (.ofFile (some F)) c ack bs t := ⟨_, rfl⟩
  have hwf : s.WellFormed := by
    rw [hs]
    exact newConnected_wellFormed rfl _ _ _ _ _
  have hcount : s.lastsentdatacount.toNat = ack.toNat := by
    have heq : s.lastsentdatacount = UInt16.ofInt ack := by rw [hs]; rfl
    rw [heq]
    rcases hack with rfl | rfl <;> decide
  have hview := (Posts.start hwf).view.connected (show s.isConnected = true by rw [hs]; rfl)
  have hpeer : s.start.isConnected = true ∧ s.start.mReceiverEndpoint = c := by
    have h1 := congrArg Correspondents.isConnected hview
    have h2 := congrArg Correspondents.peer hview
    rw [hs] at h1 h2 ⊢
    exact ⟨h1, h2⟩
  have hsends : ∃ n ≤ s.lastsentdatacount.toNat, s.start.Sends F bs n w₀ := by
    have hwire : s.io.wire = w₀ := by rw [hs]; rfl
    rw [← hwire]
    refine Sends.start hwf ?_ hbs hbs' ?_ ?_ ?_ ?_ ?_ (by rw [hwire]; exact hw)
    · rw [hs]; rfl
    · rw [hs]; rfl
    · rw [hs]; rfl
    · rw [hs]; rfl
    · rw [hs]; rfl
    · rw [hcount]
      rcases hack with rfl | rfl <;> decide
  obtain ⟨n, hn, h⟩ := hsends
  rw [← hs]
  refine ⟨n, hcount ▸ hn, ?_, hpeer.1, hpeer.2, n, h, .inl rfl⟩
  subst hs
  exact Single.inbox_of_leaves _ rfl rfl (start_leaves _)

theorem step (h : s.Supplies F bs n₀ c w₀ tr) (hbs : 8 ≤ bs) (hbs' : bs ≤ 65464)
    (hstep : proactor.step s e = some s') : s'.Supplies F bs n₀ c w₀ (tr ++ [(s, e, s')]) := by
  obtain ⟨n, hsends, hn⟩ := h.blocks
  have hwf := hsends.disciplined.wf
  have hview := (posting.step hwf hstep).1.connected (by cases e <;> exact h.connected)
  have hpeer : s'.mReceiverEndpoint = s.mReceiverEndpoint ∧ s'.isConnected = s.isConnected := by
    have h1 := congrArg Correspondents.peer hview
    have h2 := congrArg Correspondents.isConnected hview
    cases e <;> exact ⟨h1, h2⟩
  have hgrow : ∀ x, x ∈ datagrams tr → x ∈ datagrams (tr ++ [(s, e, s')]) := by
    intro x hx
    rw [datagrams, List.filterMap_append]
    exact List.mem_append_left _ hx
  refine ⟨single.inbox_step h.inbox hstep, hpeer.2.trans h.connected, hpeer.1.trans h.peer, ?_⟩
  obtain ⟨n', hsends', hn'⟩ := hsends.step hbs hbs' hstep
  refine ⟨n', hsends', ?_⟩
  rcases hn' with rfl | ⟨i, r, rfl, hx, hm, hw⟩
  · refine hn.imp_right ?_
    rintro ⟨d, hmem, hop⟩
    exact ⟨d, hgrow _ hmem, hop⟩
  · -- the ACK is the datagram that has arrived last
    obtain ⟨src, d, hlast, hh⟩ := h.inbox.arrived r _ (List.mem_of_getElem? hx)
    have hsrc : src = c := by
      rw [← h.peer, ← hh.source]
      simpa [wrongRemoteHost, h.connected] using hw
    subst hsrc
    have hblock : 4 ≤ s.blocksize := by rw [hsends.disciplined.blocksize]; omega
    exact .inr ⟨d, hgrow _ (List.mem_of_getLast? hlast), hh.opcode_ack hwf hblock hm⟩

end Supplies

end Tftpsender

/-! ## The receiver -/

/-- `n` blocks have been accepted, and at first all of them, then none have been written. -/
def Written (payload : ℕ → Bytes) (before : Bytes) (o : OStream) (n : ℕ) : Prop :=
  ∃ j ≤ n, o.content = before ++ (List.range j).flatMap payload ∧ (o.fail = false → j = n)

theorem Written.write {payload : ℕ → Bytes} {before : Bytes} {o : OStream} {n : ℕ} (h : Written payload before o n) :
    Written payload before (o.write (payload n)) (n + 1) := by
  obtain ⟨j, hj, hcontent, hgood⟩ := h
  by_cases hok : (!o.fail && o.accept o.writes.length) = true
  · obtain ⟨hf, -⟩ := Bool.and_eq_true_iff.1 hok
    obtain rfl := hgood (by simpa using hf)
    refine ⟨j + 1, le_rfl, ?_, fun _ => rfl⟩
    rw [OStream.content_write, if_pos hok, hcontent, List.range_succ, List.flatMap_append, List.append_assoc]
    simp
  · refine ⟨j, Nat.le_succ_of_le hj, ?_, fun hf => absurd ?_ hok⟩
    · rw [OStream.content_write, if_neg hok, List.append_nil, hcontent]
    · rw [OStream.write_fail] at hf
      simpa using hf

/-- If the datagram is taken for block `i + 1`, it carries the `i`-th payload. -/
def Carries (payload : ℕ → Bytes) (bs : ℕ) (d : Bytes) : Prop :=
  (Reception.message bs d).1 = true →
    (Reception.message bs d).2.mData = payload ((Reception.message bs d).2.mBlockNr.toNat - 1)

namespace TftpReceiver

/-- What reaches the receiver: what its peer sends carries the payloads, and as long as it has
    no peer, what anybody sends. -/
def Trusts (payload : ℕ → Bytes) (r : TftpReceiver) (src : Endpoint) (d : Bytes) : Prop :=
  Carries payload r.blocksize d ∨ r.isConnected = true ∧ src ≠ r.mSenderEndpoint

/-- A receiver that has written the payloads of the blocks it has accepted: apart from `w₀` it has
    sent ACKs and errors. -/
structure Stores (payload : ℕ → Bytes) (before : Bytes) (w₀ : List (Endpoint × Bytes))
    (tr : List (TftpReceiver × Event Endpoint × TftpReceiver)) (r : TftpReceiver) : Prop where
  wf : r.WellFormed
  inbox : Inbox proactor Holds tr r
  heard : ∀ x ∈ datagrams tr, r.Trusts payload x.1 x.2
  written : Written payload before r.output r.lastreceiveddatacount.toNat
  wire : ∀ p ∈ r.io.wire, p ∈ w₀ ∨ IsAckMessage p.2 ∨ IsErrorMessage p.2

namespace Stores
variable {payload : ℕ → Bytes} {before : Bytes} {w₀ : List (Endpoint × Bytes)}
  {tr : List (TftpReceiver × Event Endpoint × TftpReceiver)} {r r' : TftpReceiver} {e : Event Endpoint}

/-- What may be sent is sent. -/
theorem grow {v : Correspondents} (h : ∀ p ∈ r.io.wire, p ∈ w₀ ∨ IsAckMessage p.2 ∨ IsErrorMessage p.2)
    (hw : ∃ w, r'.io.wire = r.io.wire ++ w ∧ ∀ x ∈ w, v.May (fun _ => IsAckMessage) x) :
    ∀ p ∈ r'.io.wire, p ∈ w₀ ∨ IsAckMessage p.2 ∨ IsErrorMessage p.2 := by
  obtain ⟨w, hw, hmay⟩ := hw
  intro p hp
  rcases List.mem_append.1 (hw ▸ hp) with hp | hp
  · exact h p hp
  · exact .inr (hmay p hp).plain

/-- A receiver that is about to start. -/
theorem start (hwf : r.WellFormed) (hstarted : r.io.started = true) (ht : r.io.tokens = 0)
    (hw : Written payload before r.output r.lastreceiveddatacount.toNat) :
    r.start.Stores payload before r.io.wire [] := by
  have htells := start_tells hwf
  have hsame : r.reception.Same r.start.reception := by
    rw [htells.reception]
    exact Reception.handle_same fun src d hc => by cases hc
  have hout : r.start.output = r.output := hsame.output
  have hcount : r.start.lastreceiveddatacount = r.lastreceiveddatacount := hsame.count
  refine ⟨hwf.start, Single.inbox_of_leaves r.io ht hstarted (start_leaves r), fun x hx => (by cases hx), ?_,
    grow (fun p hp => .inl hp) (Posts.start r).wire⟩
  rw [hout, hcount]
  exact hw

/-- Nothing is accepted. -/
theorem keep (h : r.Stores payload before w₀ tr) (hstep : proactor.step r e = some r')
    (hbs : r'.blocksize = r.blocksize) (hs : r.reception.Same r'.reception)
    (he : ∀ x ∈ e.datagram, r.Trusts payload x.1 x.2) : r'.Stores payload before w₀ (tr ++ [(r, e, r')]) := by
  have hout : r'.output = r.output := hs.output
  have hcount : r'.lastreceiveddatacount = r.lastreceiveddatacount := hs.count
  have hconn : r'.isConnected = r.isConnected := hs.connected
  have hpeer : r'.mSenderEndpoint = r.mSenderEndpoint := hs.peer
  refine ⟨h.wf.step hstep, single.inbox_step h.inbox hstep, fun x hx => ?_, ?_,
    grow h.wire (posting.step trivial hstep).2⟩
  · rw [Trusts, hbs, hconn, hpeer]
    rw [datagrams, List.filterMap_append] at hx
    rcases List.mem_append.1 hx with hx | hx
    · exact h.heard x hx
    · exact he x (by simpa using hx)
  · rw [hout, hcount]
    exact h.written

theorem step (h : r.Stores payload before w₀ tr) (he : ∀ x ∈ e.datagram, r.Trusts payload x.1 x.2)
    (hstep : proactor.step r e = some r') : r'.Stores payload before w₀ (tr ++ [(r, e, r')]) := by
  have htells := refines h.wf h.inbox hstep
  generalize hc : completion proactor (datagrams tr).getLast? r e = c at htells
  cases c with
  | none =>
    have hr : r'.reception = r.reception := htells.reception
    exact h.keep hstep htells.blocksize (by rw [hr]; exact ⟨rfl, rfl, rfl, rfl⟩) he
  | some c =>
    have hr : r'.reception = r.reception.handle r.blocksize c := htells.reception
    by_cases hk : ∀ src d, c = .datagram src d → r.reception.kind r.blocksize src d ≠ .next
    · exact h.keep hstep htells.blocksize (by rw [hr]; exact Reception.handle_same hk) he
    · -- the next block is accepted
      push Not at hk
      obtain ⟨src, d, rfl, hk⟩ := hk
      obtain ⟨i, -, -, rfl, -, hlast⟩ := completion_datagram hc
      obtain ⟨hforeign, hm⟩ := Reception.kind_next hk
      have hnr : (Reception.message r.blocksize d).2.mBlockNr.toNat = r.lastreceiveddatacount.toNat + 1 :=
        Reception.nr_next hk
      rw [Reception.handle, hk] at hr
      have hdata : (Reception.message r.blocksize d).2.mData = payload r.lastreceiveddatacount.toNat := by
        rcases h.heard _ (List.mem_of_getLast? hlast) with hcarries | hother
        · rw [hcarries hm, hnr, Nat.add_sub_cancel]
        · exact absurd ⟨hother.1, hother.2⟩ hforeign
      have hout : r'.output = r.output.write (payload r.lastreceiveddatacount.toNat) := by
        rw [← hdata]
        exact congrArg Reception.output hr
      have hcount : r'.lastreceiveddatacount.toNat = r.lastreceiveddatacount.toNat + 1 :=
        (congrArg (UInt16.toNat ∘ Reception.count) hr).trans (Reception.toNat_count_add_one hk)
      have hpeer : r'.mSenderEndpoint = src := congrArg Reception.peer hr
      have hconn : r'.isConnected = true := congrArg Reception.connected hr
      refine ⟨h.wf.step hstep, single.inbox_step h.inbox hstep, fun x hx => ?_,
        by rw [hout, hcount]; exact h.written.write, grow h.wire (posting.step trivial hstep).2⟩
      rw [datagrams_other _ _ _ rfl] at hx
      rw [Trusts, htells.blocksize, hconn, hpeer]
      refine (h.heard x hx).imp_right fun hother => ⟨rfl, ?_⟩
      have hsrc : src = r.mSenderEndpoint := by
        by_contra hne
        exact hforeign ⟨hother.1, hne⟩
      rw [hsrc]
      exact hother.2

end Stores

end TftpReceiver

/-! ## Sessions -/

/-- The datagram that arrives, and its source. -/
def SessionEvent.datagram : SessionEvent → Option (Endpoint × Bytes)
  | .socket e => e.datagram
  | .rewritten _ => none

namespace Session

/-- A session that goes on is of the same kind; its file stays as it is. -/
theorem run_supplies {F : Bytes} {bs n₀ : ℕ} {c : Endpoint} {w₀ : List (Endpoint × Bytes)}
    {tr : List (Tftpsender × Event Endpoint × Tftpsender)} {s₀ : Tftpsender} {es : List SessionEvent} {x : Session}
    (h : s₀.Supplies F bs n₀ c w₀ tr) (hbs : 8 ≤ bs) (hbs' : bs ≤ 65464)
    (hsame : ∀ content, .rewritten content ∈ es → content = F)
    (hrun : system.run (.sender s₀) es = some x) : ∃ s tr', x = .sender s ∧ s.Supplies F bs n₀ c w₀ tr' ∧
      datagrams tr' = datagrams tr ++ es.filterMap SessionEvent.datagram := by
  induction es generalizing s₀ tr with
  | nil =>
    cases hrun
    exact ⟨s₀, tr, rfl, h, (List.append_nil _).symm⟩
  | cons e es ih =>
    have hrest : ∀ content, .rewritten content ∈ es → content = F := fun content hc =>
      hsame content (List.mem_cons_of_mem _ hc)
    obtain ⟨y, hy, hrun⟩ := Option.bind_eq_some_iff.1 hrun
    cases e with
    | rewritten content =>
      obtain ⟨-, hy⟩ := Option.ite_none_left_eq_some.1 hy
      obtain rfl := Option.some.inj hy
      have hkeep : rewrite content (.sender s₀) = .sender s₀ := by
        obtain ⟨n, hsends, -⟩ := h.blocks
        rw [hsame content List.mem_cons_self, ← hsends.disciplined.content]
        rfl
      rw [hkeep] at hrun
      exact ih h hrest hrun
    | socket e =>
      obtain ⟨s₁, hs₁, rfl⟩ := Option.map_eq_some_iff.1 hy
      obtain ⟨s, tr', rfl, hs, htr⟩ := ih (h.step hbs hbs' hs₁) hrest hrun
      refine ⟨s, tr', rfl, hs, htr.trans ?_⟩
      rw [datagrams, List.filterMap_append, List.append_assoc]
      cases hd : e.datagram <;> simp [datagrams, SessionEvent.datagram, hd]

theorem run_stores {payload : ℕ → Bytes} {before : Bytes} {w₀ : List (Endpoint × Bytes)} {c : Endpoint}
    {tr : List (TftpReceiver × Event Endpoint × TftpReceiver)} {r₀ : TftpReceiver} {es : List SessionEvent}
    {x : Session} (h : r₀.Stores payload before w₀ tr) (hconn : r₀.isConnected = true) (hpeer : r₀.mSenderEndpoint = c)
    (hes : ∀ d, .socket (.deliver c d) ∈ es → Carries payload r₀.blocksize d)
    (hrun : system.run (.receiver r₀) es = some x) :
    ∃ r tr', x = .receiver r ∧ r.Stores payload before w₀ tr' ∧ r.blocksize = r₀.blocksize := by
  induction es generalizing r₀ tr with
  | nil =>
    cases hrun
    exact ⟨r₀, tr, rfl, h, rfl⟩
  | cons e es ih =>
    obtain ⟨y, hy, hrun⟩ := Option.bind_eq_some_iff.1 hrun
    cases e with
    | rewritten content =>
      obtain ⟨-, hy⟩ := Option.ite_none_left_eq_some.1 hy
      obtain rfl := Option.some.inj hy
      exact ih h hconn hpeer (fun d hd => hes d (List.mem_cons_of_mem _ hd)) hrun
    | socket e =>
      obtain ⟨r₁, hr₁, rfl⟩ := Option.map_eq_some_iff.1 hy
      have hview := (TftpReceiver.posting.step trivial hr₁).1.connected (by cases e <;> exact hconn)
      have hsame : r₁.isConnected = r₀.isConnected ∧ r₁.mSenderEndpoint = r₀.mSenderEndpoint ∧
          r₁.blocksize = r₀.blocksize := by
        have h1 := congrArg Correspondents.isConnected hview
        have h2 := congrArg Correspondents.peer hview
        have h3 := congrArg Correspondents.blocksize hview
        cases e <;> exact ⟨h1, h2, h3⟩
      have htrust : ∀ y ∈ e.datagram, r₀.Trusts payload y.1 y.2 := by
        rintro ⟨src, d⟩ hy
        cases e with
        | deliver src' d' =>
          cases hy
          by_cases hsrc : src = c
          · subst hsrc
            exact .inl (hes d List.mem_cons_self)
          · exact .inr ⟨hconn, by rw [hpeer]; exact hsrc⟩
        | _ => cases hy
      obtain ⟨r, tr', rfl, hr, hbs⟩ := ih (h.step htrust hr₁) (hsame.1.trans hconn) (hsame.2.1.trans hpeer)
        (fun d hd => by rw [hsame.2.2]; exact hes d (List.mem_cons_of_mem _ hd)) hrun
      exact ⟨r, tr', rfl, hr, hbs.trans hsame.2.2⟩

end Session

end Ttftp

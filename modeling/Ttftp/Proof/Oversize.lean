/-
  Datagrams that are longer than the messages which are waited for.

  Both ends receive into a buffer of the size of such a message, so that the rest of a longer
  datagram is lost before its length is looked at: the receiver takes the front of an
  oversized block for the block, and the sender the front of any datagram for an ACK
  (`oversized_iff`).
-/
import Ttftp.Proof.Assembly
import Ttftp.Proof.Foreign

namespace Ttftp

open Bytes Asio

/-! ## The receiver -/

namespace TftpReceiver

/-- The front of the datagram is a DATA message beyond the next block. -/
def ReadsAhead (s : TftpReceiver) (d : Bytes) : Prop :=
  (Reception.message s.blocksize d).1 = true ∧
    s.lastreceiveddatacount.toNat + 1 < (Reception.message s.blocksize d).2.mBlockNr.toNat

/-- The front of the datagram is the next block, and the stream takes it. -/
def WritesFront (s : TftpReceiver) (d : Bytes) : Prop :=
  (Reception.message s.blocksize d).1 = true ∧
    (Reception.message s.blocksize d).2.mBlockNr.toNat = s.lastreceiveddatacount.toNat + 1 ∧
    s.output.fail = false ∧ s.output.accept s.output.writes.length = true ∧ 0 < s.blocksize

/-- The datagram from `src` adds nothing to the output, and ends a transfer that is not over
    with `ERR_WRONG_BLOCK`; `src` gets the error `ERR_ILLEGAL_OP`. -/
structure Refused (src : Endpoint) (s s' : TftpReceiver) : Prop where
  output : s'.output.content = s.output.content
  ended : s.operationEnded = false → s'.operationEnded = true ∧ s'.callbacks = s.callbacks ++ [.wrongBlock]
  answered : s.operationEnded = false → ∃ msg, s'.io.wire = s.io.wire ++
    [(src, ErrorMessage.encode ⟨TftpErrorCode.illegalOp.toUInt16, msg⟩)]

section
variable {s : TftpReceiver} {src : Endpoint} {d : Bytes} {n : ℕ}

theorem kind_early (hp : s.FromPeer src) :
    s.reception.kind s.blocksize src d = .early ↔ s.ReadsAhead d := by
  have hf : ¬ s.reception.Foreign src := fun h => h.2 (hp h.1)
  have hc : s.reception.count = s.lastreceiveddatacount := rfl
  unfold Reception.kind ReadsAhead
  rw [if_neg hf, hc]
  split_ifs with h1 h2 h3
  · exact iff_of_false id (by simp [h1])
  · exact iff_of_false id (by omega)
  · exact iff_of_false id (by omega)
  · exact iff_of_true rfl ⟨Bool.eq_true_of_not_eq_false h1, by omega⟩

theorem kind_next_iff (hp : s.FromPeer src) : s.reception.kind s.blocksize src d = .next ↔
    (Reception.message s.blocksize d).1 = true ∧
      (Reception.message s.blocksize d).2.mBlockNr.toNat = s.lastreceiveddatacount.toNat + 1 := by
  have hf : ¬ s.reception.Foreign src := fun h => h.2 (hp h.1)
  refine ⟨fun h => ⟨(Reception.kind_next h).2, Reception.nr_next h⟩, fun ⟨hm, hnr⟩ => ?_⟩
  have hc : s.reception.count = s.lastreceiveddatacount := rfl
  rw [Reception.kind, if_neg hf, if_neg (by simp [hm]), if_neg (by rw [hc]; omega), if_pos (by rw [hc]; exact hnr)]

/-- The block at the front of an oversized datagram is full. -/
theorem length_front (hlen : s.blocksize + 4 < d.length) (hm : (Reception.message s.blocksize d).1 = true) :
    (Reception.message s.blocksize d).2.mData.length = s.blocksize := by
  obtain ⟨-, -, hp⟩ := DataMessage.decode_true hm
  rw [Reception.message, hp, List.length_drop, List.length_take]
  rw [controlBytes]
  omega

/-- Only the next block is written. -/
theorem handle_content (r : Reception) (bs : ℕ) (src : Endpoint) (d : Bytes) :
    (r.handle bs (.datagram src d)).output.content = r.output.content ++
      (if r.kind bs src d = .next ∧ r.output.fail = false ∧ r.output.accept r.output.writes.length = true then
        (Reception.message bs d).2.mData else []) := by
  rw [Reception.handle]
  cases hk : r.kind bs src d with
  | next =>
    change (r.output.write _).content = _
    rw [OStream.content_write]
    cases r.output.fail <;> cases r.output.accept r.output.writes.length <;> rfl
  | foreign | noData | old | early => exact (List.append_nil _).symm

/-- A datagram ends a running transfer with the code of its kind. -/
theorem datagram_callbacks (hs : s.WellFormed) (h : s.Holds src d n) (he : s.operationEnded = false) :
    (s.reception.kind s.blocksize src d = .noData →
      (s.checkReceivedBlock .success n).callbacks = s.callbacks ++ [.opcode]) ∧
    (s.reception.kind s.blocksize src d = .early →
      (s.checkReceivedBlock .success n).callbacks = s.callbacks ++ [.wrongBlock]) := by
  obtain ⟨t, ht⟩ : ∃ t : TftpReceiver, t = { s with io := s.io.timerCancel } := ⟨_, rfl⟩
  have hb : t.blockBranch .success n = s.blockBranch .success n := by rw [ht]; rfl
  have het : t.operationEnded = false := ht ▸ he
  have hc : t.callbacks = s.callbacks := by rw [ht]
  unfold checkReceivedBlock
  dsimp only
  rw [← ht, hb, blockBranch_success hs h, ← hc]
  refine ⟨fun hk => ?_, fun hk => ?_⟩
  all_goals
    rw [hk]
    dsimp only
    rw [endOperationWith_callbacks, sendErrorMsg_callbacks, sendErrorMsg_operationEnded, het]
    rfl

theorem content_iff {s' : TftpReceiver} (hp : s.FromPeer src) (hlen : s.blocksize + 4 < d.length)
    (hr : s'.reception = s.reception.handle s.blocksize (.datagram src d)) :
    s'.output.content = s.output.content ↔ ¬ s.WritesFront d := by
  have ho : s'.output = (s.reception.handle s.blocksize (.datagram src d)).output := congrArg Reception.output hr
  have hsame : s.reception.output = s.output := rfl
  rw [ho, handle_content, hsame, List.append_right_eq_self]
  split_ifs with h
  · obtain ⟨hk, hf, ha⟩ := h
    obtain ⟨hm, hnr⟩ := (kind_next_iff hp).1 hk
    rw [← List.length_eq_zero_iff, length_front hlen hm]
    refine ⟨fun h0 hw => hw.2.2.2.2.ne' h0, fun hn => ?_⟩
    by_contra h0
    exact hn ⟨hm, hnr, hf, ha, Nat.pos_of_ne_zero h0⟩
  · exact iff_of_true rfl fun hw => h ⟨(kind_next_iff hp).2 ⟨hw.1, hw.2.1⟩, hw.2.2.1, hw.2.2.2.1⟩

/-- What the handler of an oversized datagram from the peer does. -/
theorem refused_iff {tr : List (TftpReceiver × Event Endpoint × TftpReceiver)} {s' : TftpReceiver} {i : ℕ}
    (hs : s.WellFormed) (hi : Inbox proactor Holds tr s) (hg : Gets proactor tr s i src d) (hp : s.FromPeer src)
    (hlen : s.blocksize + 4 < d.length) (hstep : proactor.step s (.runReceive i) = some s') :
    Refused src s s' ↔ (s.operationEnded = false → s.mSenderEndpoint = src ∧ s.ReadsAhead d) ∧
      (s.operationEnded = true → ¬ s.WritesFront d) := by
  have htells := refines hs hi hstep
  rw [completion_gets hg, Option.elim_some, Option.elim_some] at htells
  have hcontent := content_iff hp hlen htells.reception
  cases he : s.operationEnded with
  | true =>
    refine ⟨fun h => ⟨fun hr => absurd hr (by simp), fun _ => hcontent.1 h.output⟩, fun h => ?_⟩
    exact ⟨hcontent.2 (h.2 rfl), fun hr => absurd (he.symm.trans hr) (by simp),
      fun hr => absurd (he.symm.trans hr) (by simp)⟩
  | false =>
    obtain ⟨io, n, hwire, hopen, hh, hs'⟩ := step_gets hi hg hstep
    obtain ⟨hcn, hce⟩ := datagram_callbacks (hs.io io hopen) hh he
    rw [← hs'] at hcn hce
    change s.reception.kind s.blocksize src d = _ → s'.callbacks = s.callbacks ++ _ at hcn hce
    obtain ⟨w, hw, hspell⟩ := htells.wire
    have hrs := repliesOn_spelled hspell
    rw [Reception.replies, if_neg (by rw [reception, he]; exact Bool.false_ne_true)] at hrs hspell
    refine ⟨fun h => ⟨fun _ => ?_, fun hr => absurd hr (by simp)⟩, fun h => ?_⟩
    · obtain ⟨msg, hans⟩ := h.answered he
      obtain rfl := List.append_cancel_left (hw.symm.trans hans)
      have herr : repliesOn [(src, ErrorMessage.encode ⟨TftpErrorCode.illegalOp.toUInt16, msg⟩)] =
          [.error src TftpErrorCode.illegalOp.toUInt16] :=
        repliesOn_spelled (.cons ⟨msg, rfl⟩ .nil)
      rw [herr] at hrs
      cases hk : s.reception.kind s.blocksize src d with
      | foreign => rw [hk] at hrs; cases hrs
      | noData =>
        have := (hcn hk).symm.trans (h.ended he).2
        simp at this
      | old =>
        rw [hk, Reception.ackCurrent] at hrs
        dsimp only at hrs
        split_ifs at hrs
        cases hrs
      | next =>
        rw [hk] at hrs
        dsimp only at hrs
        split_ifs at hrs <;> cases hrs
      | early =>
        rw [hk] at hrs
        refine ⟨?_, (kind_early hp).1 hk⟩
        cases hrs
        rfl
    · obtain ⟨hpeer, hahead⟩ := h.1 rfl
      have hk := (kind_early hp).2 hahead
      refine ⟨hcontent.2 fun hf => ?_, fun _ => ⟨?_, hce hk⟩, fun _ => ?_⟩
      · exact absurd hahead.2 (by rw [hf.2.1]; exact lt_irrefl _)
      · have hend := congrArg Reception.ended htells.reception
        rw [Reception.handle, hk] at hend
        exact hend
      · rw [hk] at hspell
        cases hspell with
        | cons hx hnil =>
          cases hnil
          obtain ⟨msg, rfl⟩ := hx
          exact ⟨msg, by rw [hw, ← hpeer]; rfl⟩

end

end TftpReceiver

/-! ## The sender -/

namespace Tftpsender

/-- The datagram is longer than an ACK, does not come from a stranger, and its front is the
    ACK of the current block. -/
def AcksFront (s : Tftpsender) (src : Endpoint) (d : Bytes) : Prop :=
  4 ≤ s.blocksize ∧ 4 < d.length ∧ (s.isConnected = true → src = s.mReceiverEndpoint) ∧
    AckMessage.decode [] {} (d.take 4) = (true, ⟨s.lastsentdatacount⟩)

section
variable {s : Tftpsender} {src : Endpoint} {d : Bytes}

theorem sendNextBlock_lastsentdatacount (hs : s.WellFormed) :
    s.sendNextBlock.lastsentdatacount = s.lastsentdatacount := by
  cases h : s.seeked.fail with
  | false => rw [sendNextBlock_good hs h]
  | true =>
    rw [sendNextBlock_bad hs h]
    unfold inputFileError endOperationWith
    split_ifs <;> rfl

theorem endOperationWith_lastsentdatacount (code : TftpUserFacingErrorCode) :
    (s.endOperationWith code).lastsentdatacount = s.lastsentdatacount := by
  unfold endOperationWith
  split_ifs <;> rfl

theorem countAck_lastsentdatacount : s.countAck.lastsentdatacount = s.lastsentdatacount + 1 := by
  unfold countAck
  split_ifs <;> rfl

theorem ackBranch_expectedAck_iff {err : ErrorCode} {n : ℕ} : s.ackBranch err n = .expectedAck ↔
    err = .success ∧ n = opcodeLength + blockNrLength ∧ s.wrongRemoteHost = false ∧
      s.receivedMsg = (true, ⟨s.lastsentdatacount⟩) := by
  refine ⟨ackBranch_expectedAck, fun ⟨he, hn, hw, hm⟩ => ?_⟩
  rw [ackBranch, if_pos ⟨he, hn, hw⟩, hm, if_neg (by simp), if_neg (UInt16.lt_irrefl _), if_pos rfl]

/-- Only the expected ACK is counted. -/
theorem checkAckForLastBlock_lastsentdatacount (hs : s.WellFormed) (err : ErrorCode) (n : ℕ) :
    (s.checkAckForLastBlock err n).lastsentdatacount =
      if s.ackBranch err n = .expectedAck then s.lastsentdatacount + 1 else s.lastsentdatacount := by
  obtain ⟨t, ht⟩ : ∃ t : Tftpsender, t = { s with io := s.io.timerCancel } := ⟨_, rfl⟩
  have hwf : t.WellFormed := ht ▸ hs.io _ rfl
  have hb : t.ackBranch err n = s.ackBranch err n := by rw [ht]; rfl
  have hc : t.lastsentdatacount = s.lastsentdatacount := by rw [ht]
  rw [checkAckForLastBlock]
  dsimp only
  rw [← ht, hb, ← hc]
  cases s.ackBranch err n with
  | expectedAck =>
    dsimp only
    rw [if_pos rfl, ← countAck_lastsentdatacount, acceptAck]
    split_ifs
    · exact endOperationWith_lastsentdatacount _
    · exact sendNextBlock_lastsentdatacount hwf.countAck
  | wrongOpcode | futureAck | fatal => exact endOperationWith_lastsentdatacount _
  | olderAck | retry => exact sendNextBlock_lastsentdatacount hwf
  | foreignHost => exact sendNextBlock_lastsentdatacount (hwf.sendErrorMsg _ _ _)

/-- What the handler of a datagram that is no ACK does to the count. -/
theorem count_iff {tr : List (Tftpsender × Event Endpoint × Tftpsender)} {s' : Tftpsender} {i : ℕ}
    (hs : s.WellFormed) (hi : Inbox proactor Holds tr s) (hg : Gets proactor tr s i src d) (hlen : d.length ≠ 4)
    (hstep : proactor.step s (.runReceive i) = some s') :
    s'.lastsentdatacount = s.lastsentdatacount ↔ ¬ s.AcksFront src d := by
  obtain ⟨io, n, -, hopen, hh, rfl⟩ := step_gets hi hg hstep
  have hwf := hs.io io hopen
  obtain ⟨t, ht⟩ : ∃ t : Tftpsender, t = { s with io := io } := ⟨_, rfl⟩
  rw [← ht] at hh hwf ⊢
  have hbuf := hwf.ackbuffer
  have hn := hh.length
  have hbytes := hh.bytes
  have hbs : t.blocksize = s.blocksize := by rw [ht]
  rw [hbuf, hbs] at hn hbytes
  have hcount : t.lastsentdatacount = s.lastsentdatacount := by rw [ht]
  have hsource : t.wrongRemoteHost = false ↔ (s.isConnected = true → src = s.mReceiverEndpoint) := by
    rw [wrongRemoteHost, hh.source, ht]
    cases s.isConnected <;> simp
  -- a full buffer is the front of a longer datagram
  have hmsg : 4 ≤ s.blocksize → 4 < d.length → t.receivedMsg = AckMessage.decode [] {} (d.take 4) := by
    intro h4 hd
    rw [min_eq_left h4, show n = 4 by omega, List.take_of_length_le hbuf.le] at hbytes
    rw [receivedMsg, hbytes]
  have hexp : t.ackBranch .success n = .expectedAck ↔ s.AcksFront src d := by
    rw [ackBranch_expectedAck_iff, hsource, hcount]
    constructor
    · rintro ⟨-, hn4, hsrc, hm⟩
      change n = 4 at hn4
      have h4 : 4 ≤ s.blocksize := by omega
      have hd : 4 < d.length := by omega
      exact ⟨h4, hd, hsrc, (hmsg h4 hd) ▸ hm⟩
    · rintro ⟨h4, hd, hsrc, hm⟩
      exact ⟨rfl, by change n = 4; omega, hsrc, (hmsg h4 hd).trans hm⟩
  rw [checkAckForLastBlock_lastsentdatacount hwf, hcount, ← hexp]
  split_ifs with h
  · refine iff_of_false (fun heq => ?_) fun hne => hne h
    exact absurd (congrArg UInt16.toBitVec heq) (by simp)
  · exact iff_of_true rfl h

end

end Tftpsender

/-- **When oversized datagrams are not taken for valid ones.**  A receiver refuses an oversized
    datagram of its peer exactly if its front is a block beyond the next one, and it knows the
    peer; after the end it suffices that the front is not written.  A datagram that is not as
    long as an ACK does not count for a sender exactly if its front is not the ACK of the
    current block. -/
theorem oversized_iff (es : List (Event Endpoint)) (i : ℕ) (src : Endpoint) (d : Bytes) :
    (∀ s₀ s s', TftpReceiver.Constructed s₀ → TftpReceiver.lts.run s₀ es = some s →
      Gets TftpReceiver.proactor (TftpReceiver.lts.trace s₀ es) s i src d → s.FromPeer src →
      s.blocksize + 4 < d.length → TftpReceiver.proactor.step s (.runReceive i) = some s' →
      (TftpReceiver.Refused src s s' ↔ (s.operationEnded = false → s.mSenderEndpoint = src ∧ s.ReadsAhead d) ∧
        (s.operationEnded = true → ¬ s.WritesFront d))) ∧
    (∀ s₀ s s', Tftpsender.Constructed s₀ → Tftpsender.lts.run s₀ es = some s →
      Gets Tftpsender.proactor (Tftpsender.lts.trace s₀ es) s i src d → d.length ≠ 4 →
      Tftpsender.proactor.step s (.runReceive i) = some s' →
      (s'.lastsentdatacount = s.lastsentdatacount ↔ ¬ s.AcksFront src d)) := by
  refine ⟨fun s₀ s s' h₀ h hg hp hlen hstep => ?_, fun s₀ s s' h₀ h hg hlen hstep => ?_⟩
  · exact TftpReceiver.refused_iff (.reach ((Lts.Reach.init h₀).run h)) (TftpReceiver.inbox h₀ h) hg hp hlen hstep
  · exact Tftpsender.count_iff (Tftpsender.ReportInv.reach ((Lts.Reach.init h₀).run h)).wf
      (Tftpsender.inbox h₀ h) hg hlen hstep

/-- An oversized block 2 comes before block 1; an oversized ACK of block 2 before that of
    block 1. -/
theorem oversized_early : ∃ s s' t t',
    TftpReceiver.lts.run (.newConnected {} {} ⟨1, 2⟩ 8 2) [.start, .sendCompletes .success, .runSend 0,
      .deliver ⟨1, 2⟩ [0, 3, 0, 2, 1, 2, 3, 4, 5, 6, 7, 8, 9]] = some s ∧
    TftpReceiver.proactor.step s (.runReceive 0) = some s' ∧ TftpReceiver.Refused ⟨1, 2⟩ s s' ∧
    Tftpsender.lts.run (.newConnected {} (.ofFile (some [7])) ⟨1, 2⟩ 1 8 2) [.start, .sendCompletes .success,
      .runSend 0, .deliver ⟨1, 2⟩ [0, 4, 0, 2, 0]] = some t ∧
    Tftpsender.proactor.step t (.runReceive 0) = some t' ∧ t'.lastsentdatacount = t.lastsentdatacount := by
  refine ⟨_, _, _, _, rfl, rfl, ?_, rfl, rfl, ?_⟩
  · refine ((oversized_iff [.start, .sendCompletes .success, .runSend 0,
      .deliver ⟨1, 2⟩ [0, 3, 0, 2, 1, 2, 3, 4, 5, 6, 7, 8, 9]] 0 ⟨1, 2⟩
      [0, 3, 0, 2, 1, 2, 3, 4, 5, 6, 7, 8, 9]).1 _ _ _ (.known false (fun _ => true) ⟨1, 2⟩ 8 2) rfl
      ⟨⟨_, _, rfl⟩, rfl⟩ (fun _ => rfl) (by decide) rfl).2 ?_
    exact ⟨fun _ => ⟨rfl, rfl, by decide⟩, fun h => absurd h (by decide)⟩
  · refine ((oversized_iff [.start, .sendCompletes .success, .runSend 0,
      .deliver ⟨1, 2⟩ [0, 4, 0, 2, 0]] 0 ⟨1, 2⟩ [0, 4, 0, 2, 0]).2 _ _ _
      (.known (some [7]) ⟨1, 2⟩ 1 8 2) rfl ⟨⟨_, _, rfl⟩, rfl⟩ (by decide) rfl).2 ?_
    exact fun h => absurd h.2.2.2 (by decide)

/-- Nine bytes are written as a block of eight, and five bytes are counted as an ACK. -/
theorem oversized_taken :
    (¬ ∀ s₀ s s' es i src d, TftpReceiver.Constructed s₀ → TftpReceiver.lts.run s₀ es = some s →
      Gets TftpReceiver.proactor (TftpReceiver.lts.trace s₀ es) s i src d → s.isConnected = true →
      src = s.mSenderEndpoint → s.blocksize + 4 < d.length →
      TftpReceiver.proactor.step s (.runReceive i) = some s' → s'.output.content = s.output.content) ∧
    ¬ ∀ s₀ s s' es i src d, Tftpsender.Constructed s₀ → Tftpsender.lts.run s₀ es = some s →
      Gets Tftpsender.proactor (Tftpsender.lts.trace s₀ es) s i src d → d.length ≠ 4 →
      Tftpsender.proactor.step s (.runReceive i) = some s' → s'.lastsentdatacount = s.lastsentdatacount := by
  refine ⟨fun h => ?_, fun h => ?_⟩
  · have hc := h _ _ _ [.start, .sendCompletes .success, .runSend 0,
      .deliver ⟨1, 2⟩ [0, 3, 0, 1, 1, 2, 3, 4, 5, 6, 7, 8, 9]] 0 ⟨1, 2⟩ [0, 3, 0, 1, 1, 2, 3, 4, 5, 6, 7, 8, 9]
      (.known false (fun _ => true) ⟨1, 2⟩ 8 2) rfl ⟨⟨_, _, rfl⟩, rfl⟩ rfl rfl (by decide) rfl
    exact absurd hc (by decide)
  · have hc := h _ _ _ [.start, .sendCompletes .success, .runSend 0,
      .deliver ⟨1, 2⟩ [0, 4, 0, 1, 0]] 0 ⟨1, 2⟩ [0, 4, 0, 1, 0]
      (.known (some [1, 2, 3, 4, 5, 6, 7, 8, 9]) ⟨1, 2⟩ 1 8 2) rfl ⟨⟨_, _, rfl⟩, rfl⟩ (by decide) rfl
    exact absurd hc (by decide)

end Ttftp

/-
  The receiver carries out its reception (`TftpReceiver.refines`): every completion that it
  handles has the effect and the replies that the reception says, and nothing else has any.
-/
import Mathlib.Data.List.Forall2
import Ttftp.Reception
import Ttftp.Proof.Inbox

namespace Ttftp

open Bytes Asio

/-! ## Replies on the wire -/

theorem Reply.Spells.ack_mem {rs : List Reply} {w : List (Endpoint × Bytes)} (h : List.Forall₂ Reply.Spells rs w)
    {dest : Endpoint} {nr : UInt16} (hm : .ack dest nr ∈ rs) : (dest, AckMessage.encode ⟨nr⟩) ∈ w := by
  induction h with
  | nil => cases hm
  | cons hx _ ih =>
    rcases List.mem_cons.1 hm with rfl | hm
    · exact List.mem_cons.2 (.inl (Eq.symm hx))
    · exact List.mem_cons_of_mem _ (ih hm)

theorem Reply.Spells.read {r : Reply} {x : Endpoint × Bytes} (h : r.Spells x) : Reply.read x = some r := by
  cases r with
  | ack dest nr =>
    subst h
    have h2 : ntohs (AckMessage.encode ⟨nr⟩) 2 = nr := ntohs_htons (htons TftpOpcode.ack.toUInt16) [] nr
    rw [Reply.read, if_pos (AckMessage.ntohs_encode _)]
    exact congrArg (some ∘ Reply.ack dest) h2
  | error dest code =>
    obtain ⟨msg, rfl⟩ := h
    have h0 := ErrorMessage.ntohs_encode ⟨code, msg⟩
    have h2 : ntohs (ErrorMessage.encode ⟨code, msg⟩) 2 = code :=
      ntohs_htons (htons TftpOpcode.error.toUInt16) msg code
    rw [Reply.read, if_neg (by rw [h0]; decide), if_pos h0]
    exact congrArg (some ∘ Reply.error dest) h2

theorem repliesOn_append (w w' : List (Endpoint × Bytes)) : repliesOn (w ++ w') = repliesOn w ++ repliesOn w' :=
  List.filterMap_append

theorem ackNrs_append (w w' : List (Endpoint × Bytes)) : ackNrs (w ++ w') = ackNrs w ++ ackNrs w' := by
  rw [ackNrs, repliesOn_append, List.filterMap_append]
  rfl

theorem mem_ackNrs {wire : List (Endpoint × Bytes)} {dest : Endpoint} {nr : UInt16}
    (h : (dest, AckMessage.encode ⟨nr⟩) ∈ wire) : nr.toNat ∈ ackNrs wire :=
  List.mem_filterMap.2 ⟨.ack dest nr,
    List.mem_filterMap.2 ⟨_, h, Reply.Spells.read (r := .ack dest nr) rfl⟩, rfl⟩

theorem repliesOn_spelled {rs : List Reply} {w : List (Endpoint × Bytes)} (h : List.Forall₂ Reply.Spells rs w) :
    repliesOn w = rs := by
  induction h with
  | nil => rfl
  | cons hx _ ih => rw [repliesOn, List.filterMap_cons, hx.read, ← ih]; rfl

/-! ## Receptions -/

namespace Reception
variable {bs : ℕ} {r : Reception} {c : Completion Endpoint}

/-- The number of the next block does not overflow. -/
theorem toNat_count_add_one {src : Endpoint} {d : Bytes} (h : r.kind bs src d = .next) :
    (r.count + 1).toNat = r.count.toNat + 1 := by
  unfold kind at h
  split_ifs at h with h1 h2 h3 h4
  have h5 := (message bs d).2.mBlockNr.toNat_lt
  rw [UInt16.toNat_add, UInt16.toNat_one, Nat.mod_eq_of_lt (by omega)]

/-- Nothing but the next block is accepted. -/
structure Same (r r' : Reception) : Prop where
  output : r'.output = r.output
  count : r'.count = r.count
  connected : r'.connected = r.connected
  peer : r'.peer = r.peer

theorem handle_same (h : ∀ src d, c = .datagram src d → r.kind bs src d ≠ .next) : r.Same (r.handle bs c) := by
  cases c with
  | started => exact ⟨rfl, rfl, rfl, rfl⟩
  | datagram src d =>
    have hne := h src d rfl
    rw [handle]
    split
    · exact ⟨rfl, rfl, rfl, rfl⟩
    · exact ⟨rfl, rfl, rfl, rfl⟩
    · exact ⟨rfl, rfl, rfl, rfl⟩
    · exact ⟨rfl, rfl, rfl, rfl⟩
    · rename_i hk
      exact absurd hk hne
  | failed e => rw [handle]; split_ifs <;> exact ⟨rfl, rfl, rfl, rfl⟩
  | expired => rw [handle]; split_ifs <;> exact ⟨rfl, rfl, rfl, rfl⟩

theorem count_le_handle : r.count.toNat ≤ (r.handle bs c).count.toNat := by
  by_cases h : ∀ src d, c = .datagram src d → r.kind bs src d ≠ .next
  · rw [(handle_same h).count]
  · push Not at h
    obtain ⟨src, d, rfl, hk⟩ := h
    rw [handle, hk]
    exact (Nat.le_succ _).trans (toNat_count_add_one hk).ge

/-- What is acknowledged is the last accepted block. -/
theorem acked_replies {rp : Reply} (h : rp ∈ r.replies bs c) {n : ℕ} (hn : rp.acked = some n) :
    n = (r.handle bs c).count.toNat := by
  have hcur : rp ∈ r.ackCurrent → n = r.count.toNat := by
    intro h
    unfold ackCurrent at h
    split_ifs at h
    · rw [List.mem_singleton.1 h] at hn
      exact (Option.some.inj hn).symm
    · cases h
  have herr : ∀ dest code, ¬ rp ∈ [Reply.error dest code] := by
    intro dest code h
    rw [List.mem_singleton.1 h] at hn
    cases hn
  unfold replies at h
  by_cases he : r.ended = true
  · rw [if_pos he] at h
    cases h
  · rw [if_neg he] at h
    cases c with
    | started =>
      dsimp only at h
      split_ifs at h
      · exact absurd h (herr _ _)
      · exact hcur h
    | datagram src d =>
      rw [handle]
      dsimp only at h
      cases hk : r.kind bs src d with
      | foreign =>
        rw [hk] at h
        exact (List.mem_cons.1 h).elim (fun h => absurd (List.mem_singleton.2 h) (herr _ _)) hcur
      | noData => rw [hk] at h; exact absurd h (herr _ _)
      | old => rw [hk] at h; exact hcur h
      | next =>
        rw [hk] at h
        dsimp only at h
        split_ifs at h
        · exact absurd h (herr _ _)
        · rw [List.mem_singleton.1 h] at hn
          exact (Option.some.inj hn).symm
      | early => rw [hk] at h; exact absurd h (herr _ _)
    | failed e =>
      rw [handle]
      dsimp only at h
      split_ifs at h ⊢
      · exact hcur h
      · cases h
    | expired =>
      dsimp only at h
      split_ifs at h
      · exact absurd h (herr _ _)
      · cases h

end Reception

namespace TftpReceiver

/-- The reception is `r` afterwards, and the replies `rs` have been sent. -/
structure Tells (s s' : TftpReceiver) (r : Reception) (rs : List Reply) : Prop where
  blocksize : s'.blocksize = s.blocksize
  reception : s'.reception = r
  wire : ∃ w, s'.io.wire = s.io.wire ++ w ∧ List.Forall₂ Reply.Spells rs w

namespace Tells
variable {s s' s'' : TftpReceiver} {r r' : Reception} {rs rs' : List Reply}

/-- Nothing is said. -/
theorem silent (hr : s'.reception = r) (hw : s'.io.wire = s.io.wire)
    (hb : s'.blocksize = s.blocksize := by rfl) : Tells s s' r [] :=
  ⟨hb, hr, [], by rw [hw, List.append_nil], .nil⟩

theorem trans (h : Tells s s' r rs) (h' : Tells s' s'' r' rs') : Tells s s'' r' (rs ++ rs') := by
  obtain ⟨w, hw, hs⟩ := h.wire
  obtain ⟨w', hw', hs'⟩ := h'.wire
  exact ⟨h'.blocksize.trans h.blocksize, h'.reception, w ++ w', by rw [hw', hw, List.append_assoc],
    List.rel_append hs hs'⟩

/-- What was silent before does not count. -/
theorem after (h' : Tells s' s'' r' rs') (hw : s'.io.wire = s.io.wire)
    (hb : s'.blocksize = s.blocksize := by rfl) : Tells s s'' r' rs' := by
  obtain ⟨w, hw', hs⟩ := h'.wire
  exact ⟨h'.blocksize.trans hb, h'.reception, w, by rw [hw', hw], hs⟩

theorem acks (h : Tells s s' r rs) : ackNrs s'.io.wire = ackNrs s.io.wire ++ rs.filterMap Reply.acked := by
  obtain ⟨w, hw, hs⟩ := h.wire
  rw [hw, ackNrs_append]
  exact congrArg (ackNrs s.io.wire ++ ·) (congrArg (List.filterMap Reply.acked) (repliesOn_spelled hs))

end Tells

section
variable {s : TftpReceiver} (hs : s.WellFormed)
include hs

theorem sendErrorMsg_tells (c : UInt16) (m : Bytes) (e : Endpoint) :
    Tells s (s.sendErrorMsg c m e) s.reception (if s.operationEnded then [] else [.error e c]) := by
  refine ⟨rfl, rfl, _, Io.asyncSendDetached_wire _ _ _, ?_⟩
  rw [hs.isOpen]
  cases s.operationEnded with
  | true => exact .nil
  | false => exact .cons ⟨m, rfl⟩ .nil

omit hs in
theorem endOperationWith_tells (code : TftpUserFacingErrorCode) :
    Tells s (s.endOperationWith code) { s.reception with ended := true } [] := by
  unfold endOperationWith
  split_ifs with h
  · exact .silent (by rw [reception, h]) rfl
  · exact .silent rfl rfl

/-- An error message, and the end. -/
theorem fail_tells (c : UInt16) (m : Bytes) (code : TftpUserFacingErrorCode) :
    Tells s ((s.sendErrorMsg c m s.mSenderEndpoint).endOperationWith code) { s.reception with ended := true }
      (if s.operationEnded then [] else [.error s.mSenderEndpoint c]) := by
  have h := (sendErrorMsg_tells hs c m s.mSenderEndpoint).trans (endOperationWith_tells code)
  rwa [List.append_nil] at h

omit hs in
theorem startNextReceive_tells : Tells s s.startNextReceive s.reception [] :=
  .silent rfl (Io.asyncReceiveFrom_wire _ _)

theorem sendNextAck_tells : Tells s (s.sendNextAck false) s.reception
    (if s.operationEnded then [] else s.reception.ackCurrent) := by
  rw [sendNextAck_false]
  split_ifs with hc he he
  · refine .silent rfl ?_
    change (Io.asyncSendTo _ _ _).wire = _
    rw [Io.asyncSendTo_wire, hs.isOpen, he]
    exact List.append_nil _
  · refine ⟨rfl, rfl, _, Io.asyncSendTo_wire _ _ _, ?_⟩
    rw [hs.isOpen, Bool.eq_false_iff.2 he, Reception.ackCurrent]
    change List.Forall₂ _ (if s.isConnected then _ else _) _
    rw [if_pos hc]
    exact .cons rfl .nil
  · exact .silent rfl (Io.asyncReceiveFrom_wire _ _)
  · have hr : s.reception.ackCurrent = [] := if_neg hc
    rw [hr]
    exact .silent rfl (Io.asyncReceiveFrom_wire _ _)

/-- The last ACK ends the reception. -/
theorem sendLastAck_tells (hc : s.isConnected = true) :
    Tells s (s.sendNextAck true) { s.reception with ended := true }
      (if s.operationEnded then [] else s.reception.ackCurrent) := by
  rw [sendNextAck_true s hc, hs.isOpen]
  rcases Bool.eq_false_or_eq_true s.operationEnded with he | he
  · rw [he, if_neg (by simp), if_pos rfl]
    exact .silent (by simp [reception, he]) rfl
  · have hack : s.reception.ackCurrent = [.ack s.mSenderEndpoint s.lastreceiveddatacount] := if_pos hc
    rw [he, if_pos (by simp), if_neg (by simp), hack, endOperation, endOperationWith, if_neg (by simp)]
    exact ⟨rfl, rfl, _, rfl, .cons rfl .nil⟩

theorem outputFileError_tells : Tells s s.outputFileError { s.reception with ended := true }
    (if s.operationEnded then [] else [.error s.mSenderEndpoint TftpErrorCode.accessViolation.toUInt16]) :=
  fail_tells hs _ _ _

theorem start_tells : Tells s s.start (s.reception.handle s.blocksize .started)
    (s.reception.replies s.blocksize .started) := by
  -- the first ACK, or the first receive, is not heard after the end
  have key : ∀ {t : TftpReceiver}, t.WellFormed →
      Tells t (if t.isConnected then t.sendNextAck false else t.startNextReceive) t.reception
        (if t.operationEnded then [] else t.reception.ackCurrent) := by
    intro t ht
    split_ifs with hc he he
    · have := sendNextAck_tells ht
      rwa [if_pos he] at this
    · have := sendNextAck_tells ht
      rwa [if_neg he] at this
    · exact startNextReceive_tells
    · have hr : t.reception.ackCurrent = [] := if_neg hc
      rw [hr]
      exact startNextReceive_tells
  unfold start
  dsimp only
  cases hf : s.output.fail with
  | true =>
    have h := (outputFileError_tells hs).trans (key hs.outputFileError)
    rw [outputFileError_ended, if_pos rfl, List.append_nil, (outputFileError_tells hs).reception] at h
    have h1 : s.reception.handle s.blocksize .started = { s.reception with ended := true } := by
      simp [Reception.handle, reception, hf]
    have h2 : s.reception.replies s.blocksize .started =
        if s.operationEnded then [] else [.error s.mSenderEndpoint TftpErrorCode.accessViolation.toUInt16] := by
      simp [Reception.replies, reception, hf]
    rw [h1, h2]
    exact h
  | false =>
    have h1 : s.reception.handle s.blocksize .started = s.reception := by
      simp [Reception.handle, reception, hf]
    have h2 : s.reception.replies s.blocksize .started =
        if s.operationEnded then [] else s.reception.ackCurrent := by
      simp [Reception.replies, reception, hf]
    rw [h1, h2]
    exact key hs

/-! ### Received blocks -/

/-- The branches of the handler are the kinds of datagrams. -/
theorem blockBranch_success {src : Endpoint} {d : Bytes} {n : ℕ} (h : s.Holds src d n) :
    s.blockBranch .success n = match s.reception.kind s.blocksize src d with
      | .foreign => .foreignHost
      | .noData => .wrongOpcode
      | .old => .olderBlock
      | .next => .expectedBlock
      | .early => .futureBlock := by
  have hle : ¬ s.blocksize + controlBytes < n := by
    have h1 := h.length
    rw [hs.databuffer] at h1
    rw [controlBytes]
    omega
  have hm : s.receivedMsg n = Reception.message s.blocksize d := h.receivedMsg hs
  have hf : (s.isConnected = true ∧ s.mLastReceivedSenderEndpoint ≠ s.mSenderEndpoint) ↔
      s.reception.Foreign src := by rw [h.source]; rfl
  have hc : s.reception.count = s.lastreceiveddatacount := rfl
  unfold blockBranch Reception.kind
  rw [if_pos rfl, hm, if_neg hle, hc]
  simp only [hf]
  split_ifs <;> rfl

omit hs in
/-- A block that is not foreign comes from the peer, as soon as it is counted. -/
theorem countBlock_peer {src : Endpoint} {d : Bytes} {n : ℕ} (h : s.Holds src d n)
    (hf : ¬ s.reception.Foreign src) : s.countBlock.mSenderEndpoint = src := by
  unfold countBlock
  dsimp only
  split_ifs with hc
  · by_contra hne
    exact hf ⟨hc, fun hp => hne hp.symm⟩
  · exact h.source

/-- The ACK of a block, the last one or not. -/
theorem sendAck_tells (hc : s.isConnected = true) (l : Bool) :
    Tells s (s.sendNextAck l) { s.reception with ended := s.operationEnded || l }
      (if s.operationEnded then [] else s.reception.ackCurrent) := by
  cases l with
  | false => rw [Bool.or_false]; exact sendNextAck_tells hs
  | true => rw [Bool.or_true]; exact sendLastAck_tells hs hc

omit hs in
/-- The count of a block connects to its source. -/
theorem countBlock_reception {src : Endpoint} (hpeer : s.countBlock.mSenderEndpoint = src) :
    s.countBlock.reception =
      { s.reception with count := s.lastreceiveddatacount + 1, connected := true, peer := src, timeouts := 0 } := by
  rw [← hpeer]
  unfold countBlock
  dsimp only
  split_ifs with hc
  · rw [reception, hc]
    rfl
  · rfl

theorem acceptBlock_tells {src : Endpoint} {d : Bytes} {n : ℕ} (h : s.Holds src d n)
    (hf : ¬ s.reception.Foreign src) (hm : (Reception.message s.blocksize d).1 = true) :
    Tells s (s.acceptBlock n) (s.reception.accept s.blocksize src (Reception.message s.blocksize d).2.mData)
      (if s.operationEnded then [] else if s.output.fail then
        [.error src TftpErrorCode.accessViolation.toUInt16] else [.ack src (s.lastreceiveddatacount + 1)]) := by
  have hmsg : s.receivedMsg n = Reception.message s.blocksize d := h.receivedMsg hs
  have hpeer := countBlock_peer h hf
  have hcs := hs.countBlock
  obtain ⟨h4, -, hp⟩ := DataMessage.decode_true hm
  have hlast : decide (n ≠ s.blocksize + controlBytes) =
      decide ((Reception.message s.blocksize d).2.mData.length < s.blocksize) := by
    have hn := h.length
    rw [hs.databuffer] at hn
    rw [Reception.message, hp, List.length_drop, decide_eq_decide]
    rw [controlBytes, List.length_take] at h4
    rw [controlBytes, List.length_take]
    omega
  rw [acceptBlock, hmsg, hlast]
  generalize (Reception.message s.blocksize d).2.mData = p
  have hcount := countBlock_reception hpeer
  cases hfail : s.output.fail with
  | true =>
    have herr := outputFileError_tells hcs
    rw [countBlock_operationEnded, hpeer, hcount] at herr
    have hw : s.countBlock.writeBlock p = { s.countBlock.outputFileError with output := s.output.write p } := by
      simp [writeBlock, hfail]
    have hww : WellFormed { s.countBlock.outputFileError with output := s.output.write p } :=
      ⟨hcs.outputFileError.isOpen, hcs.outputFileError.databuffer⟩
    have hack := sendAck_tells hww (by simp) (decide (p.length < s.blocksize))
    rw [outputFileError_ended, if_pos rfl, Bool.true_or] at hack
    rw [hw, if_pos rfl, ← List.append_nil (if s.operationEnded then _ else _)]
    refine (Tells.trans ⟨herr.blocksize, herr.reception, herr.wire⟩ ?_).after (congrArg Io.wire (countBlock_io s))
      (countBlock_blocksize s)
    have ha : s.reception.accept s.blocksize src p = { s.reception with
        output := s.output.write p, count := s.lastreceiveddatacount + 1, connected := true, peer := src
        timeouts := 0, ended := true } := by
      rw [Reception.accept]
      simp [reception, hfail]
    have hr : reception { s.countBlock.outputFileError with output := s.output.write p } =
        { s.countBlock.outputFileError.reception with output := s.output.write p } := rfl
    rw [hr, herr.reception] at hack
    rw [ha]
    exact ⟨hack.blocksize, hack.reception, hack.wire⟩
  | false =>
    have hw : s.countBlock.writeBlock p = { s.countBlock with output := s.output.write p } := by
      simp [writeBlock, hfail]
    have hww : WellFormed { s.countBlock with output := s.output.write p } := ⟨hcs.isOpen, hcs.databuffer⟩
    have hack := sendAck_tells hww (by simp) (decide (p.length < s.blocksize))
    have hr : reception { s.countBlock with output := s.output.write p } =
        { s.countBlock.reception with output := s.output.write p } := rfl
    rw [countBlock_operationEnded, hr, hcount] at hack
    have ha : s.reception.accept s.blocksize src p = { s.reception with
        output := s.output.write p, count := s.lastreceiveddatacount + 1, connected := true, peer := src
        timeouts := 0, ended := s.operationEnded || decide (p.length < s.blocksize) } := by
      rw [Reception.accept]
      simp [reception, hfail]
    rw [hw, if_neg Bool.false_ne_true, ha]
    exact Tells.after hack (congrArg Io.wire (countBlock_io s)) (countBlock_blocksize s)

/-! ### The handlers -/

theorem datagram_tells {src : Endpoint} {d : Bytes} {n : ℕ} (h : s.Holds src d n) :
    Tells s (s.checkReceivedBlock .success n) (s.reception.handle s.blocksize (.datagram src d))
      (s.reception.replies s.blocksize (.datagram src d)) := by
  obtain ⟨t, ht⟩ : ∃ t, t = { s with io := s.io.timerCancel } := ⟨_, rfl⟩
  have hwf : t.WellFormed := by rw [ht]; exact hs.io _ rfl
  have hh : t.Holds src d n := by rw [ht]; exact h.io _
  have hr : s.reception = t.reception := by rw [ht]; rfl
  have hbs : s.blocksize = t.blocksize := by rw [ht]
  have hpeer : s.mSenderEndpoint = t.mSenderEndpoint := by rw [ht]
  have hw : t.io.wire = s.io.wire := by rw [ht]; rfl
  unfold checkReceivedBlock
  dsimp only
  rw [← ht, blockBranch_success hwf hh, hr, hbs, hpeer, h.source, Reception.handle, Reception.replies]
  refine Tells.after ?_ hw hbs.symm
  have hended : t.reception.ended = t.operationEnded := rfl
  rw [hended]
  cases hk : t.reception.kind t.blocksize src d with
  | foreign =>
    have hsend := (sendErrorMsg_tells hwf TftpErrorCode.unknownTrId.toUInt16
      (ascii "Remote host is not the partner of the transfer on this port") t.mLastReceivedSenderEndpoint).trans
        (sendNextAck_tells (hwf.sendErrorMsg _ _ _))
    rw [hh.source, sendErrorMsg_operationEnded] at hsend
    split_ifs at hsend ⊢ <;> exact hsend
  | noData => exact fail_tells hwf _ _ _
  | old => exact sendNextAck_tells hwf
  | next =>
    obtain ⟨hf, hm⟩ := Reception.kind_next hk
    exact acceptBlock_tells hwf hh hf hm
  | early => exact fail_tells hwf _ _ _

theorem failed_tells {e : ErrorCode} (he : e ≠ .success) (n : ℕ) :
    Tells s (s.checkReceivedBlock e n) (s.reception.handle s.blocksize (.failed e))
      (s.reception.replies s.blocksize (.failed e)) := by
  obtain ⟨t, ht⟩ : ∃ t, t = { s with io := s.io.timerCancel } := ⟨_, rfl⟩
  have hwf : t.WellFormed := by rw [ht]; exact hs.io _ rfl
  have hr : s.reception = t.reception := by rw [ht]; rfl
  have hbs : s.blocksize = t.blocksize := by rw [ht]
  have hw : t.io.wire = s.io.wire := by rw [ht]; rfl
  have hended : t.reception.ended = t.operationEnded := rfl
  unfold checkReceivedBlock blockBranch
  dsimp only
  rw [if_neg he, ← ht, hr, Reception.handle, Reception.replies, hended]
  refine Tells.after ?_ hw hbs.symm
  by_cases ha : e = .operationAborted
  · rw [if_pos ha, if_pos ha, if_pos ha]
    exact sendNextAck_tells hwf
  · rw [if_neg ha, if_neg ha, if_neg ha, ite_self]
    exact endOperationWith_tells _

theorem expired_tells {e : ErrorCode} (he : e ≠ .operationAborted) :
    Tells s (s.handleReadTimeout e) (s.reception.handle s.blocksize .expired)
      (s.reception.replies s.blocksize .expired) := by
  have hended : s.reception.ended = s.operationEnded := rfl
  have htime : s.reception.timeouts = s.timeoutcount := rfl
  unfold handleReadTimeout Io.cancel
  rw [if_neg he, hs.isOpen, Reception.handle, Reception.replies, hended, htime]
  by_cases ho : s.operationEnded = true
  · have hclosed : ¬ (!s.operationEnded) = true := by rw [ho]; exact Bool.false_ne_true
    rw [if_pos ho, if_pos ho, if_neg hclosed]
    exact .silent rfl rfl
  · have hopen : (!s.operationEnded) = true := by rw [Bool.eq_false_iff.2 ho]; rfl
    rw [if_neg ho, if_neg ho, if_pos hopen]
    dsimp only
    have hwf : WellFormed { s with io := s.io.abortAll, timeoutcount := s.timeoutcount + 1 } :=
      ⟨hs.isOpen, hs.databuffer⟩
    by_cases hle : s.timeoutcount + 1 ≤ retransmissionsUntilTimeout
    · have hlt := UInt16.not_lt.2 hle
      rw [if_pos hle, if_neg hlt, decide_eq_false hlt, ← Bool.eq_false_iff.2 ho]
      exact .silent rfl rfl
    · have hlt := UInt16.not_le.1 hle
      have hfail := fail_tells hwf 4 (ascii "Timeout while waiting for Data Packet " ++
        decimal (s.lastreceiveddatacount.toNat + 1)) (if e = .success then .noerr else .unspecified)
      rw [if_neg ho] at hfail
      rw [if_neg hle, if_pos hlt, decide_eq_true hlt]
      exact hfail.after rfl

omit hs in
theorem handleACKsent_tells (e : ErrorCode) (n : ℕ) : Tells s (s.handleACKsent e n) s.reception [] := by
  unfold handleACKsent
  split_ifs
  · exact startNextReceive_tells
  · exact .silent rfl rfl

/-! ### Whole runs -/

/-- **A receiver carries out its reception**: a completion has the effect and the replies
    that the reception says, and nothing else has any. -/
theorem refines {tr : List (TftpReceiver × Event Endpoint × TftpReceiver)} (hi : Inbox proactor Holds tr s)
    {e : Event Endpoint} {s' : TftpReceiver} (h : proactor.step s e = some s') :
    Tells s s' ((completion proactor (datagrams tr).getLast? s e).elim s.reception (s.reception.handle s.blocksize))
      ((completion proactor (datagrams tr).getLast? s e).elim [] (s.reception.replies s.blocksize)) := by
  obtain ⟨-, hstep⟩ := Proactor.step_cases h
  cases hstep with
  | start _ => exact (start_tells (hs.io { s.io with started := true } rfl)).after rfl
  | deliver _ => exact .silent rfl rfl
  | receiveFails _ _ => exact .silent rfl rfl
  | sendCompletes _ => exact .silent rfl rfl
  | expire _ => exact .silent rfl rfl
  | @runReceive i r err n hx =>
    have hwf := hs.io { s.io with received := s.io.received.eraseIdx i } rfl
    have hx' : s.io.received[i]? = some (r, err, n) := hx
    have hio : (proactor.io s).received[i]? = some (r, err, n) := hx
    change Tells s (onReceive r err n _) _ _
    rw [onReceive_eq, completion, hio, Option.bind_some]
    by_cases herr : err = .success
    · subst herr
      obtain ⟨src, d, hd, hh⟩ := hi.arrived r n (List.mem_of_getElem? hx)
      rw [hd, if_pos rfl]
      exact (datagram_tells hwf (hh.io _)).after rfl
    · rw [if_neg herr]
      exact (failed_tells hwf herr n).after rfl
  | @runSend i err n _ => exact (handleACKsent_tells err n).after rfl
  | @runTimer i err hx =>
    have hwf := hs.io { s.io with waited := s.io.waited.eraseIdx i } rfl
    have hio : (proactor.io s).waited[i]? = some err := hx
    change Tells s (handleReadTimeout err _) _ _
    rw [completion, hio, Option.bind_some]
    by_cases herr : err = .operationAborted
    · rw [if_pos herr, handleReadTimeout, if_pos herr]
      exact .silent rfl rfl
    · rw [if_neg herr]
      exact (expired_tells hwf herr).after rfl

/-- What a step acknowledges is the last block that has been accepted then. -/
theorem step_acks {tr : List (TftpReceiver × Event Endpoint × TftpReceiver)} (hi : Inbox proactor Holds tr s)
    {e : Event Endpoint} {s' : TftpReceiver} (h : proactor.step s e = some s') :
    s.lastreceiveddatacount.toNat ≤ s'.lastreceiveddatacount.toNat ∧ ∃ w, s'.io.wire = s.io.wire ++ w ∧
      ∀ n ∈ ackNrs w, n = s'.lastreceiveddatacount.toNat := by
  obtain ⟨-, hr, w, hw, hspell⟩ := refines hs hi h
  have hcount : s'.lastreceiveddatacount = s'.reception.count := rfl
  rw [hcount, hr]
  cases hc : completion proactor (datagrams tr).getLast? s e with
  | none =>
    rw [hc] at hspell
    refine ⟨le_rfl, w, hw, fun n hn => ?_⟩
    rw [ackNrs, repliesOn_spelled hspell] at hn
    cases hn
  | some c =>
    rw [hc] at hspell
    refine ⟨Reception.count_le_handle (r := s.reception), w, hw, fun n hn => ?_⟩
    rw [ackNrs, repliesOn_spelled hspell] at hn
    obtain ⟨rp, hrp, hn⟩ := List.mem_filterMap.1 hn
    exact Reception.acked_replies hrp hn

end

/-- After the transitions `tr`, every ACK that was sent in one of them carries the number of
    the last block accepted then. -/
structure Acknowledges (tr : List (TftpReceiver × Event Endpoint × TftpReceiver)) (s : TftpReceiver) : Prop where
  inbox : Inbox proactor Holds tr s
  wf : s.WellFormed
  acks : ∀ x ∈ tr, ∃ w, x.2.2.io.wire = x.1.io.wire ++ w ∧ ∀ n ∈ ackNrs w, n = x.2.2.lastreceiveddatacount.toNat
  below : ∀ n ∈ ackNrs s.io.wire, n ≤ s.lastreceiveddatacount.toNat
  sorted : (ackNrs s.io.wire).Pairwise (· ≤ ·)

theorem acknowledges {s₀ s : TftpReceiver} (h₀ : Constructed s₀) (hw : s₀.io.wire = []) {es : List (Event Endpoint)}
    (h : lts.run s₀ es = some s) : Acknowledges (lts.trace s₀ es) s := by
  refine Lts.run_inv (L := lts) Acknowledges ?_ ?_ h
  · have hbox : Inbox proactor Holds [] s₀ := inbox h₀ (rfl : lts.run s₀ [] = some s₀)
    refine ⟨hbox, h₀.wellFormed, fun x hx => absurd hx List.not_mem_nil, ?_, ?_⟩ <;> rw [hw]
    · exact fun n hn => by cases hn
    · exact .nil
  · intro tr s e s' ha he
    obtain ⟨hle, w, hw, hn⟩ := step_acks ha.wf ha.inbox he
    refine ⟨single.inbox_step ha.inbox he, ha.wf.step he, fun x hx => ?_, ?_, ?_⟩
    · rcases List.mem_append.1 hx with hx | hx
      · exact ha.acks x hx
      · rw [List.mem_singleton.1 hx]
        exact ⟨w, hw, hn⟩
    · rw [hw, ackNrs_append]
      intro n hmem
      rcases List.mem_append.1 hmem with hmem | hmem
      · exact (ha.below n hmem).trans hle
      · exact (hn n hmem).le
    · rw [hw, ackNrs_append]
      refine List.pairwise_append.2 ⟨ha.sorted, ?_, fun a ha' b hb => ?_⟩
      · exact List.pairwise_of_forall_mem_list fun a ha' b hb => ((hn a ha').trans (hn b hb).symm).le
      · exact ((ha.below a ha').trans hle).trans (hn b hb).ge

end TftpReceiver

end Ttftp

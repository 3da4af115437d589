/-
  Datagrams from other hosts than the peer, in the runs of a receiver.

  A run is seen as the sequence of the completions that it handles, and `withoutForeign`
  leaves the foreign datagrams out of it: `Tracks` says that they do not matter, and counts
  the errors that they are answered with.
-/
import Ttftp.Proof.Reception

namespace Ttftp

open Bytes Asio

namespace Reception
variable {bs : ℕ} {r : Reception} {c : Completion Endpoint}

def isForeign (r : Reception) : Completion Endpoint → Bool
  | .datagram src _ => decide (r.Foreign src)
  | _ => false

theorem isForeign_iff : r.isForeign c = true ↔ ∃ src d, c = .datagram src d ∧ r.Foreign src := by
  cases c with
  | datagram src d =>
    rw [isForeign, decide_eq_true_iff]
    exact ⟨fun h => ⟨src, d, rfl, h⟩, by rintro ⟨_, _, h, hf⟩; cases h; exact hf⟩
  | _ => exact iff_of_false Bool.noConfusion (by rintro ⟨_, _, h, -⟩; cases h)

theorem kind_foreign {src : Endpoint} (h : r.Foreign src) (d : Bytes) : r.kind bs src d = .foreign := if_pos h

/-- A foreign datagram has no effect. -/
theorem handle_foreign (h : r.isForeign c = true) : r.handle bs c = r := by
  obtain ⟨src, d, rfl, hf⟩ := isForeign_iff.1 h
  rw [handle, kind_foreign hf]

theorem replies_foreign {src : Endpoint} (h : r.Foreign src) (he : r.ended = false) (d : Bytes) :
    r.replies bs (.datagram src d) = [.error src TftpErrorCode.unknownTrId.toUInt16, .ack r.peer r.count] := by
  rw [replies, if_neg (by rw [he]; exact Bool.false_ne_true), kind_foreign h, ackCurrent, if_pos h.1]

theorem replies_ended (h : r.ended = true) : r.replies bs c = [] := if_pos h

/-- After the end, only a datagram has an effect. -/
theorem handle_ended (h : r.ended = true) (hc : ∀ src d, c ≠ .datagram src d) : r.handle bs c = r := by
  have hr : { r with ended := true } = r := by rw [← h]
  cases c with
  | started => rw [handle, h, Bool.true_or, hr]
  | datagram src d => exact absurd rfl (hc src d)
  | failed e => rw [handle, hr, ite_self]
  | expired => rw [handle, if_pos h]

/-- The replies to a sequence of completions. -/
def answers (bs : ℕ) : Reception → List (Completion Endpoint) → List Reply
  | _, [] => []
  | r, c :: cs => r.replies bs c ++ answers bs (r.handle bs c) cs

theorem answers_concat (cs : List (Completion Endpoint)) :
    answers bs r (cs ++ [c]) = answers bs r cs ++ (cs.foldl (handle bs) r).replies bs c := by
  induction cs generalizing r with
  | nil => exact List.append_nil _
  | cons x cs ih => rw [List.cons_append, answers, ih, answers, List.append_assoc]; rfl

end Reception

/-- The errors with the code `ERR_UNKNOWN_TR_ID`. -/
def Reply.isUnknownTrId : Reply → Bool
  | ack _ _ => false
  | error _ code => code = TftpErrorCode.unknownTrId.toUInt16

/-- The number of `ERR_UNKNOWN_TR_ID` errors that have been sent. -/
def unknownTrIds (wire : List (Endpoint × Bytes)) : ℕ := (repliesOn wire).countP Reply.isUnknownTrId

/-- Only foreign datagrams are answered so. -/
theorem Reception.countP_replies {bs : ℕ} (r : Reception) (c : Completion Endpoint) :
    (r.replies bs c).countP Reply.isUnknownTrId = (r.isForeign c && !r.ended).toNat := by
  have hack : r.ackCurrent.countP Reply.isUnknownTrId = 0 := by
    unfold ackCurrent
    split_ifs <;> rfl
  cases he : r.ended with
  | true => rw [replies_ended he, Bool.not_true, Bool.and_false]; rfl
  | false =>
    unfold replies
    rw [Bool.not_false, Bool.and_true, if_neg (by rw [he]; exact Bool.false_ne_true)]
    cases c with
    | started =>
      dsimp only
      split_ifs
      · rfl
      · exact hack
    | datagram src d =>
      have hf : (r.isForeign (.datagram src d)) = decide (r.kind bs src d = .foreign) := by
        rw [isForeign, decide_eq_decide]
        refine ⟨fun h => kind_foreign h d, fun h => ?_⟩
        unfold kind at h
        split_ifs at h with h1
        exact h1
      dsimp only
      rw [hf]
      cases r.kind bs src d with
      | foreign => rw [List.countP_cons_of_pos (by rfl), hack]; rfl
      | noData => rfl
      | old => exact hack
      | next => dsimp only; split_ifs <;> rfl
      | early => rfl
    | failed e =>
      dsimp only
      split_ifs
      · exact hack
      · rfl
    | expired => dsimp only; split_ifs <;> rfl

/-- As long as a reception goes on, the last accepted block has been acknowledged. -/
theorem Reception.acked_or_same {bs : ℕ} {r : Reception} {c : Completion Endpoint}
    (hc : (r.handle bs c).connected = true) (he : (r.handle bs c).ended = false) :
    .ack (r.handle bs c).peer (r.handle bs c).count ∈ r.replies bs c ∨
      c ≠ .started ∧ r.ended = false ∧ r.Same (r.handle bs c) := by
  cases c with
  | started =>
    have h : r.ended = false ∧ r.output.fail = false := by
      rw [handle, Bool.or_eq_false_iff] at he
      exact he
    have hconn : r.connected = true := hc
    left
    rw [replies, if_neg (by simp [h.1]), if_neg (by simp [h.2]), ackCurrent, if_pos hconn]
    exact List.mem_singleton_self _
  | datagram src d =>
    by_cases hk : r.kind bs src d = .next
    · left
      rw [handle, hk] at he ⊢
      rw [accept, Bool.or_eq_false_iff, Bool.or_eq_false_iff] at he
      rw [replies, if_neg (by simp [he.1.1]), hk]
      dsimp only
      rw [if_neg (by simp [he.1.2])]
      exact List.mem_singleton_self _
    · refine .inr ⟨by simp, ?_, handle_same fun _ _ h => by cases h; exact hk⟩
      rw [handle] at he
      cases hk' : r.kind bs src d <;> rw [hk'] at he
      · exact he
      · cases he
      · exact he
      · exact absurd hk' hk
      · cases he
  | failed e =>
    refine .inr ⟨by simp, ?_, handle_same fun _ _ h => by cases h⟩
    rw [handle] at he
    split_ifs at he
    exact he
  | expired =>
    refine .inr ⟨by simp, ?_, handle_same fun _ _ h => by cases h⟩
    rw [handle] at he
    split_ifs at he with h
    · exact he
    · exact Bool.eq_false_iff.2 h

namespace TftpReceiver

theorem Constructed.wire {s : TftpReceiver} (h : Constructed s) : s.io.wire = [] := by
  cases h with
  | unknown => rfl
  | known => rfl
  | data1 =>
    unfold newConnectedData1
    dsimp only
    split_ifs <;> rfl

theorem Constructed.started {s : TftpReceiver} (h : Constructed s) : s.io.started = false := by
  cases h with
  | unknown => rfl
  | known => rfl
  | data1 =>
    unfold newConnectedData1
    dsimp only
    split_ifs <;> rfl

/-- The completions that have been handled, without the foreign datagrams. -/
def withoutForeign (hs : List (TftpReceiver × Completion Endpoint)) : List (Completion Endpoint) :=
  (hs.filter fun x => !x.1.reception.isForeign x.2).map (·.2)

theorem withoutForeign_concat (hs : List (TftpReceiver × Completion Endpoint)) (s : TftpReceiver)
    (c : Completion Endpoint) : withoutForeign (hs ++ [(s, c)]) =
      withoutForeign hs ++ (if s.reception.isForeign c then [] else [c]) := by
  rw [withoutForeign, List.filter_append, List.map_append]
  cases hf : s.reception.isForeign c <;> simp [withoutForeign, hf]

/-! ## Whole runs -/

/-- What the completions of a run have made of the receiver, and that those without the
    foreign datagrams would have made the same. -/
structure Tracks (s₀ : TftpReceiver) (tr : List (TftpReceiver × Event Endpoint × TftpReceiver))
    (s : TftpReceiver) : Prop where
  inbox : Inbox proactor Holds tr s
  wf : s.WellFormed
  blocksize : s.blocksize = s₀.blocksize
  reception : s.reception = ((handled proactor tr).map (·.2)).foldl (Reception.handle s₀.blocksize) s₀.reception
  acks : ackNrs s.io.wire =
    (s₀.reception.answers s₀.blocksize ((handled proactor tr).map (·.2))).filterMap Reply.acked
  keptReception : s.reception =
    (withoutForeign (handled proactor tr)).foldl (Reception.handle s₀.blocksize) s₀.reception
  keptAcks : ∀ n, n ∈ ackNrs s.io.wire ↔
    n ∈ (s₀.reception.answers s₀.blocksize (withoutForeign (handled proactor tr))).filterMap Reply.acked
  errors : unknownTrIds s.io.wire =
    (handled proactor tr).countP fun x => x.1.reception.isForeign x.2 && !x.1.operationEnded
  current : s.io.started = true → s.isConnected = true → s.operationEnded = false →
    (s.mSenderEndpoint, AckMessage.encode ⟨s.lastreceiveddatacount⟩) ∈ s.io.wire

namespace Tracks
variable {s₀ s s' : TftpReceiver} {tr : List (TftpReceiver × Event Endpoint × TftpReceiver)} {e : Event Endpoint}

theorem init (h : Constructed s₀) : Tracks s₀ [] s₀ where
  inbox := TftpReceiver.inbox h (rfl : lts.run s₀ [] = some s₀)
  wf := h.wellFormed
  blocksize := rfl
  reception := rfl
  acks := by rw [h.wire]; rfl
  keptReception := rfl
  keptAcks n := by rw [h.wire]; rfl
  errors := by rw [h.wire]; rfl
  current hs := by rw [h.started] at hs; cases hs

/-- Foreign datagrams are acknowledged once more. -/
theorem mem_replies_foreign (h : Tracks s₀ tr s) (hs : s.io.started = true) {c : Completion Endpoint}
    (hf : s.reception.isForeign c = true) {bs n : ℕ}
    (hn : n ∈ (s.reception.replies bs c).filterMap Reply.acked) : n ∈ ackNrs s.io.wire := by
  obtain ⟨src, d, rfl, hsrc⟩ := Reception.isForeign_iff.1 hf
  cases he : s.operationEnded with
  | true =>
    rw [Reception.replies_ended (r := s.reception) he] at hn
    cases hn
  | false =>
    rw [Reception.replies_foreign hsrc he] at hn
    have hn' : n = s.lastreceiveddatacount.toNat := List.mem_singleton.1 hn
    rw [hn']
    exact mem_ackNrs (h.current hs hsrc.1 he)

theorem step (h : Tracks s₀ tr s) (he : proactor.step s e = some s') : Tracks s₀ (tr ++ [(s, e, s')]) s' := by
  obtain ⟨hb, hr, w, hw, hspell⟩ := refines h.wf h.inbox he
  have hi := single.inbox_step h.inbox he
  have hwf := h.wf.step he
  have hreplies := repliesOn_spelled hspell
  have hacks : ackNrs s'.io.wire = ackNrs s.io.wire ++ ackNrs w := by rw [hw, ackNrs_append]
  have herrs : unknownTrIds s'.io.wire = unknownTrIds s.io.wire + unknownTrIds w := by
    rw [hw, unknownTrIds, repliesOn_append, List.countP_append]
    rfl
  have hstarted := single.started_step he
  have hhandled := handled_append proactor tr s s' e
  have hb' := hb.trans h.blocksize
  cases hc : completion proactor (datagrams tr).getLast? s e with
  | none =>
    rw [hc] at hr hreplies hhandled
    have hrec : s'.reception = s.reception := hr
    have hnone : repliesOn w = [] := hreplies
    rw [Option.map_none, Option.toList_none, List.append_nil] at hhandled
    have hnil : ackNrs w = [] := by rw [ackNrs, hnone]; rfl
    rw [hnil, List.append_nil] at hacks
    refine ⟨hi, hwf, hb', ?_, ?_, ?_, ?_, ?_, fun hs hcon hend => ?_⟩
    · rw [hrec, hhandled, h.reception]
    · rw [hacks, hhandled, h.acks]
    · rw [hrec, hhandled, h.keptReception]
    · rw [hacks, hhandled]
      exact h.keptAcks
    · rw [herrs, hhandled, h.errors, unknownTrIds, hnone]
      rfl
    · have hne : e ≠ .start := fun hst => by rw [hst] at hc; cases hc
      have hst : s.io.started = true := (hstarted.resolve_left hne).symm.trans hs
      have hcur := h.current hst ((congrArg Reception.connected hrec).symm.trans hcon)
        ((congrArg Reception.ended hrec).symm.trans hend)
      have hpeer : s'.mSenderEndpoint = s.mSenderEndpoint := congrArg Reception.peer hrec
      have hcount : s'.lastreceiveddatacount = s.lastreceiveddatacount := congrArg Reception.count hrec
      rw [hpeer, hcount, hw]
      exact List.mem_append_left _ hcur
  | some c =>
    rw [hc] at hr hreplies hhandled hspell
    rw [h.blocksize] at hspell
    have hrec : s'.reception = s.reception.handle s₀.blocksize c := by rw [← h.blocksize]; exact hr
    have hsome : repliesOn w = s.reception.replies s₀.blocksize c := by rw [← h.blocksize]; exact hreplies
    have hcons : handled proactor (tr ++ [(s, e, s')]) = handled proactor tr ++ [(s, c)] := hhandled
    have hwacks : ackNrs w = (s.reception.replies s₀.blocksize c).filterMap Reply.acked := by rw [ackNrs, hsome]
    have hs : s.reception.isForeign c = true → s.io.started = true := by
      intro hf
      obtain ⟨src, d, rfl, -⟩ := Reception.isForeign_iff.1 hf
      obtain ⟨i, r, n, -, hx, -⟩ := completion_datagram hc
      have ht := (Io.tokens_eraseIdx_received hx h.inbox.tokens).1
      by_contra hn
      have := h.inbox.fresh (Bool.eq_false_iff.2 hn)
      omega
    refine ⟨hi, hwf, hb', ?_, ?_, ?_, fun n => ?_, ?_, fun hst hcon hend => ?_⟩
    · rw [hrec, hcons, List.map_append, List.foldl_append, ← h.reception]
      rfl
    · rw [hacks, hcons, List.map_append, List.map_singleton, Reception.answers_concat, ← h.reception,
        List.filterMap_append, ← h.acks, hwacks]
    · rw [hrec, hcons, withoutForeign_concat, List.foldl_append, ← h.keptReception]
      split_ifs with hf
      · exact Reception.handle_foreign hf
      · rfl
    · rw [hacks, hcons, withoutForeign_concat, List.mem_append, hwacks]
      split_ifs with hf
      · rw [List.append_nil, ← h.keptAcks]
        exact ⟨fun hn => hn.elim id (h.mem_replies_foreign (hs hf) hf), .inl⟩
      · rw [Reception.answers_concat, ← h.keptReception, List.filterMap_append, List.mem_append, h.keptAcks]
    · rw [herrs, hcons, List.countP_append, h.errors, unknownTrIds, hsome, Reception.countP_replies]
      rfl
    · have hcon' : (s.reception.handle s₀.blocksize c).connected = true := by rw [← hrec]; exact hcon
      have hend' : (s.reception.handle s₀.blocksize c).ended = false := by rw [← hrec]; exact hend
      have hpeer : s'.mSenderEndpoint = (s.reception.handle s₀.blocksize c).peer := by rw [← hrec]; rfl
      have hcount : s'.lastreceiveddatacount = (s.reception.handle s₀.blocksize c).count := by rw [← hrec]; rfl
      rw [hpeer, hcount, hw]
      rcases Reception.acked_or_same hcon' hend' with hack | ⟨hne, hrun, hsame⟩
      · exact List.mem_append_right _ (Reply.Spells.ack_mem hspell hack)
      · have hne' : e ≠ .start := fun hst => by
          rw [hst] at hc
          cases hc
          exact hne rfl
        rw [hsame.peer, hsame.count]
        exact List.mem_append_left _ (h.current ((hstarted.resolve_left hne').symm.trans hst)
          (hsame.connected.symm.trans hcon') hrun)

theorem run (h₀ : Constructed s₀) {es : List (Event Endpoint)} (h : lts.run s₀ es = some s) :
    Tracks s₀ (lts.trace s₀ es) s :=
  Lts.run_inv (L := lts) (Tracks s₀) (init h₀) (fun _ _ _ _ ht he => ht.step he) h

end Tracks

/-! ## One datagram -/

/-- A foreign datagram from `src` changes nothing, and is answered with an error; the peer
    gets its last ACK again. -/
structure Unmoved (src : Endpoint) (s s' : TftpReceiver) : Prop where
  output : s'.output = s.output
  lastreceiveddatacount : s'.lastreceiveddatacount = s.lastreceiveddatacount
  timeoutcount : s'.timeoutcount = s.timeoutcount
  isConnected : s'.isConnected = s.isConnected
  operationEnded : s'.operationEnded = s.operationEnded
  mSenderEndpoint : s'.mSenderEndpoint = s.mSenderEndpoint
  sent : ∃ msg, s'.io.wire = s.io.wire ++
    [(src, ErrorMessage.encode ⟨TftpErrorCode.unknownTrId.toUInt16, msg⟩),
      (s.mSenderEndpoint, AckMessage.encode ⟨s.lastreceiveddatacount⟩)]
  repeated : (s.mSenderEndpoint, AckMessage.encode ⟨s.lastreceiveddatacount⟩) ∈ s.io.wire

/-- The next handler of a receive gets the datagram `d` from `src`. -/
theorem completion_gets {s : TftpReceiver} {tr : List (TftpReceiver × Event Endpoint × TftpReceiver)} {i : ℕ}
    {src : Endpoint} {d : Bytes} (hg : Gets proactor tr s i src d) :
    completion proactor (datagrams tr).getLast? s (.runReceive i) = some (.datagram src d) := by
  obtain ⟨⟨r, n, hx⟩, hd⟩ := hg
  rw [completion, hx, hd, Option.bind_some, if_pos rfl]
  rfl

theorem Tracks.unmoved {s₀ s s' : TftpReceiver} {tr : List (TftpReceiver × Event Endpoint × TftpReceiver)}
    (h : Tracks s₀ tr s) {i : ℕ} {src : Endpoint} {d : Bytes} (hg : Gets proactor tr s i src d)
    (hc : s.isConnected = true) (he : s.operationEnded = false) (hne : src ≠ s.mSenderEndpoint)
    (hstep : proactor.step s (.runReceive i) = some s') : Unmoved src s s' := by
  have hf : s.reception.Foreign src := ⟨hc, hne⟩
  have htells := refines h.wf h.inbox hstep
  rw [completion_gets hg, Option.elim_some, Option.elim_some, Reception.handle_foreign (Reception.isForeign_iff.2
    ⟨src, d, rfl, hf⟩), Reception.replies_foreign hf he] at htells
  have hr := htells.reception
  obtain ⟨r, n, hx⟩ := hg.1
  have hst : s.io.started = true := by
    have ht := (Io.tokens_eraseIdx_received hx h.inbox.tokens).1
    by_contra hn
    have := h.inbox.fresh (Bool.eq_false_iff.2 hn)
    omega
  refine ⟨congrArg Reception.output hr, congrArg Reception.count hr, congrArg Reception.timeouts hr,
    congrArg Reception.connected hr, congrArg Reception.ended hr, congrArg Reception.peer hr, ?_,
    h.current hst hc he⟩
  obtain ⟨w, hw, hspell⟩ := htells.wire
  cases hspell with
  | cons herr hspell => cases hspell with
    | cons hack hspell =>
      cases hspell
      obtain ⟨msg, rfl⟩ := herr
      cases hack
      exact ⟨msg, hw⟩

end TftpReceiver

end Ttftp

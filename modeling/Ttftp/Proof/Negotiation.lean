/-
  What the two ends make of an OACK.

  `oack_answers` says which sessions open with an OACK, and `negotiation_iff` when
  the client accepts it and ends up with the parameters of the server's session.
-/
import Ttftp.Proof.Opening

namespace Ttftp

open Bytes Asio
open TransactionOptionValues (Acceptable FromMap optionsOf fromClient oackBytes)

/-! ## What a session sends first -/

theorem Tftpsender.start_after_oack (w : List (Endpoint × Bytes)) (input : IStream) (client : Endpoint)
    (bs : ℕ) (t : UInt8) :
    (∃ w', (newConnected { started := true, wire := w } input client 0 bs t).start.io.wire = w ++ w') ∧
    (newConnected { started := true, wire := w } input client 0 bs t).start.blocksize = bs ∧
    (newConnected { started := true, wire := w } input client 0 bs t).start.timeoutSeconds = t := by
  unfold start
  cases hf : (newConnected { started := true, wire := w } input client 0 bs t).input.fail with
  | true => exact ⟨⟨[_], rfl⟩, rfl, rfl⟩
  | false => exact ⟨⟨[], (List.append_nil w).symm⟩, rfl, rfl⟩

/-- Without an OACK it opens with DATA 1, or with an ERROR message. -/
theorem Tftpsender.start_data (content : Option Bytes) (client : Endpoint) {bs : ℕ} (hbs : bs ≤ 65464)
    (t : UInt8) :
    (∃ F, (newConnected { started := true } (.ofFile content) client 1 bs t).start.io.wire =
      [(client, dataOf F bs 1)]) ∨
    ∃ msg : ErrorMessage, (newConnected { started := true } (.ofFile content) client 1 bs t).start.io.wire =
      [(client, msg.encode)] := by
  cases content with
  | none => exact .inr ⟨_, rfl⟩
  | some F =>
    obtain ⟨input, lastsentdata, -, -, -, -, heq⟩ := @sendNextBlock_block
      (newConnected { started := true } (.ofFile (some F)) client 1 bs t)
      ⟨rfl, List.length_replicate, Nat.zero_le _, rfl⟩ hbs le_rfl rfl rfl
    have hstart : (newConnected { started := true } (.ofFile (some F)) client 1 bs t).start =
        (newConnected { started := true } (.ofFile (some F)) client 1 bs t).sendNextBlock :=
      (if_neg (by decide : ¬ false = true)).trans (if_pos rfl)
    rw [hstart, heq]
    exact .inl ⟨F, rfl⟩

theorem TftpReceiver.start_after_oack (w : List (Endpoint × Bytes)) (output : OStream) (client : Endpoint)
    (bs : ℕ) (t : UInt8) :
    ((newConnected { started := true, wire := w } output client bs t).start.io.wire =
        w ++ [(client, ackOf 0)] ∨
      ∃ msg : ErrorMessage, (newConnected { started := true, wire := w } output client bs t).start.io.wire =
        w ++ [(client, msg.encode)]) ∧
    (newConnected { started := true, wire := w } output client bs t).start.blocksize = bs ∧
    (newConnected { started := true, wire := w } output client bs t).start.timeoutSeconds = t := by
  unfold start
  cases hf : (newConnected { started := true, wire := w } output client bs t).output.fail with
  | true => exact ⟨.inr ⟨_, rfl⟩, rfl, rfl⟩
  | false => exact ⟨.inl rfl, rfl, rfl⟩

namespace TftpServer

/-- A session without options does not open with an OACK. -/
theorem sessionOf_default {request : RequestMessage} {s : TftpServer} {client : Endpoint}
    {p : Endpoint × Bytes} (h : (s.sessionOf request {} client).wire.head? = some p) :
    ntohs p.2 0 ≠ TftpOpcode.oack.toUInt16 := by
  have key : ∀ b, (s.sessionOf request {} client).wire = [(client, b)] → p.2 = b := by
    intro b hb
    rw [hb] at h
    cases h
    rfl
  unfold sessionOf at key
  split_ifs at key
  · rcases Tftpsender.start_data (s.os.content (s.path request)) client
      (show defaultBlocksize ≤ 65464 by decide) retransmissionTime with ⟨F, hw⟩ | ⟨msg, hw⟩
    · rw [key _ hw, dataOf, ntohs_dataBytes]
      decide
    · rw [key _ hw, ErrorMessage.ntohs_encode]
      decide
  · rcases (TftpReceiver.start_after_oack [] (s.os.output (s.path request)) client defaultBlocksize
      retransmissionTime).1 with hw | ⟨msg, hw⟩
    · rw [key _ hw, ackOf, AckMessage.ntohs_encode]
      decide
    · rw [key _ hw, ErrorMessage.ntohs_encode]
      decide

/-- A session with options opens with its OACK, and uses its parameters. -/
theorem sessionOf_fromClient (request : RequestMessage) (s : TftpServer) (client : Endpoint)
    (respond : TransactionOptionValues → TransactionOptionValues) (m : OptMap) :
    (s.sessionOf request (paramsOf respond (fromClient m) client) client).wire.head? =
      some (client, (respond (fromClient m)).oackBytes) ∧
    (s.sessionOf request (paramsOf respond (fromClient m) client) client).blocksize =
      (optionsOf m).mBlocksize.getD defaultBlocksize ∧
    (s.sessionOf request (paramsOf respond (fromClient m) client) client).timeoutSeconds =
      (optionsOf m).mTimeout.getD retransmissionTime := by
  rw [paramsOf_fromClient]
  unfold sessionOf
  split_ifs
  · obtain ⟨⟨w, hw⟩, hb, ht⟩ := Tftpsender.start_after_oack [(client, (respond (fromClient m)).oackBytes)]
      (.ofFile (s.os.content (s.path request))) client ((optionsOf m).mBlocksize.getD defaultBlocksize)
      ((optionsOf m).mTimeout.getD retransmissionTime)
    exact ⟨congrArg List.head? hw, hb, ht⟩
  · obtain ⟨hw, hb, ht⟩ := TftpReceiver.start_after_oack [(client, (respond (fromClient m)).oackBytes)]
      (s.os.output (s.path request)) client ((optionsOf m).mBlocksize.getD defaultBlocksize)
      ((optionsOf m).mTimeout.getD retransmissionTime)
    refine ⟨?_, hb, ht⟩
    rcases hw with hw | ⟨msg, hw⟩ <;> exact congrArg List.head? hw

/-! ## The agreement -/

/-- The request has started a session, which opens with an OACK. -/
structure AnsweredWith (client : Endpoint) (oack : Bytes) (x : Session) (s s' : TftpServer) : Prop where
  session : s'.sessions = s.sessions ++ [x]
  wire : x.wire.head? = some (client, oack)
  opcode : ntohs oack 0 = TftpOpcode.oack.toUInt16

/-- The client accepts the OACK, which names only options of the request, and
    reads the parameters of the session from it. -/
def Agreed (request : RequestMessage) (oack : Bytes) (x : Session) : Prop :=
  ∃ (m : OptMap) (w : TransactionOptionValues),
    (∀ past self, OptionACKMessage.decode past self oack = (true, ⟨m⟩)) ∧
    TransactionOptionValues.setOptionsFromMap m {} = .ok (true, w) ∧
    (∀ k ∈ m, k ∈ request.mOptionValues) ∧
    w.mBlocksize.getD defaultBlocksize = x.blocksize ∧
    w.mTimeout.getD retransmissionTime = x.timeoutSeconds

/-- An OACK is the answer to acceptable options. -/
theorem oack_answers {s : TftpServer} {past d : Bytes} {client : Endpoint} {oack : Bytes} {x : Session}
    (ho : s.io.isOpen = true) (hd : (request past d).1 = true)
    (h : AnsweredWith client oack x s (s.receive past client d)) :
    Acceptable (request past d).2.mOptionValues ∧
    oack = (s.respond (request past d).2 (fromClient (request past d).2.mOptionValues)).oackBytes ∧
    x.blocksize = (optionsOf (request past d).2.mOptionValues).mBlocksize.getD defaultBlocksize ∧
    x.timeoutSeconds = (optionsOf (request past d).2.mOptionValues).mTimeout.getD retransmissionTime := by
  obtain ⟨hx, hw, hop⟩ := h
  have heq := receive_decoded hd ho client
  have hlast : ∀ y : Session, (s.receive past client d).sessions = s.sessions ++ [y] → y = x := by
    intro y hy
    rw [hx] at hy
    simpa using (List.append_cancel_left hy).symm
  have hdefault : ∀ t : TftpServer, x ≠ t.sessionOf (request past d).2 {} client := by
    rintro t rfl
    exact sessionOf_default hw hop
  cases hp : s.admission (request past d).2 with
  | error e =>
    rw [hp] at heq
    have hno : (s.receive past client d).sessions = s.sessions := by rw [heq]; rfl
    rw [hno] at hx
    simpa using congrArg List.length hx
  | ok o =>
    cases o with
    | none =>
      rw [hp] at heq
      exact absurd (hlast _ (by rw [heq]; rfl)).symm (hdefault _)
    | some v =>
      rw [hp] at heq
      have hs := hlast _ (by rw [heq]; rfl)
      rcases parseOptionFields_eq_ok_iff.1 ((admission_eq_some_iff _ _).1 hp).2.1 with ⟨-, rfl⟩ | ⟨-, ha, rfl⟩
      · exact absurd hs.symm (hdefault _)
      · obtain ⟨h1, h2, h3⟩ := sessionOf_fromClient (request past d).2 (s.arrived client d) client
          (s.respond (request past d).2) (request past d).2.mOptionValues
        rw [← hs]
        refine ⟨ha, ?_, h2, h3⟩
        rw [← hs] at hw
        exact congrArg Prod.snd (Option.some.inj (hw.symm.trans h1))

/-- Acceptable options are answered with one, where nothing throws. -/
theorem answeredWith {s : TftpServer} {past d : Bytes} (ho : s.io.isOpen = true)
    (hd : (request past d).1 = true) (hne : (request past d).2.mOptionValues ≠ ∅)
    (ha : Acceptable (request past d).2.mOptionValues) (hsock : s.os.sockets = true)
    (hspace : ((request past d).2.isRRQ || s.spaceKnown (fromClient (request past d).2.mOptionValues)) = true)
    (client : Endpoint) :
    AnsweredWith client
      (s.respond (request past d).2 (fromClient (request past d).2.mOptionValues)).oackBytes
      ((s.arrived client d).sessionOf (request past d).2 (paramsOf (s.respond (request past d).2)
        (fromClient (request past d).2.mOptionValues) client) client) s (s.receive past client d) where
  session := by
    rw [receive_decoded hd ho client, (admission_eq_some_iff _ _).2
      ⟨hsock, parseOptionFields_eq_ok_iff.2 (.inr ⟨hne, ha, rfl⟩), hspace⟩]
    rfl
  wire := (sessionOf_fromClient _ _ _ _ _).1
  opcode := TransactionOptionValues.opcode_oackBytes _

section
variable {s : TftpServer} {request : RequestMessage} {v : TransactionOptionValues}

theorem respond_fromMap (h : v.FromMap) : (s.respond request v).FromMap := by
  unfold respond respondWithSize
  split_ifs
  · exact ⟨h.blksize, h.timeout⟩
  · exact h
  · exact h

theorem isSome_value_respond (k : Bytes) : ((s.respond request v).value k).isSome = (v.value k).isSome := by
  unfold respond respondWithSize
  split_ifs with hr hz
  · unfold TransactionOptionValues.value
    split_ifs
    · simpa using hz.symm
    · rfl
    · rfl
    · rfl
  · rfl
  · rfl

/-- The OACK names the recognised options of the request. -/
theorem mem_respond (ha : Acceptable request.mOptionValues) (k : Bytes) :
    k ∈ (s.respond request (fromClient request.mOptionValues)).getOptionsAsMap ↔
      k ∈ request.mOptionValues ∧ k ∈ supported_options := by
  have hk := ha.isSome_value k
  rw [TransactionOptionValues.mem_getOptionsAsMap, isSome_value_respond]
  refine hk.trans (and_congr_right fun _ => ?_)
  simp only [supported_options, List.mem_cons, List.not_mem_nil, or_false]

/-- The size in it is the client's own for a write request, which is not misread,
    and the size of the file for a read request. -/
theorem transferSize_respond (ha : Acceptable request.mOptionValues) :
    (∀ t ∈ (s.respond request (fromClient request.mOptionValues)).mTransferSize,
      t.toNat < 2 ^ 63 ∧ t.toNat % 2 ^ 32 < 2 ^ 31) ↔
    (request.isRRQ → tsizeName ∈ request.mOptionValues →
      (s.os.fileSize (s.path request)).toNat < 2 ^ 63 ∧
        (s.os.fileSize (s.path request)).toNat % 2 ^ 32 < 2 ^ 31) := by
  have hmem : (fromClient request.mOptionValues).mTransferSize.isSome ↔ tsizeName ∈ request.mOptionValues := by
    rw [fromClient, optionsOf, Option.isSome_map, Std.ExtTreeMap.mem_iff_isSome_getElem?]
  cases hr : request.isRRQ with
  | false =>
    have hres : s.respond request (fromClient request.mOptionValues) = fromClient request.mOptionValues := by
      rw [respond, hr]
      rfl
    refine iff_of_true (fun t ht => ?_) (fun h => by cases h)
    rw [hres] at ht
    obtain ⟨b, hb, rfl⟩ := Option.map_eq_some_iff.1 ht
    have h1 := ha.tsize b hb
    have h2 := atoi_lt b
    rw [UInt64.toNat_ofNat_of_lt' (by change _ < 2 ^ 64; omega)]
    omega
  | true =>
    rw [respond, if_pos hr, respondWithSize]
    by_cases hz : tsizeName ∈ request.mOptionValues
    · rw [if_pos (hmem.2 hz)]
      simp [hz]
    · have hnone : (fromClient request.mOptionValues).mTransferSize = none := by
        rw [← Option.not_isSome_iff_eq_none, hmem]
        exact hz
      rw [if_neg (mt hmem.1 hz), hnone]
      simp [hz]

end

/-- **When the two ends agree.**  An OACK is accepted, and means the same to both
    ends, exactly if some option of the request has been recognised, and the size
    of the file that a read request asks for is not misread. -/
theorem negotiation_iff {os : OperatingSystem} {root : Bytes} {s : TftpServer} {past d : Bytes}
    {client : Endpoint} {oack : Bytes} {x : Session} (h : (system os root).Reach s)
    (hd : (request past d).1 = true) (hans : AnsweredWith client oack x s (s.receive past client d)) :
    Agreed (request past d).2 oack x ↔
      (∃ k ∈ supported_options, k ∈ (request past d).2.mOptionValues) ∧
      ((request past d).2.isRRQ → tsizeName ∈ (request past d).2.mOptionValues →
        (s.os.fileSize (s.path (request past d).2)).toNat < 2 ^ 63 ∧
          (s.os.fileSize (s.path (request past d).2)).toNat % 2 ^ 32 < 2 ^ 31) := by
  obtain ⟨ha, rfl, hb, ht⟩ := oack_answers (reach_inv h).isOpen hd hans
  have hmap := @respond_fromMap s (request past d).2 _ ha.fromMap_fromClient
  have hmem := @mem_respond s (request past d).2 ha
  have hsize := @transferSize_respond s (request past d).2 ha
  have hblk := respond_mBlocksize (request past d).2 s (fromClient (request past d).2.mOptionValues)
  have htime : (s.respond (request past d).2 (fromClient (request past d).2.mOptionValues)).mTimeout =
      (optionsOf (request past d).2.mOptionValues).mTimeout := by
    unfold respond respondWithSize
    split_ifs <;> rfl
  generalize s.respond (request past d).2 (fromClient (request past d).2.mOptionValues) = v at *
  rw [← hsize, ← hmap.acceptable_iff]
  constructor
  · rintro ⟨m, w, hdec, hset, -⟩
    have hne : v.getOptionsAsMap ≠ ∅ := by
      intro he
      have hf := TransactionOptionValues.decode_oackBytes_empty he [] {}
      rw [hdec] at hf
      cases hf
    obtain ⟨k, hk⟩ := not_forall.1 (mt Std.ExtTreeMap.eq_empty_iff_forall_not_mem.2 hne)
    obtain ⟨hk₁, hk₂⟩ := (hmem k).1 (not_not.1 hk)
    have heq := (hdec [] {}).symm.trans (TransactionOptionValues.decode_oackBytes hmap.small hne [] {})
    obtain rfl : m = v.getOptionsAsMap := by simpa using heq
    exact ⟨⟨k, hk₂, hk₁⟩, (TransactionOptionValues.setOptionsFromMap_eq_true_iff.1 hset).1⟩
  · rintro ⟨⟨k, hk₁, hk₂⟩, hacc⟩
    have hne := Std.ExtTreeMap.ne_empty_of_mem ((hmem k).2 ⟨hk₂, hk₁⟩)
    refine ⟨v.getOptionsAsMap, optionsOf v.getOptionsAsMap, fun past self =>
      TransactionOptionValues.decode_oackBytes hmap.small hne past self,
      TransactionOptionValues.setOptionsFromMap_eq_true_iff.2 ⟨hacc, rfl⟩, fun k hk => ((hmem k).1 hk).1,
      ?_, ?_⟩
    · rw [hmap.optionsOf_blocksize, hblk, hb]
      rfl
    · rw [hmap.optionsOf_timeout, htime, ht]

/-- The ends agree on a block size of 8. -/
theorem negotiation_blksize : ∃ oack x, Agreed (oneOption .rrq blksizeName (ascii "8")) oack x := by
  have hreq := @request_oneOption .rrq blksizeName (ascii "8") (.inl rfl) (by decide) (by decide)
    (by decide) []
  have hans := @answeredWith (new oneFile slash) [] (oneOption .rrq blksizeName (ascii "8")).wire rfl
    (by rw [hreq]) (by rw [hreq]; exact Std.ExtTreeMap.ne_empty_of_mem (mem_oneOption.2 rfl))
    (by rw [hreq]; exact acceptable_blksize _) rfl (by rw [hreq]; rfl) ⟨1, 1⟩
  have hiff := @negotiation_iff oneFile slash _ [] (oneOption .rrq blksizeName (ascii "8")).wire ⟨1, 1⟩ _ _
    (.init rfl) (by rw [hreq]) hans
  rw [hreq] at hiff
  exact ⟨_, _, hiff.2 ⟨⟨_, List.mem_cons_self, mem_oneOption.2 rfl⟩, fun _ hm =>
    absurd (mem_oneOption.1 hm) (by decide)⟩⟩

/-- An OACK without options, the answer to the unknown option `x`, is not accepted. -/
theorem not_agreed_unknown_option : ∃ oack x, AnsweredWith ⟨1, 1⟩ oack x (new oneFile slash)
    (receive [] ⟨1, 1⟩ (oneOption .rrq (ascii "x") []).wire (new oneFile slash)) ∧
    ¬ Agreed (oneOption .rrq (ascii "x") []) oack x := by
  have hreq := @request_oneOption .rrq (ascii "x") [] (.inl rfl) (by decide) (by decide) (by decide) []
  have hno : ∀ k ∈ supported_options, k ∉ (oneOption .rrq (ascii "x") []).mOptionValues := by
    intro k hk hm
    rw [mem_oneOption.1 hm] at hk
    exact absurd hk (by decide)
  have hget : ∀ k ∈ supported_options, (oneOption .rrq (ascii "x") []).mOptionValues[k]? = none := by
    intro k hk
    rw [getElem?_oneOption, if_neg (mt mem_oneOption.2 (hno k hk))]
  have hacc : Acceptable (oneOption .rrq (ascii "x") []).mOptionValues := {
    blksize := fun s hs => by rw [hget _ (by decide)] at hs; cases hs
    timeout := fun hm => absurd hm (hno _ (by decide))
    tsize := fun s hs => by rw [hget _ (by decide)] at hs; cases hs }
  refine ⟨_, _, @answeredWith (new oneFile slash) [] (oneOption .rrq (ascii "x") []).wire rfl
    (by rw [hreq]) (by rw [hreq]; exact Std.ExtTreeMap.ne_empty_of_mem (mem_oneOption.2 rfl))
    (by rw [hreq]; exact hacc) rfl (by rw [hreq]; rfl) ⟨1, 1⟩, ?_⟩
  rintro ⟨m, w, hdec, -⟩
  rw [hreq] at hdec
  have hempty : ((new oneFile slash).respond (oneOption .rrq (ascii "x") [])
      (fromClient (oneOption .rrq (ascii "x") []).mOptionValues)).getOptionsAsMap = ∅ :=
    Std.ExtTreeMap.eq_empty_iff_forall_not_mem.2 fun k hk =>
      hno k ((mem_respond hacc k).1 hk).2 ((mem_respond hacc k).1 hk).1
  have hf := TransactionOptionValues.decode_oackBytes_empty hempty [] {}
  rw [hdec] at hf
  cases hf

end TftpServer

end Ttftp

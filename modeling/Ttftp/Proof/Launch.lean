/-
  What a server makes of a client that was started from the command line.

  A server serves a request as it was asked to if nothing throws, nobody sends an error, and the
  session goes on with the values of the request (`ServedAs`).  It takes the block size for the
  timeout, so that a command line with a timeout is served as asked only if both are the same;
  and it needs a socket, the file, and the space of its root folder for an upload with options
  (`served_as_asked_iff`).
-/
import Ttftp.Proof.CommandLine
import Ttftp.Proof.Lifecycle
import Ttftp.Proof.Opening

namespace Ttftp

open Bytes Asio
open TransactionOptionValues (Acceptable FromMap optionsOf fromClient)
open TftpServer (oneFile slash)

/-! ## The options -/

namespace TransactionOptionValues
variable {o : TransactionOptionValues}

theorem isDefault_iff : o.isDefault = true ↔ o.mBlocksize = none ∧ o.mTimeout = none ∧ o.mTransferSize = none := by
  simp [isDefault, Option.isNone_iff_eq_none, and_assoc]

theorem isDefault_of_map_eq_empty (h : o.getOptionsAsMap = ∅) : o.isDefault = true := by
  have hnone : ∀ k, o.value k = none := fun k => by
    by_contra hk
    have hmem := mem_getOptionsAsMap.2 (Option.isSome_iff_ne_none.2 hk)
    rw [h] at hmem
    exact absurd hmem Std.ExtTreeMap.not_mem_empty
  have h1 := hnone blksizeName
  have h2 := hnone timeoutName
  have h3 := hnone tsizeName
  rw [value_blksizeName] at h1
  rw [value_timeoutName, Option.map_eq_none_iff] at h2
  rw [value_tsizeName, Option.map_eq_none_iff] at h3
  exact isDefault_iff.2 ⟨h1, h2, h3⟩

/-- The size that is accepted is not misread. -/
theorem size_of_acceptable (ha : Acceptable o.getOptionsAsMap) :
    ∀ t ∈ o.mTransferSize, t.toNat < 2 ^ 63 ∧ t.toNat % 2 ^ 32 < 2 ^ 31 := by
  intro t ht
  refine (atoi_decimal_nonneg_iff _).1 (ha.tsize _ ?_)
  rw [getElem?_getOptionsAsMap, value_tsizeName, show o.mTransferSize = some t from ht]
  rfl

/-- The timeout that is read is the block size. -/
theorem timeout_of_acceptable (hblk : ∀ n ∈ o.mBlocksize, 8 ≤ n ∧ n ≤ 65464) (ha : Acceptable o.getOptionsAsMap)
    (h : (optionsOf o.getOptionsAsMap).mTimeout.getD retransmissionTime = o.mTimeout.getD retransmissionTime) :
    ∀ t ∈ o.mTimeout, o.mBlocksize = some t.toNat := by
  intro t ht
  have hmem : timeoutName ∈ o.getOptionsAsMap := by
    rw [mem_getOptionsAsMap, value_timeoutName, show o.mTimeout = some t from ht]
    rfl
  obtain ⟨s, hs, -⟩ := ha.timeout hmem
  have htime : (optionsOf o.getOptionsAsMap).mTimeout = some (UInt8.ofNat (atoi s).toNat) := by
    rw [optionsOf, if_pos hmem, hs]
    rfl
  rw [htime, show o.mTimeout = some t from ht, Option.getD_some, Option.getD_some] at h
  have hb := ha.fromMap.timeout t (by rw [htime, h]; rfl)
  obtain ⟨s', hs', hn⟩ := Option.map_eq_some_iff.1 hb
  rw [getElem?_getOptionsAsMap, value_blksizeName] at hs'
  obtain ⟨n, hn', rfl⟩ := Option.map_eq_some_iff.1 hs'
  have hle := (hblk n hn').2
  rw [hn', ← hn, atoi_decimal_of_lt (by omega), Int.toNat_natCast]

end TransactionOptionValues

/-! ## The server -/

namespace TftpServer

/-- The session of the request is running with the values `v`, and nothing is complained about. -/
structure ServedAs (request : RequestMessage) (client : Endpoint) (v : TransactionOptionValues) (s s' : TftpServer) :
    Prop where
  alive : s'.dead = false
  wire : s'.io.wire = s.io.wire
  session : ∃ x, s'.sessions = s.sessions ++ [x] ∧ (∃ p, x = s.sessionOf request p client) ∧
    x.blocksize = v.mBlocksize.getD defaultBlocksize ∧ x.timeoutSeconds = v.mTimeout.getD retransmissionTime ∧
    x.operationEnded = false ∧ ∀ y ∈ x.wire, ¬ IsErrorMessage y.2

/-- The sender of a file that can be read goes on after its start. -/
theorem start_sender_started {bs : ℕ} (hbs : bs ≤ 65464) (sent : List (Endpoint × Bytes)) (F : Bytes)
    (client : Endpoint) {ack : ℤ} (hack : ack = 0 ∨ ack = 1) (t : UInt8) {x : Tftpsender}
    (hx : (Tftpsender.newConnected { started := true, wire := sent } (.ofFile (some F)) client ack bs t).start = x) :
    x.blocksize = bs ∧ x.timeoutSeconds = t ∧ x.operationEnded = false ∧
      ∀ y ∈ x.io.wire, y ∈ sent ∨ y.2 = dataOf F bs 1 := by
  rcases hack with rfl | rfl
  · subst hx
    exact ⟨rfl, rfl, rfl, fun y hy => .inl hy⟩
  · obtain ⟨input, lastsentdata, -, -, -, -, heq⟩ := @Tftpsender.sendNextBlock_block
      (Tftpsender.newConnected { started := true, wire := sent } (.ofFile (some F)) client 1 bs t)
      ⟨rfl, List.length_replicate, Nat.zero_le _, rfl⟩ hbs le_rfl rfl rfl
    have hstart : (Tftpsender.newConnected { started := true, wire := sent } (.ofFile (some F)) client 1 bs t).start =
        (Tftpsender.newConnected { started := true, wire := sent } (.ofFile (some F)) client 1 bs t).sendNextBlock :=
      (if_neg (by decide : ¬ false = true)).trans (if_pos rfl)
    rw [← hx, hstart, heq]
    refine ⟨rfl, rfl, rfl, fun y hy => ?_⟩
    refine (List.mem_append.1 hy).imp_right fun hy => ?_
    rw [List.mem_singleton.1 hy]
    rfl

/-- A receiver ends at once if it cannot write its file. -/
theorem start_receiver_operationEnded (w : List (Endpoint × Bytes)) (output : OStream) (client : Endpoint) (bs : ℕ)
    (t : UInt8) : (TftpReceiver.newConnected { started := true, wire := w } output client bs t).start.operationEnded =
      output.fail := by
  unfold TftpReceiver.start
  cases hf : (TftpReceiver.newConnected { started := true, wire := w } output client bs t).output.fail with
  | true => exact (show output.fail = true from hf).symm
  | false => exact (show output.fail = false from hf).symm

/-- **A session goes on after its start** if it can use its file; then it sends no error. -/
theorem sessionOf_started (request : RequestMessage) {p : SessionParams} (s : TftpServer) (client : Endpoint)
    (hack : p.expected_ack = 0 ∨ p.expected_ack = 1) (hbs : p.blocksize_to_use ≤ 65464) :
    (s.sessionOf request p client).blocksize = p.blocksize_to_use ∧
      (s.sessionOf request p client).timeoutSeconds = p.timeout_to_use ∧
      ((s.sessionOf request p client).operationEnded = false ↔ FileUsable request s) ∧
      (FileUsable request s → ∀ y ∈ (s.sessionOf request p client).wire, y ∈ p.sent ∨ ¬ IsErrorMessage y.2) := by
  unfold sessionOf FileUsable
  split_ifs
  · cases s.os.content (s.path request) with
    | none => exact ⟨rfl, rfl, iff_of_false (fun h => by cases h) Bool.false_ne_true, fun h => by cases h⟩
    | some F =>
      obtain ⟨hb, ht, hr, hw⟩ := start_sender_started hbs p.sent F client hack p.timeout_to_use rfl
      refine ⟨hb, ht, iff_of_true hr rfl, fun _ y hy => (hw y hy).imp_right fun hdata herr => ?_⟩
      have hop := herr.opcode
      rw [hdata, dataOf, ntohs_dataBytes] at hop
      exact absurd hop (by decide)
  · obtain ⟨-, hb, ht⟩ := TftpReceiver.start_after_oack p.sent (s.os.output (s.path request)) client
      p.blocksize_to_use p.timeout_to_use
    refine ⟨hb, ht, ?_, fun hf y hy => ?_⟩
    · rw [Session.operationEnded, start_receiver_operationEnded]
    · rw [Session.wire, start_receiver_wire hf] at hy
      refine (List.mem_append.1 hy).imp_right fun hy herr => ?_
      have hop := herr.opcode
      rw [List.mem_singleton.1 hy, ackOf, AckMessage.ntohs_encode] at hop
      exact absurd hop (by decide)

section
variable {r : RequestMessage} {values o : TransactionOptionValues}

/-- A request with valid options is served with their values, after an OACK at most. -/
theorem paramsOf_values (hp : parseOptionFields r = .ok (some values))
    (respond : TransactionOptionValues → TransactionOptionValues) (client : Endpoint) :
    (paramsOf respond values client).blocksize_to_use = values.mBlocksize.getD defaultBlocksize ∧
      (paramsOf respond values client).timeout_to_use = values.mTimeout.getD retransmissionTime ∧
      ((paramsOf respond values client).expected_ack = 0 ∨ (paramsOf respond values client).expected_ack = 1) ∧
      ∀ y ∈ (paramsOf respond values client).sent, ¬ IsErrorMessage y.2 := by
  rcases parseOptionFields_eq_ok_iff.1 hp with ⟨-, rfl⟩ | ⟨-, -, rfl⟩
  · exact ⟨rfl, rfl, .inr rfl, fun y hy => by cases hy⟩
  · refine ⟨rfl, rfl, .inl rfl, fun y hy herr => ?_⟩
    have hop := herr.opcode
    rw [List.mem_singleton.1 hy, TransactionOptionValues.opcode_oackBytes] at hop
    exact absurd hop (by decide)

/-- **What is read of options that a client sends**, if they are in their ranges. -/
theorem parse_client_iff (hm : r.mOptionValues = if o.isDefault then ∅ else o.getOptionsAsMap)
    (hblk : ∀ n ∈ o.mBlocksize, 8 ≤ n ∧ n ≤ 65464) :
    (∃ v, parseOptionFields r = .ok (some v) ∧
        v.mTimeout.getD retransmissionTime = o.mTimeout.getD retransmissionTime) ↔
      (∀ t ∈ o.mTimeout, o.mBlocksize = some t.toNat) ∧
        ∀ t ∈ o.mTransferSize, t.toNat < 2 ^ 63 ∧ t.toNat % 2 ^ 32 < 2 ^ 31 := by
  cases hdef : o.isDefault with
  | true =>
    obtain ⟨hb, ht, hz⟩ := TransactionOptionValues.isDefault_iff.1 hdef
    rw [hdef, if_pos rfl] at hm
    rw [ht, hz]
    exact iff_of_true ⟨_, parseOptionFields_eq_ok_iff.2 (.inl ⟨hm, rfl⟩), rfl⟩
      ⟨(fun t h => by cases h), fun t h => by cases h⟩
  | false =>
    rw [hdef, if_neg Bool.false_ne_true] at hm
    have hne : r.mOptionValues ≠ ∅ := fun he => by
      rw [TransactionOptionValues.isDefault_of_map_eq_empty (hm.symm.trans he)] at hdef
      cases hdef
    constructor
    · rintro ⟨v, hp, htime⟩
      obtain ⟨he, -⟩ | ⟨-, ha, rfl⟩ := parseOptionFields_eq_ok_iff.1 hp
      · exact absurd he hne
      rw [hm] at ha htime
      exact ⟨TransactionOptionValues.timeout_of_acceptable hblk ha htime,
        TransactionOptionValues.size_of_acceptable ha⟩
    · rintro ⟨ht, hz⟩
      have hfrom : o.FromMap := ⟨hblk, ht⟩
      refine ⟨_, parseOptionFields_eq_ok_iff.2 (.inr ⟨hne, ?_, rfl⟩), ?_⟩
      · rw [hm]
        exact hfrom.acceptable_iff.2 hz
      · rw [hm, fromClient, hfrom.optionsOf_timeout]

/-- The values that are read are those of the client. -/
theorem parse_client (hm : r.mOptionValues = if o.isDefault then ∅ else o.getOptionsAsMap)
    (hp : parseOptionFields r = .ok (some values)) : values.mTransferSize.isSome = o.mTransferSize.isSome ∧
      (o.FromMap → values.mBlocksize = o.mBlocksize) := by
  cases hdef : o.isDefault with
  | true =>
    obtain ⟨hb, -, hz⟩ := TransactionOptionValues.isDefault_iff.1 hdef
    rw [hdef, if_pos rfl] at hm
    obtain ⟨-, rfl⟩ | ⟨hne, -⟩ := parseOptionFields_eq_ok_iff.1 hp
    · exact ⟨by rw [hz], fun _ => hb.symm⟩
    · exact absurd hm hne
  | false =>
    rw [hdef, if_neg Bool.false_ne_true] at hm
    obtain ⟨he, -⟩ | ⟨-, -, rfl⟩ := parseOptionFields_eq_ok_iff.1 hp
    · rw [TransactionOptionValues.isDefault_of_map_eq_empty (hm.symm.trans he)] at hdef
      cases hdef
    rw [hm, fromClient]
    refine ⟨?_, fun h => h.optionsOf_blocksize⟩
    have hmem : tsizeName ∈ o.getOptionsAsMap ↔ o.mTransferSize.isSome := by
      rw [TransactionOptionValues.mem_getOptionsAsMap, TransactionOptionValues.value_tsizeName,
        Option.isSome_map]
    rw [optionsOf, Option.isSome_map, Bool.eq_iff_iff, ← Std.ExtTreeMap.mem_iff_isSome_getElem?, hmem]

end

variable {s : TftpServer} {past d : Bytes} {src : Endpoint} {o : TransactionOptionValues}

/-- Which options are admitted, and read as they are. -/
theorem admission_client_iff {r : RequestMessage}
    (hm : r.mOptionValues = if o.isDefault then ∅ else o.getOptionsAsMap)
    (hblk : ∀ n ∈ o.mBlocksize, 8 ≤ n ∧ n ≤ 65464) :
    (∃ v, s.admission r = .ok (some v) ∧ v.mTimeout.getD retransmissionTime = o.mTimeout.getD retransmissionTime) ↔
      s.os.sockets = true ∧ (∀ t ∈ o.mTimeout, o.mBlocksize = some t.toNat) ∧
        ∀ t ∈ o.mTransferSize, (t.toNat < 2 ^ 63 ∧ t.toNat % 2 ^ 32 < 2 ^ 31) ∧
          (r.isRRQ || (s.os.available s.rootfolder).isSome) = true := by
  have hspace : ∀ v, parseOptionFields r = .ok (some v) → ((r.isRRQ || s.spaceKnown v) = true ↔
      ∀ t ∈ o.mTransferSize, (r.isRRQ || (s.os.available s.rootfolder).isSome) = true) := by
    intro v hp
    have hz := (parse_client hm hp).1
    rw [spaceKnown, ← Option.not_isSome, hz]
    cases o.mTransferSize <;> simp
  constructor
  · rintro ⟨v, hadmit, htime⟩
    obtain ⟨hsock, hp, hq⟩ := (admission_eq_some_iff _ _).1 hadmit
    obtain ⟨ht, hz⟩ := (parse_client_iff hm hblk).1 ⟨v, hp, htime⟩
    exact ⟨hsock, ht, fun t htsize => ⟨hz t htsize, (hspace v hp).1 hq t htsize⟩⟩
  · rintro ⟨hsock, ht, hz⟩
    obtain ⟨v, hp, htime⟩ := (parse_client_iff hm hblk).2 ⟨ht, fun t htsize => (hz t htsize).1⟩
    exact ⟨v, (admission_eq_some_iff _ _).2 ⟨hsock, hp, (hspace v hp).2 fun t htsize => (hz t htsize).2⟩, htime⟩

/-- **Which options are served as they are.** -/
theorem servedAs_iff (ho : s.io.isOpen = true) (hdead : s.dead = false) (hd : (request past d).1 = true)
    (hm : (request past d).2.mOptionValues = if o.isDefault then ∅ else o.getOptionsAsMap)
    (hblk : ∀ n ∈ o.mBlocksize, 8 ≤ n ∧ n ≤ 65464) :
    ServedAs (request past d).2 src o s (s.receive past src d) ↔ FileUsable (request past d).2 s ∧
      s.os.sockets = true ∧ (∀ t ∈ o.mTimeout, o.mBlocksize = some t.toNat) ∧
        ∀ t ∈ o.mTransferSize, (t.toNat < 2 ^ 63 ∧ t.toNat % 2 ^ 32 < 2 ^ 31) ∧
          ((request past d).2.isRRQ || (s.os.available s.rootfolder).isSome) = true := by
  have hrearm : ∀ t : TftpServer, t.rearm.io.wire = t.io.wire := fun t => Io.asyncReceiveFrom_wire _ _
  rw [receive_decoded hd ho src, ← admission_client_iff hm hblk]
  generalize (request past d).2 = r at hm ⊢
  cases hp : s.admission r with
  | error e =>
    -- an exception is thrown
    refine iff_of_false (fun h => ?_) (by rintro ⟨-, v, hv, -⟩; cases hv)
    have halive : (some e).isSome = false := (Bool.or_eq_false_iff.1 h.alive).1
    cases halive
  | ok q =>
    cases q with
    | none =>
      -- an error is sent
      refine iff_of_false (fun h => ?_) (by rintro ⟨-, v, hv, -⟩; cases hv)
      have hw := h.wire
      dsimp only at hw
      rw [hrearm] at hw
      change (Io.asyncSendDetached src optionsError { s.io with receives := [] }).wire = s.io.wire at hw
      rw [Io.asyncSendDetached_wire, if_pos ho] at hw
      simpa using congrArg List.length hw
    | some v =>
      have hparse := ((admission_eq_some_iff _ _).1 hp).2.1
      obtain ⟨hpb, hpt, hack, hsent⟩ := paramsOf_values hparse (s.respond r) src
      have hbs : (paramsOf (s.respond r) v src).blocksize_to_use ≤ 65464 := by
        rw [hpb]
        cases hb : v.mBlocksize with
        | none => exact show defaultBlocksize ≤ 65464 by decide
        | some n => exact ((fromMap_of_parseOptionFields hparse).blksize n hb).2
      obtain ⟨hb, ht, hended, hwire⟩ := sessionOf_started r s src hack hbs
      constructor
      · intro h
        obtain ⟨x, hx, -, -, htime, hrun, -⟩ := h.session
        obtain rfl : _ = x := List.singleton_inj.1 (List.append_cancel_left hx)
        exact ⟨hended.1 hrun, v, rfl, hpt.symm.trans (ht.symm.trans htime)⟩
      · rintro ⟨hfile, w, hw, htime⟩
        obtain rfl := Option.some.inj (Except.ok.inj hw)
        have hfrom : o.FromMap := ⟨hblk, ((parse_client_iff hm hblk).1 ⟨v, hparse, htime⟩).1⟩
        dsimp only
        refine ⟨(startSession_dead _ _ (s.arrived src d)).trans hdead, hrearm _, _, rfl, ⟨_, rfl⟩, ?_, ?_,
          hended.2 hfile, fun y hy => ?_⟩
        · exact hb.trans (hpb.trans (by rw [(parse_client hm hparse).2 hfrom]))
        · exact ht.trans (hpt.trans htime)
        · exact (hwire hfile y hy).elim (hsent y) id

end TftpServer

/-! ## The client -/

namespace Call
variable {U : Call} {requestType : TftpOpcode}

/-- A session that is started at once sends nothing before the request. -/
theorem direct_wire (requestType : TftpOpcode) (c : TftpClient) :
    ∃ w, (direct requestType c).wire = c.io.wire ++ w := by
  unfold direct
  split_ifs
  · obtain ⟨w, hw, -⟩ := (TftpReceiver.Posts.start (TftpReceiver.new c.sock (c.os.output c.filepath) defaultBlocksize
      retransmissionTime)).wire
    exact ⟨w, hw⟩
  · have hwf : (Tftpsender.new c.sock (.ofFile (c.os.content c.filepath)) 0 defaultBlocksize
        retransmissionTime).WellFormed := by
      refine ⟨rfl, List.length_replicate, ?_, rfl⟩
      cases c.os.content c.filepath <;> exact Nat.zero_le _
    obtain ⟨w, hw, -⟩ := (Tftpsender.Posts.start hwf).wire
    exact ⟨w, hw⟩

/-- A client sends nothing without a root folder, an address or one of the two requests. -/
theorem client_silent (h : U.clientOs.absolute U.clientRoot = none ∨
    (U.hosts.server .listen).address.is_unspecified = true ∨ ¬ (requestType = .rrq ∨ requestType = .wrq)) :
    (U.client requestType).wire = [] := by
  rw [client, TftpClient.start, TftpClient.new]
  dsimp only
  cases hroot : U.clientOs.absolute U.clientRoot with
  | none => rfl
  | some root =>
    dsimp only
    split_ifs with hspec
    · rfl
    · have hk := (h.resolve_left (by rw [hroot]; exact Option.some_ne_none _)).resolve_left hspec
      cases requestType <;> first | rfl | exact absurd (by decide) hk

/-- The first datagram of a client is its request. -/
theorem asks_of_head (hname : NulFree U.filename) {p : Endpoint × Bytes}
    (h : (U.client requestType).wire.head? = some p) :
    (requestType = .rrq ∨ requestType = .wrq) ∧ U.Asks requestType p := by
  have hsilent : (U.client requestType).wire ≠ [] := fun hw => by
    rw [hw] at h
    cases h
  have habs : U.clientOs.absolute U.clientRoot ≠ none := fun ha => hsilent (client_silent (.inl ha))
  have hspec : (U.hosts.server .listen).address.is_unspecified = false :=
    Bool.eq_false_iff.2 fun hs => hsilent (client_silent (.inr (.inl hs)))
  have hk : requestType = .rrq ∨ requestType = .wrq := by
    by_contra hk
    exact hsilent (client_silent (.inr (.inr hk)))
  refine ⟨hk, ?_⟩
  rw [client_eq U hk habs hspec rfl] at h hsilent
  rcases (U.fresh requestType).sendRequest_cases (U.hosts.server .listen) (U.request requestType)
    (!(U.options requestType).isDefault) with ⟨e, heq⟩ | ⟨str, henc, -, heq⟩
  · rw [heq] at hsilent
    exact absurd rfl hsilent
  · have hl : (U.request requestType).messageLength ≤ 512 := by
      by_contra hl
      rw [encode_tooLong hk hl] at henc
      cases henc
    rw [RequestMessage.encode_wire (request_wellFormed hname hk) hl] at henc
    obtain rfl := Except.ok.inj henc
    refine ⟨?_, hl⟩
    rw [heq] at h
    cases hdef : (U.options requestType).isDefault with
    | true =>
      rw [hdef] at h
      obtain ⟨c, hc⟩ : ∃ c, c = { U.fresh requestType with
        io := (U.fresh requestType).io.asyncSendDetached (U.hosts.server .listen) (U.request requestType).wire } :=
        ⟨_, rfl⟩
      obtain ⟨w, hdirect⟩ := direct_wire requestType c
      have hw : (direct requestType c).wire.head? = some p := by
        rw [hc]
        exact h
      rw [hdirect, hc] at hw
      exact (Option.some.inj hw).symm
    | false =>
      rw [hdef] at h
      exact (Option.some.inj h).symm

end Call

/-! ## The command line -/

namespace CommandLine
variable {os : OperatingSystem} {cwd : Bytes} {argv : List Bytes}

/-- A value is the end of an argument. -/
theorem nulFree_meaning (hnul : ∀ a ∈ argv, NulFree a) {key : Bytes} (hkey : key ≠ rootArg) :
    NulFree (meaning cwd argv key) := by
  have hgiven : ∀ v ∈ given argv key, NulFree v := by
    intro v hv
    obtain ⟨a, ha, hav⟩ := List.mem_filterMap.1 hv
    have hnames := (Option.ite_none_right_eq_some.1 hav).2
    obtain ⟨pos, -, rfl⟩ := Option.map_eq_some_iff.1 hnames
    exact fun h0 => hnul a ha (List.mem_of_mem_drop h0)
  rw [meaning, if_neg hkey, List.getLastD_eq_getLast?]
  cases hl : (given argv key).getLast? with
  | none => exact List.not_mem_nil
  | some v => exact hgiven v (List.mem_of_getLast? hl)

theorem inRange_eq_some {low high : ℤ} {text : Bytes} {n : ℤ} (h : inRange low high text = some (some n)) :
    low ≤ n ∧ n ≤ high := by
  unfold inRange at h
  split_ifs at h with h1 h2
  · cases h
  · obtain rfl := Option.some.inj (Option.some.inj h)
    omega

/-- The options of a client are in their ranges. -/
theorem clientTransValues_inRange {m : List (Bytes × Bytes)} {v : TransactionOptionValues}
    (h : clientTransValues m = some v) : (∀ n ∈ v.mBlocksize, 8 ≤ n ∧ n ≤ 65464) ∧ v.mTransferSize = none := by
  unfold clientTransValues at h
  split at h
  · rename_i blksize timeout hb ht
    cases h
    refine ⟨fun n hn => ?_, rfl⟩
    obtain ⟨b, rfl, rfl⟩ := Option.map_eq_some_iff.1 hn
    have hr := inRange_eq_some hb
    omega
  · cases h

/-- The call that a command line makes. -/
def call (os : OperatingSystem) (cwd : Bytes) (argv : List Bytes) (address : Address) (v : TransactionOptionValues)
    (src : Endpoint) (s : TftpServer) : Call where
  hosts := ⟨src, fun _ => ⟨address, port (table cwd argv)⟩⟩
  filename := meaning cwd argv fileArg
  IN_optionVals := v
  clientRoot := cwd
  serverRoot := s.rootfolder
  clientOs := os
  serverOs := s.os

/-- The size of the file that a client sends. -/
def fileSize (os : OperatingSystem) (cwd : Bytes) (argv : List Bytes) : UInt64 :=
  os.fileSize ((os.absolute cwd).getD [] ++ meaning cwd argv fileArg)

/-- **When a command line is served as it asks.**  The server has to find the file, and a socket.
    The timeout has to be the block size; and an upload with options needs a file whose size the
    server does not take for a negative number, and a root folder whose space it knows. -/
theorem served_as_asked_iff (hos : os.absolute (ascii "./") = some cwd) (hcwd : cwd ≠ [])
    {makeAddress : Bytes → Option Address} (hnul : ∀ a ∈ argv, NulFree a) {c : TftpClient}
    (hrun : run os makeAddress argv = .client c) {v : TransactionOptionValues}
    (hv : clientTransValues (table cwd argv) = some v) {p : Endpoint × Bytes} (hp : c.wire.head? = some p)
    {os' : OperatingSystem} {root' : Bytes} {s : TftpServer} (hs : (TftpServer.system os' root').Reach s)
    (hdead : s.dead = false) (past : Bytes) (src : Endpoint) :
    s.ServedAs (TftpServer.request past p.2).2 src v (s.receive past src p.2) ↔
      s.os.sockets = true ∧ (∀ t ∈ v.mTimeout, v.mBlocksize = some t.toNat) ∧
        (requestType (table cwd argv) = .rrq →
          (s.os.content (s.rootfolder ++ meaning cwd argv fileArg)).isSome = true) ∧
        (requestType (table cwd argv) = .wrq →
          (s.os.output (s.rootfolder ++ meaning cwd argv fileArg)).fail = false ∧
          (v.isDefault = false → ((fileSize os cwd argv).toNat < 2 ^ 63 ∧
            (fileSize os cwd argv).toNat % 2 ^ 32 < 2 ^ 31) ∧ (s.os.available s.rootfolder).isSome = true)) := by
  obtain ⟨_, argIP, address, v', hos', -, -, -, -, hv', rfl⟩ :=
    (run_eq_client_iff (by rw [hos]; simpa using hcwd)).1 hrun
  obtain rfl := Option.some.inj (hos.symm.trans hos')
  obtain rfl : v' = v := Option.some.inj (hv'.symm.trans hv)
  obtain ⟨hblk, hsize⟩ := clientTransValues_inRange hv
  have hname : NulFree (meaning cwd argv fileArg) := nulFree_meaning hnul (by decide)
  obtain ⟨hk, hasks⟩ := Call.asks_of_head (U := call os cwd argv address v' src s) hname hp
  have hreq := Call.request_received hname hk hasks past
  obtain ⟨o, ho⟩ : ∃ o, o = (call os cwd argv address v' src s).options (requestType (table cwd argv)) := ⟨_, rfl⟩
  have hfields : o.mBlocksize = v'.mBlocksize ∧ o.mTimeout = v'.mTimeout ∧
      o.mTransferSize = if v'.isDefault then none
        else some (if requestType (table cwd argv) = .rrq then 0 else fileSize os cwd argv) := by
    by_cases hdef : v'.isDefault = true
    · rw [if_pos hdef, show o = v' from ho.trans (if_pos hdef)]
      exact ⟨rfl, rfl, hsize⟩
    · rw [if_neg hdef, show o = _ from ho.trans (if_neg hdef)]
      exact ⟨rfl, rfl, rfl⟩
  obtain ⟨hb, ht, hz⟩ := hfields
  have hserved : s.ServedAs (TftpServer.request past p.2).2 src v' (s.receive past src p.2) ↔
      s.ServedAs (TftpServer.request past p.2).2 src o (s.receive past src p.2) := by
    refine ⟨fun h => ⟨h.alive, h.wire, ?_⟩, fun h => ⟨h.alive, h.wire, ?_⟩⟩
    · rw [hb, ht]
      exact h.session
    · rw [← hb, ← ht]
      exact h.session
  rw [hserved, TftpServer.servedAs_iff (TftpServer.reach_inv hs).isOpen hdead (by rw [hreq]) (by rw [hreq, ho]; rfl)
    (by rw [hb]; exact hblk), hb, ht, hz, TftpServer.FileUsable, hreq]
  have hrrq : ((call os cwd argv address v' src s).request (requestType (table cwd argv))).isRRQ =
      decide (requestType (table cwd argv) = .rrq) := rfl
  have hpath : s.path ((call os cwd argv address v' src s).request (requestType (table cwd argv))) =
      s.rootfolder ++ meaning cwd argv fileArg := rfl
  dsimp only
  rw [hrrq, hpath]
  rcases hk with hk | hk
  · -- a download asks for the size with a zero
    rw [hk]
    cases v'.isDefault <;> simp <;> tauto
  · rw [hk]
    cases v'.isDefault <;> simp <;> tauto

/-- A download of `f` in blocks of 16 bytes, with a timeout. -/
def downloadLine (timeout : Bytes) : List Bytes := [ascii "ttftp", ascii "--file=f", ascii "--blksize=16",
  ascii "--timeout=" ++ timeout, ascii "--request=read", ascii "--type=client", ascii "10.0.0.1"]

/-- Its client. -/
def downloader (timeout : Bytes) (v : TransactionOptionValues) : TftpClient :=
  (TftpClient.new oneFile (ascii "/./")).start ⟨7, port (table (ascii "/./") (downloadLine timeout))⟩
    (requestType (table (ascii "/./") (downloadLine timeout)))
    (meaning (ascii "/./") (downloadLine timeout) fileArg) v .octet

theorem run_downloadLine {timeout : Bytes} {v : TransactionOptionValues}
    (hv : clientTransValues (table (ascii "/./") (downloadLine timeout)) = some v)
    (hclear : Clear (downloadLine timeout))
    (htype : meaning (ascii "/./") (downloadLine timeout) typeArg = ascii "client") :
    run oneFile (fun _ => some 7) (downloadLine timeout) = .client (downloader timeout v) :=
  (run_eq_client_iff (by decide)).2 ⟨_, ascii "10.0.0.1", 7, v, rfl, rfl, hclear, htype, rfl, hv, rfl⟩

/-- What becomes of it at a server with the file `f`: it is served as it asks if the timeout is 16
    seconds, and not if it is 5. -/
theorem served_as_asked_sixteen : (∃ c p,
    run oneFile (fun _ => some 7) (downloadLine (ascii "16")) = .client c ∧ c.wire.head? = some p ∧
    (TftpServer.new oneFile slash).ServedAs (TftpServer.request [] p.2).2 ⟨1, 1⟩
      { mBlocksize := some 16, mTimeout := some 16 } ((TftpServer.new oneFile slash).receive [] ⟨1, 1⟩ p.2)) ∧
    ∃ c p, run oneFile (fun _ => some 7) (downloadLine (ascii "5")) = .client c ∧ c.wire.head? = some p ∧
      ¬ (TftpServer.new oneFile slash).ServedAs (TftpServer.request [] p.2).2 ⟨1, 1⟩
        { mBlocksize := some 16, mTimeout := some 5 } ((TftpServer.new oneFile slash).receive [] ⟨1, 1⟩ p.2) := by
  constructor
  · have hv : clientTransValues (table (ascii "/./") (downloadLine (ascii "16"))) =
        some { mBlocksize := some 16, mTimeout := some 16 } := by decide +kernel
    have hrun := run_downloadLine hv ⟨by decide +kernel, by decide +kernel⟩ (by decide +kernel)
    have hsent : (downloader (ascii "16") { mBlocksize := some 16, mTimeout := some 16 }).wire.head?.isSome =
        true := by decide +kernel
    obtain ⟨p, hp⟩ := Option.isSome_iff_exists.1 hsent
    refine ⟨_, p, hrun, hp, (served_as_asked_iff rfl (by decide) (by decide +kernel) hrun hv hp (.init rfl) rfl []
      ⟨1, 1⟩).2 ⟨rfl, fun t ht => ?_, fun _ => ?_, fun h => absurd h (by decide +kernel)⟩⟩
    · cases ht
      rfl
    · rw [show meaning (ascii "/./") (downloadLine (ascii "16")) fileArg = [102] by decide +kernel]
      rfl
  · have hv : clientTransValues (table (ascii "/./") (downloadLine (ascii "5"))) =
        some { mBlocksize := some 16, mTimeout := some 5 } := by decide +kernel
    have hrun := run_downloadLine hv ⟨by decide +kernel, by decide +kernel⟩ (by decide +kernel)
    have hsent : (downloader (ascii "5") { mBlocksize := some 16, mTimeout := some 5 }).wire.head?.isSome = true := by
      decide +kernel
    obtain ⟨p, hp⟩ := Option.isSome_iff_exists.1 hsent
    refine ⟨_, p, hrun, hp, fun h => ?_⟩
    have hasked := (served_as_asked_iff rfl (by decide) (by decide +kernel) hrun hv hp (.init rfl) rfl [] ⟨1, 1⟩).1 h
    exact absurd (hasked.2.1 5 rfl) (by decide)

end CommandLine

end Ttftp

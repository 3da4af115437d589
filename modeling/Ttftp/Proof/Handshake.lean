/-
  From the request of a client to the start of its session.

  `Opening` lists the states of client and server until the client handles the
  OACK; there is only one event in each of them, apart from those of the server's
  session.  What the handler makes of the OACK is a parameter of `Opening.step`.
-/
import Ttftp.Proof.Exchange
import Ttftp.Proof.Negotiation

namespace Ttftp

open Bytes Asio
open TransactionOptionValues (Acceptable FromMap optionsOf fromClient oackBytes)

namespace Setup
variable {requestType : TftpOpcode} {F : Bytes} (U : Setup requestType F) (bs : ℕ)

/-! ## The request -/

/-- The option values of the request: a write request tells the size of the file. -/
def options (requestType : TftpOpcode) (F : Bytes) (bs : ℕ) : TransactionOptionValues where
  mBlocksize := some bs
  mTransferSize := some (if requestType = .rrq then 0 else UInt64.ofNat F.length)

def request : RequestMessage where
  mOpCode := requestType
  mFilename := U.filename
  mMode := .octet
  mOptionValues := (options requestType F bs).getOptionsAsMap

/-- The client after its request. -/
def asking : TftpClient where
  os := U.clientOs
  mRootfolder := U.clientFolder
  io := {
    started := true
    receives := [()]
    duration := retransmissionTime.toNat * 4
    waits := 1
    wire := [(U.network.server .listen, (U.request bs).wire)] }
  mRecvBuffer := List.replicate TftpClient.bufsize 0
  requestType := requestType
  filepath := U.clientFolder ++ U.filename
  size_of_file := if requestType = .rrq then 0 else UInt64.ofNat F.length

theorem options_fromMap (requestType : TftpOpcode) (F : Bytes) {bs : ℕ} (hbs : 8 ≤ bs ∧ bs ≤ 65464) :
    (options requestType F bs).FromMap :=
  ⟨fun n hn => by cases hn; exact hbs, fun t ht => by cases ht⟩

theorem request_wellFormed (hk : requestType = .rrq ∨ requestType = .wrq) : (U.request bs).WellFormed :=
  ⟨hk, rfl, U.nulFree, TransactionOptionValues.nulFree_getOptionsAsMap _⟩

/-- What `start` does, up to the outcome of the encoding. -/
theorem start_client_eq (hk : requestType = .rrq ∨ requestType = .wrq) :
    (U.start bs).client = TftpClient.sendRequest (U.network.server .listen) (U.request bs) true
      { U.asking bs with io := { started := true } } := by
  have hspec : ¬ (U.network.server .listen).address.is_unspecified = true := by
    rw [U.network.specified]
    exact Bool.false_ne_true
  have hfolder : (TftpClient.new U.clientOs U.clientRoot).os.absolute
      (TftpClient.new U.clientOs U.clientRoot).mRootfolder = some U.clientFolder := U.absolute
  rw [start, TftpClient.start, hfolder]
  dsimp only
  rcases hk with rfl | rfl
  · refine (if_neg hspec).trans ?_
    dsimp only
    rw [TftpClient.start_RRQ]
    dsimp only
    refine (if_neg ?_).trans rfl
    rw [Bool.and_eq_true]
    exact fun h => Bool.noConfusion h.2
  · refine (if_neg hspec).trans ?_
    dsimp only
    rw [TftpClient.start_WRQ]
    dsimp only
    refine (if_neg ?_).trans ?_
    · rw [Bool.and_eq_true]
      exact fun h => Bool.noConfusion h.2
    · have hsize := (U.wrq rfl).2.1
      dsimp only [TftpClient.new]
      rw [hsize]
      rfl

theorem sockets_open : ¬ (!(U.asking bs).os.sockets) = true := by
  change ¬ (!U.clientOs.sockets) = true
  rw [U.sockets.1]
  exact Bool.false_ne_true

/-- The request is sent, and its answer is waited for. -/
theorem start_client (hk : requestType = .rrq ∨ requestType = .wrq)
    (hl : (U.request bs).messageLength ≤ 512) : (U.start bs).client = U.asking bs := by
  rw [U.start_client_eq bs hk, TftpClient.sendRequest]
  refine (if_neg (U.sockets_open bs)).trans ?_
  rw [RequestMessage.encode_wire (U.request_wellFormed bs hk) hl]
  dsimp only
  rw [U.network.ipv4]
  rfl

/-- A request that does not fit into its buffer is not sent. -/
theorem start_too_long (hk : requestType = .rrq ∨ requestType = .wrq)
    (hl : 512 < (U.request bs).messageLength) : (U.start bs).client =
      { U.asking bs with io := { started := true }, threw := some .errInvalidMessageParameters } := by
  have henc : (U.request bs).encode = .error .errInvalidMessageParameters := by
    rw [RequestMessage.encode, if_neg, if_pos hl]
    rcases hk with rfl | rfl <;> simp [request]
  rw [U.start_client_eq bs hk, TftpClient.sendRequest]
  refine (if_neg (U.sockets_open bs)).trans ?_
  rw [henc]

/-! ## The server -/

/-- The values of the OACK. -/
def answer (F : Bytes) (bs : ℕ) : TransactionOptionValues where
  wasSetByClient := true
  mBlocksize := some bs
  mTransferSize := some (UInt64.ofNat F.length)

def oack (F : Bytes) (bs : ℕ) : Bytes := (answer F bs).oackBytes

theorem answer_fromMap (F : Bytes) {bs : ℕ} (hbs : 8 ≤ bs ∧ bs ≤ 65464) : (answer F bs).FromMap :=
  ⟨fun n hn => by cases hn; exact hbs, fun t ht => by cases ht⟩

/-- The server reads the values of the request. -/
theorem request_read {bs : ℕ} (hbs : 8 ≤ bs ∧ bs ≤ 65464)
    (hs : requestType ≠ .rrq → F.length < 2 ^ 31) :
    Acceptable (options requestType F bs).getOptionsAsMap ∧
      optionsOf (options requestType F bs).getOptionsAsMap = options requestType F bs := by
  have hlt : ∀ t ∈ (options requestType F bs).mTransferSize, t.toNat < 2 ^ 31 := by
    intro t ht
    cases ht
    split_ifs with hr
    · decide
    · rw [UInt64.toNat_ofNat_of_lt' (by change F.length < 2 ^ 64; have := hs hr; omega)]
      exact hs hr
  have hm := options_fromMap requestType F hbs
  exact ⟨hm.acceptable_of_lt hlt, hm.optionsOf_eq hlt⟩

/-- What is decoded is the request. -/
theorem decode_request (hk : requestType = .rrq ∨ requestType = .wrq)
    (hl : (U.request bs).messageLength ≤ 512) (past : Bytes) :
    TftpServer.request past (U.request bs).wire = (true, U.request bs) := by
  have hlen : (U.request bs).wire.length ≤ TftpServer.bufsize := by
    rw [RequestMessage.length_wire]
    exact hl.trans (by decide)
  rw [TftpServer.request, List.take_of_length_le hlen]
  exact RequestMessage.decode_wire past {} (U.request_wellFormed bs hk)

/-- The session of the request. -/
theorem receive_request (hk : requestType = .rrq ∨ requestType = .wrq)
    (hl : (U.request bs).messageLength ≤ 512) (hbs : 8 ≤ bs ∧ bs ≤ 65464)
    (hs : requestType ≠ .rrq → F.length < 2 ^ 31) (past : Bytes) :
    (TftpServer.new U.serverOs U.serverRoot).receive past U.network.client (U.request bs).wire =
      ((TftpServer.arrived U.network.client (U.request bs).wire
        (.new U.serverOs U.serverRoot)).startSession (U.request bs) {
          sent := [(U.network.client, oack F bs)]
          expected_ack := 0
          blocksize_to_use := bs
          timeout_to_use := retransmissionTime }).rearm := by
  obtain ⟨hacc, hread⟩ := request_read hbs hs
  have hne : (U.request bs).mOptionValues ≠ ∅ :=
    Std.ExtTreeMap.ne_empty_of_mem (TransactionOptionValues.mem_getOptionsAsMap.2
      (show ((options requestType F bs).value blksizeName).isSome from rfl))
  have hdec := U.decode_request bs hk hl past
  have hrespond : (TftpServer.new U.serverOs U.serverRoot).respond (U.request bs)
      (fromClient (U.request bs).mOptionValues) = answer F bs := by
    rw [fromClient, show (U.request bs).mOptionValues = (options requestType F bs).getOptionsAsMap from rfl,
      hread]
    rcases hk with rfl | rfl
    · have hsize := (U.rrq rfl).2.1
      have hrrq : (U.request bs).isRRQ = true := rfl
      have hpath : (TftpServer.new U.serverOs U.serverRoot).os.fileSize
          ((TftpServer.new U.serverOs U.serverRoot).path (U.request bs)) = UInt64.ofNat F.length := hsize
      rw [TftpServer.respond, if_pos hrrq, hpath]
      rfl
    · rfl
  have hreceive := TftpServer.receive_decoded (by rw [hdec])
    (show (TftpServer.new U.serverOs U.serverRoot).io.isOpen = true from rfl) U.network.client
  have hspace : ((U.request bs).isRRQ || (TftpServer.new U.serverOs U.serverRoot).spaceKnown
      (fromClient (U.request bs).mOptionValues)) = true := by
    rcases hk with rfl | rfl
    · rfl
    · have hknown : (U.serverOs.available U.serverRoot).isSome = true := (U.wrq rfl).2.2.2
      simp [TftpServer.spaceKnown, TftpServer.new, hknown]
  rw [hdec, (TftpServer.admission_eq_some_iff _ _).2 ⟨U.sockets.2, TftpServer.parseOptionFields_eq_ok_iff.2
    (.inr ⟨hne, hacc, rfl⟩), hspace⟩] at hreceive
  rw [hreceive]
  dsimp only
  rw [TftpServer.paramsOf_fromClient, hrespond,
    show (U.request bs).mOptionValues = (options requestType F bs).getOptionsAsMap from rfl, hread]
  rfl

/-- The OACK fits into the buffer of the client. -/
theorem length_oack (F : Bytes) {bs : ℕ} (hbs : 8 ≤ bs ∧ bs ≤ 65464) : (oack F bs).length ≤ 512 := by
  have hl := TransactionOptionValues.messageLength_le (answer_fromMap F hbs).small
  rw [oack, oackBytes, List.length_append, length_encodeOptions, length_htons]
  exact hl

/-! ## The states of the opening -/

/-- The server, to which the request has been delivered. -/
def delivered : TftpServer :=
  TftpServer.store U.network.client (U.request bs).wire { TftpServer.new U.serverOs U.serverRoot with
    io := { (TftpServer.new U.serverOs U.serverRoot).io with
      receives := []
      received := [((), .success, (U.request bs).wire.length)] } }

/-- The client has sent its request. -/
def asked : EndToEnd where
  client := U.asking bs
  server := .new U.serverOs U.serverRoot

def requested : EndToEnd where
  client := U.asking bs
  server := U.delivered bs
  toServer := countAt .listen 1 fun _ => 0

/-- The session that it then starts. -/
def session : Session :=
  (TftpServer.arrived U.network.client (U.request bs).wire
    (.new U.serverOs U.serverRoot)).sessionOf (U.request bs) {
      sent := [(U.network.client, oack F bs)]
      expected_ack := 0
      blocksize_to_use := bs
      timeout_to_use := retransmissionTime } U.network.client

/-- The client, to which the OACK has been delivered. -/
def answered : TftpClient :=
  TftpClient.store (U.network.server (.session 0)) (oack F bs) { U.asking bs with
    io := { (U.asking bs).io with
      receives := []
      received := [((), .success, (oack F bs).length)] } }

/-- The client, after it has handled the OACK. -/
def handled (past : Bytes) : TftpClient :=
  (TftpClient.handleAnswer past .success (oack F bs).length { U.answered bs with
    io := { (U.answered bs).io with received := [] } }).release

section
variable {τ H' : Type} {Q : Proactor τ H' Endpoint}

/-- The server's session waits for the client's first datagram. -/
structure Serving (N : Network) (T : Speaker Q) (κ : τ → Session) (y : Dialogue.State) (u : τ)
    (t : EndToEnd) : Prop where
  server : t.server.Listens
  sessions : t.server.sessions = [κ u]
  session : T.At y u
  valid : T.party.Valid y
  started : y.phase ≠ .idle
  untouched : y.delivered = 0
  toServer : ∀ k, t.toServer k = if k = .listen then 1 else 0

/-- The request is served by a party. -/
structure Served (T : Speaker Q) (κ : τ → Session) : Prop where
  kind : requestType = .rrq ∨ requestType = .wrq
  fits : (U.request bs).messageLength ≤ 512
  range : 8 ≤ bs ∧ bs ≤ 65464
  size : requestType ≠ .rrq → F.length < 2 ^ 31
  serves : Serves U.network T (oack F bs)
  isSession : IsSession Q κ
  starts : ∃ y u, U.session bs = κ u ∧ T.At y u ∧ T.party.Valid y ∧ y.phase ≠ .idle ∧ y.delivered = 0

/-- The states until the client handles the OACK. -/
inductive Opening (T : Speaker Q) (κ : τ → Session) : EndToEnd → Prop
  | asked : Opening T κ (U.asked bs)
  | requested : Opening T κ (U.requested bs)
  | served {t : EndToEnd} {y : Dialogue.State} {u : τ} : Serving U.network T κ y u t →
      t.client = U.asking bs → (∀ k, t.toClient k = 0) → Opening T κ t
  | answered {t : EndToEnd} {y : Dialogue.State} {u : τ} : Serving U.network T κ y u t →
      t.client = U.answered bs → (∀ k, t.toClient k = if k = .session 0 then 1 else 0) → Opening T κ t

/-- The state after that. -/
def Opened (T : Speaker Q) (κ : τ → Session) (t : EndToEnd) : Prop :=
  ∃ past y u, Serving U.network T κ y u t ∧ t.client = U.handled bs past ∧
    ∀ k, t.toClient k = if k = .session 0 then 1 else 0

variable {T : Speaker Q} {κ : τ → Session} {t t' : EndToEnd} {y : Dialogue.State} {u : τ} {U} {bs}

/-- What a client without a session has sent. -/
theorem fromClient_request {N : Network} {d : Bytes} (hw : t.client.wire = [(N.server .listen, d)])
    (k : ServerSocket) : t.fromClient N k = if k = .listen then [d] else [] := by
  rw [EndToEnd.fromClient, hw]
  by_cases hl : k = .listen
  · subst hl
    rw [if_pos rfl, sentTo_self]
  · rw [if_neg hl]
    refine sentTo_other fun p hp => ?_
    rw [List.mem_singleton] at hp
    subst hp
    exact fun hh => hl (N.distinct _ _ (.inl rfl) hh).symm

/-- An event of a server that waits for the client. -/
theorem Serving.step_server {N : Network} {oack d : Bytes} (h : Serving N T κ y u t)
    (hT : Serves N T oack) (hκ : IsSession Q κ) (hw : t.client.wire = [(N.server .listen, d)])
    {e : ServerEvent} (hstep : EndToEnd.step N t (.server e) = some t') :
    ∃ y' u', Serving N T κ y' u' t' ∧ t'.client = t.client ∧ t'.toClient = t.toClient := by
  have hnone : ∀ k, (t.fromClient N k)[t.toServer k]? = none := by
    intro k
    rw [fromClient_request hw, h.toServer]
    split_ifs <;> rfl
  simp only [EndToEnd.step, hnone] at hstep
  split_ifs at hstep with ha
  obtain ⟨v, hv, rfl⟩ := Option.map_eq_some_iff.1 hstep
  have hd : e.event.isDelivery = false := by
    cases he : e.event with
    | deliver src b => simp [he, fifoAllows] at ha
    | _ => rfl
  have ho := orderly_of_fifoAllows ha
  cases e with
  | listen past e =>
    obtain ⟨src, b, -, -, rfl, -⟩ := Proactor.step_quiet h.server.started h.server.quiet ho hv
    cases hd
  | session n e =>
    simp only [TftpServer.step] at hv
    split_ifs at hv
    rw [h.sessions] at hv
    cases n with
    | zero =>
      rw [List.getElem?_cons_zero, Option.bind_some, hκ.step, Option.map_map] at hv
      obtain ⟨u', hu', rfl⟩ := Option.map_eq_some_iff.1 hv
      obtain ⟨y', hat, hvalid, hdel, hne⟩ := h.session.silent_step hT.spec hT.last h.valid ho hd hu'
      refine ⟨y', u', ⟨⟨h.server.isOpen, h.server.started, h.server.receives, h.server.quiet,
        h.server.wire, h.server.threw⟩, rfl, hat, hvalid, hne h.started, hdel.trans h.untouched,
        fun k => ?_⟩, rfl, rfl⟩
      rw [hd]
      simpa using h.toServer k
    | succ n => simp at hv

/-- Nothing that the client has sent is discarded. -/
theorem Serving.no_discard {N : Network} {d : Bytes} (h : Serving N T κ y u t)
    (hw : t.client.wire = [(N.server .listen, d)]) (k : ServerSocket) :
    EndToEnd.step N t (.discardToServer k) = none := by
  refine if_neg ?_
  rw [fromClient_request hw, h.toServer]
  split_ifs <;> simp

theorem length_wire_le (hl : (U.request bs).messageLength ≤ 512) :
    (U.request bs).wire.length ≤ TftpServer.bufsize := by
  rw [RequestMessage.length_wire]
  exact hl.trans (by decide)

/-- A client that has no session yet handles only its answer. -/
theorem client_event {N : Network} {k : ServerSocket} {e : ClientEvent}
    (hs : t.client.session = none) (hstarted : t.client.io.started = true)
    (hops : t.client.io.ops = ([()], [], [], []) ∨ ∃ n, t.client.io.ops = ([], [((), .success, n)], [], []))
    (hw : t.client.io.waited = []) (hstep : EndToEnd.step N t (.client k e) = some t') :
    (∃ src d, (t.fromServer N k)[t.toClient k]? = some d ∧ src = N.server k ∧
      t.client.io.receives = [()] ∧
      t' = { t with
        client := TftpClient.store src (d.take t.client.mRecvBuffer.length) { t.client with
          io := { t.client.io with
            receives := []
            received := [((), .success, min d.length t.client.mRecvBuffer.length)] } }
        toClient := countAt k 1 t.toClient }) ∨
    ∃ past n, t.client.io.received = [((), .success, n)] ∧ t' = { t with
      client := (TftpClient.handleAnswer past .success n { t.client with
        io := { t.client.io with received := [] } }).release } := by
  simp only [EndToEnd.step] at hstep
  split_ifs at hstep with ha
  obtain ⟨c, hc, rfl⟩ := Option.map_eq_some_iff.1 hstep
  cases e with
  | session e =>
    simp only [TftpClient.step] at hc
    split_ifs at hc
    rw [hs] at hc
    cases hc
  | request past e =>
    have ho := orderly_of_fifoAllows ha
    rcases hops with hops | ⟨n, hops⟩
    · simp only [Io.ops, Prod.mk.injEq] at hops
      obtain ⟨src, d, r, rs, rfl, hr, rfl⟩ := Proactor.step_quiet hstarted
        ⟨hops.2.1, hops.2.2.1, hops.2.2.2, hw⟩ ho hc
      obtain ⟨hsrc, hd⟩ := fifoAllows_deliver.1 ha
      have hr' : t.client.io.receives = r :: rs := hr
      rw [hops.1, List.cons.injEq] at hr'
      obtain ⟨rfl, rfl⟩ := hr'
      exact .inl ⟨src, d, hd, hsrc, hops.1, rfl⟩
    · obtain ⟨rfl, rfl⟩ := Proactor.step_received hstarted hops hw ho hc
      simp only [Io.ops, Prod.mk.injEq] at hops
      refine .inr ⟨past, n, hops.2.1, ?_⟩
      rw [show (ClientEvent.request past (.runReceive 0)).event.isDelivery = false from rfl, Bool.toNat_false,
        countAt_zero]
      rfl

/-- Nothing is discarded at a client that has not been closed. -/
theorem no_discard_client {N : Network} (ho : t.client.isOpen = true) (k : ServerSocket) :
    EndToEnd.step N t (.discardToClient k) = none := if_neg (by rw [ho]; simp)

/-- Before the request has been handled there is only one event. -/
theorem step_unserved (t : EndToEnd) (n : ℕ) (hserver : t.server.sessions = [] ∧ t.server.io.wire = [] ∧
      t.server.io.isOpen = true) (hclient : t.client = U.asking bs)
    (htoServer : ∀ k, t.toServer k = if k = .listen then n else 0)
    {e : EndToEndEvent} (hstep : EndToEnd.step U.network t e = some t') :
    ∃ past e', e = .server (.listen past e') := by
  obtain ⟨h1, h2, h3⟩ := hserver
  have hw : t.client.wire = [(U.network.server .listen, (U.request bs).wire)] := by rw [hclient]; rfl
  have hfrom : ∀ k, t.fromServer U.network k = [] := by
    intro k
    cases k with
    | listen => simp [EndToEnd.fromServer, TftpServer.wireAt, h2, sentTo]
    | session n => simp [EndToEnd.fromServer, TftpServer.wireAt, h1, sentTo]
  cases e with
  | client k e =>
    rcases client_event (by rw [hclient]; rfl) (by rw [hclient]; rfl) (.inl (by rw [hclient]; rfl))
      (by rw [hclient]; rfl) hstep with ⟨src, d, hd, -⟩ | ⟨past, n, hr, -⟩
    · rw [hfrom] at hd
      cases hd
    · rw [hclient] at hr
      cases hr
  | server e =>
    cases e with
    | listen past e => exact ⟨past, e, rfl⟩
    | session n e =>
      simp only [EndToEnd.step, TftpServer.step, h1, List.getElem?_nil, Option.bind_none, ite_self,
        Option.map_none] at hstep
      cases hstep
  | discardToClient k =>
    rw [no_discard_client (by rw [hclient]; rfl)] at hstep
    cases hstep
  | discardToServer k =>
    simp only [EndToEnd.step, fromClient_request hw, htoServer] at hstep
    cases k with
    | listen =>
      rw [TftpServer.isOpenAt, h3] at hstep
      cases hstep
    | session n => simp at hstep

/-- The request is delivered. -/
theorem step_asked (hl : (U.request bs).messageLength ≤ 512) {past : Bytes} {e : Event Endpoint}
    (hstep : EndToEnd.step U.network (U.asked bs) (.server (.listen past e)) = some t') :
    t' = U.requested bs := by
  simp only [EndToEnd.step] at hstep
  split_ifs at hstep with ha
  obtain ⟨v, hv, rfl⟩ := Option.map_eq_some_iff.1 hstep
  obtain ⟨src, d, r, rs, rfl, hr, rfl⟩ := Proactor.step_quiet (by rfl) ⟨rfl, rfl, rfl, rfl⟩
    (orderly_of_fifoAllows ha) hv
  obtain ⟨rfl, hd⟩ := fifoAllows_deliver.1 ha
  have hsent := @fromClient_request (U.asked bs) U.network (U.request bs).wire rfl .listen
  obtain rfl : (U.request bs).wire = d := by
    have hd' : ((U.asked bs).fromClient U.network .listen)[0]? = some d := hd
    rw [hsent] at hd'
    simpa using hd'
  have hbuf : (U.request bs).wire.length ≤ (U.asked bs).server.buffer.length :=
    (length_wire_le hl).trans_eq List.length_replicate.symm
  have htake : (U.request bs).wire.take ((TftpServer.proactor past).capacity (U.asked bs).server) =
      (U.request bs).wire := List.take_of_length_le hbuf
  have hmin : min (U.request bs).wire.length ((TftpServer.proactor past).capacity (U.asked bs).server) =
      (U.request bs).wire.length := min_eq_left hbuf
  obtain ⟨rfl, rfl⟩ := List.cons.inj (show [()] = r :: rs from hr)
  rw [htake, hmin]
  rfl

/-- The request is handled. -/
theorem step_requested (hS : Served U bs T κ) {past : Bytes} {e : Event Endpoint}
    (hstep : EndToEnd.step U.network (U.requested bs) (.server (.listen past e)) = some t') :
    ∃ y u, Serving U.network T κ y u t' ∧ t'.client = U.asking bs ∧ ∀ k, t'.toClient k = 0 := by
  simp only [EndToEnd.step] at hstep
  split_ifs at hstep with ha
  obtain ⟨v, hv, rfl⟩ := Option.map_eq_some_iff.1 hstep
  obtain ⟨rfl, hv'⟩ := Proactor.step_received (by rfl) (show Io.ops _ = _ from rfl) rfl
    (orderly_of_fifoAllows ha) hv
  have hl := length_wire_le hS.fits
  have hreceive := U.receive_request bs hS.kind hS.fits hS.range hS.size past
  rw [TftpServer.receive, List.take_of_length_le hl, min_eq_left hl] at hreceive
  obtain rfl := hv'.trans hreceive
  obtain ⟨y, u, hs, hat, hvalid, hne, hdel⟩ := hS.starts
  refine ⟨y, u, ⟨⟨rfl, rfl, rfl, ⟨rfl, rfl, rfl, rfl⟩, rfl, rfl⟩, congrArg (fun x => [x]) hs, hat, hvalid, hne,
    hdel, fun k => ?_⟩, rfl, fun k => rfl⟩
  exact (congrFun (countAt_zero .listen _) k).trans
    ((countAt_apply .listen 1 (fun _ => 0) k).trans (Nat.zero_add _))

/-- The OACK is delivered. -/
theorem step_served (hS : Served U bs T κ) (hserving : Serving U.network T κ y u t)
    (hclient : t.client = U.asking bs) (hcount : ∀ k, t.toClient k = 0) {k : ServerSocket} {e : ClientEvent}
    (hstep : EndToEnd.step U.network t (.client k e) = some t') : Serving U.network T κ y u t' ∧
      t'.client = U.answered bs ∧ ∀ k, t'.toClient k = if k = .session 0 then 1 else 0 := by
  rcases client_event (by rw [hclient]; rfl) (by rw [hclient]; rfl) (.inl (by rw [hclient]; rfl))
    (by rw [hclient]; rfl) hstep with ⟨src, d, hd, rfl, -, rfl⟩ | ⟨past, n, hr, -⟩
  · rw [hS.serves.fromServer hS.isSession hserving.server hserving.sessions hserving.session,
      hcount] at hd
    by_cases h0 : k = .session 0
    · subst h0
      obtain rfl : oack F bs = d := by simpa using hd
      have hbuf : (oack F bs).length ≤ t.client.mRecvBuffer.length := by
        rw [hclient]
        exact ((length_oack F hS.range).trans (by decide)).trans_eq List.length_replicate.symm
      rw [List.take_of_length_le hbuf, min_eq_left hbuf]
      refine ⟨⟨hserving.server, hserving.sessions, hserving.session, hserving.valid,
        hserving.started, hserving.untouched, hserving.toServer⟩, by rw [hclient]; rfl, fun k => ?_⟩
      dsimp only
      rw [countAt_apply, hcount, Nat.zero_add]
    · simp [h0] at hd
  · rw [hclient] at hr
    cases hr

/-- The OACK is handled. -/
theorem step_answered (hserving : Serving U.network T κ y u t) (hclient : t.client = U.answered bs)
    (hcount : ∀ k, t.toClient k = if k = .session 0 then 1 else 0) {k : ServerSocket} {e : ClientEvent}
    (hstep : EndToEnd.step U.network t (.client k e) = some t') : Opened U bs T κ t' := by
  rcases client_event (by rw [hclient]; rfl) (by rw [hclient]; rfl) (.inr ⟨_, by rw [hclient]; rfl⟩)
    (by rw [hclient]; rfl) hstep with ⟨src, d, -, -, hr, -⟩ | ⟨past, n, hr, rfl⟩
  · rw [hclient] at hr
    cases hr
  · obtain rfl : (oack F bs).length = n := by
      rw [hclient] at hr
      cases hr
      rfl
    exact ⟨past, y, u, ⟨hserving.server, hserving.sessions, hserving.session, hserving.valid,
      hserving.started, hserving.untouched, hserving.toServer⟩, by rw [handled, ← hclient], hcount⟩

/-- **There is one way to the client's handler.** -/
theorem Opening.step (h : Opening U bs T κ t) (hS : Served U bs T κ) {e : EndToEndEvent}
    (hstep : EndToEnd.step U.network t e = some t') : Opening U bs T κ t' ∨ Opened U bs T κ t' := by
  cases h with
  | asked =>
    obtain ⟨past, e, rfl⟩ := step_unserved (U.asked bs) 0 ⟨rfl, rfl, rfl⟩ rfl
      (fun k => (ite_self 0).symm) hstep
    rw [step_asked hS.fits hstep]
    exact .inl .requested
  | requested =>
    obtain ⟨past, e, rfl⟩ := step_unserved (U.requested bs) 1 ⟨rfl, rfl, rfl⟩ rfl
      (fun k => (countAt_apply .listen 1 (fun _ => 0) k).trans (Nat.zero_add _)) hstep
    obtain ⟨y, u, hserving, hclient, hcount⟩ := step_requested hS hstep
    exact .inl (.served hserving hclient hcount)
  | @served _ y u hserving hclient hcount =>
    have hw : t.client.wire = [(U.network.server .listen, (U.request bs).wire)] := by rw [hclient]; rfl
    cases e with
    | client k e =>
      obtain ⟨h', hc, ht⟩ := step_served hS hserving hclient hcount hstep
      exact .inl (.answered h' hc ht)
    | server e =>
      obtain ⟨y', u', h', hc, ht⟩ := hserving.step_server hS.serves hS.isSession hw hstep
      exact .inl (.served h' (hc.trans hclient) (by rw [ht]; exact hcount))
    | discardToClient k =>
      rw [no_discard_client (by rw [hclient]; rfl)] at hstep
      cases hstep
    | discardToServer k =>
      rw [hserving.no_discard hw] at hstep
      cases hstep
  | @answered _ y u hserving hclient hcount =>
    have hw : t.client.wire = [(U.network.server .listen, (U.request bs).wire)] := by rw [hclient]; rfl
    cases e with
    | client k e =>
      exact .inr (step_answered hserving hclient hcount hstep)
    | server e =>
      obtain ⟨y', u', h', hc, ht⟩ := hserving.step_server hS.serves hS.isSession hw hstep
      exact .inl (.answered h' (hc.trans hclient) (by rw [ht]; exact hcount))
    | discardToClient k =>
      rw [no_discard_client (by rw [hclient]; rfl)] at hstep
      cases hstep
    | discardToServer k =>
      rw [hserving.no_discard hw] at hstep
      cases hstep

/-- There is still something to do. -/
theorem Opening.not_rest (h : Opening U bs T κ t) (hS : Served U bs T κ) : ¬ t.AtRest U.network := by
  intro hr
  cases h with
  | asked =>
    have hc := hr.toServer .listen
    have hsent := @fromClient_request (U.asked bs) U.network (U.request bs).wire rfl .listen
    rw [hsent] at hc
    cases hc
  | requested => cases hr.server.1.1
  | served hserving hclient hcount =>
    have hc := hr.toClient (.session 0)
    rw [hcount, hS.serves.fromServer hS.isSession hserving.server hserving.sessions hserving.session,
      if_pos rfl] at hc
    cases hc
  | answered hserving hclient hcount =>
    have hq : t.client.io.received = [] := hr.client.1.1
    rw [hclient] at hq
    cases hq

/-- A client has an event if a datagram is there. -/
theorem client_delivers {N : Network} {k : ServerSocket} {d : Bytes} (hd : t.client.dead = false)
    (hr : t.client.io.receives = [()]) (hnext : (t.fromServer N k)[t.toClient k]? = some d) :
    ∃ t', EndToEnd.step N t (.client k (.request [] (.deliver (N.server k) d))) = some t' := by
  obtain ⟨c, hc⟩ : ∃ c, t.client.step (.request [] (.deliver (N.server k) d)) = some c := by
    have hd' : (TftpClient.proactor []).threw t.client = false := hd
    rw [TftpClient.step, Proactor.step, hd']
    simp only [Proactor.event, show ((TftpClient.proactor []).io t.client).receives = [()] from hr]
    exact ⟨_, rfl⟩
  exact ⟨_, (if_pos (fifoAllows_deliver.2 ⟨rfl, hnext⟩)).trans (congrArg (Option.map _) hc)⟩

/-- The request is there for the server. -/
theorem asked_step (hl : (U.request bs).messageLength ≤ 512) :
    ∃ e, EndToEnd.step U.network (U.asked bs) e = some (U.requested bs) := by
  obtain ⟨t₁, h₁⟩ : ∃ t', EndToEnd.step U.network (U.asked bs)
      (.server (.listen [] (.deliver U.network.client (U.request bs).wire))) = some t' :=
    ⟨_, (if_pos (fifoAllows_deliver.2 ⟨rfl, by
      have hsent := @fromClient_request (U.asked bs) U.network (U.request bs).wire rfl .listen
      exact congrArg (·[0]?) hsent⟩)).trans rfl⟩
  obtain rfl := step_asked hl h₁
  exact ⟨_, h₁⟩

/-- **The client gets to handle the OACK.** -/
theorem Opening.exists_opened (h : Opening U bs T κ t) (hS : Served U bs T κ) {L : Lts EndToEnd EndToEndEvent}
    (hL : L.step = EndToEnd.step U.network) : ∃ es t', L.run t es = some t' ∧ Opened U bs T κ t' := by
  have hcons : ∀ {t e t'}, EndToEnd.step U.network t e = some t' →
      (∃ es t'', L.run t' es = some t'' ∧ Opened U bs T κ t'') →
      ∃ es t'', L.run t es = some t'' ∧ Opened U bs T κ t'' := by
    rintro t e t' he ⟨es, t'', hrun, ho⟩
    refine ⟨e :: es, t'', ?_, ho⟩
    rw [Lts.run, hL, he]
    exact hrun
  have hanswered : ∀ {t y u}, Serving U.network T κ y u t → t.client = U.answered bs →
      (∀ k, t.toClient k = if k = .session 0 then 1 else 0) →
      ∃ es t'', L.run t es = some t'' ∧ Opened U bs T κ t'' := by
    intro t y u hserving hclient hcount
    obtain ⟨c, hc⟩ : ∃ c, t.client.step (.request [] (.runReceive 0)) = some c := by
      rw [hclient]
      exact ⟨_, rfl⟩
    have he := @EndToEnd.step_client_silent U.network t (.request [] (.runReceive 0)) c trivial rfl hc .listen
    exact hcons he ⟨[], _, rfl, step_answered hserving hclient hcount he⟩
  have hserved : ∀ {t y u}, Serving U.network T κ y u t → t.client = U.asking bs →
      (∀ k, t.toClient k = 0) → ∃ es t'', L.run t es = some t'' ∧ Opened U bs T κ t'' := by
    intro t y u hserving hclient hcount
    obtain ⟨t₁, he⟩ := @client_delivers t U.network (.session 0) (oack F bs) (by rw [hclient]; rfl)
      (by rw [hclient]; rfl) (by
        rw [hcount, hS.serves.fromServer hS.isSession hserving.server hserving.sessions hserving.session]
        rfl)
    obtain ⟨hserving', hclient', hcount'⟩ := step_served hS hserving hclient hcount he
    exact hcons he (hanswered hserving' hclient' hcount')
  have hrequested : ∃ es t'', L.run (U.requested bs) es = some t'' ∧ Opened U bs T κ t'' := by
    obtain ⟨t₂, he⟩ : ∃ t', EndToEnd.step U.network (U.requested bs)
        (.server (.listen [] (.runReceive 0))) = some t' :=
      ⟨_, EndToEnd.step_server_silent (.listen [] (.runReceive 0)) trivial rfl rfl⟩
    obtain ⟨y, u, hserving, hclient, hcount⟩ := step_requested hS he
    exact hcons he (hserved hserving hclient hcount)
  cases h with
  | asked =>
    obtain ⟨e, he⟩ := asked_step hS.fits
    exact hcons he hrequested
  | requested => exact hrequested
  | served hserving hclient hcount => exact hserved hserving hclient hcount
  | answered hserving hclient hcount => exact hanswered hserving hclient hcount

end

/-! ## The client's answer to the OACK -/

section
variable {U} {bs}

/-- The client, when it looks at the OACK. -/
def answering (U : Setup requestType F) (bs : ℕ) : TftpClient :=
  { U.answered bs with
    io := { (U.answered bs).io with received := [], waits := 0, waited := [.operationAborted] } }

theorem handled_eq (hbs : 8 ≤ bs ∧ bs ≤ 65464) (past : Bytes) : U.handled bs past =
    (TftpClient.handleOack ⟨(answer F bs).getOptionsAsMap⟩ (U.answering bs)).release := by
  have hne : (answer F bs).getOptionsAsMap ≠ ∅ :=
    Std.ExtTreeMap.ne_empty_of_mem (TransactionOptionValues.mem_getOptionsAsMap.2
      (show ((answer F bs).value blksizeName).isSome from rfl))
  have hdec := TransactionOptionValues.decode_oackBytes (answer_fromMap F hbs).small hne past {}
  have htake : (oack F bs ++ (U.asking bs).mRecvBuffer.drop (oack F bs).length).take (oack F bs).length =
      (answer F bs).oackBytes := List.take_left
  rw [handled, TftpClient.handleAnswer]
  dsimp only
  rw [show ((U.answered bs).mRecvBuffer.take (oack F bs).length) = (answer F bs).oackBytes from htake, hdec]
  rfl

theorem size_toNat (hF : F.length < 65535 * bs) (hbs : bs ≤ 65464) :
    (UInt64.ofNat F.length).toNat = F.length :=
  UInt64.toNat_ofNat_of_lt' (by
    change F.length < 2 ^ 64
    have : 65535 * bs ≤ 65535 * 65464 := Nat.mul_le_mul_left _ hbs
    omega)

/-- The values of a small file are accepted. -/
theorem handleOack_small (hbs : 8 ≤ bs ∧ bs ≤ 65464) (hF : F.length < 2 ^ 31) (c : TftpClient) :
    c.handleOack ⟨(answer F bs).getOptionsAsMap⟩ = if c.requestType = .rrq then
      c.acceptOack_RRQ { answer F bs with wasSetByClient := false }
    else c.acceptOack_WRQ { answer F bs with wasSetByClient := false } := by
  have hlt : ∀ t ∈ (answer F bs).mTransferSize, t.toNat < 2 ^ 31 := by
    intro t ht
    cases ht
    rwa [UInt64.toNat_ofNat_of_lt' (by change F.length < 2 ^ 64; omega)]
  have hm := answer_fromMap F hbs
  rw [TftpClient.handleOack, TransactionOptionValues.setOptionsFromMap_eq_true_iff.2
    ⟨hm.acceptable_of_lt hlt, (hm.optionsOf_eq hlt).symm⟩]

/-- Those of a large one are not. -/
theorem handleOack_large (hbs : 8 ≤ bs ∧ bs ≤ 65464) (hF : F.length < 65535 * bs) (hlarge : 2 ^ 31 ≤ F.length)
    (c : TftpClient) : c.handleOack ⟨(answer F bs).getOptionsAsMap⟩ =
      { c with io := c.io.asyncSendDetached c.mServerEndpoint TftpClient.invalidOptions }.onDone
        .optNegotiation := by
  have hm := answer_fromMap F hbs
  have hle : 65535 * bs ≤ 65535 * 65464 := Nat.mul_le_mul_left _ hbs.2
  have hno : ¬ Acceptable (answer F bs).getOptionsAsMap := by
    rw [hm.acceptable_iff]
    intro h
    have hs := (h _ rfl).2
    rw [size_toNat hF hbs.2] at hs
    omega
  rw [TftpClient.handleOack]
  cases hset : TransactionOptionValues.setOptionsFromMap (answer F bs).getOptionsAsMap {} with
  | error e =>
    have ht := (TransactionOptionValues.setOptionsFromMap_error_iff.1 hset).2.1
    rw [TransactionOptionValues.mem_getOptionsAsMap] at ht
    cases ht
  | ok r =>
    obtain ⟨b, w⟩ := r
    cases b with
    | false => rfl
    | true => exact absurd (TransactionOptionValues.setOptionsFromMap_eq_true_iff.1 hset).1 hno

end

/-! ## What becomes of it -/

section
variable {σ τ H H' : Type} {P : Proactor σ H Endpoint} {Q : Proactor τ H' Endpoint} {S : Speaker P}
  {T : Speaker Q} {ι : σ → Session} {κ : τ → Session} {U} {bs} {t : EndToEnd}

theorem start_eq (hk : requestType = .rrq ∨ requestType = .wrq) (hl : (U.request bs).messageLength ≤ 512) :
    U.start bs = U.asked bs := by
  rw [asked, ← U.start_client bs hk hl]
  rfl

/-- The socket is handed over to a session. -/
theorem startSession_handedOver (x : Session) : ((U.answering bs).startSession x).release.HandedOver x :=
  (TftpClient.HandedOver.release ⟨rfl, rfl, Io.ops_close rfl, fun _ he => List.mem_singleton.1 he, rfl,
    rfl⟩).1

/-- The client's session has been started, and nothing has been delivered to it. -/
structure Starts (S : Speaker P) (x : Dialogue.State) (s : σ) : Prop where
  session : S.At x s
  valid : S.party.Valid x
  started : x.phase ≠ .idle
  untouched : x.delivered = 0

/-- The sessions begin their dialogue. -/
theorem Opened.talking (h : Opened U bs T κ t) {x : Dialogue.State} {s : σ} (hs : Starts S x s)
    (hhand : ∀ past, (U.handled bs past).HandedOver (ι s)) :
    ∃ y u, t.Talking ι κ S T x y s u 0 0 := by
  obtain ⟨past, y, u, hserving, hclient, hcount⟩ := h
  refine ⟨y, u, by rw [hclient]; exact hhand past, hserving.server, hserving.sessions,
    ⟨hs.session, hserving.session, ⟨hs.valid, hserving.valid, ?_, ?_⟩, ⟨Nat.zero_le _, fun _ => hs.untouched.symm⟩,
      ⟨Nat.zero_le _, fun _ => hserving.untouched.symm⟩⟩, ⟨hs.started, hserving.started⟩, hcount, fun k => ?_⟩
  · rw [hs.untouched]
    exact Nat.zero_le _
  · rw [hserving.untouched]
    exact Nat.zero_le _
  · rw [hserving.toServer]
    cases k <;> simp

/-- **A request whose OACK is accepted leads to a conversation**, which comes to
    rest when both sessions have ended. -/
theorem reach_ended (hS : Served U bs T κ) {request : Bytes} (hE : Exchange U.network S T request (oack F bs))
    (hι : IsSession P ι) {x : Dialogue.State} {s : σ} (hs : Starts S x s)
    (hhand : ∀ past, (U.handled bs past).HandedOver (ι s)) (hr : (U.system bs).Reach t) :
    (∃ es t', (U.system bs).run t es = some t' ∧ t'.AtRest U.network) ∧ (t.AtRest U.network →
      ∃ x y s u i j, t.Talking ι κ S T x y s u i j ∧ x.phase = .ended ∧ y.phase = .ended) := by
  have hinv : Opening U bs T κ t ∨ ∃ x y s u i j, t.Talking ι κ S T x y s u i j := by
    refine hr.inv (fun t => Opening U bs T κ t ∨ ∃ x y s u i j, t.Talking ι κ S T x y s u i j)
      (fun t ht => ?_) fun t e t' _ ht hstep => ?_
    · obtain rfl : t = U.start bs := ht
      rw [start_eq hS.kind hS.fits]
      exact .inl .asked
    · rcases ht with ht | ⟨x, y, s, u, i, j, ht⟩
      · rcases ht.step hS hstep with ht' | ht'
        · exact .inl ht'
        · obtain ⟨y, u, ht'⟩ := ht'.talking hs hhand
          exact .inr ⟨_, _, _, _, _, _, ht'⟩
      · obtain ⟨x', y', s', u', i', j', ht', -⟩ := ht.step hE hι hS.isSession hstep
        exact .inr ⟨_, _, _, _, _, _, ht'⟩
  rcases hinv with ht | ⟨x, y, s, u, i, j, ht⟩
  · refine ⟨?_, fun hrest => absurd hrest (ht.not_rest hS)⟩
    obtain ⟨es, t₁, hrun, ho⟩ := ht.exists_opened hS (show (U.system bs).step = _ from rfl)
    obtain ⟨y, u, ht₁⟩ := ho.talking hs hhand
    obtain ⟨es', t', hrun', hrest⟩ := ht₁.comes_to_rest hE hι hS.isSession (U.system bs) rfl
    refine ⟨es ++ es', t', ?_, hrest⟩
    rw [Lts.run_append, hrun]
    exact hrun'
  · exact ⟨ht.comes_to_rest hE hι hS.isSession (U.system bs) rfl, fun hrest =>
      ⟨x, y, s, u, i, j, ht, ht.ended hE hι hS.isSession hrest⟩⟩

end

/-- The client has no session, and waits for no answer. -/
structure Abandoned (c : TftpClient) : Prop where
  session : c.session = none
  receives : c.io.receives = []
  received : c.io.received = []

theorem Abandoned.step {c c' : TftpClient} (h : Abandoned c) {e : ClientEvent} (hstep : c.step e = some c') :
    Abandoned c' := by
  obtain ⟨h1, h2, h3⟩ := h
  cases e with
  | session e =>
    simp only [TftpClient.step] at hstep
    split_ifs at hstep
    rw [h1] at hstep
    cases hstep
  | request past e =>
    obtain ⟨-, hcase⟩ := Proactor.step_cases hstep
    clear hstep
    cases hcase with
    | start _ => exact ⟨h1, h2, h3⟩
    | deliver hr => exact absurd hr (by rw [show ((TftpClient.proactor past).io c).receives = [] from h2]; simp)
    | receiveFails hr _ => exact absurd hr (by rw [show ((TftpClient.proactor past).io c).receives = [] from h2]; simp)
    | sendCompletes _ => exact ⟨h1, h2, h3⟩
    | expire _ => exact ⟨h1, h2, h3⟩
    | runReceive hx => exact absurd hx (by rw [show ((TftpClient.proactor past).io c).received = [] from h3]; simp)
    | runSend _ => exact ⟨h1, h2, h3⟩
    | @runTimer i err hx =>
      have hrelease : ∀ c : TftpClient, Abandoned c → Abandoned c.release := by
        intro c hc
        unfold TftpClient.release
        split_ifs
        · exact ⟨hc.session, rfl, by simp [Io.close, Io.abortAll, hc.receives, hc.received]⟩
        · exact hc
      refine hrelease _ ?_
      unfold TftpClient.onOackTimeout Io.cancel
      split_ifs
      · exact ⟨h1, h2, h3⟩
      · exact ⟨h1, rfl, by simp [Io.abortAll, TftpClient.proactor, h2, h3]⟩
      · exact ⟨h1, h2, h3⟩

theorem Abandoned.network {N : Network} {t t' : EndToEnd} (h : Abandoned t.client) {e : EndToEndEvent}
    (hstep : EndToEnd.step N t e = some t') : Abandoned t'.client := by
  cases e with
  | client k e =>
    simp only [EndToEnd.step] at hstep
    split_ifs at hstep
    obtain ⟨c, hc, rfl⟩ := Option.map_eq_some_iff.1 hstep
    exact h.step hc
  | server e =>
    simp only [EndToEnd.step] at hstep
    split_ifs at hstep
    obtain ⟨v, -, rfl⟩ := Option.map_eq_some_iff.1 hstep
    exact h
  | discardToClient k =>
    simp only [EndToEnd.step] at hstep
    split_ifs at hstep
    cases hstep
    exact h
  | discardToServer k =>
    simp only [EndToEnd.step] at hstep
    split_ifs at hstep
    cases hstep
    exact h

/-- A transfer that completes has a session. -/
theorem not_completed_of_abandoned {t : EndToEnd} (h : Abandoned t.client) :
    ¬ t.Completed requestType F bs := by
  rintro ⟨-, -, s, r, hs, -⟩
  unfold EndToEnd.Sessions at hs
  split_ifs at hs
  · rw [h.session] at hs
    cases hs.1
  · rw [h.session] at hs
    cases hs.1

/-- **A client that has not sent its request does not complete it.** -/
theorem not_completes_of_abandoned (h : Abandoned (U.start bs).client) : ¬ U.Completes bs := by
  intro hall
  obtain ⟨⟨es, t, hrun, hrest⟩, -⟩ := hall _ (.init rfl)
  have hr := Lts.Reach.run (.init rfl) hrun
  refine not_completed_of_abandoned bs ?_ ((hall t hr).2 hrest)
  refine hr.inv (fun t => Abandoned t.client) (fun t ht => ?_) fun t e t' _ ht hstep => ht.network hstep
  obtain rfl : t = U.start bs := ht
  exact h

/-- **Neither does one that drops the OACK.** -/
theorem not_completes_of_dropped {τ H' : Type} {Q : Proactor τ H' Endpoint} {T : Speaker Q}
    {κ : τ → Session} (hS : Served U bs T κ) (h : ∀ past, Abandoned (U.handled bs past)) :
    ¬ U.Completes bs := by
  intro hall
  obtain ⟨⟨es, t, hrun, hrest⟩, -⟩ := hall _ (.init rfl)
  have hr := Lts.Reach.run (.init rfl) hrun
  have hinv : Opening U bs T κ t ∨ Abandoned t.client := by
    refine hr.inv (fun t => Opening U bs T κ t ∨ Abandoned t.client) (fun t ht => ?_)
      fun t e t' _ ht hstep => ?_
    · obtain rfl : t = U.start bs := ht
      rw [start_eq hS.kind hS.fits]
      exact .inl .asked
    · rcases ht with ht | ht
      · rcases ht.step hS hstep with ht' | ⟨past, -, -, -, hclient, -⟩
        · exact .inl ht'
        · exact .inr (hclient ▸ h past)
      · exact .inr (ht.network hstep)
  rcases hinv with ht | ht
  · exact ht.not_rest hS hrest
  · exact not_completed_of_abandoned bs ht ((hall t hr).2 hrest)

end Setup

end Ttftp

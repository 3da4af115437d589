/-
  What a server does for the request of a call, among the requests of others.

  The request may arrive any number of times, and each time a session is started for it; all
  of them are alike (`session_eq`), with the options of the request (`params_cases`).  What
  the client hears from the server is what they send, or an error (`service`).
-/
import Ttftp.Proof.Call
import Ttftp.Proof.DataSize
import Ttftp.Proof.Grammar
import Ttftp.Proof.Negotiation

namespace Ttftp

open Bytes Asio

/-! ## Opcodes -/

section
variable {past d : Bytes} {n : ℕ}

theorem OptionACKMessage.opcode {oack : OptionACKMessage} (hn : 2 ≤ n)
    (h : OptionACKMessage.decode past {} (d.take n) = (true, oack)) : ntohs d 0 = TftpOpcode.oack.toUInt16 := by
  obtain ⟨hl, hop, -⟩ := OptionACKMessage.decode_true_iff.1 h
  have hl' : opcodeLength + 2 = 4 := rfl
  rwa [memory, ntohs_append (by omega), ntohs_take hn] at hop

theorem DataMessage.opcode {msg : DataMessage} (hn : 2 ≤ n) (h : (msg.decode (d.take n)).1 = true) :
    ntohs d 0 = TftpOpcode.data.toUInt16 := by
  rw [← ntohs_take hn]
  exact (DataMessage.decode_true_iff.1 h).2.2

theorem IsErrorMessage.opcode (h : IsErrorMessage d) : ntohs d 0 = TftpOpcode.error.toUInt16 := by
  obtain ⟨msg, rfl⟩ := h
  exact ntohs_htons [] _ _

theorem IsAckMessage.opcode (h : IsAckMessage d) : ntohs d 0 = TftpOpcode.ack.toUInt16 := by
  obtain ⟨nr, rfl⟩ := h
  exact ntohs_htons [] _ _

end

/-- A datagram with the opcode of a request. -/
def IsRequest (d : Bytes) : Prop := ntohs d 0 = TftpOpcode.rrq.toUInt16 ∨ ntohs d 0 = TftpOpcode.wrq.toUInt16

/-- Only a request starts a session. -/
theorem TftpServer.isRequest_of_starts {past d : Bytes}
    (h : (TftpServer.request past d).2.isRRQ ∨ (TftpServer.request past d).2.isWRQ) : IsRequest d := by
  unfold TftpServer.request RequestMessage.decode at h
  dsimp only at h
  split_ifs at h with hl hop
  · simp [RequestMessage.isRRQ, RequestMessage.isWRQ] at h
  · simp [RequestMessage.isRRQ, RequestMessage.isWRQ] at h
  all_goals
    rw [List.length_take] at hl
    have hl' : opcodeLength + 2 = 4 := rfl
    have hop' : ntohs (memory (d.take TftpServer.bufsize) past) 0 = ntohs d 0 := by
      rw [memory, ntohs_append (by rw [List.length_take]; omega), ntohs_take (by decide)]
    rw [hop'] at hop
    rcases not_and_or.1 hop with hop | hop
    · exact .inl (not_not.1 hop)
    · exact .inr (not_not.1 hop)

/-! ## What may happen to the server -/

/-- What is found is what there was at first, or what it has become. -/
theorem HostEvent.found_cases (os : OperatingSystem) (es : List HostEvent) :
    found os es = os ∨ .changes (found os es) ∈ es := by
  induction es using List.reverseRecOn with
  | nil => exact .inl rfl
  | append_singleton es e ih =>
    have hfound : found os (es ++ [e]) = e.finds (found os es) := by rw [found, List.foldl_append]; rfl
    rw [hfound]
    cases e with
    | changes os' => exact .inr (List.mem_append_right _ (List.mem_singleton_self _))
    | _ => exact ih.imp_right (List.mem_append_left _)

theorem Session.peer?_eq_some_iff {x : Session} {p : Endpoint} :
    x.peer? = some p ↔ x.correspondents.isConnected = true ∧ x.correspondents.peer = p := by
  cases x <;> exact Option.ite_none_right_eq_some.trans (and_congr_right fun _ => Option.some_inj)

/-- A session keeps its peer. -/
theorem TftpServer.peer_step {os : OperatingSystem} {root : Bytes} {es : List HostEvent} {s s' : TftpServer}
    (h : (system os root).run (new os root) es = some s) {e : HostEvent} (hs : s.hostStep e = some s') {n : ℕ}
    {x : Session} (hx : s.sessions[n]? = some x) {p : Endpoint} (hp : x.peer? = some p) :
    ∃ x', s'.sessions[n]? = some x' ∧ x'.peer? = some p := by
  have hlt := (List.getElem?_eq_some_iff.1 hx).1
  have hset : ∀ {m : ℕ} {y y' : Session}, s.sessions[m]? = some y → (m = n → y'.peer? = y.peer?) →
      ∃ x', (s.sessions.set m y')[n]? = some x' ∧ x'.peer? = some p := by
    intro m y y' hy hsame
    by_cases hm : m = n
    · subst hm
      obtain rfl := Option.some.inj (hx.symm.trans hy)
      exact ⟨y', List.getElem?_set_self hlt, (hsame rfl).trans hp⟩
    · exact ⟨x, (List.getElem?_set_ne hm).trans hx, hp⟩
  cases (hostStep_cases hs).2 with
  | changes _ => exact ⟨x, hx, hp⟩
  | @rewritten m y hy content => exact hset hy fun _ => by cases y <;> rfl
  | @server e _ he =>
    cases e with
    | listen past e =>
      rcases (listen_startsOne (heard h).inv he).sessions with ⟨hsame, -⟩ | ⟨request, q, client, hmore, -⟩
      · exact ⟨x, by rw [hsame]; exact hx, hp⟩
      · exact ⟨x, by rw [hmore, List.getElem?_append_left hlt]; exact hx, hp⟩
    | session m e =>
      obtain ⟨-, he⟩ := Option.ite_none_left_eq_some.1 he
      obtain ⟨y, hy, he⟩ := Option.bind_eq_some_iff.1 he
      obtain ⟨y', hy', rfl⟩ := Option.map_eq_some_iff.1 he
      refine hset hy fun hm => ?_
      subst hm
      obtain rfl := Option.some.inj (hx.symm.trans hy)
      obtain ⟨es₁, es₂, src, d, x₀, -, horigin⟩ := session_origin h hx
      obtain ⟨hconn, rfl⟩ := Session.peer?_eq_some_iff.1 hp
      have hsame := (Session.step_posts horigin.confined.wf hy').view.connected (by cases e <;> exact hconn)
      rw [hp, Session.peer?_eq_some_iff, hsame]
      cases e <;> exact ⟨hconn, rfl⟩

namespace Call
variable {U : Call} {requestType : TftpOpcode}

/-- What the client has sent before may still arrive. -/
theorem allowsServer_client {c c' : TftpClient} {w : List (Endpoint × Bytes)} (hw : c'.wire = c.wire ++ w)
    {s : TftpServer} {e : HostEvent} (h : U.allowsServer requestType c s e = true) :
    U.allowsServer requestType c' s e = true := by
  cases e with
  | changes _ => exact h
  | rewritten _ _ => exact h
  | server e =>
    have h : U.hosts.reachesServer c e.socket e.event = true := h
    change U.hosts.reachesServer c' e.socket e.event = true
    cases he : e.event with
    | deliver src d =>
      rw [he, Hosts.reachesServer_deliver] at h
      rw [Hosts.reachesServer_deliver]
      refine h.imp_right fun hmem => ?_
      rw [hw]
      exact List.mem_append_left _ hmem
    | _ => rfl

/-- What may happen to the server may still happen after a step of it. -/
theorem allowsServer_server {es : List HostEvent} {s s' : TftpServer}
    (hrun : (TftpServer.system U.serverOs U.serverRoot).run U.server es = some s) {e' : HostEvent}
    (hs : s.hostStep e' = some s') {c : TftpClient} {e : HostEvent} (h : U.allowsServer requestType c s e = true) :
    U.allowsServer requestType c s' e = true := by
  cases e with
  | changes _ => exact h
  | server _ => exact h
  | rewritten n content =>
    rcases Bool.or_eq_true_iff.1 h with h | h
    · exact Bool.or_eq_true_iff.2 (.inl h)
    · obtain ⟨x, hx, hany⟩ := (Option.any_eq_true _ _).1 h
      obtain ⟨p, hp, hne⟩ := (Option.any_eq_true _ _).1 hany
      obtain ⟨x', hx', hp'⟩ := TftpServer.peer_step hrun hs hx hp
      exact Bool.or_eq_true_iff.2 (.inr ((Option.any_eq_true _ _).2 ⟨x', hx', (Option.any_eq_true _ _).2 ⟨p, hp', hne⟩⟩))

end Call

namespace Call
variable (U : Call) (requestType : TftpOpcode)

/-- What the server passes on to a session for the request. -/
def params : SessionParams :=
  match TftpServer.parseOptionFields (U.request requestType) with
  | .ok (some values) => TftpServer.paramsOf (U.server.respond (U.request requestType)) values U.hosts.client
  | _ => {}

/-- The session that is started for the request by a server that finds `os`. -/
def served (os : OperatingSystem) : Session :=
  (TftpServer.new os U.serverRoot).sessionOf (U.request requestType) (U.params requestType) U.hosts.client

/-- The server finds the file that is asked for as it was. -/
def Finds (os : OperatingSystem) : Prop := requestType = .rrq → U.keeps os = true

/-- No other request has been sent. -/
def Requests (w : List (Endpoint × Bytes)) : Prop := ∀ p ∈ w, IsRequest p.2 → U.Asks requestType p

theorem opcode_request : ntohs (U.request requestType).wire 0 = requestType.toUInt16 := ntohs_htons [] _ _

variable {U requestType}

/-- The request is read as it was written. -/
theorem request_received (hname : NulFree U.filename) (hk : requestType = .rrq ∨ requestType = .wrq) {dst : Endpoint}
    {d : Bytes} (h : U.Asks requestType (dst, d)) (past : Bytes) :
    TftpServer.request past d = (true, U.request requestType) := by
  obtain ⟨heq, hl⟩ := h
  obtain rfl : d = (U.request requestType).wire := congrArg Prod.snd heq
  have htake : ((U.request requestType).wire).take TftpServer.bufsize = (U.request requestType).wire := by
    refine List.take_of_length_le ?_
    rw [RequestMessage.length_wire]
    exact hl.trans (by decide)
  rw [TftpServer.request, htake]
  exact RequestMessage.decode_wire past {} (request_wellFormed hname hk)

theorem Finds.respond {os : OperatingSystem} (h : U.Finds requestType os) (v : TransactionOptionValues) :
    (TftpServer.new os U.serverRoot).respond (U.request requestType) v = U.server.respond (U.request requestType) v := by
  unfold TftpServer.respond
  split_ifs with hr
  · have hk : requestType = .rrq := of_decide_eq_true hr
    rw [show (TftpServer.new os U.serverRoot).os.fileSize ((TftpServer.new os U.serverRoot).path (U.request requestType)) =
      U.server.os.fileSize (U.server.path (U.request requestType)) from (of_decide_eq_true (h hk)).2]
  · rfl

/-- The session for the request does not depend on when it arrives. -/
theorem session_eq (hname : NulFree U.filename) (hk : requestType = .rrq ∨ requestType = .wrq) {dst : Endpoint}
    {d : Bytes} (h : U.Asks requestType (dst, d)) {os : OperatingSystem} (hos : U.Finds requestType os) {past : Bytes}
    {x : Session} (hx : TftpServer.StartsFor os U.serverRoot past U.hosts.client d x) : x = U.served requestType os := by
  obtain ⟨-, p, rfl, hp⟩ := hx
  rw [request_received hname hk h] at hp ⊢
  have hparams : p = U.params requestType := by
    unfold params
    rcases hp with ⟨hnone, rfl⟩ | ⟨values, hsome, rfl⟩
    · rw [((TftpServer.admission_eq_none_iff _ _).1 hnone).2]
    · rw [((TftpServer.admission_eq_some_iff _ _).1 hsome).2.1, funext hos.respond]
  rw [hparams]
  rfl

/-- The options of the request are answered by an OACK, or there are none. -/
theorem params_cases (U : Call) (requestType : TftpOpcode) : U.params requestType = {} ∨
    ∃ v : TransactionOptionValues, v.FromMap ∧ (U.params requestType).sent = [(U.hosts.client, v.oackBytes)] ∧
      (U.params requestType).expected_ack = 0 ∧
        (U.params requestType).blocksize_to_use = v.mBlocksize.getD defaultBlocksize := by
  unfold params
  cases hp : TftpServer.parseOptionFields (U.request requestType) with
  | error e => exact .inl rfl
  | ok o =>
    cases o with
    | none => exact .inl rfl
    | some values =>
      dsimp only
      unfold TftpServer.paramsOf
      split_ifs with hset
      · refine .inr ⟨U.server.respond (U.request requestType) values,
          TftpServer.respond_fromMap (TftpServer.fromMap_of_parseOptionFields hp), rfl, rfl, ?_⟩
        rw [TftpServer.respond_mBlocksize]
      · exact .inl rfl

/-- A request without options is served with the defaults. -/
theorem params_default (hdef : (U.options requestType).isDefault = true) : U.params requestType = {} := by
  have hempty : (U.request requestType).mOptionValues = ∅ := if_pos hdef
  have hparse : TftpServer.parseOptionFields (U.request requestType) = .ok (some {}) := by
    rw [TftpServer.parseOptionFields, hempty]
    rfl
  rw [params, hparse]
  rfl

theorem params_blocksize (U : Call) (requestType : TftpOpcode) :
    8 ≤ (U.params requestType).blocksize_to_use ∧ (U.params requestType).blocksize_to_use ≤ 65464 := by
  rcases U.params_cases requestType with heq | ⟨v, hv, -, -, heq⟩
  · rw [heq]
    decide
  · rw [heq]
    cases hb : v.mBlocksize with
    | none => decide
    | some n => exact hv.blksize n hb

/-- What has been sent before is the OACK. -/
theorem sent_oack {dst : Endpoint} {d : Bytes} (h : (dst, d) ∈ (U.params requestType).sent) :
    ∃ v : TransactionOptionValues, v.FromMap ∧ d = v.oackBytes ∧
      (U.params requestType).blocksize_to_use = v.mBlocksize.getD defaultBlocksize := by
  rcases U.params_cases requestType with heq | ⟨v, hv, hsent, -, hbs⟩
  · rw [heq] at h
    cases h
  · rw [hsent, List.mem_singleton] at h
    exact ⟨v, hv, (Prod.mk.inj h).2, hbs⟩

theorem opcode_sent {dst : Endpoint} {d : Bytes} (h : (dst, d) ∈ (U.params requestType).sent) :
    ntohs d 0 = TftpOpcode.oack.toUInt16 := by
  obtain ⟨v, -, rfl, -⟩ := sent_oack h
  exact v.opcode_oackBytes

/-- **The client reads the block size that the server has set.** -/
theorem blocksize_of_oack {dst : Endpoint} {past d : Bytes} {oack : OptionACKMessage} {v : TransactionOptionValues}
    (h : (dst, d) ∈ (U.params requestType).sent)
    (hoack : OptionACKMessage.decode past {} (d.take TftpClient.bufsize) = (true, oack))
    (hv : TransactionOptionValues.setOptionsFromMap oack.mOptionValues {} = .ok (true, v)) :
    (U.params requestType).blocksize_to_use = v.mBlocksize.getD defaultBlocksize := by
  obtain ⟨v', hv', rfl, hbs⟩ := sent_oack h
  have htake : v'.oackBytes.take TftpClient.bufsize = v'.oackBytes := by
    refine List.take_of_length_le ?_
    have hl := TransactionOptionValues.messageLength_le hv'.small
    rw [OptionACKMessage.messageLength] at hl
    rw [TransactionOptionValues.oackBytes, List.length_append, length_htons, length_encodeOptions]
    exact hl.trans (by decide)
  rw [htake] at hoack
  by_cases hempty : v'.getOptionsAsMap = ∅
  · rw [TransactionOptionValues.decode_oackBytes_empty hempty] at hoack
    cases hoack
  · rw [TransactionOptionValues.decode_oackBytes hv'.small hempty] at hoack
    obtain ⟨-, rfl⟩ := Prod.mk.inj hoack
    rw [hbs, (TransactionOptionValues.setOptionsFromMap_eq_true_iff.1 hv).2, hv'.optionsOf_blocksize]

/-- The session `x` with the number `n` has been started for the request by a server that finds `os`;
    it has heard from the client what it has sent to it, and a file that it sends has not changed. -/
structure Serves (U : Call) (requestType : TftpOpcode) (c : TftpClient) (os : OperatingSystem) (n : ℕ) (x : Session) :
    Prop where
  finds : U.Finds requestType os
  run : ∃ es, Session.system.run (U.served requestType os) es = some x ∧
    (∀ d, .socket (.deliver U.hosts.client d) ∈ es → (U.hosts.server (.session n), d) ∈ c.wire) ∧
    (requestType = .rrq → ∀ content, .rewritten content ∈ es → U.serverOs.content U.serverPath = some content)

/-- What the server finds meanwhile. -/
theorem finds_found {es : List HostEvent} {c : TftpClient} {s : TftpServer}
    (hes : ∀ e ∈ es, U.allowsServer requestType c s e = true) : U.Finds requestType (HostEvent.found U.serverOs es) := by
  intro hk
  rcases HostEvent.found_cases U.serverOs es with heq | hmem
  · rw [heq]
    exact decide_eq_true ⟨rfl, rfl⟩
  · rcases Bool.or_eq_true_iff.1 (hes _ hmem) with hne | hkeeps
    · exact absurd hk (of_decide_eq_true hne)
    · exact hkeeps

/-- A session serves the request, or another host. -/
theorem session_cases (hname : NulFree U.filename) (hk : requestType = .rrq ∨ requestType = .wrq)
    {es : List HostEvent} {s : TftpServer}
    (hrun : (TftpServer.system U.serverOs U.serverRoot).run U.server es = some s) {c : TftpClient}
    (hes : ∀ e ∈ es, U.allowsServer requestType c s e = true) (hw : U.Requests requestType c.wire) {n : ℕ}
    {x : Session} (hx : s.sessions[n]? = some x) :
    (∃ es₁ past i es₂ t, es = es₁ ++ .server (.listen past (.runReceive i)) :: es₂ ∧
      (TftpServer.system U.serverOs U.serverRoot).run U.server es₁ = some t ∧ t.sessions.length = n ∧
        U.Serves requestType c t.os n x) ∨
    ∃ src others, src ≠ U.hosts.client ∧ x.Confined src others := by
  have hsent : ∀ e : ServerEvent, .server e ∈ es → ∀ d, e.event = .deliver U.hosts.client d →
      (U.hosts.server e.socket, d) ∈ c.wire := by
    intro e he d hev
    have hreach : U.hosts.reachesServer c e.socket e.event = true := hes _ he
    rw [hev] at hreach
    exact (U.hosts.reachesServer_deliver.1 hreach).resolve_left (absurd rfl)
  obtain ⟨es₁, es₂, src, d₀, x₀, rfl, ho⟩ := TftpServer.session_origin hrun hx
  have hconf := ho.confined
  by_cases hsrc : src = U.hosts.client
  · -- the client has sent the request
    subst hsrc
    have hx₀ := ho.run
    obtain ⟨t, ht, hlength⟩ := ho.before
    obtain ⟨past, i, es', rfl, hstart⟩ := ho.handled
    obtain ⟨past', hmem⟩ := ho.arrived
    have hreq := hsent _ (List.mem_append_left _ hmem) d₀ rfl
    have hasks := hw _ hreq (TftpServer.isRequest_of_starts hstart.1)
    have hfinds : U.Finds requestType (HostEvent.found U.serverOs es₁) :=
      finds_found fun e he => hes e (List.mem_append_left _ he)
    rw [session_eq hname hk hasks hfinds hstart] at hx₀
    rw [← TftpServer.run_os ht] at hfinds hx₀
    refine .inl ⟨es₁, past, i, es', t, rfl, ht, hlength, hfinds, _, hx₀, fun d hd => ?_, fun hrrq content hc => ?_⟩
    · exact hsent (.session n (.deliver _ d)) (List.mem_append_right _ (HostEvent.mem_own hd)) d rfl
    · have hallow := hes _ (List.mem_append_right _ (HostEvent.mem_own hc))
      simp only [SessionEvent.host, allowsServer, hx, Option.any_some, Bool.or_eq_true, decide_eq_true_eq] at hallow
      refine (hallow.resolve_right fun hany => ?_).resolve_left (absurd hrrq)
      obtain ⟨p, hp, hne⟩ := (Option.any_eq_true _ _).1 hany
      rw [Session.peer?_eq_some_iff.2 ⟨hconf.confines.connected, hconf.confines.peer⟩] at hp
      exact absurd (Option.some.inj hp).symm (of_decide_eq_true hne)
  · exact .inr ⟨src, _, hsrc, hconf⟩

/-- **What the client hears from the server** are errors, and what the sessions send that serve
    its request. -/
theorem service (hname : NulFree U.filename) (hk : requestType = .rrq ∨ requestType = .wrq) {es : List HostEvent}
    {s : TftpServer} (hrun : (TftpServer.system U.serverOs U.serverRoot).run U.server es = some s) {c : TftpClient}
    (hes : ∀ e ∈ es, U.allowsServer requestType c s e = true) (hw : U.Requests requestType c.wire)
    {k : ServerSocket} {d : Bytes} (hd : (U.hosts.client, d) ∈ s.wireAt k) :
    IsErrorMessage d ∨ ∃ os n x, (U.hosts.client, d) ∈ x.wire ∧ U.Serves requestType c os n x := by
  cases k with
  | listen => exact .inl (TftpServer.listening_refuses hrun _ hd).1
  | session n =>
    cases hx : s.sessions[n]? with
    | none =>
      rw [TftpServer.wireAt, hx] at hd
      cases hd
    | some x =>
      rw [TftpServer.wireAt, hx] at hd
      rcases session_cases hname hk hrun hes hw hx with ⟨_, _, _, _, _, -, -, -, hserves⟩ | ⟨src, others, hsrc, hconf⟩
      · exact .inr ⟨_, n, x, hd, hserves⟩
      · -- who is not the peer is told errors
        have hmail := hconf.confines.wire _ hd
        cases hmail with
        | message _ => exact absurd rfl hsrc
        | error msg => exact .inl ⟨msg, rfl⟩
        | other msg _ => exact .inl ⟨msg, rfl⟩

end Call

end Ttftp

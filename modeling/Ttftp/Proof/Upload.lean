/-
  An upload in an open network (`upload_intact`).

  The client sends the blocks of its file whatever it hears, in the block size of the OACK or
  in the default one: a server acknowledges a request with an OACK and an ACK 0 at once, and
  if the ACK arrives first, the client takes its options for ignored.  Each session writes
  what it gets, cut to its own block size.
-/
import Ttftp.Proof.Download

namespace Ttftp

open Bytes Asio

/-- A datagram of a file carries its block, as far as it fits into the buffer. -/
theorem carries_cut (F : Bytes) (n bs : ℕ) {i : ℕ} (hi : i ≤ 65535) :
    Carries (fun i => (block F n i).take bs) bs (dataOf F n i) := by
  have hcut : (dataOf F n i).take (bs + controlBytes) = dataBytes (UInt16.ofNat i) ((block F n (i - 1)).take bs) := by
    have hl : controlBytes = (htons TftpOpcode.data.toUInt16).length + (htons (UInt16.ofNat i)).length := by
      rw [length_htons, length_htons]
      rfl
    rw [dataOf, dataBytes, dataBytes, ← List.append_assoc, ← List.append_assoc, List.take_append, List.length_append,
      ← hl, Nat.add_sub_cancel, List.take_of_length_le (by rw [List.length_append, ← hl]; omega)]
  have hmsg : Reception.message bs (dataOf F n i) =
      (true, { DataMessage.new bs with mBlockNr := UInt16.ofNat i, mData := (block F n (i - 1)).take bs }) := by
    rw [Reception.message, hcut, DataMessage.decode_dataBytes]
    exact if_pos (List.length_take_le _ _)
  intro _
  rw [hmsg, UInt16.toNat_ofNat', Nat.mod_eq_of_lt (by omega)]

namespace Call
variable {U : Call} {F : Bytes}

/-! ## The client -/

/-- What the server sends to the client: an OACK, ACKs and errors. -/
def Replies (U : Call) (d : Bytes) : Prop :=
  (U.hosts.client, d) ∈ (U.params .wrq).sent ∨ IsAckMessage d ∨ IsErrorMessage d

/-- The sender of the client sends the blocks of `F`; apart from them it has sent the request. -/
structure Puts (U : Call) (F : Bytes) (x : Tftpsender) : Prop where
  sends : ∃ n w, x.Sends F x.blocksize n w ∧ ∀ p ∈ w, U.Asks .wrq p ∨ IsErrorMessage p.2
  blocksize : x.blocksize = (U.params .wrq).blocksize_to_use ∨ x.blocksize = defaultBlocksize

def Putting (U : Call) (F : Bytes) (x : Session) : Prop := ∃ s, x = .sender s ∧ U.Puts F s

theorem Puts.bounds {x : Tftpsender} (h : U.Puts F x) : 8 ≤ x.blocksize ∧ x.blocksize ≤ 65464 := by
  rcases h.blocksize with heq | heq
  · rw [heq]
    exact U.params_blocksize .wrq
  · rw [heq]
    decide

theorem Puts.sent_cases {x : Tftpsender} (h : U.Puts F x) {p : Endpoint × Bytes} (hp : p ∈ x.io.wire) :
    U.Asks .wrq p ∨ IsErrorMessage p.2 ∨ ∃ i ≤ 65535, p.2 = dataOf F x.blocksize i := by
  obtain ⟨n, w, hsends, hw⟩ := h.sends
  rcases hsends.sent_cases hp with hp | herr | ⟨i, -, hi, hdata⟩
  · exact (hw p hp).imp_right .inl
  · exact .inr (.inl herr)
  · exact .inr (.inr ⟨i, hi.trans hsends.disciplined.sent.bound, hdata⟩)

theorem Puts.step {x x' : Tftpsender} {e : Event Endpoint} (h : U.Puts F x)
    (hstep : Tftpsender.proactor.step x e = some x') : U.Puts F x' := by
  obtain ⟨hbs, hbs'⟩ := h.bounds
  obtain ⟨n, w, hsends, hw⟩ := h.sends
  obtain ⟨n', hsends', -⟩ := hsends.step hbs hbs' hstep
  have hblock := hsends'.disciplined.blocksize
  exact ⟨⟨n', w, by rw [hblock]; exact hsends', hw⟩, by rw [hblock]; exact h.blocksize⟩

/-- A sender that is started by the client. -/
theorem Puts.start {x : Tftpsender} (hwf : x.WellFormed) (hstarted : x.io.started = true)
    (hbs : x.blocksize = (U.params .wrq).blocksize_to_use ∨ x.blocksize = defaultBlocksize)
    (hcontent : x.input.content = F) (hf : x.input.fail = false) (hdone : x.sendingdone = false)
    (hle : x.lastsentdatacount.toNat ≤ 1) (hwire : ∀ p ∈ x.io.wire, U.Asks .wrq p ∨ IsErrorMessage p.2) :
    U.Puts F x.start := by
  have hbounds : 8 ≤ x.blocksize ∧ x.blocksize ≤ 65464 := by
    rcases hbs with heq | heq
    · rw [heq]
      exact U.params_blocksize .wrq
    · rw [heq]
      decide
  have hnodata : dataSent x.io.wire = [] := by
    rw [dataSent, List.filter_eq_nil_iff]
    intro d hd
    obtain ⟨p, hp, rfl⟩ := List.mem_map.1 hd
    rcases hwire p hp with ⟨rfl, -⟩ | herr
    · rw [opcode_request]
      decide
    · rw [herr.opcode]
      decide
  obtain ⟨n, -, hsends⟩ := Tftpsender.Sends.start hwf hstarted hbounds.1 hbounds.2 rfl hcontent hf hdone hle hnodata
  have hblock := hsends.disciplined.blocksize
  exact ⟨⟨n, x.io.wire, by rw [hblock]; exact hsends, hwire⟩, by rw [hblock]; exact hbs⟩

/-- An answer of the server leads to such a sender. -/
theorem putting_of_opens (hF : U.clientOs.content U.clientPath = some F) {past d : Bytes} {c : TftpClient}
    {x : Session} (hframe : U.Frame .wrq c) (hwire : ∀ p ∈ c.io.wire, U.Asks .wrq p ∨ IsErrorMessage p.2)
    (hd : U.Replies d) (hx : c.Opens past (d.take TftpClient.bufsize) x) : U.Putting F x := by
  have hfile : c.os.content c.filepath = some F := by rw [hframe.os, hframe.filepath, hF]
  have hstart : ∀ {bs : ℕ} {t : UInt8}, (bs = (U.params .wrq).blocksize_to_use ∨ bs = defaultBlocksize) →
      U.Puts F (Tftpsender.newConnected c.sock (.ofFile (c.os.content c.filepath)) c.mServerEndpoint 1 bs t).start := by
    intro bs t hbs
    rw [hfile]
    exact .start (@Tftpsender.newConnected_wellFormed c.sock rfl _ _ _ _ _) rfl hbs rfl rfl rfl le_rfl hwire
  cases hx with
  | oackRead hr | data hr => exact absurd (hframe.requestType.symm.trans hr) (by decide)
  | ack _ _ => exact ⟨_, rfl, hstart (.inr rfl)⟩
  | @oackWrite oack v _ hoack hv =>
    have hop := OptionACKMessage.opcode (by decide) hoack
    rcases hd with hd | hack | herr
    · exact ⟨_, rfl, hstart (.inl (blocksize_of_oack hd hoack hv).symm)⟩
    · exact absurd (hop.symm.trans hack.opcode) (by decide)
    · exact absurd (hop.symm.trans herr.opcode) (by decide)

/-- The sender that is started at once has no block size to agree on. -/
theorem putting_direct (hF : U.clientOs.content U.clientPath = some F) {c : TftpClient} (hframe : U.Frame .wrq c)
    (hwire : ∀ p ∈ c.io.wire, U.Asks .wrq p ∨ IsErrorMessage p.2) : U.Putting F (direct .wrq c) := by
  have hfile : c.os.content c.filepath = some F := by rw [hframe.os, hframe.filepath, hF]
  refine ⟨_, rfl, ?_⟩
  rw [hfile]
  exact .start ⟨rfl, List.length_replicate, Nat.zero_le _, rfl⟩ rfl (.inr rfl) rfl rfl rfl (Nat.zero_le 1) hwire

/-! ## The server -/

/-- What a session finds in the file that it appends to. -/
def stored (U : Call) (os : OperatingSystem) : Bytes := (os.output U.serverPath).content

theorem served_stores (payload : ℕ → Bytes) (os : OperatingSystem) : ∃ r, U.served .wrq os = .receiver r ∧
    r.Stores payload (U.stored os) (U.params .wrq).sent [] ∧ r.isConnected = true ∧
      r.mSenderEndpoint = U.hosts.client ∧ r.blocksize = (U.params .wrq).blocksize_to_use := by
  obtain ⟨r, hr⟩ : ∃ r, r = TftpReceiver.newConnected { started := true, wire := (U.params .wrq).sent }
      (os.output U.serverPath) U.hosts.client (U.params .wrq).blocksize_to_use
      (U.params .wrq).timeout_to_use := ⟨_, rfl⟩
  have hview := (TftpReceiver.Posts.start r).view
  have hsame := hview.connected (by rw [hr]; rfl)
  refine ⟨r.start, by rw [hr]; rfl, ?_, ?_, ?_, ?_⟩
  · have hwire : r.io.wire = (U.params .wrq).sent := by rw [hr]; rfl
    rw [← hwire]
    have hwritten : Written payload (U.stored os) r.output r.lastreceiveddatacount.toNat := by
      rw [hr]
      exact written_zero _
    exact .start (by rw [hr]; exact ⟨rfl, List.length_replicate⟩) (by rw [hr]; rfl) (by rw [hr]; rfl) hwritten
  · exact (congrArg Correspondents.isConnected hsame).trans (by rw [hr]; rfl)
  · exact (congrArg Correspondents.peer hsame).trans (by rw [hr]; rfl)
  · exact hview.blocksize.trans (by rw [hr]; rfl)

/-- A session that serves the request writes the payloads that the client's datagrams carry. -/
theorem Serves.stores {c : TftpClient} {os : OperatingSystem} {n : ℕ} {x : Session} (h : U.Serves .wrq c os n x)
    {payload : ℕ → Bytes} (hcarries : ∀ p ∈ c.wire, Carries payload (U.params .wrq).blocksize_to_use p.2) :
    ∃ r tr, x = .receiver r ∧ r.Stores payload (U.stored os) (U.params .wrq).sent tr ∧
      r.blocksize = (U.params .wrq).blocksize_to_use := by
  obtain ⟨es, hrun, hheard, -⟩ := h.run
  obtain ⟨r₀, hserved, hstores, hconn, hpeer, hbs⟩ := served_stores (U := U) payload os
  rw [hserved] at hrun
  obtain ⟨r, tr, rfl, hr, hblock⟩ := Session.run_stores hstores hconn hpeer (fun d hd => by
    rw [hbs]
    exact hcarries _ (hheard d hd)) hrun
  exact ⟨r, tr, rfl, hr, hblock.trans hbs⟩

/-! ## Both -/

/-- What the client has sent. -/
theorem sent_of_phase {answer : Bytes → Prop} {c : TftpClient} (h : U.Phase .wrq answer (U.Putting F) c) :
    ∀ p ∈ c.wire, U.Asks .wrq p ∨ IsErrorMessage p.2 ∨
      ∃ x i, c.session = some (.sender x) ∧ i ≤ 65535 ∧ p.2 = dataOf F x.blocksize i := by
  have hnone : c.session = none → c.wire = c.io.wire := fun hs => by rw [TftpClient.wire, hs]; rfl
  cases h with
  | failed hs hw _ =>
    rw [hnone hs, hw]
    exact fun p hp => by cases hp
  | asking _ hs _ hw _ _ =>
    rw [hnone hs]
    exact fun p hp => (hw p hp).imp_right .inl
  | going hs hx _ _ =>
    obtain ⟨x, rfl, hx⟩ := hx
    rw [TftpClient.wire, hs]
    intro p hp
    rcases hx.sent_cases hp with hasks | herr | ⟨i, hi, hdata⟩
    · exact .inl hasks
    · exact .inr (.inl herr)
    · exact .inr (.inr ⟨x, i, rfl, hi, hdata⟩)

theorem requests_of_phase {answer : Bytes → Prop} {c : TftpClient} (h : U.Phase .wrq answer (U.Putting F) c) :
    U.Requests .wrq c.wire := by
  intro p hp hop
  rcases sent_of_phase h p hp with hasks | herr | ⟨x, i, -, -, hdata⟩
  · exact hasks
  · rcases hop with hop | hop <;> exact absurd (hop.symm.trans herr.opcode) (by decide)
  · rw [IsRequest, hdata, dataOf, ntohs_dataBytes] at hop
    exact absurd hop (by decide)

/-- The payloads of the client's blocks, as far as they fit into the buffer of a session. -/
def cut (U : Call) (F : Bytes) (c : TftpClient) (i : ℕ) : Bytes :=
  (block F (c.session.elim 0 Session.blocksize) i).take (U.params .wrq).blocksize_to_use

theorem carries_sent {answer : Bytes → Prop} {c : TftpClient} (h : U.Phase .wrq answer (U.Putting F) c) :
    ∀ p ∈ c.wire, Carries (U.cut F c) (U.params .wrq).blocksize_to_use p.2 := by
  intro p hp
  rcases sent_of_phase h p hp with ⟨rfl, -⟩ | herr | ⟨x, i, hx, hi, hdata⟩
  · exact carries_of_opcode (by rw [opcode_request]; decide)
  · exact carries_of_opcode (by rw [herr.opcode]; decide)
  · have hcut : U.cut F c = fun i => (block F x.blocksize i).take (U.params .wrq).blocksize_to_use := by
      funext i
      rw [cut, hx]
      rfl
    rw [hcut, hdata]
    exact carries_cut F _ _ hi

/-- The server sends nothing but replies to the client. -/
theorem reply (hname : NulFree U.filename) {es : List HostEvent} {s : TftpServer}
    (hrun : (TftpServer.system U.serverOs U.serverRoot).run U.server es = some s) {c : TftpClient}
    (hes : ∀ e ∈ es, U.allowsServer .wrq c s e = true) {answer : Bytes → Prop}
    (h : U.Phase .wrq answer (U.Putting F) c) {k : ServerSocket} {d : Bytes}
    (hd : (U.hosts.client, d) ∈ s.wireAt k) : U.Replies d := by
  rcases service hname (.inr rfl) hrun hes (requests_of_phase h) hd with herr | ⟨os, n, x, hx, hserves⟩
  · exact .inr (.inr herr)
  · obtain ⟨r, tr, rfl, hr, -⟩ := hserves.stores (carries_sent h)
    exact hr.wire _ hx

/-- One step of the client. -/
theorem upload_step (hname : NulFree U.filename) (hF : U.clientOs.content U.clientPath = some F)
    {es : List HostEvent} {s : TftpServer}
    (hrun : (TftpServer.system U.serverOs U.serverRoot).run U.server es = some s) {c c' : TftpClient}
    (hes : ∀ e ∈ es, U.allowsServer .wrq c s e = true)
    (hphase : U.Phase .wrq U.Replies (U.Putting F) c) {e : ClientEvent}
    (hallow : U.hosts.reachesClient c s e.event = true) (hstep : c.step e = some c') :
    U.Phase .wrq U.Replies (U.Putting F) c' ∧ ∃ w, c'.wire = c.wire ++ w := by
  refine hphase.step (fun past d c x hframe hwire hd hx => putting_of_opens hF hframe hwire hd hx) ?_ ?_ ?_ hstep
  · intro hnone src d he
    rw [he] at hallow
    rcases U.hosts.reachesClient_deliver.1 hallow with ⟨peer, hpeer, -⟩ | ⟨k, -, -, hd⟩
    · rw [TftpClient.peer?, hnone] at hpeer
      cases hpeer
    · exact reply hname hrun hes hphase hd
  · rintro x ⟨s, rfl, hs⟩
    obtain ⟨n, w, hsends, -⟩ := hs.sends
    exact hsends.disciplined.wf
  · rintro x x' e' - ⟨s, rfl, hs⟩ - hx'
    obtain ⟨s', hs', rfl⟩ := Option.map_eq_some_iff.1 hx'
    exact ⟨s', rfl, hs.step hs'⟩

/-- **An upload keeps the file intact, or cuts its blocks.**  In every run of client and server in
    an open network, each session that serves the client has appended the first `j` of the
    client's blocks, cut to its own block size, to what the server found in the file when it
    was about to start the session; these are all that it has accepted, unless its stream has
    failed.  So nothing is missing or out of place if the client's blocks are not larger; and
    they are larger only where the client has been left with the default.  Others may send to
    the server what they like, and to the client once it knows its peer. -/
theorem upload_intact (U : Call) (hname : NulFree U.filename) {F : Bytes}
    (hF : U.clientOs.content U.clientPath = some F) {es : List (ClientEvent ⊕ HostEvent)} {c : TftpClient}
    {s : TftpServer} (h : (U.system .wrq).run (U.client .wrq, U.server) es = some (c, s)) {x : Tftpsender}
    (hx : c.session = some (.sender x)) {n : ℕ} {r : TftpReceiver} (hr : s.sessions[n]? = some (.receiver r))
    (hpeer : r.mSenderEndpoint = U.hosts.client) : (x.blocksize = r.blocksize ∨ x.blocksize = defaultBlocksize) ∧
      ∃ es₁ past i es₂ t, Parties.rights es = es₁ ++ .server (.listen past (.runReceive i)) :: es₂ ∧
        (TftpServer.system U.serverOs U.serverRoot).run U.server es₁ = some t ∧ t.sessions.length = n ∧
      ∃ j ≤ r.lastreceiveddatacount.toNat, (r.output.fail = false → j = r.lastreceiveddatacount.toNat) ∧
        r.output.content = (t.os.output U.serverPath).content ++
          (List.range j).flatMap (fun i => (block F x.blocksize i).take r.blocksize) ∧
        (x.blocksize ≤ r.blocksize →
          r.output.content = (t.os.output U.serverPath).content ++ F.take (j * x.blocksize)) := by
  have hinit : U.Phase .wrq U.Replies (U.Putting F) (U.client .wrq) :=
    .init hname (.inr rfl) fun _ c hframe hwire => putting_direct hF hframe hwire
  obtain ⟨hphase, hes⟩ := Parties.run_inv (U.Phase .wrq U.Replies (U.Putting F)) hinit
    (fun es c s e c' hrun hes hphase hallow hstep => by
      obtain ⟨hphase', w, hw⟩ := upload_step hname hF (Parties.run_right hrun) hes hphase hallow hstep
      exact ⟨hphase', fun b hb => allowsServer_client hw hb⟩)
    (fun es c s e s' b hrun hs hb => allowsServer_server (Parties.run_right hrun) hs hb) h
  rcases session_cases hname (.inr rfl) (Parties.run_right h) hes (requests_of_phase hphase) hr with
    ⟨es₁, past, i, es₂, t, heq, ht, hlength, hserves⟩ | ⟨src, others, hsrc, hconf⟩
  · obtain ⟨r', tr, hr', hstores, hbs⟩ := hserves.stores (carries_sent hphase)
    obtain rfl : r = r' := Session.receiver.inj hr'
    have hputs : U.Puts F x := by
      cases hphase with
      | failed hs | asking _ hs =>
        rw [hs] at hx
        cases hx
      | going hs hx' _ _ =>
        obtain ⟨x', rfl, hputs⟩ := hx'
        rwa [Session.sender.inj (Option.some.inj (hx.symm.trans hs))]
    obtain ⟨j, hj, hcontent, hgood⟩ := hstores.written
    have hcut : U.cut F c = fun i => (block F x.blocksize i).take r.blocksize := by
      funext i
      rw [cut, hx, hbs]
      rfl
    rw [hcut] at hcontent
    refine ⟨by rw [hbs]; exact hputs.blocksize, es₁, past, i, es₂, t, heq, ht, hlength, j, hj, hgood, hcontent,
      fun hle => ?_⟩
    have hwhole : (fun i => (block F x.blocksize i).take r.blocksize) = block F x.blocksize := by
      funext i
      exact List.take_of_length_le ((length_block_le F x.blocksize i).trans hle)
    rw [hcontent, hwhole, flatMap_block]
    rfl
  · exact absurd (hconf.confines.peer.symm.trans hpeer) hsrc

/-- A call for the upload of a file in blocks of eight bytes. -/
def eights : Call where
  hosts := ⟨⟨1, 1⟩, fun k => if k = .listen then ⟨2, 69⟩ else ⟨2, 70⟩⟩
  filename := [102]
  IN_optionVals := { mBlocksize := some 8 }
  clientRoot := TftpServer.slash
  serverRoot := TftpServer.slash
  clientOs := longFiles
  serverOs := TftpServer.oneFile

/-- A file that has a byte. -/
def oneByte : OStream where
  writes := [([9], true)]

/-- The server's file has got a byte before the request arrives, and the ACK of the request
    arrives before the OACK. -/
def overtaken : List (ClientEvent ⊕ HostEvent) := [
  .inr (.changes { TftpServer.oneFile with output := fun _ => oneByte }),
  .inr (.server (.listen [] (.deliver ⟨1, 1⟩ (eights.request .wrq).wire))), .inr (.server (.listen [] (.runReceive 0))),
  .inl (.request [] (.deliver ⟨2, 70⟩ (ackOf 0))), .inl (.request [] (.runReceive 0)),
  .inr (.server (.session 0 (.sendCompletes .success))), .inr (.server (.session 0 (.runSend 0))),
  .inr (.server (.session 0 (.deliver ⟨1, 1⟩ (dataOf longFile 512 1)))), .inr (.server (.session 0 (.runReceive 0))),
  .inl (.session (.sendCompletes .success)), .inl (.session (.runSend 0)),
  .inl (.session (.deliver ⟨2, 70⟩ (ackOf 1))), .inl (.session (.runReceive 0)),
  .inr (.server (.session 0 (.sendCompletes .success))), .inr (.server (.session 0 (.runSend 0))),
  .inr (.server (.session 0 (.deliver ⟨1, 1⟩ (dataOf longFile 512 2)))), .inr (.server (.session 0 (.runReceive 0)))]

/-- Then the blocks are cut, and what is appended is not the beginning of the client's file. -/
theorem upload_intact_overtaken : ∃ c s x r,
    (eights.system .wrq).run (eights.client .wrq, eights.server) overtaken = some (c, s) ∧
      c.session = some (.sender x) ∧ s.sessions[0]? = some (.receiver r) ∧
      r.output.content = [9] ++ (List.replicate 8 1 ++ [2]) ∧
      (x.blocksize = r.blocksize ∨ x.blocksize = defaultBlocksize) ∧
      ∃ es₁ past i es₂ t, Parties.rights overtaken = es₁ ++ .server (.listen past (.runReceive i)) :: es₂ ∧
        (TftpServer.system eights.serverOs eights.serverRoot).run eights.server es₁ = some t ∧ t.sessions.length = 0 ∧
      ∃ j ≤ r.lastreceiveddatacount.toNat, (r.output.fail = false → j = r.lastreceiveddatacount.toNat) ∧
        r.output.content = (t.os.output eights.serverPath).content ++
          (List.range j).flatMap (fun i => (block longFile x.blocksize i).take r.blocksize) ∧
        (x.blocksize ≤ r.blocksize →
          r.output.content = (t.os.output eights.serverPath).content ++ longFile.take (j * x.blocksize)) := by
  have hlook : ((eights.system .wrq).run (eights.client .wrq, eights.server) overtaken).map
      (fun y => (y.1.session.map Session.isSender, y.2.sessions[0]?.map fun x => (x.isSender, x.correspondents.peer,
        match x with
        | .receiver r => r.output.content
        | .sender _ => []))) = some (some true, some (false, ⟨1, 1⟩, [9] ++ (List.replicate 8 1 ++ [2]))) := by
    decide +kernel
  obtain ⟨⟨c, s⟩, hrun, heq⟩ := Option.map_eq_some_iff.1 hlook
  obtain ⟨hclient, hserver⟩ := Prod.mk.inj heq
  obtain ⟨x, hx, hsender⟩ := Option.map_eq_some_iff.1 hclient
  obtain ⟨y, hy, heq⟩ := Option.map_eq_some_iff.1 hserver
  cases x with
  | receiver _ => cases hsender
  | sender x =>
    cases y with
    | sender _ => cases (Prod.mk.inj heq).1
    | receiver r =>
      obtain ⟨hpeer, hcontent⟩ := Prod.mk.inj (Prod.mk.inj heq).2
      exact ⟨c, s, x, r, hrun, hx, hy, hcontent, upload_intact eights (by decide) rfl hrun hx hy hpeer⟩

end Call

end Ttftp

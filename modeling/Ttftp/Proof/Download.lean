/-
  A download in an open network (`download_intact`).

  All sessions that are started for the request send the blocks of one file, in the block
  size of one OACK (`Supply`).  So it makes no difference to the receiver from which of them
  a block comes, how often, and when: it writes the blocks in their order.
-/
import Ttftp.Proof.Integrity
import Ttftp.Proof.Service

namespace Ttftp

open Bytes Asio

/-- The blocks with the numbers `1, …, j` are the beginning of the file. -/
theorem flatMap_block (F : Bytes) (n j : ℕ) : (List.range j).flatMap (block F n) = F.take (j * n) := by
  induction j with
  | zero => simp
  | succ j ih =>
    have hblock : (List.range (j + 1)).flatMap (block F n) = F.take (j * n) ++ block F n j := by
      rw [List.range_succ, List.flatMap_append, ih, List.flatMap_singleton]
    rw [hblock, block, Nat.succ_mul, List.take_add]

/-- A datagram of a file carries its block. -/
theorem carries_dataOf (F : Bytes) (bs : ℕ) {i : ℕ} (hi : i ≤ 65535) :
    Carries (block F bs) bs (dataOf F bs i) := by
  have hlen := length_block_le F bs (i - 1)
  have hmsg : Reception.message bs (dataOf F bs i) =
      (true, { DataMessage.new bs with mBlockNr := UInt16.ofNat i, mData := block F bs (i - 1) }) := by
    rw [Reception.message, List.take_of_length_le, dataOf, DataMessage.decode_dataBytes]
    · exact if_pos hlen
    · rw [dataOf, length_dataBytes, controlBytes]
      omega
  intro _
  rw [hmsg, UInt16.toNat_ofNat', Nat.mod_eq_of_lt (by omega)]

/-- What is no DATA message carries nothing. -/
theorem carries_of_opcode {payload : ℕ → Bytes} {bs : ℕ} {d : Bytes}
    (h : ntohs d 0 ≠ TftpOpcode.data.toUInt16) : Carries payload bs d :=
  fun hm => absurd (DataMessage.opcode (by rw [controlBytes]; omega) hm) h

namespace Call
variable (U : Call)

/-! ## The server -/

/-- What the server sends to the client of the file `F`, up to block `n`. -/
inductive Supply (F : Bytes) (n : ℕ) (d : Bytes) : Prop
  | oack : (U.hosts.client, d) ∈ (U.params .rrq).sent → Supply F n d
  | data {i : ℕ} : 1 ≤ i → i ≤ n → d = dataOf F (U.params .rrq).blocksize_to_use i → Supply F n d
  | error : IsErrorMessage d → Supply F n d

/-- The number of the block that is sent without an ACK: an OACK is to be acknowledged. -/
def first : ℕ := if (U.params .rrq).sent = [] then 1 else 0

variable {U} {F : Bytes}

theorem served_supplies (hF : U.serverOs.content U.serverPath = some F) {os : OperatingSystem}
    (hos : U.Finds .rrq os) : ∃ s n₀, U.served .rrq os = .sender s ∧
      n₀ ≤ U.first ∧ s.Supplies F (U.params .rrq).blocksize_to_use n₀ U.hosts.client (U.params .rrq).sent [] := by
  obtain ⟨hbs, hbs'⟩ := U.params_blocksize .rrq
  have hserved : U.served .rrq os = .sender (Tftpsender.newConnected { started := true, wire := (U.params .rrq).sent }
      (.ofFile (some F)) U.hosts.client (U.params .rrq).expected_ack (U.params .rrq).blocksize_to_use
      (U.params .rrq).timeout_to_use).start := by
    rw [← hF, ← (of_decide_eq_true (hos rfl)).1]
    rfl
  have hsent : dataSent (U.params .rrq).sent = [] ∧
      ((U.params .rrq).expected_ack = 0 ∨ (U.params .rrq).expected_ack = 1 ∧ (U.params .rrq).sent = []) := by
    rcases U.params_cases .rrq with heq | ⟨v, -, hsent, hack, -⟩
    · rw [heq]
      exact ⟨rfl, .inr ⟨rfl, rfl⟩⟩
    · refine ⟨?_, .inl hack⟩
      rw [hsent, dataSent, List.map_singleton, List.filter_eq_nil_iff]
      intro d hd
      rw [List.mem_singleton.1 hd, TransactionOptionValues.opcode_oackBytes]
      decide
  obtain ⟨n₀, hn₀, hs⟩ := @Tftpsender.Supplies.start F _ U.hosts.client _ _ (U.params .rrq).timeout_to_use hbs hbs'
    (hsent.2.imp_right And.left) hsent.1
  refine ⟨_, n₀, hserved, hn₀.trans ?_, hs⟩
  rcases hsent.2 with hack | ⟨hack, hnil⟩
  · rw [hack]
    exact Nat.zero_le _
  · rw [hack, first, if_pos hnil]
    decide

/-- A session that serves the request sends the blocks of the file. -/
theorem Serves.supplies (hF : U.serverOs.content U.serverPath = some F) {c : TftpClient} {os : OperatingSystem} {l : ℕ}
    {x : Session} (h : U.Serves .rrq c os l x) : ∃ s n₀ tr, x = .sender s ∧ n₀ ≤ U.first ∧
      s.Supplies F (U.params .rrq).blocksize_to_use n₀ U.hosts.client (U.params .rrq).sent tr ∧
        ∀ d, (U.hosts.client, d) ∈ datagrams tr → (U.hosts.server (.session l), d) ∈ c.wire := by
  obtain ⟨hbs, hbs'⟩ := U.params_blocksize .rrq
  obtain ⟨es, hrun, hheard, hsame⟩ := h.run
  obtain ⟨s₀, n₀, hserved, hn₀, hs₀⟩ := served_supplies hF h.finds
  rw [hserved] at hrun
  have hkeep : ∀ content, .rewritten content ∈ es → content = F := fun content hc =>
    (Option.some.inj ((hsame rfl content hc).symm.trans hF))
  obtain ⟨s, tr, rfl, hs, htr⟩ := Session.run_supplies hs₀ hbs hbs' hkeep hrun
  refine ⟨s, n₀, tr, rfl, hn₀, hs, fun d hd => hheard d ?_⟩
  rw [htr] at hd
  obtain ⟨e, he, hed⟩ := List.mem_filterMap.1 ((List.mem_append.1 hd).resolve_left List.not_mem_nil)
  cases e with
  | rewritten _ => cases hed
  | socket e =>
    cases e with
    | deliver src d' =>
      obtain ⟨rfl, rfl⟩ := Prod.mk.inj (Option.some.inj hed)
      exact he
    | _ => cases hed

/-- **The datagrams for the client** are genuine; and as long as the client has not sent any ACK,
    block 1 is the only one, if any. -/
theorem supply (hname : NulFree U.filename) (hF : U.serverOs.content U.serverPath = some F) {es : List HostEvent}
    {s : TftpServer} (hrun : (TftpServer.system U.serverOs U.serverRoot).run U.server es = some s) {c : TftpClient}
    (hes : ∀ e ∈ es, U.allowsServer .rrq c s e = true) (hw : U.Requests .rrq c.wire) {n : ℕ}
    (hn : n = 65535 ∨ n = U.first ∧ ∀ p ∈ c.wire, ntohs p.2 0 ≠ TftpOpcode.ack.toUInt16)
    {k : ServerSocket} {d : Bytes} (hd : (U.hosts.client, d) ∈ s.wireAt k) : U.Supply F n d := by
  rcases service hname (.inl rfl) hrun hes hw hd with herr | ⟨os, l, x, hx, hserves⟩
  · exact .error herr
  · obtain ⟨s', n₀, tr, rfl, hn₀, hs', hheard⟩ := hserves.supplies hF
    obtain ⟨m, hsends, hlast⟩ := hs'.blocks
    rcases hsends.sent_cases hx with hoack | herr | ⟨i, h1, hi, hdata⟩
    · exact .oack hoack
    · exact .error herr
    · refine .data h1 (hi.trans ?_) hdata
      rcases hn with rfl | ⟨rfl, hnone⟩
      · exact hsends.disciplined.sent.bound
      · rcases hlast with rfl | ⟨d', hd', hop⟩
        · exact hn₀
        · exact absurd hop (hnone (U.hosts.server (.session l), d') (hheard d' hd'))

theorem Supply.carries {d : Bytes} (h : U.Supply F 65535 d) :
    Carries (block F (U.params .rrq).blocksize_to_use) (U.params .rrq).blocksize_to_use d := by
  cases h with
  | oack hd => exact carries_of_opcode (by rw [opcode_sent hd]; decide)
  | @data i _ hi hd =>
    rw [hd]
    exact carries_dataOf F _ hi
  | error hd => exact carries_of_opcode (by rw [hd.opcode]; decide)

/-! ## The client -/

/-- The content of the client's file before the call. -/
def before (U : Call) : Bytes := (U.clientOs.output U.clientPath).content

/-- The receiver of the client writes the blocks of `F`; apart from ACKs it has sent the request. -/
structure Fetches (U : Call) (F : Bytes) (r : TftpReceiver) : Prop where
  stores : ∃ w tr, r.Stores (block F (U.params .rrq).blocksize_to_use) U.before w tr ∧
    ∀ p ∈ w, U.Asks .rrq p ∨ IsErrorMessage p.2
  blocksize : r.blocksize = (U.params .rrq).blocksize_to_use

def Fetching (U : Call) (F : Bytes) (x : Session) : Prop := ∃ r, x = .receiver r ∧ U.Fetches F r

/-- A receiver that is started by the client. -/
theorem Fetches.start {r : TftpReceiver} (hwf : r.WellFormed) (hstarted : r.io.started = true) (ht : r.io.tokens = 0)
    (hbs : r.blocksize = (U.params .rrq).blocksize_to_use)
    (hw : Written (block F (U.params .rrq).blocksize_to_use) U.before r.output r.lastreceiveddatacount.toNat)
    (hwire : ∀ p ∈ r.io.wire, U.Asks .rrq p ∨ IsErrorMessage p.2) : U.Fetches F r.start :=
  ⟨⟨_, [], .start hwf hstarted ht hw, hwire⟩, (TftpReceiver.Posts.start r).view.blocksize.trans hbs⟩

theorem Fetches.step {r r' : TftpReceiver} {e : Event Endpoint} (h : U.Fetches F r)
    (he : ∀ x ∈ e.datagram, r.Trusts (block F (U.params .rrq).blocksize_to_use) x.1 x.2)
    (hstep : TftpReceiver.proactor.step r e = some r') : U.Fetches F r' := by
  obtain ⟨w, tr, hstores, hw⟩ := h.stores
  have hbs := (TftpReceiver.posting.step trivial hstep).1.blocksize
  refine ⟨⟨w, _, hstores.step he hstep, hw⟩, (hbs.trans ?_).trans h.blocksize⟩
  cases e <;> rfl

/-- What it has sent. -/
theorem Fetches.sent {r : TftpReceiver} (h : U.Fetches F r) {p : Endpoint × Bytes} (hp : p ∈ r.io.wire) :
    U.Asks .rrq p ∨ IsAckMessage p.2 ∨ IsErrorMessage p.2 := by
  obtain ⟨w, tr, hstores, hw⟩ := h.stores
  exact (hstores.wire p hp).elim (fun hp => (hw p hp).imp_right .inr) .inr

theorem written_zero {payload : ℕ → Bytes} (o : OStream) : Written payload o.content o 0 :=
  ⟨0, le_rfl, by simp, fun _ => rfl⟩

/-- An answer that the server gives before any ACK leads to such a receiver. -/
theorem fetching_of_opens {past d : Bytes} {c : TftpClient} {x : Session} (hframe : U.Frame .rrq c)
    (hwire : ∀ p ∈ c.io.wire, U.Asks .rrq p ∨ IsErrorMessage p.2) (hd : U.Supply F U.first d)
    (hx : c.Opens past (d.take TftpClient.bufsize) x) : U.Fetching F x := by
  have hbefore : U.before = (c.os.output c.filepath).content := by rw [before, hframe.os, hframe.filepath]
  have h2 : 2 ≤ TftpClient.bufsize := by decide
  cases hx with
  | oackWrite hr | ack hr => exact absurd hframe.requestType hr
  | @oackRead oack v _ hoack hv =>
    have hop := OptionACKMessage.opcode h2 hoack
    cases hd with
    | data _ _ hd =>
      rw [hd, dataOf, ntohs_dataBytes] at hop
      exact absurd hop (by decide)
    | error hd =>
      rw [hd.opcode] at hop
      exact absurd hop (by decide)
    | oack hd =>
      refine ⟨_, rfl, .start ⟨rfl, List.length_replicate⟩ rfl rfl ?_ ?_ hwire⟩
      · exact (blocksize_of_oack hd hoack hv).symm
      · rw [hbefore]
        exact written_zero _
  | @data msg hr hdec hf =>
    have hop := DataMessage.opcode h2 (congrArg Prod.fst hdec)
    cases hd with
    | oack hd =>
      rw [opcode_sent hd] at hop
      exact absurd hop (by decide)
    | error hd =>
      rw [hd.opcode] at hop
      exact absurd hop (by decide)
    | @data i h1 hi hd =>
      -- without an OACK the block size is the default
      have hnil : (U.params .rrq).sent = [] := by
        by_contra hne
        rw [first, if_neg hne] at hi
        omega
      have hparams : U.params .rrq = {} := by
        refine (U.params_cases .rrq).resolve_right ?_
        rintro ⟨v', -, hsent, -, -⟩
        rw [hsent] at hnil
        cases hnil
      have hbs : (U.params .rrq).blocksize_to_use = defaultBlocksize := by rw [hparams]
      obtain rfl : i = 1 := by
        rw [first, if_pos hnil] at hi
        omega
      have hlen := length_block_le F defaultBlocksize 0
      have hmsg : msg.mData = block F defaultBlocksize 0 := by
        rw [hd, hbs, dataOf, List.take_of_length_le, DataMessage.decode_dataBytes] at hdec
        · exact congrArg (fun r => r.2.mData) (hdec.symm.trans (if_pos hlen))
        · rw [length_dataBytes]
          exact (Nat.add_le_add_right hlen 4).trans (by decide)
      have hr' : TftpReceiver.newConnectedData1 c.sock (c.os.output c.filepath) c.mServerEndpoint msg defaultBlocksize
          retransmissionTime = { TftpReceiver.newConnected c.sock (c.os.output c.filepath) c.mServerEndpoint
            defaultBlocksize retransmissionTime with
          output := (c.os.output c.filepath).write msg.mData
          lastreceiveddatacount := 1 } := if_neg (by rw [← Bool.not_eq_true] at hf; exact hf)
      rw [hr']
      refine ⟨_, rfl, .start ⟨rfl, List.length_replicate⟩ rfl rfl hbs.symm ?_ hwire⟩
      rw [hbefore, hmsg, hbs]
      exact (written_zero _).write

/-- The receiver that is started at once has no block size to agree on. -/
theorem fetching_direct (hdef : (U.options .rrq).isDefault = true) {c : TftpClient} (hframe : U.Frame .rrq c)
    (hwire : ∀ p ∈ c.io.wire, U.Asks .rrq p ∨ IsErrorMessage p.2) : U.Fetching F (direct .rrq c) := by
  refine ⟨_, rfl, .start ⟨rfl, List.length_replicate⟩ rfl rfl ?_ ?_ hwire⟩
  · rw [params_default hdef]
    rfl
  · rw [before, ← hframe.os, ← hframe.filepath]
    exact written_zero _

/-! ## Both -/

/-- What the client has sent. -/
theorem wire_of_phase {answer : Bytes → Prop} {c : TftpClient} (h : U.Phase .rrq answer (U.Fetching F) c) :
    (∀ p ∈ c.wire, U.Asks .rrq p ∨ IsAckMessage p.2 ∨ IsErrorMessage p.2) ∧
      (c.session = none → ∀ p ∈ c.wire, U.Asks .rrq p ∨ IsErrorMessage p.2) := by
  have hnone : c.session = none → c.wire = c.io.wire := fun hs => by rw [TftpClient.wire, hs]; rfl
  cases h with
  | failed hs hw _ =>
    rw [hnone hs, hw]
    exact ⟨fun p hp => (by cases hp), fun _ p hp => by cases hp⟩
  | asking _ hs _ hw _ _ =>
    rw [hnone hs]
    exact ⟨fun p hp => (hw p hp).imp_right .inr, fun _ => hw⟩
  | going hs hx _ _ =>
    obtain ⟨r, rfl, hr⟩ := hx
    refine ⟨?_, fun hn => by rw [hs] at hn; cases hn⟩
    rw [TftpClient.wire, hs]
    exact fun p => hr.sent

/-- The client has sent no other request. -/
theorem requests_of_wire {w : List (Endpoint × Bytes)}
    (h : ∀ p ∈ w, U.Asks .rrq p ∨ IsAckMessage p.2 ∨ IsErrorMessage p.2) : U.Requests .rrq w := by
  intro p hp hop
  rcases h p hp with hasks | hack | herr
  · exact hasks
  · rcases hop with hop | hop <;> exact absurd (hop.symm.trans hack.opcode) (by decide)
  · rcases hop with hop | hop <;> exact absurd (hop.symm.trans herr.opcode) (by decide)

/-- One step of the client. -/
theorem download_step (hname : NulFree U.filename) (hF : U.serverOs.content U.serverPath = some F)
    {es : List HostEvent} {s : TftpServer}
    (hrun : (TftpServer.system U.serverOs U.serverRoot).run U.server es = some s) {c c' : TftpClient}
    (hes : ∀ e ∈ es, U.allowsServer .rrq c s e = true)
    (hphase : U.Phase .rrq (U.Supply F U.first) (U.Fetching F) c) {e : ClientEvent}
    (hallow : U.hosts.reachesClient c s e.event = true) (hstep : c.step e = some c') :
    U.Phase .rrq (U.Supply F U.first) (U.Fetching F) c' ∧ ∃ w, c'.wire = c.wire ++ w := by
  obtain ⟨hwire, hasking⟩ := wire_of_phase hphase
  have hreq : U.Requests .rrq c.wire := requests_of_wire hwire
  -- what arrives from the server is genuine
  have hsupply : ∀ {n : ℕ}, (n = 65535 ∨ n = U.first ∧ ∀ p ∈ c.wire, ntohs p.2 0 ≠ TftpOpcode.ack.toUInt16) →
      ∀ src d, e.event = .deliver src d → (∃ peer, c.peer? = some peer ∧ peer ≠ src) ∨ U.Supply F n d := by
    intro n hn src d he
    rw [he] at hallow
    refine (U.hosts.reachesClient_deliver.1 hallow).imp_right ?_
    rintro ⟨k, -, -, hd⟩
    exact supply hname hF hrun hes hreq hn hd
  refine hphase.step (fun past d c x hframe hwire hd hx => fetching_of_opens hframe hwire hd hx) ?_ ?_ ?_ hstep
  · -- the client has sent its request, and maybe errors
    intro hnone src d he
    refine (hsupply (.inr ⟨rfl, fun p hp hop => ?_⟩) src d he).resolve_left ?_
    · obtain ⟨rfl, -⟩ | herr := hasking hnone p hp
      · rw [opcode_request] at hop
        exact absurd hop (by decide)
      · exact absurd (hop.symm.trans herr.opcode) (by decide)
    · rintro ⟨peer, hpeer, -⟩
      rw [TftpClient.peer?, hnone] at hpeer
      cases hpeer
  · rintro x ⟨r, rfl, hr⟩
    obtain ⟨w, tr, hstores, -⟩ := hr.stores
    exact hstores.wf
  · rintro x x' e' hx ⟨r, rfl, hr⟩ rfl hx'
    obtain ⟨r', hr', rfl⟩ := Option.map_eq_some_iff.1 hx'
    refine ⟨r', rfl, hr.step ?_ hr'⟩
    rintro ⟨src, d⟩ hd
    cases e' with
    | deliver src' d' =>
      cases hd
      rcases hsupply (.inl rfl) src d rfl with ⟨peer, hpeer, hne⟩ | hd
      · rw [TftpClient.peer?, hx] at hpeer
        obtain ⟨hconn, hsender⟩ := Option.ite_none_right_eq_some.1 hpeer
        rw [← Option.some.inj hsender] at hne
        exact .inr ⟨hconn, hne.symm⟩
      · rw [TftpReceiver.Trusts, hr.blocksize]
        exact .inl hd.carries
    | _ => cases hd

/-- **A download keeps the file intact.**  In every run of client and server in an open network,
    whatever is lost, repeated, delayed or reordered, the receiver has appended the first `j`
    blocks of the server's file to its own one; these are all that it has accepted, unless the
    stream has failed.  Its block size is that of every session that serves the client.  Others
    may send to the server what they like, and to the client once it knows its peer; and of
    the server's files only this one has to stay as it is. -/
theorem download_intact (U : Call) (hname : NulFree U.filename) {F : Bytes}
    (hF : U.serverOs.content U.serverPath = some F) {es : List (ClientEvent ⊕ HostEvent)} {c : TftpClient}
    {s : TftpServer} (h : (U.system .rrq).run (U.client .rrq, U.server) es = some (c, s)) {r : TftpReceiver}
    (hr : c.session = some (.receiver r)) :
    (∀ (n : ℕ) x, s.sessions[n]? = some x → x.peer? = some U.hosts.client → x.blocksize = r.blocksize) ∧
      ∃ j ≤ r.lastreceiveddatacount.toNat,
        r.output.content = (U.clientOs.output U.clientPath).content ++ F.take (j * r.blocksize) ∧
          (r.output.fail = false → j = r.lastreceiveddatacount.toNat) := by
  have hinit : U.Phase .rrq (U.Supply F U.first) (U.Fetching F) (U.client .rrq) :=
    .init hname (.inl rfl) fun hdef c hframe hwire => fetching_direct hdef hframe hwire
  obtain ⟨hphase, hes⟩ := Parties.run_inv (U.Phase .rrq (U.Supply F U.first) (U.Fetching F)) hinit
    (fun es c s e c' hrun hes hphase hallow hstep => by
      obtain ⟨hphase', w, hw⟩ := download_step hname hF (Parties.run_right hrun) hes hphase hallow hstep
      exact ⟨hphase', fun b hb => allowsServer_client hw hb⟩)
    (fun es c s e s' b hrun hs hb => allowsServer_server (Parties.run_right hrun) hs hb) h
  have hreq := requests_of_wire (wire_of_phase hphase).1
  cases hphase with
  | failed hs | asking _ hs =>
    rw [hs] at hr
    cases hr
  | going hs hx _ _ =>
    obtain ⟨r', rfl, hfetches⟩ := hx
    obtain rfl : r' = r := Session.receiver.inj (Option.some.inj (hs.symm.trans hr))
    obtain ⟨w, tr, hstores, -⟩ := hfetches.stores
    obtain ⟨j, hj, hcontent, hgood⟩ := hstores.written
    refine ⟨fun n x hn hpeer => ?_, j, hj, ?_, hgood⟩
    · rcases session_cases hname (.inl rfl) (Parties.run_right h) hes hreq hn with
        ⟨_, _, _, _, _, -, -, -, hserves⟩ | ⟨src, others, hsrc, hconf⟩
      · obtain ⟨x, n₀, tr', rfl, -, hsupplies, -⟩ := hserves.supplies hF
        obtain ⟨m, hsends, -⟩ := hsupplies.blocks
        exact hsends.disciplined.blocksize.trans hfetches.blocksize.symm
      · exact absurd (hconf.confines.peer.symm.trans (Session.peer?_eq_some_iff.1 hpeer).2) hsrc
    · rw [hcontent, flatMap_block, hfetches.blocksize]
      rfl

/-- A file of one large block and one byte. -/
def longFile : Bytes := List.replicate 512 1 ++ [2]

/-- Every file is that one. -/
def longFiles : OperatingSystem := { TftpServer.oneFile with
  content := fun _ => some longFile
  fileSize := fun _ => 513 }

/-- A call for the file `f`, without options. -/
def plain : Call where
  hosts := ⟨⟨1, 1⟩, fun k => if k = .listen then ⟨2, 69⟩ else ⟨2, 70⟩⟩
  filename := [102]
  IN_optionVals := {}
  clientRoot := TftpServer.slash
  serverRoot := TftpServer.slash
  clientOs := TftpServer.oneFile
  serverOs := longFiles

/-- The request arrives twice, another file disappears, and block 1 arrives from one session,
    block 2 from the other. -/
def plainRead : List (ClientEvent ⊕ HostEvent) := [
  .inr (.server (.listen [] (.deliver ⟨1, 1⟩ (plain.request .rrq).wire))), .inr (.server (.listen [] (.runReceive 0))),
  .inr (.changes { longFiles with content := fun name => if name = ascii "/g" then none else some longFile }),
  .inr (.server (.listen [] (.deliver ⟨1, 1⟩ (plain.request .rrq).wire))), .inr (.server (.listen [] (.runReceive 0))),
  .inl (.session (.deliver ⟨2, 70⟩ (dataOf longFile 512 1))), .inl (.session (.runReceive 0)),
  .inl (.session (.sendCompletes .success)), .inl (.session (.runSend 0)),
  .inr (.server (.session 1 (.sendCompletes .success))), .inr (.server (.session 1 (.runSend 0))),
  .inr (.server (.session 1 (.deliver ⟨1, 1⟩ (ackOf 1)))), .inr (.server (.session 1 (.runReceive 0))),
  .inl (.session (.deliver ⟨2, 70⟩ (dataOf longFile 512 2))), .inl (.session (.runReceive 0))]

theorem download_intact_plain : ∃ c s r,
    (plain.system .rrq).run (plain.client .rrq, plain.server) plainRead = some (c, s) ∧ c.session = some (.receiver r) ∧
    r.output.content = longFile ∧
    (∀ (n : ℕ) x, s.sessions[n]? = some x → x.peer? = some plain.hosts.client → x.blocksize = r.blocksize) ∧
      ∃ j ≤ r.lastreceiveddatacount.toNat,
        r.output.content = (plain.clientOs.output plain.clientPath).content ++ longFile.take (j * r.blocksize) ∧
          (r.output.fail = false → j = r.lastreceiveddatacount.toNat) := by
  have hlook : ((plain.system .rrq).run (plain.client .rrq, plain.server) plainRead).map
      (fun y => y.1.session.map fun x => (x.isSender, match x with
        | .receiver r => r.output.content
        | .sender _ => [])) = some (some (false, longFile)) := by decide +kernel
  obtain ⟨⟨c, s⟩, hrun, hsession⟩ := Option.map_eq_some_iff.1 hlook
  obtain ⟨x, hx, heq⟩ := Option.map_eq_some_iff.1 hsession
  cases x with
  | sender _ => cases (Prod.mk.inj heq).1
  | receiver r =>
    exact ⟨c, s, r, hrun, hx, (Prod.mk.inj heq).2, download_intact plain (by decide) rfl hrun hx⟩

end Call

end Ttftp

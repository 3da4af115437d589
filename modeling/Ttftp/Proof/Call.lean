/-
  A call of the client's `start`, up to the session that it leads to.

  `request` is what the client asks for, `Frame` what it remembers of the call, and `Opens`
  the sessions that an answer may lead to.  `Phase` is the invariant of a client in any
  environment: it waits for an answer, or it has a session; what answers there may be, and
  what holds of the session, are its parameters (`Phase.step`).
-/
import Ttftp.Lib.Inbox
import Ttftp.OpenNetwork
import Ttftp.Proof.Correspondents
import Ttftp.Proof.Resolution

namespace Ttftp

open Bytes Asio

namespace TftpClient

/-! ## The handlers -/

/-- No session is started, and at most an error is sent. -/
structure Declines (c c' : TftpClient) : Prop where
  os : c'.os = c.os
  requestType : c'.requestType = c.requestType
  filepath : c'.filepath = c.filepath
  buffer : c'.mRecvBuffer = c.mRecvBuffer
  session : c'.session = c.session
  wire : ∃ w, c'.io.wire = c.io.wire ++ w ∧ ∀ p ∈ w, IsErrorMessage p.2

namespace Declines
variable {c c' c'' : TftpClient}

theorem quiet (hos : c'.os = c.os) (ht : c'.requestType = c.requestType) (hp : c'.filepath = c.filepath)
    (hb : c'.mRecvBuffer = c.mRecvBuffer) (hs : c'.session = c.session) (hw : c'.io.wire = c.io.wire) :
    Declines c c' :=
  ⟨hos, ht, hp, hb, hs, [], by rw [hw, List.append_nil], fun p hp => by cases hp⟩

theorem refl (c : TftpClient) : Declines c c := quiet rfl rfl rfl rfl rfl rfl

theorem trans (h : Declines c c') (h' : Declines c' c'') : Declines c c'' := by
  obtain ⟨w, hw, hm⟩ := h.wire
  obtain ⟨w', hw', hm'⟩ := h'.wire
  exact ⟨h'.os.trans h.os, h'.requestType.trans h.requestType, h'.filepath.trans h.filepath,
    h'.buffer.trans h.buffer, h'.session.trans h.session, w ++ w', by rw [hw', hw, List.append_assoc],
    fun p hp => (List.mem_append.1 hp).elim (hm p) (hm' p)⟩

theorem io (io : Io Unit Endpoint) (hw : io.wire = c.io.wire) : Declines c { c with io := io } :=
  quiet rfl rfl rfl rfl rfl hw

theorem release (c : TftpClient) : Declines c c.release := by
  unfold TftpClient.release
  split_ifs
  · exact io _ rfl
  · exact refl c

theorem onOackTimeout (err : ErrorCode) (c : TftpClient) : Declines c (c.onOackTimeout err) := by
  unfold TftpClient.onOackTimeout Io.cancel
  split_ifs
  · exact refl c
  · exact io _ rfl
  · exact quiet rfl rfl rfl rfl rfl rfl

end Declines

/-- The handler of the answer declines it, or opens a session. -/
theorem handleAnswer_cases (past : Bytes) (err : ErrorCode) (n : ℕ) (c : TftpClient) :
    Declines c (c.handleAnswer past err n) ∨ err = .success ∧ ∃ x, Opens past (c.mRecvBuffer.take n) c x ∧
      c.handleAnswer past err n = { c with io := c.io.timerCancel }.startSession x := by
  have hcancel : Declines c { c with io := c.io.timerCancel } := .io _ rfl
  have hdone : ∀ code, Declines c ({ c with io := c.io.timerCancel }.onDone code) := fun _ =>
    hcancel.trans (.quiet rfl rfl rfl rfl rfl rfl)
  have hthrew : ∀ e, Declines c { c with io := c.io.timerCancel, threw := some e } := fun _ =>
    .quiet rfl rfl rfl rfl rfl rfl
  unfold handleAnswer
  dsimp only
  split_ifs with he ho
  · have hoack : OptionACKMessage.decode past {} (c.mRecvBuffer.take n) = (true, _) := Prod.ext ho rfl
    unfold handleOack
    split
    · exact .inl (hthrew _)
    · rename_i v hv
      split_ifs with hr
      · unfold acceptOack_RRQ
        split
        · exact .inr ⟨he, _, .oackRead hr hoack hv, rfl⟩
        · split
          · exact .inl (hthrew _)
          · split_ifs
            · exact .inl hcancel
            · exact .inr ⟨he, _, .oackRead hr hoack hv, rfl⟩
      · unfold acceptOack_WRQ
        split_ifs
        · exact .inl hcancel
        · exact .inr ⟨he, _, .oackWrite hr hoack hv, rfl⟩
    · refine .inl ⟨rfl, rfl, rfl, rfl, rfl, _, c.io.timerCancel.asyncSendDetached_wire _ _, fun p hp => ?_⟩
      split_ifs at hp
      · rw [List.mem_singleton.1 hp]
        exact ⟨_, rfl⟩
      · cases hp
  · unfold handleOther
    dsimp only
    split_ifs with hr hd ht ha
    · exact .inl (hthrew _)
    · have hf : (c.os.output c.filepath).fail = false := by
        unfold TftpReceiver.newConnectedData1 at ht
        dsimp only at ht
        split_ifs at ht with hf
        · exact absurd rfl ht
        · exact Bool.eq_false_iff.2 hf
      exact .inr ⟨he, _, .data hr (Prod.ext hd rfl) hf, rfl⟩
    · exact .inl (hdone _)
    · exact .inr ⟨he, _, .ack hr ha, rfl⟩
    · exact .inl (hdone _)
  · exact .inl (hdone _)

/-- A session goes on with the socket of the request. -/
theorem Opens.wire {past d : Bytes} {c : TftpClient} {x : Session} (h : Opens past d c x) :
    ∃ w, x.wire = c.io.wire ++ w := by
  cases h with
  | oackRead _ _ _ =>
    obtain ⟨w, hw, -⟩ := (TftpReceiver.Posts.start _).wire
    exact ⟨w, hw⟩
  | oackWrite _ _ _ =>
    obtain ⟨w, hw, -⟩ := (Tftpsender.Posts.start (@Tftpsender.newConnected_wellFormed c.sock rfl _ _ _ _ _)).wire
    exact ⟨w, hw⟩
  | data _ _ hf =>
    obtain ⟨w, hw, -⟩ := (TftpReceiver.Posts.start _).wire
    refine ⟨w, hw.trans (congrArg (· ++ w) ?_)⟩
    unfold TftpReceiver.newConnectedData1
    dsimp only
    split_ifs <;> rfl
  | ack _ _ =>
    obtain ⟨w, hw, -⟩ := (Tftpsender.Posts.start (@Tftpsender.newConnected_wellFormed c.sock rfl _ _ _ _ _)).wire
    exact ⟨w, hw⟩

/-! ## One operation at a time -/

/-- The first `n` bytes of the datagram `d` from `src` are in the buffer. -/
structure Holds (src : Endpoint) (d : Bytes) (n : ℕ) (c : TftpClient) : Prop where
  source : c.mServerEndpoint = src
  bytes : c.mRecvBuffer.take n = d.take c.mRecvBuffer.length

section
variable (past : Bytes) (err : ErrorCode) (c : TftpClient)

theorem release_leaves : c.io.Leaves 0 c.release.io := by
  unfold release
  split_ifs
  · exact .close _
  · exact .refl _

theorem handleAnswer_leaves (n : ℕ) : c.io.Leaves 0 (c.handleAnswer past err n).io := by
  have h : c.io.Leaves 0 c.io.timerCancel := .timerCancel _
  have hstart : c.io.Leaves 0 c.io.timerCancel.close := (Io.Leaves.close _).after h
  unfold handleAnswer
  dsimp only
  split_ifs
  · unfold handleOack
    split
    · exact h
    · split_ifs
      · unfold acceptOack_RRQ
        split
        · exact hstart
        · split
          · exact h
          · split_ifs
            · exact h
            · exact hstart
      · unfold acceptOack_WRQ
        split_ifs
        · exact h
        · exact hstart
    · exact (Io.Leaves.asyncSendDetached _ _ _).after h
  · unfold handleOther
    dsimp only
    split_ifs
    · exact h
    · exact hstart
    · exact h
    · exact hstart
    · exact h
  · exact h

theorem onOackTimeout_leaves : c.io.Leaves 0 (c.onOackTimeout err).io := by
  unfold onOackTimeout Io.cancel
  split_ifs
  · exact .refl _
  · exact .abortAll _
  · exact .refl _

theorem holds_store (src : Endpoint) (d : Bytes) :
    (c.store src (d.take c.mRecvBuffer.length)).Holds src d (min d.length c.mRecvBuffer.length) := by
  obtain ⟨t, ht⟩ : ∃ t, t = d.take c.mRecvBuffer.length := ⟨_, rfl⟩
  have hl : t.length = min d.length c.mRecvBuffer.length := by rw [ht, List.length_take, min_comm]
  have hb : (t ++ c.mRecvBuffer.drop t.length).length = c.mRecvBuffer.length := by
    rw [List.length_append, List.length_drop]
    omega
  rw [← ht, ← hl]
  refine ⟨rfl, ?_⟩
  change (t ++ c.mRecvBuffer.drop t.length).take t.length = d.take (t ++ c.mRecvBuffer.drop t.length).length
  rw [List.take_left, hb, ht]

end

theorem single (past : Bytes) : Single (proactor past) Holds where
  io_setIo _ _ := rfl
  io_store _ _ _ := rfl
  capacity_setIo _ _ := rfl
  start c := (Io.Leaves.refl c.io).mono zero_le_one
  receive _ err n c := ((release_leaves _).after (handleAnswer_leaves past err c n)).mono zero_le_one
  sent _ _ c := (Io.Leaves.refl c.io).mono zero_le_one
  timer err c := (release_leaves _).after (onOackTimeout_leaves err c)
  holds_setIo _ _ _ _ _ h := ⟨h.source, h.bytes⟩
  holds_timer _ _ _ err c h := by
    change ((c.onOackTimeout err).release).Holds _ _ _
    have hsame : ∀ t : TftpClient, t.release.mServerEndpoint = t.mServerEndpoint ∧
        t.release.mRecvBuffer = t.mRecvBuffer := by
      intro t
      unfold release
      split_ifs <;> exact ⟨rfl, rfl⟩
    obtain ⟨h1, h2⟩ := hsame (c.onOackTimeout err)
    have h3 : (c.onOackTimeout err).mServerEndpoint = c.mServerEndpoint := by
      unfold onOackTimeout Io.cancel
      split_ifs <;> rfl
    have h4 := (Declines.onOackTimeout err c).buffer
    exact ⟨(h1.trans h3).trans h.source, by rw [h2, h4]; exact h.bytes⟩
  holds_store src d c := holds_store c src d

/-- The memory behind the message makes no difference to it. -/
theorem inbox_past {past past' : Bytes} {tr : List (TftpClient × Event Endpoint × TftpClient)} {c : TftpClient}
    (h : Inbox (proactor past) Holds tr c) : Inbox (proactor past') Holds tr c :=
  ⟨h.tokens, h.fresh, h.arrived⟩

end TftpClient

namespace Call
variable (U : Call) (requestType : TftpOpcode)

/-! ## The request -/

def options : TransactionOptionValues :=
  TftpClient.requestOptions (if requestType = .rrq then 0 else U.clientOs.fileSize U.clientPath) U.IN_optionVals

def request : RequestMessage :=
  TftpClient.requestMessage requestType U.filename (U.options requestType) .octet

/-- The request as a datagram, if it is short enough to be sent. -/
def Asks (p : Endpoint × Bytes) : Prop :=
  p = (U.hosts.server .listen, (U.request requestType).wire) ∧ (U.request requestType).messageLength ≤ 512

/-- What the client remembers of the call. -/
structure Frame (c : TftpClient) : Prop where
  os : c.os = U.clientOs
  requestType : c.requestType = requestType
  filepath : c.filepath = U.clientPath

/-- The session that is started at once, if the client does not ask for options. -/
def direct (c : TftpClient) : Session :=
  if requestType = .rrq then
    .receiver (TftpReceiver.new c.sock (c.os.output c.filepath) defaultBlocksize retransmissionTime).start
  else .sender (Tftpsender.new c.sock (.ofFile (c.os.content c.filepath)) 0 defaultBlocksize retransmissionTime).start

/-- The client waits for an answer, or has a session: `answer` are the datagrams that may
    arrive, and `good` the sessions. -/
inductive Phase (answer : Bytes → Prop) (good : Session → Prop) (c : TftpClient) : Prop
  | failed : c.session = none → c.io.wire = [] → c.threw.isSome = true → Phase answer good c
  | asking {tr : List (TftpClient × Event Endpoint × TftpClient)} : U.Frame requestType c → c.session = none →
      c.mRecvBuffer.length = TftpClient.bufsize → (∀ p ∈ c.io.wire, U.Asks requestType p ∨ IsErrorMessage p.2) →
      Inbox (TftpClient.proactor []) TftpClient.Holds tr c → (∀ x ∈ datagrams tr, answer x.2) → Phase answer good c
  | going {x : Session} : c.session = some x → good x → c.io.started = true → c.io.tokens = 0 → Phase answer good c

variable {U requestType} {answer : Bytes → Prop} {good : Session → Prop} {c c' : TftpClient}

theorem Frame.declines (h : U.Frame requestType c) (hd : c.Declines c') : U.Frame requestType c' :=
  ⟨hd.os.trans h.os, hd.requestType.trans h.requestType, hd.filepath.trans h.filepath⟩

/-- The client, before it sends the request. -/
def fresh (U : Call) (requestType : TftpOpcode) : TftpClient where
  os := U.clientOs
  mRootfolder := (U.clientOs.absolute U.clientRoot).getD []
  io := { started := true }
  mRecvBuffer := List.replicate TftpClient.bufsize 0
  requestType := requestType
  filepath := U.clientPath
  size_of_file := if requestType = .rrq then 0 else U.clientOs.fileSize U.clientPath

/-- What `start` does, up to the outcome of the encoding. -/
theorem client_eq (U : Call) (hk : requestType = .rrq ∨ requestType = .wrq)
    (habs : U.clientOs.absolute U.clientRoot ≠ none)
    (hspec : (U.hosts.server .listen).address.is_unspecified = false) {c : TftpClient}
    (hc : c = (U.fresh requestType).sendRequest (U.hosts.server .listen) (U.request requestType)
      (!(U.options requestType).isDefault)) : U.client requestType =
        if c.threw.isNone && (U.options requestType).isDefault then c.startSession (direct requestType c) else c := by
  subst hc
  obtain ⟨root, hroot⟩ := Option.ne_none_iff_exists'.1 habs
  have hpath : TftpClient.filepath ((U.fresh requestType).sendRequest (U.hosts.server .listen) (U.request requestType)
      (!(U.options requestType).isDefault)) = U.clientPath := by
    rcases (U.fresh requestType).sendRequest_cases (U.hosts.server .listen) (U.request requestType)
      (!(U.options requestType).isDefault) with ⟨e, heq⟩ | ⟨str, -, -, heq⟩
    · rw [heq]
      rfl
    · rw [heq]
      rfl
  rw [direct, hpath, fresh, client, TftpClient.start, clientPath, request, options, clientPath]
  simp only [TftpClient.new, hroot, hspec]
  rcases hk with rfl | rfl <;> rfl

theorem request_wellFormed (hname : NulFree U.filename) (hk : requestType = .rrq ∨ requestType = .wrq) :
    (U.request requestType).WellFormed := by
  refine ⟨hk, rfl, hname, ?_⟩
  unfold request TftpClient.requestMessage
  dsimp only
  split_ifs
  · exact fun k s h => by simp at h
  · exact TransactionOptionValues.nulFree_getOptionsAsMap _

/-- A request that is longer than 512 bytes is not sent. -/
theorem encode_tooLong (hk : requestType = .rrq ∨ requestType = .wrq)
    (hl : ¬ (U.request requestType).messageLength ≤ 512) :
    (U.request requestType).encode = .error .errInvalidMessageParameters := by
  rw [RequestMessage.encode, if_neg, if_pos (not_le.1 hl)]
  rcases hk with rfl | rfl <;> simp [request, TftpClient.requestMessage]

theorem Phase.init (hname : NulFree U.filename) (hk : requestType = .rrq ∨ requestType = .wrq)
    (hdirect : (U.options requestType).isDefault = true → ∀ c, U.Frame requestType c →
      (∀ p ∈ c.io.wire, U.Asks requestType p ∨ IsErrorMessage p.2) → good (direct requestType c)) :
    U.Phase requestType answer good (U.client requestType) := by
  by_cases habs : U.clientOs.absolute U.clientRoot = none
  · rw [client, TftpClient.start, TftpClient.new]
    dsimp only
    rw [habs]
    exact .failed rfl rfl rfl
  by_cases hspec : (U.hosts.server .listen).address.is_unspecified = true
  · obtain ⟨root, hroot⟩ := Option.ne_none_iff_exists'.1 habs
    rw [client, TftpClient.start, TftpClient.new]
    dsimp only
    rw [hroot]
    dsimp only
    rw [if_pos hspec]
    exact .failed rfl rfl rfl
  rw [client_eq U hk habs (Bool.eq_false_iff.2 hspec) rfl]
  rcases (U.fresh requestType).sendRequest_cases (U.hosts.server .listen) (U.request requestType)
    (!(U.options requestType).isDefault) with ⟨e, heq⟩ | ⟨str, henc, -, heq⟩
  · rw [heq]
    exact .failed rfl rfl rfl
  · have hl : (U.request requestType).messageLength ≤ 512 := by
      by_contra hl
      rw [encode_tooLong hk hl] at henc
      cases henc
    rw [RequestMessage.encode_wire (request_wellFormed hname hk) hl] at henc
    obtain rfl := Except.ok.inj henc
    have hasks : ∀ p ∈ [(U.hosts.server .listen, (U.request requestType).wire)],
        U.Asks requestType p ∨ IsErrorMessage p.2 := fun p hp => .inl ⟨List.mem_singleton.1 hp, hl⟩
    rw [heq]
    cases hdef : (U.options requestType).isDefault with
    | true => exact .going rfl (hdirect hdef _ ⟨rfl, rfl, rfl⟩ hasks) rfl rfl
    | false =>
      refine @Phase.asking _ _ _ _ _ [] ⟨rfl, rfl, rfl⟩ rfl List.length_replicate hasks ?_ fun x hx => by cases hx
      exact Single.inbox_of_arrivals le_rfl (fun hs => by cases hs) rfl

/-- **One step of the client**, in any environment: nothing that has been sent is withdrawn. -/
theorem Phase.step (h : U.Phase requestType answer good c)
    (hopens : ∀ past d c x, U.Frame requestType c → (∀ p ∈ c.io.wire, U.Asks requestType p ∨ IsErrorMessage p.2) →
      answer d → c.Opens past (d.take TftpClient.bufsize) x → good x)
    {e : ClientEvent} (hanswer : c.session = none → ∀ src d, e.event = .deliver src d → answer d)
    (hwf : ∀ x, good x → x.WellFormed)
    (hgood : ∀ x x' e', c.session = some x → good x → e = .session e' → x.step e' = some x' → good x')
    (hstep : c.step e = some c') : U.Phase requestType answer good c' ∧ ∃ w, c'.wire = c.wire ++ w := by
  cases e with
  | session e =>
    obtain ⟨-, hstep⟩ := Option.ite_none_left_eq_some.1 hstep
    obtain ⟨x, hx, hstep⟩ := Option.bind_eq_some_iff.1 hstep
    obtain ⟨x', hx', rfl⟩ := Option.map_eq_some_iff.1 hstep
    cases h with
    | failed hnone =>
      rw [hnone] at hx
      cases hx
    | asking _ hnone =>
      rw [hnone] at hx
      cases hx
    | going hx₀ hg hs ht =>
      obtain rfl := Option.some.inj (hx₀.symm.trans hx)
      obtain ⟨w, hw, -⟩ := (Session.step_posts (hwf _ hg) hx').wire
      exact ⟨.going rfl (hgood _ _ e hx hg rfl hx') hs ht, w, by rw [TftpClient.wire, TftpClient.wire, hx]; exact hw⟩
  | request past e =>
    have hstep : (TftpClient.proactor past).step c e = some c' := hstep
    obtain ⟨hdead, hcase⟩ := Proactor.step_cases hstep
    cases h with
    | failed _ _ hthrew =>
      obtain ⟨h1, -⟩ := Bool.or_eq_false_iff.1 (show (c.threw.isSome || c.session.any (·.threw)) = false from hdead)
      rw [hthrew] at h1
      cases h1
    | going hx hg hs ht =>
      -- the socket is the session's, and only the timer is left
      obtain ⟨⟨hs', ht'⟩, he⟩ := (TftpClient.single past).idle_step hs ht hstep
      have hsession : c'.session = c.session := by
        rcases he with rfl | ⟨i, rfl⟩
        · cases hcase with
          | expire _ => rfl
        · cases hcase with
          | @runTimer i err _ =>
            exact ((TftpClient.Declines.onOackTimeout err _).trans (.release _)).session
      refine ⟨.going (hsession.trans hx) hg hs' ht', [], ?_⟩
      rw [TftpClient.wire, TftpClient.wire, hsession, hx, List.append_nil]
      rfl
    | @asking tr hframe hnone hbuf hwire hi hheard =>
      have hsent : c.wire = c.io.wire := by rw [TftpClient.wire, hnone]; rfl
      have hheard' : ∀ x ∈ datagrams (tr ++ [(c, e, c')]), answer x.2 := by
        intro x hx
        rw [datagrams, List.filterMap_append] at hx
        rcases List.mem_append.1 hx with hx | hx
        · exact hheard x hx
        · cases e with
          | deliver src d =>
            rw [List.mem_singleton.1 hx]
            exact hanswer hnone src d rfl
          | _ => cases hx
      have hi' : Inbox (TftpClient.proactor []) TftpClient.Holds (tr ++ [(c, e, c')]) c' :=
        TftpClient.inbox_past ((TftpClient.single past).inbox_step (TftpClient.inbox_past hi) hstep)
      have hdecline : c.Declines c' → U.Phase requestType answer good c' ∧ ∃ w, c'.wire = c.wire ++ w := by
        intro hd
        obtain ⟨w, hw, hm⟩ := hd.wire
        have hnone' : c'.session = none := hd.session.trans hnone
        refine ⟨.asking (hframe.declines hd) hnone' (by rw [hd.buffer]; exact hbuf) (fun p hp => ?_) hi' hheard', w, ?_⟩
        · rcases List.mem_append.1 (hw ▸ hp) with hp | hp
          · exact hwire p hp
          · exact .inr (hm p hp)
        · rw [hsent, TftpClient.wire, hnone']
          exact hw
      cases hcase with
      | start _ | receiveFails _ _ | sendCompletes _ | expire _ | runSend _ => exact hdecline (.io _ rfl)
      | @runTimer i err _ =>
        exact hdecline (.trans (.io { c.io with waited := c.io.waited.eraseIdx i } rfl)
          (.trans (.onOackTimeout err _) (.release _)))
      | @deliver src d r rs _ =>
        refine ⟨.asking ⟨hframe.os, hframe.requestType, hframe.filepath⟩ hnone ?_ hwire hi' hheard', [], ?_⟩
        · change (d.take c.mRecvBuffer.length ++ c.mRecvBuffer.drop (d.take c.mRecvBuffer.length).length).length = _
          rw [List.length_append, List.length_drop, List.length_take, hbuf]
          omega
        · rw [List.append_nil, hsent, TftpClient.wire]
          exact congrArg (Option.elim · _ _) hnone
      | @runReceive i r err n hx =>
        rcases TftpClient.handleAnswer_cases past err n { c with
            io := { c.io with received := c.io.received.eraseIdx i } } with hd | ⟨rfl, x, hx', heq⟩
        · exact hdecline (.trans (.io { c.io with received := c.io.received.eraseIdx i } rfl) (hd.trans (.release _)))
        · obtain ⟨src, d, hlast, hh⟩ := hi.arrived r n (List.mem_of_getElem? hx)
          have hbytes : c.mRecvBuffer.take n = d.take TftpClient.bufsize := by
            rw [hh.bytes, hbuf]
          change TftpClient.Opens past (c.mRecvBuffer.take n) _ x at hx'
          rw [hbytes] at hx'
          have hg : good x := hopens past d { c with io := { c.io with received := c.io.received.eraseIdx i } } x
            ⟨hframe.os, hframe.requestType, hframe.filepath⟩ hwire (hheard _ (List.mem_of_getLast? hlast)) hx'
          have hrelease := TftpClient.Declines.release (TftpClient.handleAnswer past .success n { c with
            io := { c.io with received := c.io.received.eraseIdx i } })
          have hleaves := (TftpClient.release_leaves _).after (TftpClient.handleAnswer_leaves past .success { c with
            io := { c.io with received := c.io.received.eraseIdx i } } n)
          have hsession := hrelease.session.trans (congrArg TftpClient.session heq)
          obtain ⟨w, hw⟩ := hx'.wire
          refine ⟨.going (hsession.trans rfl) hg (hleaves.started.trans ?_) ?_, w, ?_⟩
          · by_contra hs
            have h0 := hi.fresh (Bool.eq_false_iff.2 hs)
            have := (Io.tokens_eraseIdx_received hx hi.tokens).1
            change c.io.tokens = 0 at h0
            change c.io.tokens = 1 at this
            omega
          · exact Nat.le_zero.1 (hleaves.tokens.trans (Io.tokens_eraseIdx_received hx hi.tokens).2.le)
          · rw [hsent, TftpClient.wire]
            exact (congrArg (Option.elim · _ Session.wire) hsession).trans hw

end Call

end Ttftp

/-
  A client and a server whose sessions are in the course of a dialogue.

  `Exchange` is what the two speakers have to fit together with: the request, and
  the OACK that opens the server's wire.  `Talking.step` says that an event of the
  network keeps the sessions joined, `Talking.ended` that they come to rest only
  at their ends, and `Talking.comes_to_rest` that they do.
-/
import Ttftp.EndToEnd
import Ttftp.Proof.Fifo

namespace Ttftp

open Bytes Asio

/-! ## Sessions as objects -/

/-- `ι` embeds the objects of a kind into the sessions. -/
structure IsSession {σ H : Type} (P : Proactor σ H Endpoint) (ι : σ → Session) : Prop where
  step : ∀ s e, (ι s).step e = (P.step s e).map ι
  wire : ∀ s, (ι s).wire = (P.io s).wire
  isOpen : ∀ s, (ι s).isOpen = (P.io s).isOpen
  quiet : ∀ s, (ι s).Quiet ↔ (P.io s).Quiet
  threw : ∀ s, (ι s).threw = P.threw s

theorem isSession_sender : IsSession Tftpsender.proactor Session.sender :=
  ⟨fun _ _ => rfl, fun _ => rfl, fun _ => rfl, fun _ => Iff.rfl, fun _ => rfl⟩

theorem isSession_receiver : IsSession TftpReceiver.proactor Session.receiver :=
  ⟨fun _ _ => rfl, fun _ => rfl, fun _ => rfl, fun _ => Iff.rfl, fun _ => rfl⟩

/-! ## Counting datagrams -/

section
variable (k : ServerSocket) (n : ℕ) (f : ServerSocket → ℕ)

theorem countAt_apply (k' : ServerSocket) : countAt k n f k' = f k' + if k' = k then n else 0 := by
  unfold countAt
  by_cases h : k' = k
  · subst h
    simp
  · simp [h]

@[simp] theorem countAt_zero : countAt k 0 f = f := Function.update_eq_self k f

end

namespace EndToEnd
variable {N : Network} {t : EndToEnd}

/-- An event other than a delivery is in the hands of the client alone. -/
theorem step_client_silent (e : ClientEvent) {c : TftpClient} (ho : e.event.Orderly)
    (hd : e.event.isDelivery = false) (hc : t.client.step e = some c) (k : ServerSocket) :
    step N t (.client k e) = some { t with client := c } := by
  rw [step, if_pos (fifoAllows_of_orderly ho hd), hc, hd]
  simp

theorem step_server_silent (e : ServerEvent) {v : TftpServer} (ho : e.event.Orderly)
    (hd : e.event.isDelivery = false) (hv : t.server.step e = some v) :
    step N t (.server e) = some { t with server := v } := by
  rw [step, if_pos (fifoAllows_of_orderly ho hd), hv, hd]
  simp

end EndToEnd

/-- Nothing else has been sent to other addresses than the peer's. -/
theorem sentTo_wireAt_other {σ H : Type} {P : Proactor σ H Endpoint} (S : Speaker P) (x : Dialogue.State)
    {dest : Endpoint} (h : dest ≠ S.peer) : sentTo dest (S.wireAt x) = sentTo dest S.before := by
  have hother : sentTo dest ((List.range (S.party.sent x)).map fun i => (S.peer, S.party.out i)) = [] := by
    refine sentTo_other fun p hp => ?_
    obtain ⟨i, -, rfl⟩ := List.mem_map.1 hp
    exact h.symm
  rw [Speaker.wireAt, sentTo_append, hother, List.append_nil]

/-! ## The client and the server around their sessions -/

/-- The socket of the request is the session's now; of the request there is left
    at most the call-back of its timer. -/
structure TftpClient.HandedOver (x : Session) (c : TftpClient) : Prop where
  session : c.session = some x
  started : c.io.started = true
  ops : c.io.ops = ([], [], [], [])
  waited : ∀ e ∈ c.io.waited, e = .operationAborted
  threw : c.threw = none
  callbacks : c.callbacks = []

/-- The server waits for another request. -/
structure TftpServer.Listens (s : TftpServer) : Prop where
  isOpen : s.io.isOpen = true
  started : s.io.started = true
  receives : s.io.receives = [()]
  quiet : s.io.Quiet
  wire : s.io.wire = []
  threw : s.threw = none

theorem TftpClient.HandedOver.release {x : Session} {c : TftpClient} (h : c.HandedOver x) :
    c.release.HandedOver x ∧ c.release.io.waited = c.io.waited := by
  unfold TftpClient.release
  split_ifs
  · exact ⟨{ h with started := h.started, ops := Io.ops_close h.ops, waited := h.waited }, rfl⟩
  · exact ⟨h, rfl⟩

/-- The call-back of the timer does nothing. -/
theorem TftpClient.HandedOver.step {x : Session} {c c' : TftpClient} (h : c.HandedOver x) {past : Bytes}
    {e : Event Endpoint} (ho : e.Orderly) (hstep : (proactor past).step c e = some c') :
    e.isDelivery = false ∧ c'.HandedOver x ∧ c'.io.waited.length < c.io.waited.length := by
  have hops := h.ops
  simp only [Io.ops, Prod.mk.injEq] at hops
  obtain ⟨h1, h2, h3, h4⟩ := hops
  obtain ⟨-, hcase⟩ := Proactor.step_cases hstep
  clear hstep
  cases hcase with
  | start hst => exact absurd h.started (by rw [show c.io.started = false from hst]; decide)
  | deliver hr => exact absurd hr (by rw [show ((proactor past).io c).receives = [] from h1]; simp)
  | receiveFails _ _ => exact ho.elim
  | sendCompletes hk => exact absurd hk (by rw [show ((proactor past).io c).sends = [] from h3]; simp)
  | expire _ => exact ho.elim
  | runReceive hx => exact absurd hx (by rw [show ((proactor past).io c).received = [] from h2]; simp)
  | runSend hx => exact absurd hx (by rw [show ((proactor past).io c).sent = [] from h4]; simp)
  | @runTimer i err hx =>
    have hx' : c.io.waited[i]? = some err := hx
    obtain rfl : err = .operationAborted := h.waited _ (List.mem_of_getElem? hx')
    have hlt := (List.getElem?_eq_some_iff.1 hx').1
    have h₁ : TftpClient.HandedOver x { c with io := { c.io with waited := c.io.waited.eraseIdx i } } :=
      { h with ops := h.ops, waited := fun e he => h.waited e (List.mem_of_mem_eraseIdx he) }
    obtain ⟨h₂, hw⟩ := h₁.release
    refine ⟨rfl, h₂, lt_of_eq_of_lt (congrArg List.length hw) ?_⟩
    change (c.io.waited.eraseIdx i).length < _
    rw [List.length_eraseIdx_of_lt hlt]
    omega

/-! ## Two sessions in a dialogue -/

section
variable {σ τ H H' : Type} {P : Proactor σ H Endpoint} {Q : Proactor τ H' Endpoint}

/-- The server's session talks to the client, and has opened with an OACK. -/
structure Serves (N : Network) (T : Speaker Q) (oack : Bytes) : Prop where
  spec : T.Spec
  last : 0 < T.party.last
  peer : T.peer = N.client
  before : T.before = [(N.client, oack)]

/-- What has been sent from the sockets of a server with this one session. -/
theorem Serves.fromServer {N : Network} {T : Speaker Q} {oack : Bytes} (hT : Serves N T oack)
    {κ : τ → Session} (hκ : IsSession Q κ) {t : EndToEnd} {y : Dialogue.State} {u : τ}
    (hl : t.server.Listens) (hs : t.server.sessions = [κ u]) (hu : T.At y u) (k : ServerSocket) :
    t.fromServer N k =
      if k = .session 0 then oack :: (List.range (T.party.sent y)).map T.party.out else [] := by
  unfold EndToEnd.fromServer TftpServer.wireAt
  cases k with
  | listen => simp [hl.wire, sentTo]
  | session n =>
    rw [hs]
    cases n with
    | zero =>
      have hw := sentTo_wireAt T y
      rw [hT.peer, hT.before, sentTo_self] at hw
      simp only [List.getElem?_cons_zero, Option.elim_some, hκ.wire, hu.wire, if_true]
      exact hw
    | succ n => simp [sentTo]

/-- The client's session `S` and the server's session `T` fit together, with what
    was sent from their sockets before. -/
structure Exchange (N : Network) (S : Speaker P) (T : Speaker Q) (request oack : Bytes) : Prop where
  linked : Linked S T
  leftPeer : S.peer = N.server (.session 0)
  leftBefore : S.before = [(N.server .listen, request)]
  rightPeer : T.peer = N.client
  rightBefore : T.before = [(N.client, oack)]

theorem Exchange.serves {N : Network} {S : Speaker P} {T : Speaker Q} {request oack : Bytes}
    (h : Exchange N S T request oack) : Serves N T oack :=
  ⟨h.linked.right, h.linked.matched.right.1, h.rightPeer, h.rightBefore⟩

namespace EndToEnd

/-- The sessions are in the course of their dialogue; `i` and `j` of its datagrams
    have been delivered to the client and to the server. -/
structure Talking (ι : σ → Session) (κ : τ → Session) (S : Speaker P) (T : Speaker Q)
    (x y : Dialogue.State) (s : σ) (u : τ) (i j : ℕ) (t : EndToEnd) : Prop where
  client : t.client.HandedOver (ι s)
  server : t.server.Listens
  sessions : t.server.sessions = [κ u]
  joined : Joined S T x y s u i j
  started : x.phase ≠ .idle ∧ y.phase ≠ .idle
  toClient : ∀ k, t.toClient k = if k = .session 0 then i + 1 else 0
  toServer : ∀ k, t.toServer k = if k = .session 0 then j else if k = .listen then 1 else 0

namespace Talking
variable {N : Network} {S : Speaker P} {T : Speaker Q} {request oack : Bytes} {ι : σ → Session}
  {κ : τ → Session} {x y : Dialogue.State} {s : σ} {u : τ} {i j : ℕ} {t : EndToEnd}

/-- What has been sent from the sockets of the server to the client. -/
theorem fromServer (h : t.Talking ι κ S T x y s u i j) (hE : Exchange N S T request oack)
    (hκ : IsSession Q κ) (k : ServerSocket) : t.fromServer N k =
      if k = .session 0 then oack :: (List.range (T.party.sent y)).map T.party.out else [] :=
  hE.serves.fromServer hκ h.server h.sessions h.joined.right k

/-- What has been sent from the client to the sockets of the server. -/
theorem fromClient (h : t.Talking ι κ S T x y s u i j) (hE : Exchange N S T request oack)
    (hι : IsSession P ι) (k : ServerSocket) : t.fromClient N k =
      if k = .session 0 then (List.range (S.party.sent x)).map S.party.out
      else if k = .listen then [request] else [] := by
  have hwire : t.client.wire = S.wireAt x := by
    rw [TftpClient.wire, h.client.session, Option.elim_some, hι.wire, h.joined.left.wire]
  rw [EndToEnd.fromClient, hwire]
  by_cases h0 : k = .session 0
  · subst h0
    have hne : ∀ p ∈ S.before, p.1 ≠ S.peer := by
      rw [hE.leftBefore, hE.leftPeer]
      intro p hp
      rw [List.mem_singleton] at hp
      subst hp
      exact fun hh => ServerSocket.noConfusion (N.distinct _ _ (.inl rfl) hh)
    have hw := sentTo_wireAt S x
    rw [sentTo_other hne, hE.leftPeer, List.nil_append] at hw
    rw [if_pos rfl, hw]
  · have hother : N.server k ≠ N.server (.session 0) := fun hh => h0 (N.distinct _ _ (.inr rfl) hh.symm).symm
    rw [if_neg h0, sentTo_wireAt_other S x (by rw [hE.leftPeer]; exact hother), hE.leftBefore]
    by_cases hl : k = .listen
    · subst hl
      rw [if_pos rfl, sentTo_self]
    · rw [if_neg hl]
      refine sentTo_other fun p hp => ?_
      rw [List.mem_singleton] at hp
      subst hp
      exact fun hh => hl (N.distinct _ _ (.inl rfl) hh).symm

/-- A datagram that is delivered to the client comes from the server's session. -/
theorem delivers_client (h : t.Talking ι κ S T x y s u i j) (hE : Exchange N S T request oack)
    (hκ : IsSession Q κ) {k : ServerSocket} {src : Endpoint} {d : Bytes}
    (ha : fifoAllows (N.server k) (t.fromServer N k)[t.toClient k]? (.deliver src d) = true) :
    k = .session 0 ∧ src = S.peer ∧ T.message y i = some d := by
  rw [fifoAllows_deliver, h.fromServer hE hκ, h.toClient] at ha
  obtain ⟨rfl, ha⟩ := ha
  by_cases h0 : k = .session 0
  · subst h0
    exact ⟨rfl, hE.leftPeer.symm, ha⟩
  · simp [h0] at ha

theorem delivers_server (h : t.Talking ι κ S T x y s u i j) (hE : Exchange N S T request oack)
    (hι : IsSession P ι) {k : ServerSocket} {src : Endpoint} {d : Bytes}
    (ha : fifoAllows N.client (t.fromClient N k)[t.toServer k]? (.deliver src d) = true) :
    k = .session 0 ∧ src = T.peer ∧ S.message x j = some d := by
  rw [fifoAllows_deliver, h.fromClient hE hι, h.toServer] at ha
  obtain ⟨rfl, ha⟩ := ha
  by_cases h0 : k = .session 0
  · subst h0
    exact ⟨rfl, hE.rightPeer.symm, ha⟩
  · by_cases hl : k = .listen
    · simp [hl] at ha
    · simp [h0, hl] at ha

/-- A bound on the number of events that are left. -/
def left (S : Speaker P) (T : Speaker Q) (x y : Dialogue.State) (s : σ) (u : τ) (i j : ℕ)
    (t : EndToEnd) : ℕ :=
  remaining S T x y s u i j + t.client.io.waited.length

/-- The conversation goes on, and comes closer to its end. -/
def Goes (ι : σ → Session) (κ : τ → Session) (S : Speaker P) (T : Speaker Q) (n : ℕ) (t : EndToEnd) :
    Prop :=
  ∃ x y s u i j, t.Talking ι κ S T x y s u i j ∧ left S T x y s u i j t < n

/-- An event of the client's session. -/
theorem step_client (h : t.Talking ι κ S T x y s u i j) (hE : Exchange N S T request oack)
    (hκ : IsSession Q κ) {k : ServerSocket} {e : Event Endpoint} {s' : σ}
    (ha : fifoAllows (N.server k) (t.fromServer N k)[t.toClient k]? e = true) (hs : P.step s e = some s') :
    Goes ι κ S T (left S T x y s u i j t) { t with
      client := { t.client with session := some (ι s') }
      toClient := countAt k e.isDelivery.toNat t.toClient } := by
  obtain ⟨x', hj, hlt, hne⟩ := h.joined.left_step hE.linked (orderly_of_fifoAllows ha)
    (fun src d he => (h.delivers_client hE hκ (by rw [← he]; exact ha)).2) hs
  refine ⟨x', y, s', u, _, j, ⟨?_, h.server, h.sessions, hj, ⟨hne h.started.1, h.started.2⟩, fun k' => ?_, h.toServer⟩,
    Nat.add_lt_add_right hlt _⟩
  · exact ⟨rfl, h.client.started, h.client.ops, h.client.waited, h.client.threw, h.client.callbacks⟩
  · dsimp only
    rw [countAt_apply, h.toClient]
    cases hd : e.isDelivery with
    | false => simp
    | true =>
      cases e with
      | deliver src d =>
        obtain ⟨rfl, -⟩ := h.delivers_client hE hκ ha
        split_ifs <;> simp
      | _ => cases hd

/-- An event of the server's session. -/
theorem step_server (h : t.Talking ι κ S T x y s u i j) (hE : Exchange N S T request oack)
    (hι : IsSession P ι) {e : Event Endpoint} {u' : τ}
    (ha : fifoAllows N.client (t.fromClient N (.session 0))[t.toServer (.session 0)]? e = true)
    (hu : Q.step u e = some u') :
    Goes ι κ S T (left S T x y s u i j t) { t with
      server := { t.server with sessions := [κ u'] }
      toServer := countAt (.session 0) e.isDelivery.toNat t.toServer } := by
  obtain ⟨y', hj, hlt, hne⟩ := h.joined.right_step hE.linked (orderly_of_fifoAllows ha)
    (fun src d he => (h.delivers_server hE hι (by rw [← he]; exact ha)).2) hu
  refine ⟨x, y', s, u', i, _, ⟨h.client, ?_, rfl, hj, ⟨h.started.1, hne h.started.2⟩, h.toClient, fun k' => ?_⟩,
    Nat.add_lt_add_right hlt _⟩
  · exact ⟨h.server.isOpen, h.server.started, h.server.receives, h.server.quiet, h.server.wire,
      h.server.threw⟩
  · dsimp only
    rw [countAt_apply, h.toServer]
    split_ifs <;> simp

/-- **An event keeps the conversation**, and brings it closer to its end. -/
theorem step (h : t.Talking ι κ S T x y s u i j) (hE : Exchange N S T request oack)
    (hι : IsSession P ι) (hκ : IsSession Q κ) {e : EndToEndEvent} {t' : EndToEnd}
    (hstep : EndToEnd.step N t e = some t') : Goes ι κ S T (left S T x y s u i j t) t' := by
  cases e with
  | client k e =>
    simp only [EndToEnd.step] at hstep
    split_ifs at hstep with ha
    obtain ⟨c, hc, rfl⟩ := Option.map_eq_some_iff.1 hstep
    cases e with
    | request past e =>
      obtain ⟨hd, hc', hlt⟩ := h.client.step (orderly_of_fifoAllows ha) hc
      refine ⟨x, y, s, u, i, j, ⟨hc', h.server, h.sessions, h.joined, h.started, fun k' => ?_, h.toServer⟩,
        Nat.add_lt_add_left hlt _⟩
      rw [show (ClientEvent.request past e).event.isDelivery = false from hd]
      simpa using h.toClient k'
    | session e =>
      simp only [TftpClient.step] at hc
      split_ifs at hc
      rw [h.client.session, Option.bind_some, hι.step, Option.map_map] at hc
      obtain ⟨s', hs', rfl⟩ := Option.map_eq_some_iff.1 hc
      exact h.step_client hE hκ ha hs'
  | server e =>
    simp only [EndToEnd.step] at hstep
    split_ifs at hstep with ha
    obtain ⟨v, hv, rfl⟩ := Option.map_eq_some_iff.1 hstep
    cases e with
    | listen past e =>
      obtain ⟨src, d, -, -, rfl, -⟩ := Proactor.step_quiet h.server.started h.server.quiet
        (orderly_of_fifoAllows ha) hv
      cases (h.delivers_server hE hι ha).1
    | session n e =>
      simp only [TftpServer.step] at hv
      split_ifs at hv
      rw [h.sessions] at hv
      cases n with
      | zero =>
        rw [List.getElem?_cons_zero, Option.bind_some, hκ.step, Option.map_map] at hv
        obtain ⟨u', hu', rfl⟩ := Option.map_eq_some_iff.1 hv
        exact h.step_server hE hι ha hu'
      | succ n => simp at hv
  | discardToClient k =>
    simp only [EndToEnd.step] at hstep
    split_ifs at hstep with ha
    cases hstep
    rw [Bool.and_eq_true, decide_eq_true_eq, Bool.not_eq_true', TftpClient.isOpen, h.client.session,
      Option.elim_some, hι.isOpen, h.fromServer hE hκ, h.toClient] at ha
    by_cases h0 : k = .session 0
    · subst h0
      have hi : i < T.party.sent y := by simpa using ha.2
      obtain ⟨hj, hlt⟩ := h.joined.left_discard ha.1 hi
      refine ⟨x, y, s, u, i + 1, j, ⟨h.client, h.server, h.sessions, hj, h.started, fun k' => ?_, h.toServer⟩,
        Nat.add_lt_add_right hlt _⟩
      dsimp only
      rw [countAt_apply, h.toClient]
      split_ifs <;> rfl
    · simp [h0] at ha
  | discardToServer k =>
    simp only [EndToEnd.step] at hstep
    split_ifs at hstep with ha
    cases hstep
    rw [Bool.and_eq_true, decide_eq_true_eq, Bool.not_eq_true', h.fromClient hE hι, h.toServer] at ha
    by_cases h0 : k = .session 0
    · subst h0
      have hc : (Q.io u).isOpen = false := by
        have hc := ha.1
        simp only [TftpServer.isOpenAt, h.sessions, List.getElem?_cons_zero, Option.any_some] at hc
        rw [← hκ.isOpen, hc]
      have hj : j < S.party.sent x := by simpa using ha.2
      obtain ⟨hj, hlt⟩ := h.joined.right_discard hc hj
      refine ⟨x, y, s, u, i, j + 1, ⟨h.client, h.server, h.sessions, hj, h.started, h.toClient, fun k' => ?_⟩,
        Nat.add_lt_add_right hlt _⟩
      dsimp only
      rw [countAt_apply, h.toServer]
      split_ifs <;> rfl
    · by_cases hl : k = .listen
      · simp [hl] at ha
      · simp [h0, hl] at ha

/-- **At rest both sessions have ended.** -/
theorem ended (h : t.Talking ι κ S T x y s u i j) (hE : Exchange N S T request oack)
    (hι : IsSession P ι) (hκ : IsSession Q κ) (hr : t.AtRest N) :
    x.phase = .ended ∧ y.phase = .ended := by
  refine h.joined.both_ended hE.linked ⟨?_, ?_, ?_⟩ ⟨?_, ?_, ?_⟩
  · simpa [h.joined.left.started] using h.started.1
  · exact (hι.quiet s).1 (hr.client.2 _ h.client.session)
  · have hc := hr.toClient (.session 0)
    rw [h.fromServer hE hκ, h.toClient] at hc
    simpa using hc
  · simpa [h.joined.right.started] using h.started.2
  · exact (hκ.quiet u).1 (hr.server.2 _ (by rw [h.sessions]; exact List.mem_singleton_self _))
  · have hc := hr.toServer (.session 0)
    rw [h.fromClient hE hι, h.toServer] at hc
    simpa using hc

theorem client_alive (h : t.Talking ι κ S T x y s u i j) (hι : IsSession P ι) : t.client.dead = false := by
  simp [TftpClient.dead, h.client.threw, h.client.session, hι.threw, h.joined.left.threw]

theorem server_alive (h : t.Talking ι κ S T x y s u i j) (hκ : IsSession Q κ) : t.server.dead = false := by
  simp [TftpServer.dead, h.server.threw, h.sessions, hκ.threw, h.joined.right.threw]

/-- The client's session has an event, if it is not at rest. -/
theorem progress_client (h : t.Talking ι κ S T x y s u i j) (hE : Exchange N S T request oack)
    (hι : IsSession P ι) (hκ : IsSession Q κ)
    (hr : ¬ ((P.io s).started = true ∧ (P.io s).Quiet ∧ i = T.party.sent y)) :
    ∃ e t', EndToEnd.step N t e = some t' := by
  have hstep : ∀ e s', P.step s e = some s' →
      t.client.step (.session e) = some { t.client with session := some (ι s') } := by
    intro e s' hs
    simp [TftpClient.step, h.client_alive hι, h.client.session, hι.step, hs]
  rcases h.joined.left_progress hr with ⟨e, s', ho, hd, hs⟩ | ⟨d, s', hm, hs⟩ | ⟨hc, hlt⟩
  · exact ⟨_, _, step_client_silent (.session e) ho hd (hstep e s' hs) .listen⟩
  · refine ⟨.client (.session 0) (.session (.deliver S.peer d)), _,
      (if_pos ?_).trans (congrArg (Option.map _) (hstep _ s' hs))⟩
    simp only [ClientEvent.event, fifoAllows, h.fromServer hE hκ, h.toClient, hE.leftPeer, if_true,
      decide_true, Bool.true_and, decide_eq_true_eq]
    exact hm
  · refine ⟨.discardToClient (.session 0), _, if_pos ?_⟩
    rw [TftpClient.isOpen, h.client.session, Option.elim_some, hι.isOpen, hc, h.fromServer hE hκ, h.toClient]
    simpa using hlt

/-- So has the server's. -/
theorem progress_server (h : t.Talking ι κ S T x y s u i j) (hE : Exchange N S T request oack)
    (hι : IsSession P ι) (hκ : IsSession Q κ)
    (hr : ¬ ((Q.io u).started = true ∧ (Q.io u).Quiet ∧ j = S.party.sent x)) :
    ∃ e t', EndToEnd.step N t e = some t' := by
  have hstep : ∀ e u', Q.step u e = some u' →
      t.server.step (.session 0 e) = some { t.server with sessions := [κ u'] } := by
    intro e u' hu
    simp [TftpServer.step, h.server_alive hκ, h.sessions, hκ.step, hu]
  rcases h.joined.symm.left_progress hr with ⟨e, u', ho, hd, hu⟩ | ⟨d, u', hm, hu⟩ | ⟨hc, hlt⟩
  · exact ⟨_, _, step_server_silent (.session 0 e) ho hd (hstep e u' hu)⟩
  · refine ⟨.server (.session 0 (.deliver T.peer d)), _,
      (if_pos ?_).trans (congrArg (Option.map _) (hstep _ u' hu))⟩
    simp only [ServerEvent.event, ServerEvent.socket, fifoAllows, h.fromClient hE hι, h.toServer,
      hE.rightPeer, if_true, decide_true, Bool.true_and, decide_eq_true_eq]
    exact hm
  · refine ⟨.discardToServer (.session 0), _, if_pos ?_⟩
    rw [TftpServer.isOpenAt, h.sessions, List.getElem?_cons_zero, Option.any_some, hκ.isOpen, hc,
      h.fromClient hE hι, h.toServer]
    simpa using hlt

/-- **A conversation that is not at rest has an event.** -/
theorem progress (h : t.Talking ι κ S T x y s u i j) (hE : Exchange N S T request oack)
    (hι : IsSession P ι) (hκ : IsSession Q κ) (hr : ¬ t.AtRest N) :
    ∃ e t', EndToEnd.step N t e = some t' := by
  by_cases hl : (P.io s).started = true ∧ (P.io s).Quiet ∧ i = T.party.sent y
  · by_cases hr' : (Q.io u).started = true ∧ (Q.io u).Quiet ∧ j = S.party.sent x
    · by_cases hw : t.client.io.waited = []
      · refine absurd ⟨⟨?_, fun v hv => ?_⟩, ⟨h.server.quiet, fun v hv => ?_⟩, fun k => ?_, fun k => ?_⟩ hr
        · have hops := h.client.ops
          simp only [Io.ops, Prod.mk.injEq] at hops
          exact ⟨hops.2.1, hops.2.2.1, hops.2.2.2, hw⟩
        · rw [h.client.session, Option.mem_some_iff] at hv
          exact hv ▸ (hι.quiet s).2 hl.2.1
        · rw [h.sessions, List.mem_singleton] at hv
          exact hv ▸ (hκ.quiet u).2 hr'.2.1
        · rw [h.fromServer hE hκ, h.toClient, hl.2.2]
          split_ifs <;> simp
        · rw [h.fromClient hE hι, h.toServer, hr'.2.2]
          split_ifs <;> simp
      · obtain ⟨e, es, he⟩ := List.exists_cons_of_ne_nil hw
        have hd : (TftpClient.proactor []).threw t.client = false := h.client_alive hι
        obtain ⟨c, hc⟩ : ∃ c, t.client.step (.request [] (.runTimer 0)) = some c := by
          rw [TftpClient.step, Proactor.step, hd]
          simp only [Proactor.event, show ((TftpClient.proactor []).io t.client).waited = e :: es from he]
          exact ⟨_, rfl⟩
        exact ⟨_, _, step_client_silent (.request [] (.runTimer 0)) trivial rfl hc .listen⟩
    · exact h.progress_server hE hι hκ hr'
  · exact h.progress_client hE hι hκ hl

/-- **A conversation comes to rest.** -/
theorem comes_to_rest (h : t.Talking ι κ S T x y s u i j) (hE : Exchange N S T request oack)
    (hι : IsSession P ι) (hκ : IsSession Q κ) (L : Lts EndToEnd EndToEndEvent)
    (hL : L.step = EndToEnd.step N) : ∃ es t', L.run t es = some t' ∧ t'.AtRest N := by
  have hstep : ∀ t n, (∃ x y s u i j, t.Talking ι κ S T x y s u i j ∧ left S T x y s u i j t = n) →
      ¬ t.AtRest N → ∃ e t' n', L.step t e = some t' ∧
        (∃ x y s u i j, t'.Talking ι κ S T x y s u i j ∧ left S T x y s u i j t' = n') ∧ n' < n := by
    rintro t n ⟨x, y, s, u, i, j, h, rfl⟩ hr
    obtain ⟨e, t', he⟩ := h.progress hE hι hκ hr
    obtain ⟨x', y', s', u', i', j', h', hlt⟩ := h.step hE hι hκ he
    exact ⟨e, t', _, by rw [hL, he], ⟨x', y', s', u', i', j', h', rfl⟩, hlt⟩
  obtain ⟨es, t', -, hrun, -, hr⟩ := Lts.exists_rest hstep ⟨x, y, s, u, i, j, h, rfl⟩
  exact ⟨es, t', hrun, hr⟩

end Talking

end EndToEnd

end

end Ttftp

/-
  The transfers of a server affect each other through the files alone, and its listening
  socket does not see them.

  The server is a pool: its base is the server without its sessions, together with what
  these find (`step_parts`).  Hence a transfer has taken its own events alone since the
  request that started it, those of its socket and the changes of its file
  (`session_isolated`); the order in which the transfers are served makes no difference,
  as long as each finds the same (`interleaving_irrelevant`); and if a transfer is not
  served at all, and the files change as they did, nothing changes for the others
  (`others_unaffected`).
-/
import Ttftp.Lib.Inbox
import Ttftp.Lib.Pool
import Ttftp.Proof.Opening

namespace Ttftp

open Bytes Asio

/-- What happens to a transfer: an event of its socket, or a change of the file that it
    has opened. -/
inductive SessionEvent where
  | socket (e : Event Endpoint)
  | rewritten (content : Bytes)

namespace Session

def ownStep (x : Session) : SessionEvent → Option Session
  | .socket e => x.step e
  | .rewritten content => if x.threw then none else some (x.rewrite content)

/-- A transfer on its own. -/
def system : Lts Session SessionEvent where
  init _ := True
  step := ownStep

end Session

namespace TftpServer

/-! ## Handlers beside other sessions -/

/-- The server with the sessions `xs` before its own ones. -/
def beside (xs : List Session) (s : TftpServer) : TftpServer := { s with sessions := xs ++ s.sessions }

/-- The server without its sessions. -/
def bare (s : TftpServer) : TftpServer := { s with sessions := [] }

section
variable (xs : List Session) (s : TftpServer) (request : RequestMessage) (filename : Bytes) (p : SessionParams)

theorem bare_beside : s.bare.beside s.sessions = s := by
  rw [beside, bare, List.append_nil]

theorem sendErrorMsg_beside (c : TftpErrorCode) (msg : Bytes) :
    (s.beside xs).sendErrorMsg c msg = (s.sendErrorMsg c msg).beside xs := rfl

theorem answerOptions_beside (queries : TransactionOptionValues → Bool)
    (respond : TransactionOptionValues → TransactionOptionValues) :
    (s.beside xs).answerOptions queries respond request =
      (s.answerOptions queries respond request).map fun r => (r.1, r.2.beside xs) := by
  unfold answerOptions
  rw [show (s.beside xs).os = s.os from rfl]
  split_ifs
  · rfl
  · cases parseOptionFields request with
    | error e => rfl
    | ok o =>
      cases o with
      | none => rfl
      | some v =>
        dsimp only
        split_ifs
        · rfl
        · cases OptionACKMessage.encode { mOptionValues := (respond v).getOptionsAsMap } <;> rfl
        · rfl

theorem startSender_beside : (s.beside xs).startSender filename p = (s.startSender filename p).beside xs := by
  simp only [startSender, beside, List.append_assoc]

theorem startReceiver_beside :
    (s.beside xs).startReceiver filename p = (s.startReceiver filename p).beside xs := by
  simp only [startReceiver, beside, List.append_assoc]

theorem handleSubRequest_beside :
    (s.beside xs).handleSubRequest request = (s.handleSubRequest request).map (beside xs) := by
  unfold handleSubRequest
  split_ifs
  · rw [handleSubRequest_RRQ, handleSubRequest_RRQ, answerOptions_beside]
    change Except.map (fun r : SessionParams × TftpServer => startSender (s.rootfolder ++ request.mFilename) r.1 r.2)
      (Except.map _ (s.answerOptions _ (respondWithSize (s.os.fileSize (s.rootfolder ++ request.mFilename))) request)) = _
    cases s.answerOptions (fun _ => true) (respondWithSize (s.os.fileSize (s.rootfolder ++ request.mFilename)))
      request with
    | error e => rfl
    | ok r => exact congrArg Except.ok (startSender_beside xs r.2 _ r.1)
  · rw [handleSubRequest_WRQ, handleSubRequest_WRQ, answerOptions_beside]
    change Except.map (fun r : SessionParams × TftpServer => startReceiver (s.rootfolder ++ request.mFilename) r.1 r.2)
      (Except.map _ (s.answerOptions s.spaceKnown id request)) = _
    cases s.answerOptions s.spaceKnown id request with
    | error e => rfl
    | ok r => exact congrArg Except.ok (startReceiver_beside xs r.2 _ r.1)
  · rfl

theorem startThrew_beside (t : TftpServer) : startThrew (t.beside xs) (s.beside xs) = startThrew t s := by
  change ((xs ++ s.sessions).drop (xs ++ t.sessions).length).any _ = _
  rw [List.length_append, List.drop_length_add_append]
  rfl

theorem handleRequest_beside (past : Bytes) (err : ErrorCode) (n : ℕ) :
    (s.beside xs).handleRequest past err n = (s.handleRequest past err n).beside xs := by
  have hif : ∀ (c : Prop) [Decidable c] (t u : TftpServer),
      (if c then t.beside xs else u.beside xs) = (if c then t else u).beside xs := fun c _ t u =>
    (apply_ite (beside xs) c t u).symm
  unfold handleRequest
  dsimp only
  rw [sendErrorMsg_beside, hif]
  generalize (if n < 2 then s.sendErrorMsg .illegalOp (ascii "Did not receive a valid opcode") else s) = t
  rw [show (t.beside xs).buffer = t.buffer from rfl, sendErrorMsg_beside, hif, handleSubRequest_beside]
  generalize (if (RequestMessage.decode past {} (t.buffer.take n)).1 then t else t.sendErrorMsg .illegalOp
    (ascii "Did not receive a valid request message. Opcode or mode were not recognized")) = u
  split_ifs with he
  · cases u.handleSubRequest (RequestMessage.decode past {} (t.buffer.take n)).2 with
    | error e => rfl
    | ok u' =>
      dsimp only [Except.map]
      rw [startThrew_beside]
      split_ifs <;> rfl
  · rfl

/-- An event of the listening socket concerns the sessions only in that it may start one. -/
theorem event_beside (past : Bytes) (e : Event Endpoint) :
    (proactor past).event (s.beside xs) e = ((proactor past).event s e).map (beside xs) := by
  have hio : (proactor past).io (s.beside xs) = (proactor past).io s := rfl
  cases e with
  | runReceive i =>
    simp only [Proactor.event, hio]
    cases ((proactor past).io s).received[i]? with
    | none => rfl
    | some x =>
      exact congrArg some (handleRequest_beside xs
        { s with io := { s.io with received := s.io.received.eraseIdx i } } past x.2.1 x.2.2)
  | runSend i => simp only [Proactor.event, hio]; cases ((proactor past).io s).sent[i]? <;> rfl
  | runTimer i => simp only [Proactor.event, hio]; cases ((proactor past).io s).waited[i]? <;> rfl
  | start => simp only [Proactor.event, hio]; split_ifs <;> rfl
  | expire => simp only [Proactor.event, hio]; split_ifs <;> rfl
  | deliver src d => simp only [Proactor.event, hio]; cases ((proactor past).io s).receives <;> rfl
  | receiveFails e =>
    simp only [Proactor.event, hio]
    cases ((proactor past).io s).receives with
    | nil => rfl
    | cons h hs => dsimp only; split_ifs <;> rfl
  | sendCompletes e => simp only [Proactor.event, hio]; cases ((proactor past).io s).sends <;> rfl

end

/-! ## The pool -/

/-- What happens to a server apart from its sessions. -/
inductive BaseEvent where
  | listen (past : Bytes) (e : Event Endpoint)
  | changes (os : OperatingSystem)

def baseStep (s : TftpServer) : BaseEvent → Option TftpServer
  | .listen past e => (proactor past).step s e
  | .changes os => if s.dead then none else some { s with os := os }

/-- The listening socket and what is found on the disk, with the sessions that are started. -/
def pool : Pool TftpServer Session BaseEvent SessionEvent where
  base s e := (s.bare.baseStep e).map fun s' => (s'.bare, s'.sessions)
  component := Session.ownStep
  baseFailed s := s.threw.isSome
  failed := Session.threw
  base_failed s e h := by
    have hd : s.bare.dead = true := (Bool.or_false _).trans h
    cases e with
    | listen past e =>
      have hstep : (proactor past).step s.bare e = none := if_pos hd
      rw [baseStep, hstep]
      rfl
    | changes os =>
      rw [baseStep, if_pos hd]
      rfl
  component_failed x e h := by
    cases e with
    | socket e =>
      cases x with
      | sender s => exact congrArg (Option.map _) (if_pos h)
      | receiver r => exact congrArg (Option.map _) (if_pos h)
    | rewritten content => exact if_pos h

def parts (s : TftpServer) : Pool.State TftpServer Session := ⟨s.bare, s.sessions⟩

theorem parts_injective : Function.Injective parts := by
  intro s t h
  rw [← bare_beside s, ← bare_beside t, show s.bare = t.bare from congrArg Pool.State.base h,
    show s.sessions = t.sessions from congrArg Pool.State.components h]

end TftpServer

def HostEvent.part : HostEvent → PoolEvent TftpServer.BaseEvent SessionEvent
  | server (.listen past e) => .base (.listen past e)
  | server (.session n e) => .component n (.socket e)
  | changes os => .base (.changes os)
  | rewritten n content => .component n (.rewritten content)

namespace TftpServer

/-- **The server is the pool.** -/
theorem step_parts (s : TftpServer) (e : HostEvent) : (s.hostStep e).map parts = pool.step s.parts e.part := by
  have hstop : pool.stopped s.parts = s.dead := rfl
  cases hd : s.dead with
  | true =>
    have hnone : s.hostStep e = none := by
      cases h : s.hostStep e with
      | none => rfl
      | some s' => exact absurd (hostStep_cases h).1 (by rw [hd]; decide)
    unfold Pool.step
    rw [hnone, hstop, hd, if_pos rfl]
    rfl
  | false =>
    obtain ⟨hthrew, hsessions⟩ := Bool.or_eq_false_iff.1 hd
    have hbare : s.bare.dead = false := (Bool.or_false _).trans hthrew
    unfold Pool.step
    rw [hstop, hd, if_neg Bool.false_ne_true]
    cases e with
    | server e =>
      cases e with
      | listen past e =>
        have hs : (proactor past).step s e = ((proactor past).event s.bare e).map (beside s.sessions) := by
          rw [← event_beside, bare_beside, Proactor.step]
          exact if_neg (by rw [show (proactor past).threw s = false from hd]; decide)
        have hb : (proactor past).step s.bare.bare e = (proactor past).event s.bare e :=
          if_neg (by rw [show (proactor past).threw s.bare.bare = false from hbare]; decide)
        change Option.map parts ((proactor past).step s e) =
          Option.map _ (Option.map _ ((proactor past).step s.bare.bare e))
        rw [hs, hb]
        cases (proactor past).event s.bare e <;> rfl
      | session n e =>
        change Option.map parts (if s.dead then none else s.sessions[n]?.bind _) = s.sessions[n]?.bind _
        rw [hd, if_neg Bool.false_ne_true]
        cases s.sessions[n]? with
        | none => rfl
        | some x =>
          change Option.map parts ((x.step e).map _) = (x.step e).map _
          cases x.step e <;> rfl
    | changes os =>
      change Option.map parts (if s.dead then none else _) = Option.map _ (Option.map _ (if s.bare.dead then none else _))
      rw [hd, hbare]
      exact congrArg some (congrArg (Pool.State.mk _) (List.append_nil _).symm)
    | rewritten n content =>
      change Option.map parts (if s.dead then none else s.sessions[n]?.map _) = s.sessions[n]?.bind _
      rw [hd, if_neg Bool.false_ne_true]
      cases hx : s.sessions[n]? with
      | none => rfl
      | some x =>
        have halive : x.threw = false := by
          have hall := List.any_eq_false.1 hsessions x (List.mem_of_getElem? hx)
          exact Bool.eq_false_iff.2 hall
        change _ = Option.map _ (if x.threw then none else _)
        rw [halive]
        rfl

variable {os : OperatingSystem} {root : Bytes}

theorem run_parts (s : TftpServer) (es : List HostEvent) :
    ((system os root).run s es).map parts = (pool.system s.bare).run s.parts (es.map HostEvent.part) := by
  have key : ∀ (b s : TftpServer), ((system os root).run s es).map parts =
      (pool.system b).run s.parts (es.map HostEvent.part) := by
    intro b
    induction es with
    | nil => exact fun _ => rfl
    | cons e es ih =>
      intro s
      change ((s.hostStep e).bind _).map parts = (pool.step s.parts e.part).bind _
      rw [← step_parts]
      cases s.hostStep e with
      | none => rfl
      | some t => exact ih t
  exact key s.bare s

/-! ## The datagram that starts a session -/

/-- What the listening socket has received is the datagram that has arrived last. -/
structure Heard (es : List HostEvent) (s : TftpServer) : Prop where
  inv : s.Inv
  box : ∀ n, ((), ErrorCode.success, n) ∈ s.io.arrivals →
    ∃ past d, .server (.listen past (.deliver s.currAccEndpoint d)) ∈ es ∧
      n = min d.length bufsize ∧ s.buffer.take n = d.take bufsize

theorem Heard.step {es : List HostEvent} {s s' : TftpServer} (h : Heard es s) {e : HostEvent}
    (he : s.hostStep e = some s') : Heard (es ++ [e]) s' := by
  have hinv := h.inv
  obtain ⟨-, hcase⟩ := hostStep_cases he
  refine ⟨hcase.inv hinv, ?_⟩
  -- what has arrived before is still there
  have hkeep : ∀ {t : TftpServer}, (∀ x, x ∈ t.io.arrivals → x ∈ s.io.arrivals) →
      t.currAccEndpoint = s.currAccEndpoint → t.buffer = s.buffer → ∀ n, ((), ErrorCode.success, n) ∈ t.io.arrivals →
        ∃ past d, .server (.listen past (.deliver t.currAccEndpoint d)) ∈ es ++ [e] ∧ n = min d.length bufsize ∧
          t.buffer.take n = d.take bufsize := by
    intro t harr hcur hbuf n hn
    obtain ⟨past, d, hmem, hd⟩ := h.box n (harr _ hn)
    exact ⟨past, d, List.mem_append_left _ (by rw [hcur]; exact hmem), by rw [hbuf]; exact hd⟩
  clear he
  cases hcase with
  | changes _ => exact hkeep (fun _ hx => hx) rfl rfl
  | rewritten _ _ => exact hkeep (fun _ hx => hx) rfl rfl
  | @server e _ he =>
    cases e with
    | session n e =>
      change (if s.dead then none else _) = some s' at he
      split_ifs at he
      obtain ⟨x, -, he⟩ := Option.bind_eq_some_iff.1 he
      obtain ⟨x', -, rfl⟩ := Option.map_eq_some_iff.1 he
      exact hkeep (fun _ hx => hx) rfl rfl
    | listen past e =>
      obtain ⟨-, hstep⟩ := Proactor.step_cases he
      clear he
      cases hstep with
      | start hst => exact absurd hinv.started (by rw [show s.io.started = false from hst]; decide)
      | @deliver src d r rs hr =>
        have hreceived : s.io.received = [] := by
          have := hinv.tokens
          rw [Io.tokens, show s.io.receives = r :: rs from hr, List.length_cons] at this
          exact List.length_eq_zero_iff.1 (by omega)
        intro n hn
        rw [Io.mem_arrivals] at hn
        change ((), ErrorCode.success, n) ∈ s.io.received ++ [(r, .success, min d.length s.buffer.length)] at hn
        rw [hreceived, List.nil_append, List.mem_singleton] at hn
        obtain rfl : n = min d.length s.buffer.length := congrArg (·.2.2) hn
        refine ⟨past, d, List.mem_append_right _ (List.mem_singleton_self _), by rw [hinv.buffer], ?_⟩
        have hl : min d.length s.buffer.length = (d.take s.buffer.length).length := by
          rw [List.length_take, Nat.min_comm]
        change ((d.take s.buffer.length) ++ s.buffer.drop (d.take s.buffer.length).length).take _ = _
        rw [hl, List.take_left, hinv.buffer]
      | @receiveFails err r rs hr hne =>
        refine hkeep (fun x hx => ?_) rfl rfl
        change x ∈ List.filter _ (s.io.received ++ [(r, err, 0)]) at hx
        rw [List.filter_append, List.filter_cons_of_neg (by simpa using hne), List.filter_nil, List.append_nil] at hx
        exact hx
      | sendCompletes _ => exact hkeep (fun _ hx => hx) rfl rfl
      | expire _ => exact hkeep (fun _ hx => hx) rfl rfl
      | @runReceive i r err n hr =>
        obtain ⟨-, h0⟩ := Io.tokens_eraseIdx_received hr hinv.tokens
        have harr : ∀ t : TftpServer, t.io.isOpen = true → t.io.arrivals = [] →
            (handleRequest past err n t).io.arrivals = [] := by
          intro t hopen ht
          by_cases herr : err = .success
          · subst herr
            exact (handles past n hopen).grows.2.2.trans ht
          · rw [handleRequest, if_neg herr]
            exact ht
        have hempty : (handleRequest past err n ((proactor past).setIo
            { (proactor past).io s with received := ((proactor past).io s).received.eraseIdx i } s)).io.arrivals = [] :=
          harr _ hinv.isOpen (Io.arrivals_eq_nil h0)
        intro m hm
        change _ ∈ (handleRequest past err n ((proactor past).setIo
          { (proactor past).io s with received := ((proactor past).io s).received.eraseIdx i } s)).io.arrivals at hm
        rw [hempty] at hm
        cases hm
      | runSend _ => exact hkeep (fun _ hx => hx) rfl rfl
      | runTimer _ => exact hkeep (fun _ hx => hx) rfl rfl

theorem heard {es : List HostEvent} {s : TftpServer} (h : (system os root).run (new os root) es = some s) :
    Heard es s := by
  induction es using List.reverseRecOn generalizing s with
  | nil =>
    cases h
    exact ⟨@reach_inv os root _ (.init rfl), fun n hn => by cases hn⟩
  | append_singleton es e ih =>
    rw [Lts.run_append] at h
    obtain ⟨t, ht, hr⟩ := Option.bind_eq_some_iff.1 h
    obtain ⟨t', he, hr⟩ := Option.bind_eq_some_iff.1 hr
    cases hr
    exact (ih ht).step he

end TftpServer

namespace HostEvent

def finds (os : OperatingSystem) : HostEvent → OperatingSystem
  | changes os' => os'
  | _ => os

/-- What new transfers find after the events `es`. -/
def found (os : OperatingSystem) (es : List HostEvent) : OperatingSystem := es.foldl finds os

end HostEvent

namespace TftpServer
variable {os : OperatingSystem} {root : Bytes}

theorem hostStep_os {s s' : TftpServer} (hs : s.Inv) {e : HostEvent} (h : s.hostStep e = some s') :
    s'.os = e.finds s.os := by
  cases (hostStep_cases h).2 with
  | changes os => rfl
  | rewritten _ _ => rfl
  | @server e _ he =>
    cases e with
    | listen past e => exact (listen_startsOne hs he).os
    | session n e =>
      obtain ⟨-, he⟩ := Option.ite_none_left_eq_some.1 he
      obtain ⟨x, -, he⟩ := Option.bind_eq_some_iff.1 he
      obtain ⟨x', -, rfl⟩ := Option.map_eq_some_iff.1 he
      rfl

theorem run_os {es : List HostEvent} {s : TftpServer} (h : (system os root).run (new os root) es = some s) :
    s.os = HostEvent.found os es := by
  induction es using List.reverseRecOn generalizing s with
  | nil =>
    cases h
    rfl
  | append_singleton es e ih =>
    rw [Lts.run_append] at h
    obtain ⟨t, ht, hr⟩ := Option.bind_eq_some_iff.1 h
    obtain ⟨t', he, hr⟩ := Option.bind_eq_some_iff.1 hr
    cases hr
    rw [HostEvent.found, List.foldl_append]
    change s.os = e.finds (HostEvent.found os es)
    rw [← ih ht]
    exact hostStep_os (heard ht).inv he

/-- The session that a server which finds `os` starts for the datagram `d` from `src`. -/
def StartsFor (os : OperatingSystem) (root past : Bytes) (src : Endpoint) (d : Bytes) (x : Session) : Prop :=
  ((request past d).2.isRRQ ∨ (request past d).2.isWRQ) ∧
    ∃ p, x = (new os root).sessionOf (request past d).2 p src ∧
      ((new os root).admission (request past d).2 = .ok none ∧ p = {} ∨
        ∃ values, (new os root).admission (request past d).2 = .ok (some values) ∧
          p = paramsOf ((new os root).respond (request past d).2) values src)

theorem Handles.startsFor {past : Bytes} {n : ℕ} {s s' : TftpServer} (h : Handles past n s s') (hos : s.os = os)
    (hroot : s.rootfolder = root) {d : Bytes} (hd : s.buffer.take n = d.take bufsize) {new : List Session}
    (hs : s'.sessions = s.sessions ++ new) {x : Session} (hx : x ∈ new) :
    new = [x] ∧ StartsFor os root past s.currAccEndpoint d x := by
  subst hos hroot
  have hr : s.received past n = request past d := congrArg (RequestMessage.decode past {}) hd
  have hone : ∀ y, s'.sessions = s.sessions ++ [y] → new = [x] ∧ x = y := by
    intro y hy
    rw [hs, List.append_cancel_left_eq] at hy
    rw [hy, List.mem_singleton] at hx
    exact ⟨by rw [hy, hx], hx⟩
  have hnone : s'.sessions ≠ s.sessions := fun hy => by
    rw [hs, List.append_right_eq_self] at hy
    rw [hy] at hx
    cases hx
  unfold StartsFor
  rw [← hr]
  cases h with
  | ignored _ => exact absurd rfl hnone
  | thrown _ _ => exact absurd rfl hnone
  | invalid hreq hp =>
    obtain ⟨h1, h2⟩ := hone _ rfl
    exact ⟨h1, hreq, {}, h2, .inl ⟨hp, rfl⟩⟩
  | @valid values hreq hp =>
    obtain ⟨h1, h2⟩ := hone _ rfl
    exact ⟨h1, hreq, _, h2, .inr ⟨values, hp, rfl⟩⟩

/-- A session is started by the handler of a datagram. -/
theorem step_starts {es : List HostEvent} {s s' : TftpServer}
    (h : (system os root).run (new os root) es = some s) {e : BaseEvent} (he : s.baseStep e = some s')
    {new : List Session} (hs : s'.sessions = s.sessions ++ new) {x : Session} (hx : x ∈ new) :
    new = [x] ∧ ∃ past i, e = .listen past (.runReceive i) ∧ ∃ past' src d,
      .server (.listen past' (.deliver src d)) ∈ es ∧ StartsFor (HostEvent.found os es) root past src d x := by
  have hinit : (system os root).Reach (TftpServer.new os root) := .init rfl
  have hreach := hinit.run h
  have hheard := heard h
  have hne : ∀ {t : TftpServer}, t.sessions = s.sessions → t.sessions = s.sessions ++ new → False := by
    intro t h1 h2
    rw [h1, List.self_eq_append_right] at h2
    rw [h2] at hx
    cases hx
  cases e with
  | changes os' =>
    obtain ⟨-, he⟩ := Option.ite_none_left_eq_some.1 he
    obtain rfl := Option.some.inj he
    exact (hne (t := { s with os := os' }) rfl hs).elim
  | listen past e =>
    obtain ⟨-, hstep⟩ := Proactor.step_cases he
    clear he
    cases hstep with
    | @runReceive i r err n hr =>
      by_cases herr : err = .success
      · subst herr
        have hopen : s.io.isOpen = true := hheard.inv.isOpen
        obtain ⟨past', d, hmem, -, hd⟩ := hheard.box n (Io.mem_arrivals.2 (List.mem_of_getElem? hr))
        have hh := @handles past n { s with io := { s.io with received := s.io.received.eraseIdx i } } hopen
        have hos : s.os = HostEvent.found os es := run_os h
        have hroot : s.rootfolder = root := reach_rootfolder hreach
        obtain ⟨h1, h2⟩ := hh.startsFor hos hroot hd hs hx
        exact ⟨h1, past, i, rfl, past', _, d, hmem, h2⟩
      · refine (hne (t := handleRequest past err n
          { s with io := { s.io with received := s.io.received.eraseIdx i } }) ?_ hs).elim
        rw [handleRequest, if_neg herr]
    | _ => exact (hne rfl hs).elim

end TftpServer

namespace HostEvent

/-- The events of the listening socket, with what followed the received message in memory,
    and the changes of what new transfers find. -/
def base (es : List HostEvent) : List TftpServer.BaseEvent := PoolEvent.calls (es.map part)

/-- The events of the session `n`, and the changes of its file. -/
def own (n : ℕ) (es : List HostEvent) : List SessionEvent := PoolEvent.own n (es.map part)

theorem own_append (n : ℕ) (es es' : List HostEvent) : own n (es ++ es') = own n es ++ own n es' := by
  rw [own, List.map_append]
  exact List.filterMap_append

def isOf (K : ℕ → Bool) (e : HostEvent) : Bool := e.part.isOf K

/-- Whether the events of each session come after the request that starts it. -/
def inOrder (os : OperatingSystem) (root : Bytes) (es : List HostEvent) : Bool :=
  TftpServer.pool.admissible (TftpServer.new os root) 0 (es.map part)

end HostEvent

namespace TftpServer
variable {os : OperatingSystem} {root : Bytes} {es : List HostEvent} {s : TftpServer}

theorem run_eq_pool (os : OperatingSystem) (root : Bytes) (es : List HostEvent) :
    ((system os root).run (new os root) es).map parts =
      (pool.system (new os root)).run ⟨new os root, []⟩ (es.map HostEvent.part) :=
  run_parts _ es

theorem run_pool (h : (system os root).run (new os root) es = some s) :
    (pool.system (new os root)).run ⟨new os root, []⟩ (es.map HostEvent.part) = some s.parts := by
  rw [← run_eq_pool, h]
  rfl

/-- The request that a session was started for, and what it has done since. -/
structure Origin (os : OperatingSystem) (root : Bytes) (es₁ es₂ : List HostEvent) (n : ℕ) (src : Endpoint) (d : Bytes)
    (x₀ x : Session) : Prop where
  handled : ∃ past i es', es₂ = .server (.listen past (.runReceive i)) :: es' ∧
    StartsFor (HostEvent.found os es₁) root past src d x₀
  arrived : ∃ past, .server (.listen past (.deliver src d)) ∈ es₁
  before : ∃ t, (system os root).run (new os root) es₁ = some t ∧ t.sessions.length = n
  run : Session.system.run x₀ (HostEvent.own n es₂) = some x

theorem session_origin (h : (system os root).run (new os root) es = some s) {n : ℕ} {x : Session}
    (hx : s.sessions[n]? = some x) : ∃ es₁ es₂ src d x₀, es = es₁ ++ es₂ ∧ Origin os root es₁ es₂ n src d x₀ x := by
  obtain ⟨fs₁, a, fs₂, u, b, first, x₀, hes, hu, hstop, hb, hle, hfirst, hrun⟩ :=
    Pool.run_started (run_pool h) (Nat.zero_le n) hx
  obtain ⟨es₁, es₂', rfl, rfl, hes₂⟩ := List.map_eq_append_iff.1 hes
  obtain ⟨e, es₂, rfl, he, rfl⟩ := List.map_eq_cons_iff.1 hes₂
  -- the server before the request
  rw [Lts.run_append] at h
  obtain ⟨t, ht, hrest⟩ := Option.bind_eq_some_iff.1 h
  obtain ⟨t', ht', hrest⟩ := Option.bind_eq_some_iff.1 hrest
  obtain rfl : t.parts = u := Option.some.inj ((run_pool ht).symm.trans hu)
  have hstep := step_parts t e
  rw [show t.hostStep e = some t' from ht', he, Pool.step_base hstop hb] at hstep
  have hsessions : t'.sessions = t.sessions ++ first := congrArg Pool.State.components (Option.some.inj hstep)
  have hbase : t.baseStep a = some t' := by
    cases e with
    | rewritten n content => cases he
    | changes os' =>
      obtain rfl := PoolEvent.base.inj he
      exact ht'
    | server e =>
      cases e with
      | session m e => cases he
      | listen past e =>
        obtain rfl := PoolEvent.base.inj he
        exact ht'
  obtain ⟨rfl, past, i, rfl, past', src, d, hmem, hstart⟩ :=
    step_starts ht hbase hsessions (List.mem_of_getElem? hfirst)
  have hlength : t.sessions.length = n := by
    have hlt : n - t.sessions.length < 1 := (List.getElem?_eq_some_iff.1 hfirst).1
    have hle : t.sessions.length ≤ n := hle
    omega
  have he : e = .server (.listen past (.runReceive i)) := by
    cases e with
    | rewritten n content => cases he
    | changes os' => cases he
    | server e =>
      cases e with
      | session m e => cases he
      | listen past e =>
        cases he
        rfl
  exact ⟨es₁, e :: es₂, src, d, x₀, rfl, ⟨past, i, es₂, by rw [he], hstart⟩, ⟨past', hmem⟩, ⟨t, ht, hlength⟩,
    by rw [he]; exact hrun⟩

theorem Origin.run_all {es₁ es₂ : List HostEvent} {n : ℕ} {src : Endpoint} {d : Bytes} {x₀ x : Session}
    (h : Origin os root es₁ es₂ n src d x₀ x) : Session.system.run x₀ (HostEvent.own n (es₁ ++ es₂)) = some x := by
  obtain ⟨t, ht, hlength⟩ := h.before
  have hnone : HostEvent.own n es₁ = [] := Pool.own_eq_nil (run_pool ht) hlength.le
  rw [HostEvent.own_append, hnone]
  exact h.run

/-- Two clients read the same file, which changes in between. -/
def twoReads : List HostEvent := [
  .server (.listen [] (.deliver ⟨1, 1⟩ [0, 1, 102, 0, 111, 99, 116, 101, 116, 0])),
  .server (.listen [] (.runReceive 0)),
  .changes { oneFile with content := fun _ => some [8, 9] },
  .server (.listen [] (.deliver ⟨2, 2⟩ [0, 1, 102, 0, 111, 99, 116, 101, 116, 0])),
  .server (.listen [] (.runReceive 0))]

def sends (n : ℕ) : HostEvent := .server (.session n (.sendCompletes .success))

def runs (n : ℕ) : HostEvent := .server (.session n (.runSend 0))

/-- The first block of each of them has been sent, the one of the second client before the
    one of the first, and the file has changed again. -/
def secondFirst : List HostEvent := twoReads ++ [sends 1, .rewritten 1 [8, 9, 10], runs 1, sends 0]

theorem run_secondFirst : ∃ s x, (system oneFile slash).run (new oneFile slash) secondFirst = some s ∧
    s.dead = false ∧ s.sessions[1]? = some x ∧ x.wire = [(⟨2, 2⟩, dataBytes 1 [8, 9])] := by
  have hlook : ((system oneFile slash).run (new oneFile slash) secondFirst).map
      (fun s => (s.dead, s.sessions[1]?.map Session.wire)) = some (false, some [(⟨2, 2⟩, dataBytes 1 [8, 9])]) := by
    decide +kernel
  obtain ⟨s, hs, hlook⟩ := Option.map_eq_some_iff.1 hlook
  obtain ⟨hd, hx⟩ := Prod.mk.inj hlook
  obtain ⟨x, hx, hwire⟩ := Option.map_eq_some_iff.1 hx
  exact ⟨s, x, hs, hd, hx, hwire⟩

/-- **The order in which transfers are served makes no difference**, as long as each of them
    finds the same files.  A run in which no exception is thrown leads to the same state,
    datagram for datagram, if the events of the listening socket together with the changes of
    what new transfers find, and those of each session together with the changes of its file,
    are interleaved in any other way. -/
theorem interleaving_irrelevant (h : (system os root).run (new os root) es = some s) (hd : s.dead = false)
    {es' : List HostEvent} (hbase : HostEvent.base es' = HostEvent.base es)
    (hown : ∀ n, HostEvent.own n es' = HostEvent.own n es) (ho : HostEvent.inOrder os root es' = true) :
    (system os root).run (new os root) es' = some s := by
  have hrun := Pool.run_interleaving (run_pool h) hd hbase hown ho
  rw [← run_eq_pool] at hrun
  obtain ⟨t, ht, heq⟩ := Option.map_eq_some_iff.1 hrun
  rw [ht, parts_injective heq]

theorem interleaving_irrelevant_two_reads : ∃ s,
    (system oneFile slash).run (new oneFile slash) secondFirst = some s ∧
      (system oneFile slash).run (new oneFile slash)
        (twoReads ++ [sends 1, sends 0, .rewritten 1 [8, 9, 10], runs 1]) = some s := by
  obtain ⟨s, -, hs, hd, -⟩ := run_secondFirst
  refine ⟨s, hs, interleaving_irrelevant hs hd rfl (fun n => ?_) (by decide +kernel)⟩
  match n with
  | 0 | 1 => rfl
  | n + 2 => rfl

/-- **A transfer affects the others through the files alone.**  Without the events of some of
    its sessions, whatever these did and whoever caused it, a run of the server in which the
    files of the others change as before leads to the same listening socket and to the same
    other sessions. -/
theorem others_unaffected (h : (system os root).run (new os root) es = some s) (K : ℕ → Bool) :
    ∃ s', (system os root).run (new os root) (es.filter fun e => !e.isOf K) = some s' ∧ s'.bare = s.bare ∧
      s'.sessions.length = s.sessions.length ∧ ∀ n, K n = false → s'.sessions[n]? = s.sessions[n]? := by
  obtain ⟨u, hu, hw⟩ := Pool.run_without K (run_pool h)
  have hmap : (es.filter fun e => !e.isOf K).map HostEvent.part =
      (es.map HostEvent.part).filter fun a => !a.isOf K := by
    rw [List.filter_map]
    rfl
  rw [← hmap, ← run_eq_pool] at hu
  obtain ⟨s', hs', rfl⟩ := Option.map_eq_some_iff.1 hu
  exact ⟨s', hs', hw.base, hw.length, hw.others⟩

/-- The second client, without the first one. -/
theorem others_unaffected_second : ∃ s s', (system oneFile slash).run (new oneFile slash) secondFirst = some s ∧
    (system oneFile slash).run (new oneFile slash) (twoReads ++ [sends 1, .rewritten 1 [8, 9, 10], runs 1]) = some s' ∧
      s'.sessions[1]? = s.sessions[1]? := by
  obtain ⟨s, -, hs, -⟩ := run_secondFirst
  obtain ⟨s', hs', -, -, hsame⟩ := others_unaffected hs fun n => n == 0
  exact ⟨s, s', hs, hs', hsame 1 rfl⟩

end TftpServer

end Ttftp

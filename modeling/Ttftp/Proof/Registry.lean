/-
  The server's lists hold the running transfers, in every reachable state (`lists_exact`).

  A transfer runs its callback in the step that ends it (`Session.step_reported`), whatever
  branch ends it; the lists follow.
-/
import Ttftp.Lib.Registry
import Ttftp.Registry
import Ttftp.Proof.Course
import Ttftp.Proof.Server

namespace Ttftp

open Bytes Asio

/-! ## One transfer -/

namespace Session

/-- Whether a transfer has ended, and what it has reported. -/
def reports (x : Session) : Bool × List TftpUserFacingErrorCode := (x.operationEnded, x.callbacks)

end Session

/-- The callback runs when the operation ends, and only then. -/
inductive CallsBack : Bool × List TftpUserFacingErrorCode → Bool × List TftpUserFacingErrorCode → Prop
  | goesOn (x : Bool × List TftpUserFacingErrorCode) : CallsBack x x
  | ends (codes : List TftpUserFacingErrorCode) (code : TftpUserFacingErrorCode) :
      CallsBack (false, codes) (true, codes ++ [code])

theorem CallsBack.of_reported {σ H A : Type} {R : Reporter σ H A TftpUserFacingErrorCode} {s s' : σ}
    (h : R.Reported s s') : CallsBack (R.ended s, R.callbacks s) (R.ended s', R.callbacks s') := by
  cases h with
  | goesOn h1 h2 =>
    rw [h1, h2]
    exact .goesOn _
  | ends code hn he hc =>
    rw [hn, he, hc]
    exact .ends _ _

/-- One callback for each end. -/
theorem CallsBack.count {x y : Bool × List TftpUserFacingErrorCode} (h : CallsBack x y)
    (hx : x.2.length = x.1.toNat) : y.2.length = y.1.toNat := by
  cases h with
  | goesOn => exact hx
  | ends codes code =>
    change codes.length = 0 at hx
    change (codes ++ [code]).length = 1
    rw [List.length_append, hx]
    rfl

theorem CallsBack.cases {x y : Bool × List TftpUserFacingErrorCode} (h : CallsBack x y) :
    y = x ∨ x.1 = false ∧ y.1 = true ∧ ∃ code, y.2 = x.2 ++ [code] := by
  cases h with
  | goesOn => exact .inl rfl
  | ends _ code => exact .inr ⟨rfl, rfl, code, rfl⟩

namespace Session

theorem step_reported {x x' : Session} {e : Event Endpoint} (h : x.step e = some x') :
    x'.isSender = x.isSender ∧ CallsBack x.reports x'.reports := by
  cases x with
  | sender s =>
    obtain ⟨s', hs, rfl⟩ := Option.map_eq_some_iff.1 h
    exact ⟨rfl, .of_reported (Tftpsender.handles.step_reported hs)⟩
  | receiver r =>
    obtain ⟨r', hr, rfl⟩ := Option.map_eq_some_iff.1 h
    exact ⟨rfl, .of_reported (TftpReceiver.handles.step_reported hr)⟩

end Session

/-- A transfer may end in its own start. -/
theorem TftpServer.sessionOf_reported (request : RequestMessage) (p : SessionParams) (s : TftpServer)
    (client : Endpoint) : CallsBack (false, []) (s.sessionOf request p client).reports := by
  unfold sessionOf
  split_ifs
  · exact .of_reported (Tftpsender.Course.start (Tftpsender.newConnected { started := true, wire := p.sent }
      (.ofFile (s.os.content (s.path request))) client p.expected_ack p.blocksize_to_use p.timeout_to_use)).reported
  · exact .of_reported (TftpReceiver.Course.start (TftpReceiver.newConnected { started := true, wire := p.sent }
      (s.os.output (s.path request)) client p.blocksize_to_use p.timeout_to_use)).reported

/-! ## The lists -/

namespace TransferLists
variable (x : Session) (n : ℕ) (l : TransferLists) (isSender : Bool)

/-- The list of a class. -/
def list : List ℕ := if isSender then l.mSenderList else l.mReceiverList

theorem list_register : (l.register x n).list isSender =
    if x.isSender = isSender then l.list isSender ++ [n] else l.list isSender := by
  cases x <;> cases isSender <;> rfl

theorem list_handleOperationFinished (err : TftpUserFacingErrorCode) :
    (l.handleOperationFinished x n err).list isSender =
      if x.isSender = isSender then (l.list isSender).filter (· ≠ n) else l.list isSender := by
  cases x <;> cases isSender <;> rfl

end TransferLists

/-- The transfers of a class whose operation has not ended. -/
def TftpServer.running (s : TftpServer) (isSender : Bool) : Set ℕ :=
  {n | ∃ x, s.sessions[n]? = some x ∧ x.isSender = isSender ∧ x.operationEnded = false}

namespace RegisteredServer

/-- Whether the transfer `n` has ended, and what it has reported; nothing before it is started. -/
def reports (r : RegisteredServer) (n : ℕ) : Bool × List TftpUserFacingErrorCode :=
  (r.server.sessions[n]?.map Session.reports).getD (false, [])

/-- Each list registers the running transfers of its class, and each end is reported once. -/
structure Inv (r : RegisteredServer) : Prop where
  server : r.server.Inv
  lists : ∀ isSender, Registers (r.lists.list isSender) (r.server.running isSender)
  count : ∀ n, (r.reports n).2.length = (r.reports n).1.toNat

/-- A transfer is registered, and is started. -/
theorem registers_start {l : TransferLists} {isSender : Bool} {S : Set ℕ} (h : Registers (l.list isSender) S)
    {x : Session} {n : ℕ} (hn : n ∉ S) (hx : CallsBack (false, []) x.reports) :
    Registers (((l.register x n).finish x n x.callbacks).list isSender)
      {i | i ∈ S ∨ i = n ∧ x.isSender = isSender ∧ x.operationEnded = false} := by
  have hreg := l.list_register x n isSender
  rcases hx.cases with heq | ⟨-, he, code, hc⟩
  · have he : x.operationEnded = false := congrArg Prod.fst heq
    have hc : x.callbacks = [] := congrArg Prod.snd heq
    rw [hc]
    change Registers ((l.register x n).list isSender) _
    rw [hreg]
    split_ifs with hk
    · refine (h.push hn).congr fun i => ?_
      rw [Set.mem_insert_iff, Set.mem_ofPred_eq, or_comm, and_iff_left ⟨hk, he⟩]
    · refine h.congr fun i => ?_
      rw [Set.mem_ofPred_eq, or_iff_left fun hi => hk hi.2.1]
  · have he : x.operationEnded = true := he
    have hc : x.callbacks = [code] := hc
    have hS : ∀ i, i ∈ S ↔ i ∈ {i | i ∈ S ∨ i = n ∧ x.isSender = isSender ∧ x.operationEnded = false} := fun i => by
      rw [Set.mem_ofPred_eq, or_iff_left fun hi => Bool.false_ne_true (hi.2.2.symm.trans he)]
    rw [hc]
    change Registers (((l.register x n).handleOperationFinished x n code).list isSender) _
    rw [TransferLists.list_handleOperationFinished, hreg]
    split_ifs with hk
    · refine ((h.push hn).remove n).congr fun i => Iff.trans ?_ (hS i)
      rw [Set.mem_sdiff, Set.mem_insert_iff, Set.mem_singleton_iff]
      constructor
      · rintro ⟨hi, hne⟩
        exact hi.resolve_left hne
      · intro hi
        refine ⟨.inr hi, ?_⟩
        rintro rfl
        exact hn hi
    · exact h.congr hS

/-- A transfer makes its callbacks. -/
theorem registers_finish {l : TransferLists} {isSender : Bool} {S : Set ℕ} (h : Registers (l.list isSender) S)
    {x x' : Session} {n : ℕ} (hkind : x'.isSender = x.isSender) (hx : CallsBack x.reports x'.reports) :
    Registers ((l.finish x' n (x'.callbacks.drop x.callbacks.length)).list isSender)
      {i | i ∈ S ∧ ¬ (i = n ∧ x.isSender = isSender ∧ x.operationEnded ≠ x'.operationEnded)} := by
  rcases hx.cases with heq | ⟨hn, he, code, hc⟩
  · have he : x'.operationEnded = x.operationEnded := congrArg Prod.fst heq
    have hc : x'.callbacks = x.callbacks := congrArg Prod.snd heq
    rw [hc, List.drop_length]
    refine h.congr fun i => ?_
    rw [Set.mem_ofPred_eq, and_iff_left fun hi => hi.2.2 he.symm]
  · have hn : x.operationEnded = false := hn
    have he : x'.operationEnded = true := he
    have hc : x'.callbacks = x.callbacks ++ [code] := hc
    rw [hc, List.drop_left]
    change Registers ((l.handleOperationFinished x' n code).list isSender) _
    rw [TransferLists.list_handleOperationFinished, hkind]
    split_ifs with hk
    · refine (h.remove n).congr fun i => ?_
      rw [Set.mem_sdiff, Set.mem_singleton_iff, Set.mem_ofPred_eq, hn, he]
      exact and_congr_right fun _ => not_congr (and_iff_left ⟨hk, Bool.false_ne_true⟩).symm
    · refine h.congr fun i => ?_
      rw [Set.mem_ofPred_eq, and_iff_left fun hi => hk hi.2.1]

/-- A request leaves the sessions alone, or adds one. -/
theorem step_listen {r r' : RegisteredServer} (hr : r.Inv) {past : Bytes} {e : Event Endpoint}
    (h : r.step (.server (.listen past e)) = some r') :
    r'.Inv ∧ ∀ n, CallsBack (r.reports n) (r'.reports n) := by
  obtain ⟨s', hs, rfl⟩ := Option.map_eq_some_iff.1 h
  change r.server.step (.listen past e) = some s' at hs
  have hinv := hr.server.step hs
  rcases (TftpServer.listen_startsOne hr.server hs).sessions with ⟨hsame, -⟩ | ⟨request, p, client, hnew, -⟩
  · have hlists : afterListen r.server s' r.lists = r.lists := by
      rw [afterListen, hsame, List.getElem?_eq_none le_rfl]
    have hreports : ∀ n, reports ⟨s', afterListen r.server s' r.lists⟩ n = r.reports n := fun n => by
      rw [reports, hsame]
      rfl
    refine ⟨⟨hinv, fun isSender => ?_, fun n => ?_⟩, fun n => ?_⟩
    · change Registers ((afterListen r.server s' r.lists).list isSender) (s'.running isSender)
      rw [hlists, TftpServer.running, hsame]
      exact hr.lists isSender
    · have := hr.count n
      rwa [← hreports n] at this
    · rw [hreports]
      exact .goesOn _
  · obtain ⟨x, hx⟩ : ∃ x, x = r.server.sessionOf request p client := ⟨_, rfl⟩
    have hback : CallsBack (false, []) x.reports := by
      rw [hx]
      exact r.server.sessionOf_reported request p client
    rw [← hx] at hnew
    have hlast : s'.sessions[r.server.sessions.length]? = some x := by rw [hnew, List.getElem?_concat_length]
    have hold : ∀ n, n ≠ r.server.sessions.length → s'.sessions[n]? = r.server.sessions[n]? := fun n hn => by
      rw [hnew, List.getElem?_append]
      split_ifs with hlt
      · rfl
      · rw [List.getElem?_eq_none (by rw [List.length_singleton]; omega), List.getElem?_eq_none (by omega)]
    have hbefore : r.server.sessions[r.server.sessions.length]? = none := List.getElem?_eq_none le_rfl
    have hreports : ∀ n, CallsBack (r.reports n) (reports ⟨s', afterListen r.server s' r.lists⟩ n) := fun n => by
      rw [reports, reports]
      dsimp only
      by_cases hn : n = r.server.sessions.length
      · rw [hn, hbefore, hlast]
        exact hback
      · rw [hold n hn]
        exact .goesOn _
    refine ⟨⟨hinv, fun isSender => ?_, fun n => (hreports n).count (hr.count n)⟩, hreports⟩
    change Registers ((afterListen r.server s' r.lists).list isSender) (s'.running isSender)
    rw [afterListen, hlast]
    have hfresh : r.server.sessions.length ∉ r.server.running isSender := by
      rintro ⟨y, hy, -⟩
      rw [hbefore] at hy
      cases hy
    refine (registers_start (hr.lists isSender) hfresh hback).congr fun i => ?_
    rw [Set.mem_ofPred_eq, TftpServer.running, TftpServer.running, Set.mem_ofPred_eq, Set.mem_ofPred_eq]
    by_cases hi : i = r.server.sessions.length
    · rw [hi, hbefore, hlast]
      simp
    · rw [hold i hi, or_iff_left fun h => hi h.1]

/-- An event of a transfer changes its own session. -/
theorem step_session {r r' : RegisteredServer} (hr : r.Inv) {n : ℕ} {e : Event Endpoint}
    (h : r.step (.server (.session n e)) = some r') :
    r'.Inv ∧ ∀ n, CallsBack (r.reports n) (r'.reports n) := by
  obtain ⟨s', hs, rfl⟩ := Option.map_eq_some_iff.1 h
  have hinv := (TftpServer.hostStep_cases hs).2.inv hr.server
  simp only [TftpServer.hostStep, TftpServer.step] at hs
  split_ifs at hs
  obtain ⟨x, hx, hs⟩ := Option.bind_eq_some_iff.1 hs
  obtain ⟨x', hx', rfl⟩ := Option.map_eq_some_iff.1 hs
  obtain ⟨hkind, hback⟩ := Session.step_reported hx'
  have hlt := (List.getElem?_eq_some_iff.1 hx).1
  have hself : (r.server.sessions.set n x')[n]? = some x' := List.getElem?_set_self hlt
  have hother : ∀ i, i ≠ n → (r.server.sessions.set n x')[i]? = r.server.sessions[i]? := fun i hi =>
    List.getElem?_set_ne fun hn => hi hn.symm
  have hreports : ∀ i, CallsBack (r.reports i) (reports ⟨{ r.server with sessions := r.server.sessions.set n x' },
      afterSession n r.server { r.server with sessions := r.server.sessions.set n x' } r.lists⟩ i) := fun i => by
    rw [reports, reports]
    dsimp only
    by_cases hi : i = n
    · rw [hi, hx, hself]
      exact hback
    · rw [hother i hi]
      exact .goesOn _
  refine ⟨⟨hinv, fun isSender => ?_, fun i => (hreports i).count (hr.count i)⟩, hreports⟩
  change Registers ((afterSession n r.server { r.server with sessions := r.server.sessions.set n x' }
    r.lists).list isSender) (TftpServer.running { r.server with sessions := r.server.sessions.set n x' } isSender)
  rw [afterSession]
  dsimp only
  rw [hx, hself]
  refine (registers_finish (hr.lists isSender) hkind hback).congr fun i => ?_
  rw [Set.mem_ofPred_eq, TftpServer.running, TftpServer.running, Set.mem_ofPred_eq, Set.mem_ofPred_eq]
  dsimp only
  by_cases hi : i = n
  · rw [hi, hx, hself]
    have hends : x.operationEnded = true → x'.operationEnded = true := fun he => by
      rcases hback.cases with heq | ⟨hn, -⟩
      · exact (congrArg Prod.fst heq).trans he
      · cases he.symm.trans hn
    simp only [Option.some.injEq, exists_eq_left', hkind]
    cases he : x.operationEnded with
    | true => simp [hends he]
    | false => cases x'.operationEnded <;> simp
  · rw [hother i hi, and_iff_left fun h => hi h.1]

theorem reports_rewrite (content : Bytes) (x : Session) : (x.rewrite content).reports = x.reports := by
  cases x <;> rfl

/-- What the server finds makes no difference to the lists. -/
theorem step_rewritten {r r' : RegisteredServer} (hr : r.Inv) {n : ℕ} {content : Bytes}
    (h : r.step (.rewritten n content) = some r') :
    r'.Inv ∧ ∀ n, CallsBack (r.reports n) (r'.reports n) := by
  obtain ⟨s', hs, rfl⟩ := Option.map_eq_some_iff.1 h
  obtain ⟨-, hcase⟩ := TftpServer.hostStep_cases hs
  have hinv := hcase.inv hr.server
  clear h hs
  cases hcase with
  | @rewritten _ x hx _ =>
    have hlt := (List.getElem?_eq_some_iff.1 hx).1
    have hget : ∀ i, (r.server.sessions.set n (x.rewrite content))[i]? =
        r.server.sessions[i]?.map fun y => if i = n then y.rewrite content else y := fun i => by
      by_cases hi : i = n
      · rw [hi, hx, List.getElem?_set_self hlt]
        simp
      · rw [List.getElem?_set_ne fun hn => hi hn.symm]
        simp [hi]
    have hreports : ∀ i, reports ⟨{ r.server with sessions := r.server.sessions.set n (x.rewrite content) },
        r.lists⟩ i = r.reports i := fun i => by
      rw [reports, reports]
      dsimp only
      rw [hget, Option.map_map]
      refine congrArg (fun o => Option.getD o (false, [])) (congrArg (fun f => Option.map f _) ?_)
      funext y
      dsimp only [Function.comp]
      split_ifs
      · exact reports_rewrite _ _
      · rfl
    refine ⟨⟨hinv, fun isSender => (hr.lists isSender).congr fun i => ?_, fun i => ?_⟩, fun i => ?_⟩
    · rw [TftpServer.running, TftpServer.running, Set.mem_ofPred_eq, Set.mem_ofPred_eq]
      dsimp only
      rw [hget]
      cases r.server.sessions[i]? with
      | none => simp
      | some y =>
        simp only [Option.map_some, Option.some.injEq, exists_eq_left']
        split_ifs
        · cases y <;> exact Iff.rfl
        · exact Iff.rfl
    · have := hr.count i
      rwa [← hreports i] at this
    · change CallsBack _ (reports ⟨{ r.server with sessions := _ }, r.lists⟩ i)
      rw [hreports]
      exact .goesOn _

theorem Inv.step {r r' : RegisteredServer} (hr : r.Inv) {e : HostEvent} (h : r.step e = some r') :
    r'.Inv ∧ ∀ n, CallsBack (r.reports n) (r'.reports n) := by
  cases e with
  | server e =>
    cases e with
    | listen past e => exact step_listen hr h
    | session n e => exact step_session hr h
  | changes os =>
    obtain ⟨s', hs, rfl⟩ := Option.map_eq_some_iff.1 h
    obtain ⟨-, hcase⟩ := TftpServer.hostStep_cases hs
    have hinv := hcase.inv hr.server
    cases hcase with
    | changes os => exact ⟨⟨hinv, hr.lists, hr.count⟩, fun n => .goesOn _⟩
  | rewritten n content => exact step_rewritten hr h

variable {os : OperatingSystem} {root : Bytes}

/-- The runs are those of the server. -/
theorem run_server (r : RegisteredServer) (es : List HostEvent) :
    ((system os root).run r es).map server = (TftpServer.system os root).run r.server es := by
  induction es generalizing r with
  | nil => rfl
  | cons e es ih =>
    change ((r.step e).bind fun r' => (system os root).run r' es).map server =
      (r.server.hostStep e).bind fun s => (TftpServer.system os root).run s es
    rw [RegisteredServer.step]
    cases r.server.hostStep e with
    | none => rfl
    | some s => exact ih _

theorem Inv.new : Inv ⟨.new os root, {}⟩ where
  server := @TftpServer.reach_inv os root _ (.init rfl)
  lists isSender := by
    have hnil : (TransferLists.list {} isSender) = [] := by cases isSender <;> rfl
    rw [hnil]
    refine Registers.nil.congr fun n => ?_
    constructor
    · rintro ⟨⟩
    · rintro ⟨x, hx, -⟩
      cases hx
  count _ := rfl

theorem reach_inv {r : RegisteredServer} (h : (system os root).Reach r) : r.Inv := by
  refine h.inv Inv (fun r hr => ?_) fun r e r' _ hr hstep => (hr.step hstep).1
  obtain rfl : r = ⟨.new os root, {}⟩ := hr
  exact .new

/-- **The server's lists are exact.**  Whatever requests arrive, however they interleave
    with the events of the transfers, and however the files change, each list holds the transfers of its
    class that have not ended, each of them once; and every step runs the callback of a
    transfer exactly if it ends the transfer. -/
theorem lists_exact {es : List HostEvent} {r : RegisteredServer}
    (h : (system os root).run ⟨.new os root, {}⟩ es = some r) :
    Registers r.lists.mSenderList {n | ∃ s, r.server.sessions[n]? = some (.sender s) ∧ s.operationEnded = false} ∧
      Registers r.lists.mReceiverList
        {n | ∃ s, r.server.sessions[n]? = some (.receiver s) ∧ s.operationEnded = false} ∧
      (∀ x ∈ r.server.sessions, x.callbacks.length = x.operationEnded.toNat) ∧
      ∀ x ∈ (system os root).trace ⟨.new os root, {}⟩ es, ∀ n, CallsBack (x.1.reports n) (x.2.2.reports n) := by
  have hinit : (system os root).Reach ⟨.new os root, {}⟩ := .init rfl
  have hr := reach_inv (hinit.run h)
  refine ⟨(hr.lists true).congr fun n => ?_, (hr.lists false).congr fun n => ?_, fun x hx => ?_, fun x hx n => ?_⟩
  · constructor
    · rintro ⟨x, hx, hk, he⟩
      cases x with
      | sender s => exact ⟨s, hx, he⟩
      | receiver s => cases hk
    · rintro ⟨s, hs, he⟩
      exact ⟨.sender s, hs, rfl, he⟩
  · constructor
    · rintro ⟨x, hx, hk, he⟩
      cases x with
      | sender s => cases hk
      | receiver s => exact ⟨s, hx, he⟩
    · rintro ⟨s, hs, he⟩
      exact ⟨.receiver s, hs, rfl, he⟩
  · obtain ⟨n, hn⟩ := List.getElem?_of_mem hx
    have := hr.count n
    rwa [reports, hn] at this
  · obtain ⟨hreach, hstep⟩ := Lts.mem_trace hinit hx
    exact ((reach_inv hreach).step hstep).2 n

/-- Two read requests: the first one is being served, and the second one is for a file
    that is not there. -/
theorem lists_exact_two_reads : ∃ es r,
    (system TftpServer.oneFile TftpServer.slash).run ⟨.new TftpServer.oneFile TftpServer.slash, {}⟩ es = some r ∧
      r.server.sessions.length = 2 ∧ r.lists.mSenderList = [0] ∧ Registers r.lists.mSenderList
        {n | ∃ s, r.server.sessions[n]? = some (.sender s) ∧ s.operationEnded = false} := by
  obtain ⟨es, hes⟩ : ∃ es : List ServerEvent, es = [
      .listen [] (.deliver ⟨1, 1⟩ [0, 1, 102, 0, 111, 99, 116, 101, 116, 0]), .listen [] (.runReceive 0),
      .listen [] (.deliver ⟨2, 2⟩ [0, 1, 103, 0, 111, 99, 116, 101, 116, 0]), .listen [] (.runReceive 0)] := ⟨_, rfl⟩
  have hlook : ((system TftpServer.oneFile TftpServer.slash).run ⟨.new TftpServer.oneFile TftpServer.slash, {}⟩ (es.map .server)).map
      (fun r => (r.server.sessions.length, r.lists.mSenderList)) = some (2, [0]) := by
    rw [hes]
    decide +kernel
  obtain ⟨r, hr, hlook⟩ := Option.map_eq_some_iff.1 hlook
  exact ⟨es.map .server, r, hr, congrArg Prod.fst hlook, congrArg Prod.snd hlook, (lists_exact hr).1⟩

end RegisteredServer

end Ttftp

/-
  The server: what becomes of a datagram that it receives.

  `handleRequest_eq` follows a datagram through `HandleRequest`; it is refused by
  `refusals`, and then handed to `handleSubRequest_eq` whether or not it has been
  refused.  `server_survives_iff` says which datagrams end the server, and
  `all_or_nothing_iff` which ones are either admitted or refused.
-/
import Ttftp.Server
import Ttftp.Proof.Options
import Ttftp.Proof.Sender
import Ttftp.Proof.Receiver

namespace Ttftp

open Bytes Asio
open TransactionOptionValues (Acceptable FromMap optionsOf fromClient oackBytes)

namespace TftpServer

/-! ## The options of a request -/

theorem parseOptionFields_eq_ok_iff {request : RequestMessage} {v : TransactionOptionValues} :
    parseOptionFields request = .ok (some v) ↔ request.mOptionValues = ∅ ∧ v = {} ∨
      request.mOptionValues ≠ ∅ ∧ Acceptable request.mOptionValues ∧
        v = fromClient request.mOptionValues := by
  unfold parseOptionFields
  by_cases he : request.mOptionValues = ∅
  · rw [if_pos (Std.ExtTreeMap.isEmpty_iff.2 he)]
    simp [he, eq_comm]
  · rw [if_neg (mt Std.ExtTreeMap.isEmpty_iff.1 he)]
    simp only [he, false_and, ne_eq, not_false_eq_true, true_and, false_or]
    constructor
    · intro h
      cases hr : TransactionOptionValues.setOptionsFromMap request.mOptionValues {} with
      | error e => rw [hr] at h; cases h
      | ok r =>
        obtain ⟨b, w⟩ := r
        rw [hr] at h
        cases b with
        | false => cases h
        | true =>
          cases h
          obtain ⟨ha, rfl⟩ := TransactionOptionValues.setOptionsFromMap_eq_true_iff.1 hr
          exact ⟨ha, rfl⟩
    · rintro ⟨ha, rfl⟩
      rw [TransactionOptionValues.setOptionsFromMap_eq_true_iff.2 ⟨ha, rfl⟩]
      rfl

theorem parseOptionFields_eq_error_iff {request : RequestMessage} {e : Exn} :
    parseOptionFields request = .error e ↔
      e = .outOfRange ∧ timeoutName ∈ request.mOptionValues ∧ blksizeName ∉ request.mOptionValues := by
  unfold parseOptionFields
  by_cases he : request.mOptionValues = ∅
  · rw [if_pos (Std.ExtTreeMap.isEmpty_iff.2 he)]
    simp [he]
  · rw [if_neg (mt Std.ExtTreeMap.isEmpty_iff.1 he),
      ← @TransactionOptionValues.setOptionsFromMap_error_iff request.mOptionValues {}]
    cases TransactionOptionValues.setOptionsFromMap request.mOptionValues {} with
    | error e => simp [Except.map]
    | ok r => simp [Except.map]

/-- The options that are used have been set from a map, or are the defaults. -/
theorem fromMap_of_parseOptionFields {request : RequestMessage} {v : TransactionOptionValues}
    (h : parseOptionFields request = .ok (some v)) : v.FromMap := by
  rcases parseOptionFields_eq_ok_iff.1 h with ⟨-, rfl⟩ | ⟨-, ha, rfl⟩
  · exact ⟨fun n hn => (by cases hn), fun t ht => (by cases ht)⟩
  · exact ⟨ha.fromMap.blksize, ha.fromMap.timeout⟩

/-! ## The sub-handlers -/

/-- What is passed on to the session after valid options. -/
def paramsOf (respond : TransactionOptionValues → TransactionOptionValues)
    (values : TransactionOptionValues) (client : Endpoint) : SessionParams :=
  if values.wasSetByClient then {
    sent := [(client, (respond values).oackBytes)]
    expected_ack := 0
    blocksize_to_use := values.mBlocksize.getD defaultBlocksize
    timeout_to_use := values.mTimeout.getD retransmissionTime }
  else {}

theorem paramsOf_fromClient (respond : TransactionOptionValues → TransactionOptionValues) (m : OptMap)
    (client : Endpoint) : paramsOf respond (fromClient m) client = {
      sent := [(client, (respond (fromClient m)).oackBytes)]
      expected_ack := 0
      blocksize_to_use := (optionsOf m).mBlocksize.getD defaultBlocksize
      timeout_to_use := (optionsOf m).mTimeout.getD retransmissionTime } := rfl

/-- The refusal of invalid options. -/
def optionsError : Bytes :=
  ErrorMessage.encode ⟨TftpErrorCode.optNegotiation.toUInt16,
    ascii "Option negotiation error: one of the option fields contained an invalid value"⟩

def sendDatagram (d : Bytes) (s : TftpServer) : TftpServer :=
  { s with io := s.io.asyncSendDetached s.currAccEndpoint d }

theorem answerOptions_eq {queries : TransactionOptionValues → Bool}
    {respond : TransactionOptionValues → TransactionOptionValues} (hq : queries {} = true)
    (hr : ∀ v, (respond v).mBlocksize = v.mBlocksize) (request : RequestMessage) (s : TftpServer) :
    s.answerOptions queries respond request =
      if !s.os.sockets then .error .systemError
      else match parseOptionFields request with
        | .error e => .error e
        | .ok none => .ok ({}, s.sendDatagram optionsError)
        | .ok (some values) =>
          if queries values then .ok (paramsOf respond values s.currAccEndpoint, s) else .error .systemError := by
  unfold answerOptions
  split_ifs with hs
  · rfl
  · cases hp : parseOptionFields request with
    | error e => rfl
    | ok o =>
      cases o with
      | none => rfl
      | some v =>
        have hsmall : (respond v).Small := fun n hn =>
          (fromMap_of_parseOptionFields hp).small n (by rwa [hr v] at hn)
        dsimp only
        rw [TransactionOptionValues.encode_getOptionsAsMap hsmall, paramsOf]
        rcases parseOptionFields_eq_ok_iff.1 hp with ⟨-, rfl⟩ | ⟨-, -, rfl⟩
        · rw [if_pos hq]
          rfl
        · cases queries (fromClient request.mOptionValues) <;> rfl

section
variable (request : RequestMessage) (p : SessionParams) (s : TftpServer)

def path : Bytes := s.rootfolder ++ request.mFilename

/-- What the sub-handlers make of the options of a request: they throw, or the options are
    invalid, or they are answered. -/
def admission : Except Exn (Option TransactionOptionValues) :=
  if !s.os.sockets then .error .systemError
  else match parseOptionFields request with
    | .error e => .error e
    | .ok none => .ok none
    | .ok (some values) =>
      if request.isRRQ || s.spaceKnown values then .ok (some values) else .error .systemError

/-- The values that a request is answered with. -/
def respond (values : TransactionOptionValues) : TransactionOptionValues :=
  if request.isRRQ then respondWithSize (s.os.fileSize (s.path request)) values else values

/-- The session of a request. -/
def sessionOf (client : Endpoint) : Session :=
  if request.isRRQ then
    .sender (Tftpsender.newConnected { started := true, wire := p.sent }
      (.ofFile (s.os.content (s.path request))) client p.expected_ack p.blocksize_to_use
      p.timeout_to_use).start
  else
    .receiver (TftpReceiver.newConnected { started := true, wire := p.sent }
      (s.os.output (s.path request)) client p.blocksize_to_use p.timeout_to_use).start

def startSession : TftpServer :=
  { s with
    opened := s.opened ++ [s.path request]
    sessions := s.sessions ++ [s.sessionOf request p s.currAccEndpoint] }

theorem respond_mBlocksize (values : TransactionOptionValues) :
    (s.respond request values).mBlocksize = values.mBlocksize := by
  unfold respond respondWithSize
  split_ifs <;> rfl

theorem admission_eq_none_iff : s.admission request = .ok none ↔
    s.os.sockets = true ∧ parseOptionFields request = .ok none := by
  unfold admission
  cases s.os.sockets with
  | false => simp
  | true =>
    rw [if_neg (by decide)]
    cases parseOptionFields request with
    | error e => simp
    | ok o =>
      cases o with
      | none => simp
      | some v =>
        dsimp only
        split_ifs <;> simp

theorem admission_eq_some_iff {values : TransactionOptionValues} : s.admission request = .ok (some values) ↔
    s.os.sockets = true ∧ parseOptionFields request = .ok (some values) ∧
      (request.isRRQ || s.spaceKnown values) = true := by
  unfold admission
  cases s.os.sockets with
  | false => simp
  | true =>
    rw [if_neg (by decide)]
    cases parseOptionFields request with
    | error e => simp
    | ok o =>
      cases o with
      | none => simp
      | some v =>
        dsimp only
        split_ifs with hv
        · simp only [Except.ok.injEq, Option.some.injEq, true_and]
          exact ⟨fun h => ⟨h, h ▸ hv⟩, fun h => h.1⟩
        · simp only [Except.ok.injEq, Option.some.injEq, true_and, false_iff, not_and]
          exact fun h hq => hv (h ▸ hq)

/-- What makes the sub-handlers throw: no socket can be opened; a timeout without a block size; or
    an upload with a size, where the space is not known. -/
inductive Throws : Prop
  | socket (h : s.os.sockets = false)
  | lookup (ht : timeoutName ∈ request.mOptionValues) (hb : blksizeName ∉ request.mOptionValues)
  | space {values : TransactionOptionValues} (hr : request.isRRQ = false)
      (hv : parseOptionFields request = .ok (some values)) (hs : s.spaceKnown values = false)

theorem throws_iff : Throws request s ↔ ∃ e, s.admission request = .error e := by
  constructor
  · intro h
    unfold admission
    split_ifs with hs
    · exact ⟨_, rfl⟩
    · cases h with
      | socket h => exact absurd (congrArg not h) hs
      | lookup ht hb => exact ⟨_, by rw [parseOptionFields_eq_error_iff.2 ⟨rfl, ht, hb⟩]⟩
      | space hr hv hq => exact ⟨.systemError, by rw [hv]; exact if_neg (by simp [hr, hq])⟩
  · rintro ⟨e, h⟩
    unfold admission at h
    split_ifs at h with hs
    · exact .socket (by simpa using hs)
    · cases hp : parseOptionFields request with
      | error e =>
        obtain ⟨-, ht, hb⟩ := parseOptionFields_eq_error_iff.1 hp
        exact .lookup ht hb
      | ok o =>
        rw [hp] at h
        cases o with
        | none => cases h
        | some values =>
          dsimp only at h
          split_ifs at h with hv
          simp only [Bool.or_eq_true, not_or, Bool.not_eq_true] at hv
          exact .space hv.1 hp hv.2

end

/-- **What the sub-handlers do with a request.** -/
theorem handleSubRequest_eq {request : RequestMessage} (h : request.isRRQ ∨ request.isWRQ)
    (s : TftpServer) : s.handleSubRequest request = match s.admission request with
      | .error e => .error e
      | .ok none => .ok ((s.sendDatagram optionsError).startSession request {})
      | .ok (some values) =>
        .ok (s.startSession request (paramsOf (s.respond request) values s.currAccEndpoint)) := by
  unfold handleSubRequest
  cases hr : request.isRRQ with
  | true =>
    have hres : s.respond request = respondWithSize (s.os.fileSize (s.path request)) := by
      funext v
      rw [respond, if_pos hr]
    rw [if_pos rfl, handleSubRequest_RRQ]
    rw [answerOptions_eq rfl (by unfold respondWithSize; intro v; split_ifs <;> rfl), hres, admission, hr]
    have hstart : ∀ (p : SessionParams) (s : TftpServer),
        s.startSender (s.path request) p = s.startSession request p := by
      intro p s
      rw [startSession, sessionOf, if_pos hr]
      rfl
    cases s.os.sockets with
    | false => rfl
    | true =>
      cases parseOptionFields request with
      | error e => rfl
      | ok o => cases o <;> exact congrArg Except.ok (hstart _ _)
  | false =>
    have hw : request.isWRQ = true := by simpa [hr] using h
    have hres : s.respond request = id := by
      funext v
      rw [respond, hr]
      rfl
    rw [if_neg (by decide), if_pos hw, handleSubRequest_WRQ]
    rw [@answerOptions_eq _ id rfl fun _ => rfl, hres, admission, hr]
    have hstart : ∀ (p : SessionParams) (s : TftpServer),
        s.startReceiver (s.path request) p = s.startSession request p := by
      intro p s
      rw [startSession, sessionOf, hr]
      rfl
    split_ifs
    · rfl
    · cases parseOptionFields request with
      | error e => rfl
      | ok o =>
        cases o with
        | none => exact congrArg Except.ok (hstart _ _)
        | some values =>
          simp only [Bool.false_or]
          split_ifs
          · exact congrArg Except.ok (hstart _ _)
          · rfl

/-- The start of a session does not throw. -/
theorem sessionOf_threw (request : RequestMessage) (p : SessionParams) (s : TftpServer) (client : Endpoint) :
    (s.sessionOf request p client).threw = false := by
  unfold sessionOf
  split_ifs
  · refine Tftpsender.start_threw ⟨rfl, List.length_replicate, ?_, rfl⟩
    cases s.os.content (s.path request) <;> exact Nat.zero_le _
  · exact TftpReceiver.start_threw _

theorem startThrew_startSession {s t : TftpServer} (ht : t.sessions = s.sessions) (request : RequestMessage)
    (p : SessionParams) : startThrew s (t.startSession request p) = false := by
  rw [startThrew, startSession, ht, List.drop_left, List.any_cons, List.any_nil, Bool.or_false]
  exact sessionOf_threw _ _ _ _

/-! ## Received datagrams -/

/-- The refusal of a datagram without an opcode. -/
def opcodeError : Bytes :=
  ErrorMessage.encode ⟨TftpErrorCode.illegalOp.toUInt16, ascii "Did not receive a valid opcode"⟩

/-- The refusal of a datagram that is not decoded. -/
def requestError : Bytes :=
  ErrorMessage.encode ⟨TftpErrorCode.illegalOp.toUInt16,
    ascii "Did not receive a valid request message. Opcode or mode were not recognized"⟩

section
variable (past : Bytes) (n : ℕ) (s : TftpServer)

/-- What the first `n` bytes of the buffer are decoded to. -/
def received : Bool × RequestMessage := RequestMessage.decode past {} (s.buffer.take n)

/-- The ERROR messages that a datagram is answered with before it is handled. -/
def refusals : List Bytes :=
  (if n < 2 then [opcodeError] else []) ++ if (s.received past n).1 then [] else [requestError]

def refuse : TftpServer :=
  { s with io := { s.io with
      wire := s.io.wire ++ (s.refusals past n).map fun d => (s.currAccEndpoint, d) } }

/-- The next datagram is waited for. -/
def rearm : TftpServer :=
  { s with
    buffer := List.replicate s.buffer.length 0
    io := s.io.asyncReceiveFrom () }

end

/-- What becomes of a datagram of `n` bytes. -/
inductive Handles (past : Bytes) (n : ℕ) (s : TftpServer) : TftpServer → Prop
  | ignored : ¬ ((s.received past n).2.isRRQ ∨ (s.received past n).2.isWRQ) →
      Handles past n s (s.refuse past n).rearm
  | thrown {e : Exn} : (s.received past n).2.isRRQ ∨ (s.received past n).2.isWRQ →
      s.admission (s.received past n).2 = .error e →
      Handles past n s { s.refuse past n with threw := some e }
  | invalid : (s.received past n).2.isRRQ ∨ (s.received past n).2.isWRQ →
      s.admission (s.received past n).2 = .ok none →
      Handles past n s
        (((s.refuse past n).sendDatagram optionsError).startSession (s.received past n).2 {}).rearm
  | valid {values : TransactionOptionValues} :
      (s.received past n).2.isRRQ ∨ (s.received past n).2.isWRQ →
      s.admission (s.received past n).2 = .ok (some values) →
      Handles past n s ((s.refuse past n).startSession (s.received past n).2
        (paramsOf (s.respond (s.received past n).2) values s.currAccEndpoint)).rearm

theorem handleRequest_eq (past : Bytes) (n : ℕ) {s : TftpServer} (ho : s.io.isOpen = true) :
    s.handleRequest past .success n =
      match (s.refuse past n).handleSubRequest (s.received past n).2 with
      | .error e => { s.refuse past n with threw := some e }
      | .ok s' => if startThrew (s.refuse past n) s' then s' else s'.rearm := by
  have hsend : ∀ (t : TftpServer) (d : Bytes), t.io.isOpen = true → t.sendDatagram d =
      { t with io := { t.io with wire := t.io.wire ++ [(t.currAccEndpoint, d)] } } := by
    intro t d ht
    rw [sendDatagram, Io.asyncSendDetached, if_pos ht]
  have hs : (if (s.received past n).1 then
        if n < 2 then s.sendDatagram opcodeError else s
      else (if n < 2 then s.sendDatagram opcodeError else s).sendDatagram requestError) =
      s.refuse past n := by
    unfold refuse refusals
    by_cases hn : n < 2
    · cases (s.received past n).1
      · simp [hn, hsend, ho]
      · simp [hn, hsend, ho]
    · cases (s.received past n).1
      · simp [hn, hsend, ho]
      · simp [hn]
  rw [← hs, handleRequest, if_pos rfl]
  by_cases hn : n < 2
  · simp only [if_pos hn]
    rfl
  · simp only [if_neg hn]
    rfl

/-- **The datagram is handled in one of these ways.** -/
theorem handles (past : Bytes) (n : ℕ) {s : TftpServer} (ho : s.io.isOpen = true) :
    Handles past n s (s.handleRequest past .success n) := by
  rw [handleRequest_eq past n ho]
  by_cases h : (s.received past n).2.isRRQ ∨ (s.received past n).2.isWRQ
  · have hadmit : (s.refuse past n).admission (s.received past n).2 = s.admission (s.received past n).2 := rfl
    rw [handleSubRequest_eq h, hadmit]
    cases hp : s.admission (s.received past n).2 with
    | error e => exact .thrown h hp
    | ok o =>
      cases o with
      | none =>
        dsimp only
        rw [startThrew_startSession (by rfl)]
        exact .invalid h hp
      | some values =>
        dsimp only
        rw [startThrew_startSession (by rfl)]
        exact .valid h hp
  · have hsub : (s.refuse past n).handleSubRequest (s.received past n).2 = .ok (s.refuse past n) := by
      rw [not_or] at h
      rw [handleSubRequest, if_neg h.1, if_neg h.2]
    rw [hsub]
    dsimp only
    rw [startThrew, List.drop_length]
    exact .ignored h

/-! ## Reachable states -/

/-- The invariant of the listening socket. -/
structure Inv (s : TftpServer) : Prop where
  isOpen : s.io.isOpen = true
  started : s.io.started = true
  buffer : s.buffer.length = bufsize
  tokens : s.io.tokens ≤ 1
  threw : s.threw ≠ none → s.io.tokens = 0

theorem Handles.inv {past : Bytes} {n : ℕ} {s s' : TftpServer} (h : Handles past n s s') (hs : s.Inv)
    (ht : s.io.tokens = 0) (hthrew : s.threw = none) : s'.Inv := by
  have hr : (s.refuse past n).Inv := ⟨hs.isOpen, hs.started, hs.buffer, hs.tokens, hs.threw⟩
  have hrearm : ∀ t : TftpServer, t.Inv → t.io.tokens = 0 → t.threw = none → t.rearm.Inv := by
    intro t ht h0 hthrew
    refine ⟨(Io.asyncReceiveFrom_isOpen _ _).trans ht.isOpen,
      (Io.asyncReceiveFrom_started _ _).trans ht.started, List.length_replicate.trans ht.buffer, ?_,
      fun h => absurd hthrew h⟩
    exact (Io.asyncReceiveFrom_tokens t.io ()).trans_le (by omega)
  have hsend : ((s.refuse past n).sendDatagram optionsError).Inv :=
    ⟨(Io.asyncSendDetached_isOpen _ _ _).trans hr.isOpen, (Io.asyncSendDetached_started _ _ _).trans hr.started,
      hr.buffer, (Io.asyncSendDetached_tokens _ _ _).trans_le hr.tokens, fun h => absurd hthrew h⟩
  cases h with
  | ignored _ => exact hrearm _ hr ht hthrew
  | thrown _ _ => exact ⟨hr.isOpen, hr.started, hr.buffer, hr.tokens, fun _ => ht⟩
  | invalid _ _ =>
    exact hrearm _ ⟨hsend.isOpen, hsend.started, hsend.buffer, hsend.tokens, hsend.threw⟩
      ((Io.asyncSendDetached_tokens _ _ _).trans ht) hthrew
  | valid _ _ => exact hrearm _ ⟨hr.isOpen, hr.started, hr.buffer, hr.tokens, hr.threw⟩ ht hthrew

theorem Inv.step {s s' : TftpServer} (hs : s.Inv) {e : ServerEvent} (h : step s e = some s') : s'.Inv := by
  cases e with
  | session n e =>
    simp only [TftpServer.step] at h
    split_ifs at h
    obtain ⟨x, -, h⟩ := Option.bind_eq_some_iff.1 h
    obtain ⟨x', -, rfl⟩ := Option.map_eq_some_iff.1 h
    exact ⟨hs.isOpen, hs.started, hs.buffer, hs.tokens, hs.threw⟩
  | listen past e =>
    obtain ⟨hd, hstep⟩ := Proactor.step_cases h
    clear h
    have hthrew : s.threw = none := by
      have hd' : s.dead = false := hd
      simpa [dead] using (Bool.or_eq_false_iff.1 hd').1
    have htokens := hs.tokens
    -- the socket has at most one operation, which is consumed or completed
    have key : ∀ (io : Io Unit Endpoint) (src : Endpoint) (b : Bytes), io.isOpen = true →
        io.started = true → io.tokens ≤ 1 → b.length = bufsize →
        Inv { s with io := io, currAccEndpoint := src, buffer := b } := fun io src b h1 h2 h3 h4 =>
      ⟨h1, h2, h4, h3, fun h => absurd hthrew h⟩
    cases hstep with
    | start hst => exact absurd hs.started (by rw [show s.io.started = false from hst]; decide)
    | @deliver src d r rs hr =>
      refine key _ src _ hs.isOpen hs.started ?_ ?_
      · simp only [Io.tokens, show s.io.receives = r :: rs from hr, List.length_cons, proactor,
          List.length_append, List.length_nil] at htokens ⊢
        omega
      · have hl : (d.take s.buffer.length).length ≤ s.buffer.length := by
          rw [List.length_take]; omega
        rw [← hs.buffer]
        change (d.take s.buffer.length ++ s.buffer.drop (d.take s.buffer.length).length).length = _
        rw [List.length_append, List.length_drop]
        omega
    | @receiveFails e r rs hr he =>
      refine key _ _ _ hs.isOpen hs.started ?_ hs.buffer
      simp only [Io.tokens, show s.io.receives = r :: rs from hr, List.length_cons, proactor,
        List.length_append, List.length_nil] at htokens ⊢
      omega
    | @sendCompletes e n ns hn =>
      refine key _ _ _ hs.isOpen hs.started ?_ hs.buffer
      simp only [Io.tokens, show s.io.sends = n :: ns from hn, List.length_cons, proactor,
        List.length_append, List.length_nil] at htokens ⊢
      omega
    | expire _ => exact key _ _ _ hs.isOpen hs.started hs.tokens hs.buffer
    | @runReceive i r e n hr =>
      obtain ⟨-, h0⟩ := Io.tokens_eraseIdx_received hr htokens
      have hinv := key { s.io with received := s.io.received.eraseIdx i } s.currAccEndpoint s.buffer
        hs.isOpen hs.started (Nat.le_of_eq h0 |>.trans (Nat.zero_le 1)) hs.buffer
      by_cases he : e = .success
      · subst he
        exact (handles past n hinv.isOpen).inv hinv h0 hthrew
      · change Inv (handleRequest past e n { s with io := { s.io with received := s.io.received.eraseIdx i } })
        rw [handleRequest, if_neg he]
        exact hinv
    | @runSend i e n hr =>
      obtain ⟨-, h0⟩ := Io.tokens_eraseIdx_sent hr htokens
      exact key _ _ _ hs.isOpen hs.started (Nat.le_of_eq h0 |>.trans (Nat.zero_le 1)) hs.buffer
    | runTimer _ => exact key _ _ _ hs.isOpen hs.started hs.tokens hs.buffer

/-- The steps of a run. -/
inductive HostStep (s : TftpServer) : HostEvent → TftpServer → Prop
  | server {e : ServerEvent} {s' : TftpServer} (h : s.step e = some s') : HostStep s (.server e) s'
  | changes (os : OperatingSystem) : HostStep s (.changes os) { s with os := os }
  | rewritten {n : ℕ} {x : Session} (hx : s.sessions[n]? = some x) (content : Bytes) :
      HostStep s (.rewritten n content) { s with sessions := s.sessions.set n (x.rewrite content) }

theorem step_alive {s s' : TftpServer} {e : ServerEvent} (h : s.step e = some s') : s.dead = false := by
  cases e with
  | listen past e => exact (Proactor.step_cases h).1
  | session n e =>
    simp only [TftpServer.step] at h
    split_ifs at h with hd
    exact Bool.eq_false_iff.2 hd

theorem hostStep_cases {s s' : TftpServer} {e : HostEvent} (h : s.hostStep e = some s') :
    s.dead = false ∧ HostStep s e s' := by
  cases e with
  | server e => exact ⟨step_alive h, .server h⟩
  | changes os =>
    simp only [hostStep] at h
    split_ifs at h with hd
    obtain rfl := Option.some.inj h
    exact ⟨Bool.eq_false_iff.2 hd, .changes os⟩
  | rewritten n content =>
    simp only [hostStep] at h
    split_ifs at h with hd
    obtain ⟨x, hx, rfl⟩ := Option.map_eq_some_iff.1 h
    exact ⟨Bool.eq_false_iff.2 hd, .rewritten hx content⟩

theorem HostStep.inv {s s' : TftpServer} {e : HostEvent} (h : HostStep s e s') (hs : s.Inv) : s'.Inv := by
  cases h with
  | server h => exact hs.step h
  | changes os => exact ⟨hs.isOpen, hs.started, hs.buffer, hs.tokens, hs.threw⟩
  | rewritten hx content => exact ⟨hs.isOpen, hs.started, hs.buffer, hs.tokens, hs.threw⟩

/-- One session is started at most, for a file that is opened with it. -/
structure StartsOne (s s' : TftpServer) : Prop where
  os : s'.os = s.os
  rootfolder : s'.rootfolder = s.rootfolder
  sessions : s'.sessions = s.sessions ∧ s'.opened = s.opened ∨
    ∃ request p client, s'.sessions = s.sessions ++ [s.sessionOf request p client] ∧
      s'.opened = s.opened ++ [s.path request]

theorem Handles.startsOne {past : Bytes} {n : ℕ} {s s' : TftpServer} (h : Handles past n s s') :
    StartsOne s s' := by
  cases h with
  | ignored _ => exact ⟨rfl, rfl, .inl ⟨rfl, rfl⟩⟩
  | thrown _ _ => exact ⟨rfl, rfl, .inl ⟨rfl, rfl⟩⟩
  | invalid _ _ => exact ⟨rfl, rfl, .inr ⟨_, {}, s.currAccEndpoint, rfl, rfl⟩⟩
  | valid _ _ => exact ⟨rfl, rfl, .inr ⟨_, _, s.currAccEndpoint, rfl, rfl⟩⟩

theorem listen_startsOne {s s' : TftpServer} (hs : s.Inv) {past : Bytes} {e : Event Endpoint}
    (h : s.step (.listen past e) = some s') : StartsOne s s' := by
  obtain ⟨-, hstep⟩ := Proactor.step_cases h
  clear h
  cases hstep with
  | @runReceive i r err n _ =>
    by_cases he : err = .success
    · subst he
      have hh := @handles past n { s with io := { s.io with received := s.io.received.eraseIdx i } } hs.isOpen
      exact { hh.startsOne with }
    · change StartsOne s (handleRequest past err n
        { s with io := { s.io with received := s.io.received.eraseIdx i } })
      rw [handleRequest, if_neg he]
      exact ⟨rfl, rfl, .inl ⟨rfl, rfl⟩⟩
  | _ => exact ⟨rfl, rfl, .inl ⟨rfl, rfl⟩⟩

section
variable {os : OperatingSystem} {root : Bytes} {s : TftpServer}

theorem reach_inv (h : (system os root).Reach s) : s.Inv := by
  refine h.inv Inv (fun s hs => ?_) fun s e s' _ hs hstep => (hostStep_cases hstep).2.inv hs
  obtain rfl : s = new os root := hs
  exact ⟨rfl, rfl, List.length_replicate, le_rfl, fun h => absurd rfl h⟩

theorem HostStep.rootfolder {s' : TftpServer} {e : HostEvent} (h : HostStep s e s') (hs : s.Inv) :
    s'.rootfolder = s.rootfolder := by
  cases h with
  | @server e _ h =>
    cases e with
    | listen past e => exact (listen_startsOne hs h).rootfolder
    | session n e =>
      simp only [TftpServer.step] at h
      split_ifs at h
      obtain ⟨x, -, h⟩ := Option.bind_eq_some_iff.1 h
      obtain ⟨x', -, rfl⟩ := Option.map_eq_some_iff.1 h
      rfl
  | changes _ => rfl
  | rewritten _ _ => rfl

theorem reach_rootfolder (h : (system os root).Reach s) : s.rootfolder = root := by
  induction h with
  | init hs =>
    obtain rfl := hs
    rfl
  | @step s s' e hr hstep ih => exact ((hostStep_cases hstep).2.rootfolder (reach_inv hr)).trans ih

/-- A server that listens has nothing else to do on its socket. -/
theorem reach_listening (h : (system os root).Reach s) (hl : s.io.receives ≠ []) :
    s.threw = none ∧ s.io.receives = [()] ∧ s.io.received = [] := by
  have hs := reach_inv h
  have ht := hs.tokens
  have hpos := List.length_pos_iff.2 hl
  simp only [Io.tokens] at ht
  refine ⟨?_, ?_, List.length_eq_zero_iff.1 (by omega)⟩
  · by_contra hthrew
    have h0 := hs.threw hthrew
    exact hl ((Io.tokens_eq_zero _).1 h0).1
  · obtain ⟨u, hu⟩ := List.length_eq_one_iff.1 (show s.io.receives.length = 1 by omega)
    exact hu

end

/-! ## One datagram -/

/-- What a datagram is decoded to. -/
def request (past d : Bytes) : Bool × RequestMessage := RequestMessage.decode past {} (d.take bufsize)

/-- A datagram has arrived. -/
def arrived (src : Endpoint) (d : Bytes) (s : TftpServer) : TftpServer :=
  { s with io := { s.io with receives := [] } }.store src (d.take bufsize)

theorem received_arrived (past : Bytes) (src : Endpoint) (d : Bytes) (s : TftpServer) :
    (s.arrived src d).received past (min d.length bufsize) = request past d := by
  have hl : min d.length bufsize = (d.take bufsize).length := by rw [List.length_take, Nat.min_comm]
  have hb : (d.take bufsize ++ s.buffer.drop (d.take bufsize).length).take (d.take bufsize).length =
      d.take bufsize := List.take_left
  rw [hl]
  exact congrArg (RequestMessage.decode past {}) hb

theorem receive_handles {os : OperatingSystem} {root : Bytes} {s : TftpServer}
    (h : (system os root).Reach s) (past : Bytes) (src : Endpoint) (d : Bytes) :
    Handles past (min d.length bufsize) (s.arrived src d) (s.receive past src d) :=
  handles past _ (reach_inv h).isOpen

theorem refusals_arrived (past : Bytes) (src : Endpoint) (d : Bytes) (s : TftpServer) :
    (s.arrived src d).refusals past (min d.length bufsize) =
      (if d.length < 2 then [opcodeError] else []) ++
        if (request past d).1 then [] else [requestError] := by
  have hlt : min d.length bufsize < 2 ↔ d.length < 2 := by
    simp only [bufsize]
    omega
  rw [refusals, received_arrived]
  exact congrArg (· ++ _) (if_congr hlt rfl rfl)

theorem isRequest {past d : Bytes} (hd : (request past d).1 = true) :
    (request past d).2.isRRQ ∨ (request past d).2.isWRQ := by
  by_contra hn
  have hf := (RequestMessage.decode_no_request hn).1
  rw [← request, hd] at hf
  cases hf

theorem two_le_of_decoded {past d : Bytes} (hd : (request past d).1 = true) : 2 ≤ d.length := by
  by_contra hlt
  refine RequestMessage.decode_short ?_ (isRequest hd)
  rw [List.length_take]
  omega

/-- **What becomes of a request that is decoded.** -/
theorem receive_decoded {past d : Bytes} (hd : (request past d).1 = true) {s : TftpServer}
    (ho : s.io.isOpen = true) (src : Endpoint) :
    s.receive past src d = match s.admission (request past d).2 with
      | .error e => { s.arrived src d with threw := some e }
      | .ok none => (((s.arrived src d).sendDatagram optionsError).startSession (request past d).2 {}).rearm
      | .ok (some values) => ((s.arrived src d).startSession (request past d).2
          (paramsOf (s.respond (request past d).2) values src)).rearm := by
  have hrefuse : (s.arrived src d).refuse past (min d.length bufsize) = s.arrived src d := by
    have hno : (s.arrived src d).refusals past (min d.length bufsize) = [] := by
      rw [refusals_arrived, hd, if_neg (by have := two_le_of_decoded hd; omega)]
      rfl
    rw [refuse, hno]
    simp
  have heq : s.receive past src d =
      (s.arrived src d).handleRequest past .success (min d.length bufsize) := rfl
  have hadmit : (s.arrived src d).admission (request past d).2 = s.admission (request past d).2 := rfl
  rw [heq, handleRequest_eq past _ (show (s.arrived src d).io.isOpen = true from ho), hrefuse,
    received_arrived, handleSubRequest_eq (isRequest hd), hadmit]
  cases s.admission (request past d).2 with
  | error e => rfl
  | ok o =>
    cases o with
    | none => exact if_neg (Bool.eq_false_iff.1 (startThrew_startSession rfl _ _))
    | some values => exact if_neg (Bool.eq_false_iff.1 (startThrew_startSession rfl _ _))

/-- The arrival of a datagram at a server that listens, followed by its handler. -/
theorem run_receive {os : OperatingSystem} {root : Bytes} {s : TftpServer} (h : (system os root).Reach s)
    (hl : s.io.receives ≠ []) (hd : s.dead = false) (past : Bytes) (src : Endpoint) (d : Bytes) :
    (system os root).run s [.server (.listen past (.deliver src d)), .server (.listen past (.runReceive 0))] =
      some (s.receive past src d) := by
  obtain ⟨-, hr, hr'⟩ := reach_listening h hl
  have hbuf : (proactor past).capacity s = bufsize := (reach_inv h).buffer
  obtain ⟨s', hs', h1, h2⟩ := Proactor.step_deliver (P := proactor past) (s := s) src d (fun _ => ⟨rfl, rfl⟩) hd hr hr'
  have h3 : ({ s.io with receives := [], received := [] } : Io Unit Endpoint) =
      { s.io with receives := [] } := by
    rw [← hr']
  rw [hbuf] at hs' h2
  have hlisten : ∀ (t : TftpServer) (e : Event Endpoint), (system os root).step t (.server (.listen past e)) =
      (proactor past).step t e := fun _ _ => rfl
  have hreceive : (proactor past).onReceive () .success (min d.length bufsize) ((proactor past).setIo
      { (proactor past).io s with receives := [], received := [] } s') = s.receive past src d := by
    rw [hs', receive, ← h3]
    rfl
  rw [Lts.run, hlisten, h1, Option.bind_some, Lts.run, hlisten, h2, hreceive]
  rfl

theorem receive_inv {os : OperatingSystem} {root : Bytes} {s : TftpServer} (h : (system os root).Reach s)
    (hl : s.io.receives ≠ []) (past : Bytes) (src : Endpoint) (d : Bytes) : (s.receive past src d).Inv := by
  have hs := reach_inv h
  obtain ⟨hthrew, hr, hr'⟩ := reach_listening h hl
  have htokens := hs.tokens
  have h0 : (s.arrived src d).io.tokens = 0 := by
    simp only [Io.tokens, hr, List.length_singleton] at htokens
    simp only [Io.tokens, arrived, store, List.length_nil]
    omega
  have hbuf : (s.arrived src d).buffer.length = bufsize := by
    have hle : (d.take bufsize).length ≤ bufsize := List.length_take_le _ _
    have hb := hs.buffer
    change (d.take bufsize ++ s.buffer.drop (d.take bufsize).length).length = bufsize
    rw [List.length_append, List.length_drop]
    omega
  exact (receive_handles h past src d).inv
    ⟨hs.isOpen, hs.started, hbuf, h0.trans_le (Nat.zero_le 1), fun _ => h0⟩ h0 hthrew

theorem startSession_dead (request : RequestMessage) (p : SessionParams) (s : TftpServer) :
    (s.startSession request p).dead = s.dead := by
  rw [dead, dead, startSession, List.any_append, List.any_cons, sessionOf_threw]
  simp

section
variable {os : OperatingSystem} {root past d : Bytes} {s : TftpServer} {src : Endpoint}

/-- The server survives a datagram unless a sub-handler throws. -/
theorem receive_survives_iff (h : (system os root).Reach s) (hd : s.dead = false) :
    ((s.receive past src d).dead = false ∧ (s.receive past src d).io.receives = [()]) ↔
      ¬ (((request past d).2.isRRQ ∨ (request past d).2.isWRQ) ∧ Throws (request past d).2 s) := by
  have ho : s.io.isOpen = true := (reach_inv h).isOpen
  have hrearm : ∀ t : TftpServer, t.io.isOpen = true → t.io.receives = [] → t.dead = false →
      t.rearm.dead = false ∧ t.rearm.io.receives = [()] := by
    intro t h1 h2 h3
    refine ⟨h3, ?_⟩
    rw [rearm, Io.asyncReceiveFrom, if_pos h1, h2]
    rfl
  have hadmit : (s.arrived src d).admission (request past d).2 = s.admission (request past d).2 := rfl
  have hthrows : ∀ {o}, s.admission (request past d).2 = .ok o →
      ¬ (((request past d).2.isRRQ ∨ (request past d).2.isWRQ) ∧ Throws (request past d).2 s) := by
    rintro o ho ⟨-, ht⟩
    obtain ⟨e, he⟩ := (throws_iff _ _).1 ht
    rw [ho] at he
    cases he
  have hrec := received_arrived past src d s
  have hh := receive_handles h past src d
  generalize s.receive past src d = s' at hh ⊢
  cases hh with
  | ignored hn =>
    rw [hrec] at hn
    exact iff_of_true (hrearm _ ho rfl hd) fun hm => hn hm.1
  | @thrown e hq hp =>
    rw [hrec] at hq hp
    exact iff_of_false (fun h => by cases h.1) (not_not.2 ⟨hq, (throws_iff _ _).2 ⟨e, hp⟩⟩)
  | invalid hq hp =>
    rw [hrec] at hp
    refine iff_of_true (hrearm _ ((Io.asyncSendDetached_isOpen _ _ _).trans ho) ?_
      ((startSession_dead _ _ _).trans hd)) (hthrows hp)
    change (Io.asyncSendDetached _ _ _).receives = []
    unfold Io.asyncSendDetached
    split_ifs <;> rfl
  | valid hq hp =>
    rw [hrec] at hp
    exact iff_of_true (hrearm _ ho rfl ((startSession_dead _ _ _).trans hd)) (hthrows hp)

/-- **When the server survives a datagram.**  As long as the space in its root folder is known, it
    returns to listening, with no exception thrown, unless the options that have been decoded have a
    timeout and no block size, or no socket can be opened for a request. -/
theorem server_survives_iff (h : (system os root).Reach s) (hd : s.dead = false)
    (hspace : (s.os.available s.rootfolder).isSome = true) :
    ((s.receive past src d).dead = false ∧ (s.receive past src d).io.receives = [()]) ↔
      ¬ (timeoutName ∈ (request past d).2.mOptionValues ∧
        blksizeName ∉ (request past d).2.mOptionValues) ∧
      ((request past d).2.isRRQ ∨ (request past d).2.isWRQ → s.os.sockets = true) := by
  have hopts : ¬ ((request past d).2.isRRQ ∨ (request past d).2.isWRQ) → (request past d).2.mOptionValues = ∅ :=
    fun hn => (RequestMessage.decode_no_request hn).2
  rw [receive_survives_iff h hd]
  constructor
  · refine fun hn => ⟨fun hm => ?_, fun hq => ?_⟩
    · by_cases hq : (request past d).2.isRRQ ∨ (request past d).2.isWRQ
      · exact hn ⟨hq, .lookup hm.1 hm.2⟩
      · rw [hopts hq] at hm
        exact absurd hm.1 Std.ExtTreeMap.not_mem_empty
    · by_contra hs
      exact hn ⟨hq, .socket (Bool.eq_false_iff.2 hs)⟩
  · rintro ⟨hm, hs⟩ ⟨hq, ht⟩
    cases ht with
    | socket h => exact Bool.false_ne_true (h.symm.trans (hs hq))
    | lookup ht hb => exact hm ⟨ht, hb⟩
    | space _ _ hk => simp [spaceKnown, hspace] at hk

end

/-- The root of a file system. -/
def slash : Bytes := ascii "/"

/-- A root folder with the one file `f`, which has three bytes; it is the working directory, too. -/
def oneFile : OperatingSystem where
  content name := if name = [47, 102] then some [5, 6, 7] else none
  fileSize name := if name = [47, 102] then 3 else 18446744073709551615
  output _ := {}
  available name := if name = [] then none else some 0
  absolute name := if name = [] then none else if name.head? = some 47 then some name else some (slash ++ name)

/-- A request for the file `f` with one option. -/
def oneOption (opcode : TftpOpcode) (name value : Bytes) : RequestMessage where
  mOpCode := opcode
  mFilename := [102]
  mMode := .octet
  mOptionValues := (∅ : OptMap).insert name value

theorem getElem?_oneOption (opcode : TftpOpcode) (name value k : Bytes) :
    (oneOption opcode name value).mOptionValues[k]? = if k = name then some value else none := by
  rw [oneOption, Std.ExtTreeMap.getElem?_insert]
  simp only [Std.compare_eq_eq_iff_eq, Std.ExtTreeMap.getElem?_empty]
  exact if_congr eq_comm rfl rfl

theorem mem_oneOption {opcode : TftpOpcode} {name value k : Bytes} :
    k ∈ (oneOption opcode name value).mOptionValues ↔ k = name := by
  rw [Std.ExtTreeMap.mem_iff_isSome_getElem?, getElem?_oneOption]
  split_ifs with h <;> simp [h]

theorem request_oneOption {opcode : TftpOpcode} {name value : Bytes}
    (hop : opcode = .rrq ∨ opcode = .wrq) (hn : NulFree name) (hv : NulFree value)
    (hl : (oneOption opcode name value).wire.length ≤ bufsize) (past : Bytes) :
    request past (oneOption opcode name value).wire = (true, oneOption opcode name value) := by
  rw [request, List.take_of_length_le hl]
  refine RequestMessage.decode_wire past {} ⟨hop, rfl, show NulFree [102] by decide, fun k v hk => ?_⟩
  rw [getElem?_oneOption] at hk
  split_ifs at hk with h
  cases hk
  exact ⟨h ▸ hn, hv⟩

/-- A read request for the file `f` with a block size is survived. -/
theorem server_survives_read_request :
    (receive [] ⟨1, 1⟩ (oneOption .rrq blksizeName (ascii "8")).wire (new oneFile slash)).dead = false ∧
      (receive [] ⟨1, 1⟩ (oneOption .rrq blksizeName (ascii "8")).wire (new oneFile slash)).io.receives = [()] := by
  have hreq := @request_oneOption .rrq blksizeName (ascii "8") (.inl rfl) (by decide) (by decide) (by decide) []
  refine (@server_survives_iff oneFile slash [] _ _ ⟨1, 1⟩ (.init rfl) rfl rfl).2 ⟨fun h => ?_, fun _ => rfl⟩
  rw [hreq] at h
  exact absurd (mem_oneOption.1 h.1) (by decide)

/-- A read request for the file `f` with a timeout of 5 seconds, and no block
    size, ends the server. -/
theorem server_ended_by_timeout_request :
    (receive [] ⟨1, 1⟩ ([0, 1] ++ [102, 0] ++ ascii "octet" ++ [0] ++ ascii "timeout" ++ [0] ++
      ascii "5" ++ [0]) (new oneFile slash)).threw = some .outOfRange := by
  have hwire : [0, 1] ++ [102, 0] ++ ascii "octet" ++ [0] ++ ascii "timeout" ++ [0] ++ ascii "5" ++ [0] =
      (oneOption .rrq timeoutName (ascii "5")).wire := rfl
  have hreq := @request_oneOption .rrq timeoutName (ascii "5") (.inl rfl) (by decide) (by decide)
    (by decide) []
  have hparse : parseOptionFields (oneOption .rrq timeoutName (ascii "5")) = .error .outOfRange :=
    parseOptionFields_eq_error_iff.2 ⟨rfl, mem_oneOption.2 rfl, fun h =>
      absurd (mem_oneOption.1 h) (by decide)⟩
  have hadmit : (new oneFile slash).admission (oneOption .rrq timeoutName (ascii "5")) = .error .outOfRange := by
    rw [admission, hparse]
    rfl
  have heq := @receive_decoded [] (oneOption .rrq timeoutName (ascii "5")).wire (by rw [hreq])
    (new oneFile slash) rfl ⟨1, 1⟩
  rw [hreq, hadmit] at heq
  rw [hwire, heq]

/-! ## Admission -/

/-- The request is decoded, and its options are accepted. -/
def Accepted (past d : Bytes) : Prop :=
  (request past d).1 = true ∧ ∃ values, parseOptionFields (request past d).2 = .ok (some values)

/-- The transfer that a request asks for. -/
def IsTransferOf (request : RequestMessage) : Session → Prop
  | .sender _ => request.isRRQ
  | .receiver _ => request.isWRQ

/-- A datagram that is accepted starts the transfer that it asks for, of its file and with its host;
    another one is answered with one ERROR message, and nothing is started or opened. -/
structure AllOrNothing (past : Bytes) (src : Endpoint) (d : Bytes) (s : TftpServer) : Prop where
  accepted : Accepted past d → ∃ values x, parseOptionFields (request past d).2 = .ok (some values) ∧
    x = s.sessionOf (request past d).2 (paramsOf (s.respond (request past d).2) values src) src ∧
    IsTransferOf (request past d).2 x ∧ (s.receive past src d).sessions = s.sessions ++ [x]
  refused : ¬ Accepted past d →
    (∃ msg : ErrorMessage, (s.receive past src d).io.wire = s.io.wire ++ [(src, msg.encode)]) ∧
    (s.receive past src d).sessions = s.sessions ∧ (s.receive past src d).opened = s.opened

theorem isTransferOf_sessionOf {request : RequestMessage} (h : request.isRRQ ∨ request.isWRQ)
    (p : SessionParams) (s : TftpServer) (client : Endpoint) :
    IsTransferOf request (s.sessionOf request p client) := by
  unfold sessionOf
  split_ifs with hr
  · exact hr
  · exact h.resolve_left hr

/-- A refusal of a datagram that is not decoded is the only one unless there is
    no opcode. -/
theorem one_refusal_iff {past : Bytes} {src : Endpoint} {d : Bytes} {s : TftpServer}
    {wire : List (Endpoint × Bytes)} (hw : wire = s.io.wire ++
      ((s.arrived src d).refusals past (min d.length bufsize)).map fun b => (src, b)) :
    (∃ msg : ErrorMessage, wire = s.io.wire ++ [(src, msg.encode)]) ↔
      (request past d).1 = false ∧ 2 ≤ d.length := by
  rw [hw, refusals_arrived]
  simp only [List.append_cancel_left_eq]
  cases hr : (request past d).1 with
  | true =>
    simp [not_lt.2 (two_le_of_decoded hr)]
  | false =>
    by_cases hlen : d.length < 2
    · simp [hlen]
    · simp only [hlen, if_false, List.nil_append, Bool.false_eq_true, List.map_cons, List.map_nil,
        true_and]
      exact iff_of_true ⟨_, rfl⟩ (not_lt.1 hlen)

/-- **Which datagrams are admitted or refused.**  Nothing is wrong with an accepted one, unless a
    sub-handler throws; one that is not accepted has to be refused before any request is recognised,
    or to make a sub-handler throw after it. -/
theorem all_or_nothing_iff {os : OperatingSystem} {root : Bytes} {s : TftpServer} {past : Bytes}
    {src : Endpoint} {d : Bytes} (h : (system os root).Reach s) :
    AllOrNothing past src d s ↔ Accepted past d ∧ ¬ Throws (request past d).2 s ∨
      (request past d).1 = false ∧ 2 ≤ d.length ∧
        (¬ ((request past d).2.isRRQ ∨ (request past d).2.isWRQ) ∨ Throws (request past d).2 s) := by
  have hrec := received_arrived past src d s
  have hone := @one_refusal_iff past src d s
  have hh := receive_handles h past src d
  have hiff : AllOrNothing past src d s ↔ (Accepted past d → ∃ values x,
      parseOptionFields (request past d).2 = .ok (some values) ∧
      x = s.sessionOf (request past d).2 (paramsOf (s.respond (request past d).2) values src) src ∧
      IsTransferOf (request past d).2 x ∧ (s.receive past src d).sessions = s.sessions ++ [x]) ∧
      (¬ Accepted past d →
      (∃ msg : ErrorMessage, (s.receive past src d).io.wire = s.io.wire ++ [(src, msg.encode)]) ∧
      (s.receive past src d).sessions = s.sessions ∧ (s.receive past src d).opened = s.opened) :=
    ⟨fun h => ⟨h.accepted, h.refused⟩, fun h => ⟨h.1, h.2⟩⟩
  have hadmit : (s.arrived src d).admission (request past d).2 = s.admission (request past d).2 := rfl
  have hthrows : ∀ {o}, s.admission (request past d).2 = .ok o → ¬ Throws (request past d).2 s := by
    intro o ho ht
    obtain ⟨e, he⟩ := (throws_iff _ _).1 ht
    rw [ho] at he
    cases he
  rw [hiff]
  generalize s.receive past src d = s' at hh ⊢
  have hgrow : ∀ x : Session, s.sessions ++ [x] ≠ s.sessions := by
    intro x hx
    simpa using congrArg List.length hx
  cases hh with
  | ignored hn =>
    rw [hrec] at hn
    have hf := (RequestMessage.decode_no_request hn).1
    have hacc : ¬ Accepted past d := by
      intro ha
      rw [Accepted, request, hf] at ha
      cases ha.1
    simp only [hacc, not_false_eq_true, false_imp_iff, true_imp_iff, true_and, false_and, false_or, hn, true_or,
      and_true]
    rw [← @hone ((s.arrived src d).refuse past (min d.length bufsize)).rearm.io.wire
      (Io.asyncReceiveFrom_wire _ _)]
    exact and_iff_left ⟨rfl, rfl⟩
  | @thrown e hq hp =>
    rw [hrec] at hq hp
    have ht : Throws (request past d).2 s := (throws_iff _ _).2 ⟨e, hp⟩
    by_cases hacc : Accepted past d
    · refine iff_of_false (fun hall => ?_) ?_
      · obtain ⟨values, x, -, -, -, hx⟩ := hall.1 hacc
        exact hgrow x hx.symm
      · rintro (⟨-, hn⟩ | ⟨hf, -⟩)
        · exact hn ht
        · exact Bool.false_ne_true (hf.symm.trans hacc.1)
    · simp only [hacc, not_false_eq_true, false_imp_iff, true_imp_iff, true_and, false_and, false_or, ht, or_true,
        and_true]
      rw [← hone rfl]
      exact and_iff_left ⟨rfl, rfl⟩
  | invalid hq hp =>
    rw [hrec] at hq hp
    have hacc : ¬ Accepted past d := by
      rintro ⟨_, v, hv⟩
      rw [((admission_eq_none_iff _ _).1 hp).2] at hv
      cases hv
    refine iff_of_false (fun hall => hgrow _ (hall.2 hacc).2.1) ?_
    rintro (⟨ha, -⟩ | ⟨-, -, hno | ht⟩)
    · exact hacc ha
    · exact hno hq
    · exact hthrows hp ht
  | @valid values hq hp =>
    rw [hrec] at hq hp
    by_cases hacc : Accepted past d
    · refine iff_of_true ⟨fun _ => ⟨values, _, ((admission_eq_some_iff _ _).1 hp).2.1, rfl,
        isTransferOf_sessionOf hq _ _ _, ?_⟩, fun hn => absurd hacc hn⟩ (.inl ⟨hacc, hthrows hp⟩)
      rw [hrec]
      rfl
    · refine iff_of_false (fun hall => hgrow _ (hall.2 hacc).2.1) ?_
      rintro (⟨ha, -⟩ | ⟨-, -, hno | ht⟩)
      · exact hacc ha
      · exact hno hq
      · exact hthrows hp ht

/-- A read request for the file `f` is admitted, and a DATA opcode is refused. -/
theorem all_or_nothing_read_request :
    AllOrNothing [] ⟨1, 1⟩ ([0, 1, 102, 0] ++ ascii "octet" ++ [0]) (new oneFile slash) ∧
      AllOrNothing [] ⟨1, 1⟩ [0, 3] (new oneFile slash) := by
  have hreq : request [] ([0, 1, 102, 0] ++ ascii "octet" ++ [0]) = (true, ⟨.rrq, [102], .octet, ∅⟩) := rfl
  refine ⟨(@all_or_nothing_iff oneFile slash _ [] ⟨1, 1⟩ _ (.init rfl)).2 (.inl ?_),
    (@all_or_nothing_iff oneFile slash _ [] ⟨1, 1⟩ [0, 3] (.init rfl)).2 (.inr ⟨rfl, le_rfl, .inl (by decide)⟩)⟩
  rw [Accepted, hreq]
  refine ⟨⟨rfl, {}, parseOptionFields_eq_ok_iff.2 (.inl ⟨rfl, rfl⟩)⟩, fun ht => ?_⟩
  cases ht with
  | socket h => cases h
  | lookup ht _ => exact Std.ExtTreeMap.not_mem_empty ht
  | space hr _ _ => cases hr

/-- A read request for the file `f` with the unknown mode `x` is refused, and
    starts a transfer. -/
theorem not_all_or_nothing_unknown_mode : ¬ AllOrNothing [] ⟨1, 1⟩ [0, 1, 102, 0, 120, 0]
    (new oneFile slash) := by
  intro hall
  have hreq : request [] [0, 1, 102, 0, 120, 0] = (false, { mOpCode := .rrq, mFilename := [102] }) := rfl
  have hacc : ¬ Accepted [] [0, 1, 102, 0, 120, 0] := by
    intro ha
    rw [Accepted, hreq] at ha
    cases ha.1
  exact absurd (congrArg List.length (hall.refused hacc).2.1) (by decide)

end TftpServer

end Ttftp

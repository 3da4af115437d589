/-
  The server's reply to a request with options.

  After the OACK to a read request the sender waits for ACK 0 (`AwaitsAck`), and
  nothing but the handler of its receive makes it send anything.
  `opening_reply_iff` says for which requests, and for which runs until the client
  or the timer is heard of, the OACK is the only reply.
-/
import Ttftp.Transfer
import Ttftp.Proof.Server
import Ttftp.Proof.SenderParty

namespace Ttftp

open Bytes Asio
open TransactionOptionValues (Acceptable optionsOf fromClient oackBytes)

/-! ## The sender after an OACK -/

namespace Tftpsender

/-- A sender that waits for ACK 0.  What it may have received is from elsewhere,
    or a failure. -/
structure AwaitsAck (client : Endpoint) (oack : Bytes) (x : Tftpsender) : Prop where
  wellFormed : x.WellFormed
  started : x.io.started = true
  wire : x.io.wire = [(client, oack)]
  sends : x.io.sends = [] ∧ x.io.sent = []
  waits : x.io.waits = 0 ∧ x.io.waited = []
  received : ∀ y ∈ x.io.received, y.2.1 = .success ∧ x.mLastReceivedReceiverEndpoint ≠ client ∨
    y.2.1 ≠ .success ∧ y.2.2 = 0
  connected : x.isConnected = true
  peer : x.mReceiverEndpoint = client
  count : x.lastsentdatacount = 0
  running : x.operationEnded = false
  blocksize : 1 ≤ x.blocksize ∧ x.blocksize ≤ 65464

variable {client : Endpoint} {oack : Bytes} {x x' : Tftpsender}

/-- A sender of a file that can be read waits for ACK 0. -/
theorem start_awaitsAck (F : Bytes) {bs : ℕ} (hbs : 8 ≤ bs ∧ bs ≤ 65464) (timeoutSeconds : UInt8) :
    AwaitsAck client oack (newConnected { started := true, wire := [(client, oack)] } (.ofFile (some F))
      client 0 bs timeoutSeconds).start := by
  have hstart : (newConnected { started := true, wire := [(client, oack)] } (.ofFile (some F)) client 0 bs
      timeoutSeconds).start = (newConnected { started := true, wire := [(client, oack)] }
        (.ofFile (some F)) client 0 bs timeoutSeconds).startNextReceive := rfl
  rw [hstart]
  exact {
    wellFormed := ⟨rfl, List.length_replicate, Nat.zero_le _, rfl⟩
    started := rfl, wire := rfl, sends := ⟨rfl, rfl⟩, waits := ⟨rfl, rfl⟩
    received := fun y hy => by cases hy
    connected := rfl, peer := rfl, count := rfl, running := rfl
    blocksize := ⟨show 1 ≤ bs by omega, hbs.2⟩ }

/-- **It keeps waiting** unless the client or the timer is heard of, or its
    handler runs. -/
theorem AwaitsAck.step (h : x.AwaitsAck client oack) {e : Event Endpoint}
    (hd : ∀ d, e ≠ .deliver client d) (hr : ∀ i, e ≠ .runReceive i)
    (hstep : proactor.step x e = some x') : x'.AwaitsAck client oack := by
  have hwf := h.wellFormed.step hstep
  obtain ⟨-, hs⟩ := Proactor.step_cases hstep
  clear hstep
  cases hs with
  | start hst => exact absurd h.started (by rw [show x.io.started = false from hst]; decide)
  | @deliver src d r rs _ =>
    have hsrc : src ≠ client := fun hsrc => hd d (by rw [hsrc])
    exact { h with
      wellFormed := hwf
      received := by
        intro y hy
        rcases List.mem_append.1 hy with hy | hy
        · exact (h.received y hy).imp_left fun hy => ⟨hy.1, hsrc⟩
        · rw [List.mem_singleton.1 hy]
          exact .inl ⟨rfl, hsrc⟩ }
  | @receiveFails e r rs _ he =>
    exact { h with
      wellFormed := hwf
      received := by
        intro y hy
        rcases List.mem_append.1 hy with hy | hy
        · exact h.received y hy
        · rw [List.mem_singleton.1 hy]
          exact .inr ⟨he, rfl⟩ }
  | sendCompletes hn =>
    rw [show proactor.io x = x.io from rfl, h.sends.1] at hn
    cases hn
  | expire hw => exact absurd h.waits.1 hw
  | @runReceive i r e n _ => exact absurd rfl (hr i)
  | runSend hx =>
    rw [show proactor.io x = x.io from rfl, h.sends.2] at hx
    cases hx
  | runTimer hx =>
    rw [show proactor.io x = x.io from rfl, h.waits.2] at hx
    cases hx

/-- It does not look at its file. -/
theorem AwaitsAck.rewrite (h : x.AwaitsAck client oack) (content : Bytes) :
    AwaitsAck client oack { x with input := { x.input with content := content } } :=
  { h with wellFormed := ⟨h.wellFormed.isOpen, h.wellFormed.lastsentdata, h.wellFormed.gcount,
      h.wellFormed.ackbuffer⟩ }

/-- Block 0 cannot be sent, which is told to the peer. -/
theorem sendNextBlock_zero_wire (hs : x.WellFormed) (hc : x.lastsentdatacount = 0)
    (hbs : 1 ≤ x.blocksize ∧ x.blocksize ≤ 65464) (hr : x.operationEnded = false) :
    x.sendNextBlock.io.wire = x.io.wire ++ [(x.mReceiverEndpoint, readError)] := by
  have hseek : x.seeked.fail = true := by
    have hneg : ((0 : UInt16).toNat - 1 : ℤ) * x.blocksize < 0 := by
      rw [UInt16.toNat_zero]
      omega
    rw [seeked, IStream.seekg_fail, hc, seekOffset_eq hbs.2, decide_eq_true hneg, Bool.or_true]
  have hopen : x.io.isOpen = true := by rw [hs.isOpen, hr]; rfl
  have hio : x.inputFileError.io = (x.io.asyncSendDetached x.mReceiverEndpoint readError).close := by
    rw [inputFileError, endOperationWith, if_neg (by rw [sendErrorMsg_operationEnded, hr]; decide)]
    rfl
  rw [sendNextBlock_bad hs hseek]
  simp [hio, Io.asyncSendTo_wire, Io.asyncSendDetached_wire, hopen]

/-- **Its handler makes it send more** to the client. -/
theorem AwaitsAck.runReceive (h : x.AwaitsAck client oack) {i : ℕ}
    (hstep : proactor.step x (.runReceive i) = some x') :
    2 ≤ (sentTo client x'.io.wire).length := by
  obtain ⟨-, hs⟩ := Proactor.step_cases hstep
  clear hstep
  cases hs with
  | @runReceive _ r e n hx =>
    obtain ⟨y, hy⟩ : ∃ y : Tftpsender, y = { x with
        io := { x.io with received := x.io.received.eraseIdx i }.timerCancel } := ⟨_, rfl⟩
    have hwf : y.WellFormed := by
      rw [hy]
      exact (h.wellFormed.io { x.io with received := x.io.received.eraseIdx i } rfl).io _ rfl
    have hwire : y.io.wire = [(client, oack)] := by rw [hy]; exact h.wire
    have hcount : y.lastsentdatacount = 0 := by rw [hy]; exact h.count
    have hpeer : y.mReceiverEndpoint = client := by rw [hy]; exact h.peer
    have hblock : 1 ≤ y.blocksize ∧ y.blocksize ≤ 65464 := by rw [hy]; exact h.blocksize
    have hrun : y.operationEnded = false := by rw [hy]; exact h.running
    have hhost : y.wrongRemoteHost = decide (x.mLastReceivedReceiverEndpoint ≠ client) := by
      rw [hy]
      simp only [wrongRemoteHost, h.connected, h.peer, Bool.true_and]
    have hbranch : y.ackBranch e n = .foreignHost ∨ y.ackBranch e n = .retry := by
      rcases h.received _ (List.mem_of_getElem? hx) with ⟨he, hl⟩ | ⟨he, hn⟩
      · refine .inl ?_
        rw [decide_eq_true hl] at hhost
        rw [ackBranch, if_neg (by simp [hhost]), if_pos hhost]
      · have hn' : n = 0 := hn
        rw [ackBranch, if_neg fun hc => he hc.1]
        split_ifs with h1 h2
        · exact .inl rfl
        · exact .inr rfl
        · exact absurd (.inr (by rw [hn']; decide)) h2
    change 2 ≤ (sentTo client (onReceive r e n { x with
      io := { x.io with received := x.io.received.eraseIdx i } }).io.wire).length
    rw [onReceive_eq, checkAckForLastBlock]
    dsimp only
    rw [← hy]
    rcases hbranch with hb | hb
    · simp only [hb]
      rw [sendNextBlock_zero_wire (hwf.sendErrorMsg _ _ _) hcount hblock hrun]
      obtain ⟨w, hw⟩ : ∃ w, (y.sendErrorMsg TftpErrorCode.unknownTrId.toUInt16
          (ascii "Remote host is not the partner of the transfer on this port")
          x.mLastReceivedReceiverEndpoint).io.wire = y.io.wire ++ w := ⟨_, Io.asyncSendDetached_wire _ _ _⟩
      have hpeer' : (y.sendErrorMsg TftpErrorCode.unknownTrId.toUInt16
          (ascii "Remote host is not the partner of the transfer on this port")
          x.mLastReceivedReceiverEndpoint).mReceiverEndpoint = client := hpeer
      rw [hw, hpeer', hwire, sentTo_append, sentTo_append, List.length_append, List.length_append,
        sentTo_self, sentTo_self, List.length_singleton, List.length_singleton]
      omega
    · simp only [hb]
      rw [sendNextBlock_zero_wire hwf hcount hblock hrun, hwire, hpeer, sentTo_append, sentTo_self,
        sentTo_self]
      exact le_rfl

end Tftpsender

/-! ## The replies to a request -/

/-- Some recognised option has a valid value. -/
def HasValidOption (m : OptMap) : Prop :=
  (∃ s, m[blksizeName]? = some s ∧ 8 ≤ atoi s ∧ atoi s ≤ 65464) ∨
  (∃ s, m[timeoutName]? = some s ∧ 0 ≤ atoi s ∧ atoi s ≤ 255) ∨
  ∃ s, m[tsizeName]? = some s ∧ 0 ≤ atoi s

theorem HasValidOption.ne_empty {m : OptMap} (h : HasValidOption m) : m ≠ ∅ := by
  rintro rfl
  rcases h with ⟨s, hs, -⟩ | ⟨s, hs, -⟩ | ⟨s, hs, -⟩ <;> simp at hs

namespace TftpServer

/-- The file of a request can be read, or written. -/
def FileUsable (request : RequestMessage) (s : TftpServer) : Prop :=
  if request.isRRQ then (s.os.content (s.path request)).isSome = true
  else (s.os.output (s.path request)).fail = false

/-- What has been sent to the client since the state `s₀`, from the listening
    socket and from the session that was started next. -/
def replies (client : Endpoint) (s₀ s : TftpServer) : List Bytes :=
  sentTo client (s.io.wire.drop s₀.io.wire.length) ++
    match s.sessions[s₀.sessions.length]? with
    | some x => sentTo client x.wire
    | none => []

theorem replies_append {client : Endpoint} {s₀ s : TftpServer} {x : Session}
    (h : s.sessions = s₀.sessions ++ [x]) : replies client s₀ s =
      sentTo client (s.io.wire.drop s₀.io.wire.length) ++ sentTo client x.wire := by
  rw [replies, h, List.getElem?_concat_length]

/-- A single OACK has been sent. -/
def OneOack (client : Endpoint) (s₀ s : TftpServer) : Prop :=
  ∃ d, replies client s₀ s = [d] ∧ ntohs d 0 = TftpOpcode.oack.toUInt16

/-- Nothing arrives from the client, and the timer of session `n` does not expire. -/
def Undisturbed (client : Endpoint) (n : ℕ) : HostEvent → Prop
  | .server (.listen _ e) => ∀ d, e ≠ .deliver client d
  | .server (.session m e) => m = n → (∀ d, e ≠ .deliver client d) ∧ e ≠ .expire
  | .changes _ | .rewritten _ _ => True

/-- The handler of a receive runs in session `n`. -/
def HandlesReceive (n : ℕ) (e : HostEvent) : Prop := ∃ i, e = .server (.session n (.runReceive i))

variable {client : Endpoint} {s₀ s s' : TftpServer} {past d : Bytes}

/-- What a datagram makes the server send goes to where it came from; no session
    is lost, and no other datagram arrives. -/
theorem Handles.grows {n : ℕ} (h : Handles past n s s') :
    (∃ w : List (Endpoint × Bytes), s'.io.wire = s.io.wire ++ w ∧ ∀ p ∈ w, p.1 = s.currAccEndpoint) ∧
      (∃ l, s'.sessions = s.sessions ++ l) ∧ s'.io.arrivals = s.io.arrivals := by
  have hw : ∀ p ∈ (s.refusals past n).map fun d => (s.currAccEndpoint, d), p.1 = s.currAccEndpoint := by
    intro p hp
    obtain ⟨d, -, rfl⟩ := List.mem_map.1 hp
    rfl
  cases h with
  | ignored _ =>
    exact ⟨⟨_, Io.asyncReceiveFrom_wire _ _, hw⟩, ⟨[], (List.append_nil _).symm⟩,
      Io.asyncReceiveFrom_arrivals _ _⟩
  | thrown _ _ => exact ⟨⟨_, rfl, hw⟩, ⟨[], (List.append_nil _).symm⟩, rfl⟩
  | invalid _ _ =>
    refine ⟨⟨_, (Io.asyncReceiveFrom_wire _ _).trans ((Io.asyncSendDetached_wire _ _ _).trans
      (List.append_assoc _ _ _)), fun p hp => ?_⟩, ⟨_, rfl⟩,
      (Io.asyncReceiveFrom_arrivals _ _).trans (Io.asyncSendDetached_arrivals _ _ _)⟩
    rcases List.mem_append.1 hp with hp | hp
    · exact hw p hp
    · split_ifs at hp
      · rw [List.mem_singleton.1 hp]
        rfl
      · cases hp
  | valid _ _ =>
    exact ⟨⟨_, Io.asyncReceiveFrom_wire _ _, hw⟩, ⟨_, rfl⟩, Io.asyncReceiveFrom_arrivals _ _⟩

/-- The OACK has been sent, and its session waits. -/
structure Answered (client : Endpoint) (oack : Bytes) (s₀ s : TftpServer) : Prop where
  inv : s.Inv
  wire : ∃ w, s.io.wire = s₀.io.wire ++ w ∧ ∀ p ∈ w, p.1 ≠ client
  current : s.io.arrivals ≠ [] → s.currAccEndpoint ≠ client
  session : ∃ x : Tftpsender, s.sessions[s₀.sessions.length]? = some (.sender x) ∧
    x.AwaitsAck client oack

variable {oack : Bytes}

theorem Answered.replies_eq (h : Answered client oack s₀ s) : replies client s₀ s = [oack] := by
  obtain ⟨w, hw, hne⟩ := h.wire
  obtain ⟨x, hx, ha⟩ := h.session
  rw [replies, hx, hw, List.drop_left, sentTo_other hne]
  change [] ++ sentTo client x.io.wire = _
  rw [ha.wire, sentTo_self, List.nil_append]

/-- A datagram from elsewhere is handled. -/
theorem Answered.handled {n : ℕ} (ho : s.io.isOpen = true) (h0 : s.io.tokens = 0)
    (hw : ∃ w, s.io.wire = s₀.io.wire ++ w ∧ ∀ p ∈ w, p.1 ≠ client) (hcur : s.currAccEndpoint ≠ client)
    (hx : ∃ x : Tftpsender, s.sessions[s₀.sessions.length]? = some (.sender x) ∧ x.AwaitsAck client oack)
    (hinv : Inv (s.handleRequest past .success n)) :
    Answered client oack s₀ (s.handleRequest past .success n) := by
  obtain ⟨⟨w', hw', hto⟩, ⟨l, hl⟩, harr⟩ := (handles past n ho).grows
  obtain ⟨w, hw, hother⟩ := hw
  obtain ⟨x, hx, ha⟩ := hx
  refine ⟨hinv, ⟨w ++ w', ?_, fun p hp => ?_⟩, fun ha => ?_, x, ?_, ha⟩
  · rw [hw', hw, List.append_assoc]
  · rcases List.mem_append.1 hp with hp | hp
    · exact hother p hp
    · rw [hto p hp]
      exact hcur
  · exact absurd (harr.trans (Io.arrivals_eq_nil h0)) ha
  · rw [hl, List.getElem?_append_left (List.getElem?_eq_some_iff.1 hx).1]
    exact hx

theorem Answered.serverStep (h : Answered client oack s₀ s) {e : ServerEvent}
    (hu : Undisturbed client s₀.sessions.length (.server e)) (hr : ¬ HandlesReceive s₀.sessions.length (.server e))
    (hstep : step s e = some s') : Answered client oack s₀ s' := by
  have hinv := h.inv.step hstep
  obtain ⟨x, hx, ha⟩ := h.session
  cases e with
  | session m e =>
    simp only [TftpServer.step] at hstep
    split_ifs at hstep
    obtain ⟨y, hy, hstep⟩ := Option.bind_eq_some_iff.1 hstep
    obtain ⟨y', hy', rfl⟩ := Option.map_eq_some_iff.1 hstep
    refine ⟨hinv, h.wire, h.current, ?_⟩
    by_cases hm : m = s₀.sessions.length
    · subst hm
      rw [hx] at hy
      cases hy
      obtain ⟨x', hx', rfl⟩ := Option.map_eq_some_iff.1 hy'
      have hlt := (List.getElem?_eq_some_iff.1 hx).1
      refine ⟨x', ?_, ha.step (hu rfl).1 (fun i he => hr ⟨i, by rw [he]⟩) hx'⟩
      simp [hlt]
    · exact ⟨x, by rw [List.getElem?_set_ne hm]; exact hx, ha⟩
  | listen past e =>
    obtain ⟨hd, hs⟩ := Proactor.step_cases hstep
    clear hstep
    have htokens := h.inv.tokens
    cases hs with
    | start hst => exact absurd h.inv.started (by rw [show s.io.started = false from hst]; decide)
    | @deliver src d r rs _ =>
      exact ⟨hinv, h.wire, fun _ hsrc => hu d (by rw [show src = client from hsrc]), x, hx, ha⟩
    | @receiveFails e r rs _ he =>
      refine ⟨hinv, h.wire, fun hne => h.current ?_, x, hx, ha⟩
      simpa [Io.arrivals, proactor, he] using hne
    | sendCompletes _ => exact ⟨hinv, h.wire, h.current, x, hx, ha⟩
    | expire _ => exact ⟨hinv, h.wire, h.current, x, hx, ha⟩
    | @runReceive i r e n hy =>
      obtain ⟨-, h0⟩ := Io.tokens_eraseIdx_received hy htokens
      by_cases he : e = .success
      · subst he
        have hne : s.io.arrivals ≠ [] :=
          List.ne_nil_of_mem (List.mem_filter.2 ⟨List.mem_of_getElem? hy, by simp⟩)
        have hcur := h.current hne
        exact Answered.handled h.inv.isOpen h0 h.wire hcur ⟨x, hx, ha⟩ hinv
      · change Answered client oack s₀ (handleRequest past e n
          { s with io := { s.io with received := s.io.received.eraseIdx i } })
        change Inv (handleRequest past e n _) at hinv
        rw [handleRequest, if_neg he] at hinv ⊢
        exact ⟨hinv, h.wire, fun ha => absurd (Io.arrivals_eq_nil h0) ha, x, hx, ha⟩
    | @runSend i e n hy =>
      exact ⟨hinv, h.wire, h.current, x, hx, ha⟩
    | runTimer _ => exact ⟨hinv, h.wire, h.current, x, hx, ha⟩

/-- **It stays so** unless the client or the timer is heard of, or the handler of
    its receive runs. -/
theorem Answered.step (h : Answered client oack s₀ s) {e : HostEvent}
    (hu : Undisturbed client s₀.sessions.length e) (hr : ¬ HandlesReceive s₀.sessions.length e)
    (hstep : hostStep s e = some s') : Answered client oack s₀ s' := by
  have hcase := (hostStep_cases hstep).2
  have hinv := hcase.inv h.inv
  cases hcase with
  | server hstep => exact h.serverStep hu hr hstep
  | changes os => exact ⟨hinv, h.wire, h.current, h.session⟩
  | @rewritten n y hy content =>
    refine ⟨hinv, h.wire, h.current, ?_⟩
    obtain ⟨x, hx, ha⟩ := h.session
    by_cases hn : n = s₀.sessions.length
    · subst hn
      rw [hx] at hy
      cases hy
      have hlt := (List.getElem?_eq_some_iff.1 hx).1
      exact ⟨_, by rw [List.getElem?_set_self hlt]; rfl, ha.rewrite content⟩
    · exact ⟨x, by rw [List.getElem?_set_ne hn]; exact hx, ha⟩

theorem Answered.run {os : OperatingSystem} {root : Bytes} (h : Answered client oack s₀ s)
    {es : List HostEvent} (hu : ∀ e ∈ es, Undisturbed client s₀.sessions.length e)
    (hr : ∀ e ∈ es, ¬ HandlesReceive s₀.sessions.length e) (hrun : (system os root).run s es = some s') :
    Answered client oack s₀ s' := by
  induction es generalizing s with
  | nil => cases hrun; exact h
  | cons e es ih =>
    obtain ⟨t, ht, hrun⟩ := Option.bind_eq_some_iff.1 hrun
    exact ih (h.step (hu e List.mem_cons_self) (hr e List.mem_cons_self) ht)
      (fun e he => hu e (List.mem_cons_of_mem _ he)) (fun e he => hr e (List.mem_cons_of_mem _ he)) hrun

/-- **The handler of its receive makes it send more.** -/
theorem Answered.handlesReceive (h : Answered client oack s₀ s) {e : HostEvent}
    (he : HandlesReceive s₀.sessions.length e) (hstep : hostStep s e = some s') :
    ¬ OneOack client s₀ s' := by
  obtain ⟨i, rfl⟩ := he
  obtain ⟨x, hx, ha⟩ := h.session
  simp only [hostStep, TftpServer.step, hx, Option.bind_some] at hstep
  split_ifs at hstep
  obtain ⟨y, hy, rfl⟩ := Option.map_eq_some_iff.1 hstep
  obtain ⟨x', hx', rfl⟩ := Option.map_eq_some_iff.1 hy
  rintro ⟨d, hd, -⟩
  have hlt := (List.getElem?_eq_some_iff.1 hx).1
  have htwo := ha.runReceive hx'
  have hlen := congrArg List.length hd
  simp only [replies, List.getElem?_set, hlt, if_true, List.length_append, List.length_cons,
    List.length_nil] at hlen
  change _ + (sentTo client x'.io.wire).length = _ at hlen
  omega

/-- So it does not run as long as the OACK is the only reply. -/
theorem Answered.no_receive {os : OperatingSystem} {root : Bytes} (h : Answered client oack s₀ s)
    {es : List HostEvent} (hu : ∀ e ∈ es, Undisturbed client s₀.sessions.length e)
    (hrun : (system os root).run s es = some s') (hall : ∀ es₁ s₁, es₁ <+: es →
      (system os root).run s es₁ = some s₁ → OneOack client s₀ s₁) :
    ∀ e ∈ es, ¬ HandlesReceive s₀.sessions.length e := by
  induction es generalizing s with
  | nil => intro e he; cases he
  | cons e es ih =>
    obtain ⟨t, ht, hrun⟩ := Option.bind_eq_some_iff.1 hrun
    have hcons : ∀ es₁, (system os root).run s (e :: es₁) = (system os root).run t es₁ := by
      intro es₁
      rw [Lts.run, ht]
      rfl
    have he : ¬ HandlesReceive s₀.sessions.length e := fun he =>
      h.handlesReceive he ht (hall [e] t ⟨es, rfl⟩ (hcons []))
    intro e' he'
    rcases List.mem_cons.1 he' with rfl | he'
    · exact he
    · refine ih (h.step (hu _ List.mem_cons_self) he ht) (fun e he => hu e (List.mem_cons_of_mem _ he))
        hrun (fun es₁ s₁ hpre hrun₁ => ?_) e' he'
      exact hall (e :: es₁) s₁ (List.cons_prefix_cons.2 ⟨rfl, hpre⟩) ((hcons es₁).trans hrun₁)

/-! ## Which requests are answered so -/

theorem opcode_optionsError : ntohs optionsError 0 = TftpOpcode.error.toUInt16 := ntohs_htons [] _ _

/-- The ACK 0 that follows an OACK. -/
theorem start_receiver_wire {output : OStream} (ho : output.fail = false) (src : Endpoint) (bs : ℕ)
    (t : UInt8) (w : List (Endpoint × Bytes)) :
    (TftpReceiver.newConnected { started := true, wire := w } output src bs t).start.io.wire =
      w ++ [(src, ackOf 0)] := by
  unfold TftpReceiver.start TftpReceiver.newConnected TftpReceiver.onConnect TftpReceiver.new
    TftpReceiver.sendNextAck
  simp only [ho, Bool.false_eq_true, if_false, if_true]
  rfl

section
variable {os : OperatingSystem} {root : Bytes} {src : Endpoint} (h : (system os root).Reach s)
  (hd : (request past d).1 = true) (hne : (request past d).2.mOptionValues ≠ ∅)
include h hd hne

/-- **An acceptable read request is answered with an OACK.** -/
theorem answered_receive (hl : s.io.receives ≠ []) (hr : (request past d).2.isRRQ)
    (ha : Acceptable (request past d).2.mOptionValues) (hfile : FileUsable (request past d).2 s)
    (hsock : s.os.sockets = true) :
    ∃ v : TransactionOptionValues, Answered src v.oackBytes s (s.receive past src d) := by
  have heq := receive_decoded hd (reach_inv h).isOpen src
  rw [(admission_eq_some_iff _ _).2 ⟨hsock, parseOptionFields_eq_ok_iff.2 (.inr ⟨hne, ha, rfl⟩), by rw [hr]; rfl⟩]
    at heq
  rw [FileUsable, if_pos hr] at hfile
  obtain ⟨F, hF⟩ := Option.isSome_iff_exists.1 hfile
  have hbs : 8 ≤ (optionsOf (request past d).2.mOptionValues).mBlocksize.getD defaultBlocksize ∧
      (optionsOf (request past d).2.mOptionValues).mBlocksize.getD defaultBlocksize ≤ 65464 := by
    cases hb : (optionsOf (request past d).2.mOptionValues).mBlocksize with
    | none => decide
    | some n => exact ha.fromMap.blksize n hb
  have hsess : ∀ p : SessionParams, (s.arrived src d).sessionOf (request past d).2 p src =
      .sender (Tftpsender.newConnected { started := true, wire := p.sent } (.ofFile (some F)) src
        p.expected_ack p.blocksize_to_use p.timeout_to_use).start := by
    intro p
    have hF' : (s.arrived src d).os.content ((s.arrived src d).path (request past d).2) = some F := hF
    rw [sessionOf, if_pos hr, hF']
  obtain ⟨hthrew, -, hl'⟩ := reach_listening h hl
  refine ⟨s.respond (request past d).2 (fromClient (request past d).2.mOptionValues),
    receive_inv h hl past src d, ⟨[], ?_, fun p hp => by cases hp⟩, fun hc => ?_, _, ?_,
    Tftpsender.start_awaitsAck F hbs
      ((optionsOf (request past d).2.mOptionValues).mTimeout.getD retransmissionTime)⟩
  · rw [heq, List.append_nil]
    exact Io.asyncReceiveFrom_wire _ _
  · refine absurd ?_ hc
    rw [heq]
    refine (Io.asyncReceiveFrom_arrivals _ _).trans ?_
    change s.io.received.filter _ = []
    rw [hl']
    rfl
  · rw [heq]
    change (s.sessions ++ [(s.arrived src d).sessionOf (request past d).2 _ src])[s.sessions.length]? = _
    rw [List.getElem?_concat_length, hsess]
    rfl

/-- **No other one is answered with an OACK alone.** -/
theorem acceptable_of_oneOack (hfile : FileUsable (request past d).2 s)
    (hone : OneOack src s (s.receive past src d)) : s.os.sockets = true ∧
    (request past d).2.isRRQ ∧ Acceptable (request past d).2.mOptionValues := by
  obtain ⟨b, hb, hop⟩ := hone
  have ho := (reach_inv h).isOpen
  have heq := receive_decoded hd ho src
  cases hp : s.admission (request past d).2 with
  | error e =>
    rw [hp] at heq
    rw [heq] at hb
    simp [replies, arrived, store, sentTo] at hb
  | ok o =>
    cases o with
    | none =>
      rw [hp] at heq
      have hw : (s.receive past src d).io.wire = s.io.wire ++ [(src, optionsError)] := by
        rw [heq]
        refine (Io.asyncReceiveFrom_wire _ _).trans ((Io.asyncSendDetached_wire _ _ _).trans ?_)
        rw [show (s.arrived src d).io.isOpen = true from ho]
        rfl
      rw [replies, hw, List.drop_left, sentTo_self] at hb
      obtain rfl : optionsError = b := by simpa using congrArg List.head? hb
      rw [opcode_optionsError] at hop
      exact absurd hop (by decide)
    | some v =>
      rw [hp] at heq
      obtain ⟨hsock, hp, -⟩ := (admission_eq_some_iff _ _).1 hp
      rcases parseOptionFields_eq_ok_iff.1 hp with ⟨he, -⟩ | ⟨-, ha, rfl⟩
      · exact absurd he hne
      · refine ⟨hsock, ?_, ha⟩
        by_contra hr
        rw [FileUsable, if_neg hr] at hfile
        -- the receiver has sent its ACK 0 after the OACK
        have hsess : ∀ p : SessionParams, ((s.arrived src d).sessionOf (request past d).2 p src).wire =
            p.sent ++ [(src, ackOf 0)] := by
          intro p
          rw [sessionOf, if_neg hr]
          exact start_receiver_wire hfile src _ _ _
        have hx : (s.receive past src d).sessions = s.sessions ++ [(s.arrived src d).sessionOf
            (request past d).2 (paramsOf (s.respond (request past d).2)
              (fromClient (request past d).2.mOptionValues) src) src] := by
          rw [heq]
          rfl
        have hlen := congrArg List.length hb
        rw [replies_append hx, hsess, paramsOf_fromClient, sentTo_append, sentTo_self, sentTo_self] at hlen
        simp at hlen

end

/-- **When an OACK is the only reply** to a request with a valid option, until the
    client or the timer is heard of: exactly if a socket can be opened, it is a read request, all
    its options are acceptable, and no receive of the session is completed otherwise. -/
theorem opening_reply_iff {os : OperatingSystem} {root : Bytes} {src : Endpoint} {es : List HostEvent}
    (h : (system os root).Reach s) (hl : s.io.receives ≠ []) (hd : (request past d).1 = true)
    (hopt : HasValidOption (request past d).2.mOptionValues) (hfile : FileUsable (request past d).2 s)
    (hes : ∀ e ∈ es, Undisturbed src s.sessions.length e)
    (hrun : (system os root).run (s.receive past src d) es = some s') :
    (∀ es₁ s₁, es₁ <+: es → (system os root).run (s.receive past src d) es₁ = some s₁ →
      OneOack src s s₁) ↔
    s.os.sockets = true ∧ (request past d).2.isRRQ ∧ Acceptable (request past d).2.mOptionValues ∧
      ∀ e ∈ es, ¬ HandlesReceive s.sessions.length e := by
  have hne := hopt.ne_empty
  constructor
  · intro hall
    obtain ⟨hsock, hr, ha⟩ := acceptable_of_oneOack h hd hne hfile (hall [] _ List.nil_prefix rfl)
    obtain ⟨v, hans⟩ := answered_receive h hd hne hl hr ha hfile hsock
    exact ⟨hsock, hr, ha, hans.no_receive hes hrun hall⟩
  · rintro ⟨hsock, hr, ha, hno⟩ es₁ s₁ ⟨es₂, rfl⟩ hrun₁
    obtain ⟨v, hans⟩ := answered_receive h hd hne hl hr ha hfile hsock
    have hans₁ := hans.run (fun e hm => hes e (List.mem_append_left _ hm))
      (fun e hm => hno e (List.mem_append_left _ hm)) hrun₁
    exact ⟨_, hans₁.replies_eq, TransactionOptionValues.opcode_oackBytes v⟩

theorem acceptable_blksize (opcode : TftpOpcode) :
    Acceptable (oneOption opcode blksizeName (ascii "8")).mOptionValues where
  blksize s hs := by
    rw [getElem?_oneOption, if_pos rfl] at hs
    cases hs
    decide
  timeout hm := absurd (mem_oneOption.1 hm) (by decide)
  tsize s hs := by
    rw [getElem?_oneOption, if_neg (by decide)] at hs
    cases hs

/-- A read request with a block size of 8. -/
theorem opening_reply_read_request : OneOack ⟨1, 1⟩ (new oneFile slash)
    (receive [] ⟨1, 1⟩ (oneOption .rrq blksizeName (ascii "8")).wire (new oneFile slash)) := by
  have hreq := @request_oneOption .rrq blksizeName (ascii "8") (.inl rfl) (by decide) (by decide)
    (by decide) []
  have hget : (oneOption .rrq blksizeName (ascii "8")).mOptionValues[blksizeName]? = some (ascii "8") :=
    (getElem?_oneOption _ _ _ _).trans (if_pos rfl)
  refine (@opening_reply_iff _ _ [] (oneOption .rrq blksizeName (ascii "8")).wire oneFile slash ⟨1, 1⟩ []
    (.init rfl) (List.cons_ne_nil _ _) (by rw [hreq]) ?_ ?_ (fun e he => by cases he) rfl).2 ?_ [] _
    List.nil_prefix rfl
  · rw [hreq]
    exact .inl ⟨_, hget, by decide, by decide⟩
  · rw [hreq]
    exact rfl
  · rw [hreq]
    exact ⟨rfl, rfl, acceptable_blksize _, fun e he => by cases he⟩

/-- A write request with a block size of 8 is answered with an ACK 0 as well. -/
theorem not_one_oack_write_request : ¬ OneOack ⟨1, 1⟩ (new oneFile slash)
    (receive [] ⟨1, 1⟩ (oneOption .wrq blksizeName (ascii "8")).wire (new oneFile slash)) := by
  have hreq := @request_oneOption .wrq blksizeName (ascii "8") (.inr rfl) (by decide) (by decide)
    (by decide) []
  have hne : (oneOption .wrq blksizeName (ascii "8")).mOptionValues ≠ ∅ :=
    Std.ExtTreeMap.ne_empty_of_mem (mem_oneOption.2 rfl)
  intro hone
  have hr := (@acceptable_of_oneOack (new oneFile slash) [] (oneOption .wrq blksizeName (ascii "8")).wire
    oneFile slash ⟨1, 1⟩ (.init rfl) (by rw [hreq]) (by rw [hreq]; exact hne) (by rw [hreq]; rfl) hone).2.1
  rw [hreq] at hr
  exact absurd hr (by decide)

end TftpServer

end Ttftp

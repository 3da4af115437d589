/-
  A read request with a block size completes, and a write request does not.

  After the OACK of a write request the server's receiver also sends ACK 0, which
  the client's sender answers by a second DATA 1.  From then on each block is sent
  twice (`Tftpsender.twice`, `TftpReceiver.twice`), and the second sending of the
  last one fails, since its stream has met the end of the file.
-/
import Ttftp.Proof.Handshake

namespace Ttftp

open Bytes Asio
open Dialogue (Party Matched)

/-! ## Each block twice -/

section
variable {F : Bytes} {bs : ℕ}

/-- The part of a sender that gets each ACK twice, the last of them missing. -/
def Tftpsender.twice (hbs : 8 ≤ bs) (hF : F.length < 65535 * bs) : Tftpsender.Script F bs where
  party := {
    speaks := true
    last := 2 * lastBlock F bs - 1
    answersLast := true
    out := fun m => if m + 1 = 2 * lastBlock F bs then readError else dataOf F bs (1 + m / 2) }
  inc n := (n + 1) / 2
  cur n := 1 + n / 2
  code := .inputFileOpen
  first := rfl
  outFirst _ := by
    have hK : 1 ≤ lastBlock F bs := Nat.succ_pos _
    dsimp only
    rw [if_neg (by omega)]
  bound n hn := by
    have := lastBlock_le hF
    dsimp only at hn
    omega
  next n hn := by
    dsimp only at hn
    refine ⟨full_of_lt_lastBlock (by omega), ?_, ?_⟩
    · exact if_neg (by simp only [Bool.toNat_true]; omega)
    · omega
  final n hn := by
    have hK : 1 ≤ lastBlock F bs := Nat.succ_pos _
    dsimp only at hn
    have hcur : 1 + n / 2 = lastBlock F bs := by omega
    refine ⟨by rw [hcur]; exact short_lastBlock hbs, .inr ⟨by omega, rfl, rfl, ?_⟩⟩
    exact if_pos (by simp only [Bool.toNat_true]; omega)

/-- The part of a receiver that gets each block twice. -/
def TftpReceiver.twice (hbs : 8 ≤ bs) (hF : F.length < 65535 * bs) : TftpReceiver.Script F bs where
  party := {
    speaks := true
    last := 2 * lastBlock F bs - 1
    answersLast := true
    out := fun m => ackOf ((m + 1) / 2) }
  inc n := 1 + n / 2
  got n := (n + 1) / 2
  first := rfl
  outFirst _ := rfl
  bound n hn := by
    have := lastBlock_le hF
    dsimp only at hn
    omega
  next n hn := by
    dsimp only at hn
    refine ⟨rfl, ?_⟩
    rcases Nat.even_or_odd' n with ⟨a, rfl | rfl⟩
    · refine .inl ⟨by omega, by omega, full_of_lt_lastBlock (by omega)⟩
    · exact .inr ⟨by omega, by omega⟩
  final n hn := by
    have hK : 1 ≤ lastBlock F bs := Nat.succ_pos _
    dsimp only at hn
    have hinc : 1 + n / 2 = lastBlock F bs := by omega
    refine ⟨by omega, by rw [hinc]; exact short_lastBlock hbs, rfl, ?_⟩
    simp only [Bool.toNat_true]
    exact congrArg ackOf (by omega)

theorem twice_linked (hbs : 8 ≤ bs) (hbs' : bs ≤ 65464) (hF : F.length < 65535 * bs) (A B : Endpoint)
    (before before' : List (Endpoint × Bytes)) :
    Linked (Tftpsender.speaker (Tftpsender.twice hbs hF) B before)
      (TftpReceiver.speaker (TftpReceiver.twice hbs hF) A before') where
  matched := by
    have hK : 1 ≤ lastBlock F bs := Nat.succ_pos _
    refine ⟨.inl rfl, ⟨?_, ?_⟩, ?_, ?_⟩
    · change 0 < 2 * lastBlock F bs - 1
      omega
    · change 2 * lastBlock F bs - 1 ≤ 2 * lastBlock F bs - 1 - 1 + 1 + 1
      omega
    · change 0 < 2 * lastBlock F bs - 1
      omega
    · change 2 * lastBlock F bs - 1 ≤ 2 * lastBlock F bs - 1 - 1 + 1 + 1
      omega
  left := Tftpsender.speaker_spec hbs hbs'
  right := TftpReceiver.speaker_spec hbs
  toLeft n _ := rfl
  toRight n hn := by
    have hn' : n < 2 * lastBlock F bs - 1 := hn
    exact (if_neg (by omega)).symm

end

namespace Setup
variable {F : Bytes} {bs : ℕ}

/-! ## Read requests -/

section
variable {U : Setup .rrq F}

/-- The server's sender, which waits for ACK 0. -/
abbrev readSender (U : Setup .rrq F) (hbs : 8 ≤ bs) (hF : F.length < 65535 * bs) :
    Speaker Tftpsender.proactor :=
  Tftpsender.speaker (Tftpsender.script hbs hF false) U.network.client [(U.network.client, oack F bs)]

/-- The client's receiver, which sends it. -/
abbrev readReceiver (U : Setup .rrq F) (hbs : 8 ≤ bs) (hF : F.length < 65535 * bs) :
    Speaker TftpReceiver.proactor :=
  TftpReceiver.speaker (TftpReceiver.script hbs hF true) (U.network.server (.session 0))
    [(U.network.server .listen, (U.request bs).wire)]

theorem read_exchange (hbs : 8 ≤ bs) (hbs' : bs ≤ 65464) (hF : F.length < 65535 * bs) :
    Exchange U.network (U.readReceiver hbs hF) (U.readSender hbs hF) (U.request bs).wire (oack F bs) :=
  ⟨(script_linked hbs hbs' hF false _ _ _ _).symm, rfl, rfl, rfl, rfl⟩

theorem read_served (hbs : 8 ≤ bs) (hbs' : bs ≤ 65464) (hF : F.length < 65535 * bs)
    (hl : (U.request bs).messageLength ≤ 512) : Served U bs (U.readSender hbs hF) .sender where
  kind := .inl rfl
  fits := hl
  range := ⟨hbs, hbs'⟩
  size h := absurd rfl h
  serves := (read_exchange hbs hbs' hF).serves
  isSession := isSession_sender
  starts := by
    refine ⟨⟨.waiting, 0⟩, (Tftpsender.newConnected { started := true, wire := [(U.network.client, oack F bs)] }
      (.ofFile (U.serverOs.content (U.serverRoot ++ U.filename))) U.network.client 0 bs
      retransmissionTime).start, rfl, ?_, ?_, ?_, rfl⟩
    · rw [(U.rrq rfl).1]
      exact Tftpsender.newConnected_started hbs hbs' _ rfl _
    · exact Nat.succ_pos _
    · simp

/-- The receiver that the client then starts. -/
def readStarted (U : Setup .rrq F) (bs : ℕ) : TftpReceiver :=
  (TftpReceiver.newConnected { started := true, wire := [(U.network.server .listen, (U.request bs).wire)] } {}
    (U.network.server (.session 0)) bs retransmissionTime).start

theorem read_starts (hbs : 8 ≤ bs) (hF : F.length < 65535 * bs) :
    Starts (U.readReceiver hbs hF) ⟨.sending, 0⟩ (U.readStarted bs) :=
  ⟨TftpReceiver.newConnected_started hbs _ rfl _, Nat.succ_pos _, by simp, rfl⟩

/-- The client's answer to the OACK, if the file fits on its disk. -/
theorem handled_read (hbs : 8 ≤ bs ∧ bs ≤ 65464) (hF : F.length < 2 ^ 31) (past : Bytes) :
    U.handled bs past = (match U.clientOs.available U.clientFolder with
      | none => { U.answering bs with threw := some .systemError }
      | some available => if available < UInt64.ofNat F.length then U.answering bs
          else (U.answering bs).startSession (.receiver (U.readStarted bs))).release := by
  have hout : (U.answering bs).os.output (U.answering bs).filepath = {} := (U.rrq rfl).2.2
  rw [handled_eq hbs, handleOack_small hbs hF, if_pos (show (U.answering bs).requestType = .rrq from rfl),
    TftpClient.acceptOack_RRQ, TftpClient.receiveFile, hout]
  rfl

/-- What is sent after the OACK is the file. -/
theorem dataSent_blocks (client : Endpoint) (F : Bytes) (bs n : ℕ) :
    dataSent ([(client, oack F bs)] ++ (List.range n).map fun i => (client, dataOf F bs (i + 1))) =
      (List.range n).map fun i => dataOf F bs (i + 1) := by
  have hoack : ¬ ntohs (oack F bs) 0 = TftpOpcode.data.toUInt16 := by
    rw [oack, TransactionOptionValues.opcode_oackBytes]
    decide
  unfold dataSent
  rw [List.map_append, List.filter_append, List.map_map]
  simp only [List.map_cons, List.map_nil, List.filter_cons, hoack, decide_false, Bool.false_eq_true, if_false,
    List.filter_nil, List.nil_append]
  refine List.filter_eq_self.2 fun d hd => ?_
  obtain ⟨i, -, rfl⟩ := List.mem_map.1 hd
  exact decide_eq_true (ntohs_dataBytes _ _)

/-- Both sessions have ended with the file transferred. -/
theorem read_completed {hbs : 8 ≤ bs} {hF : F.length < 65535 * bs} {t : EndToEnd} {x y : Dialogue.State}
    {s : TftpReceiver} {u : Tftpsender} {i j : ℕ}
    (h : t.Talking .receiver .sender (U.readReceiver hbs hF) (U.readSender hbs hF) x y s u i j)
    (hx : x.phase = .ended) (hy : y.phase = .ended) : t.Completed .rrq F bs where
  client := by
    have hc := h.joined.left.data.callbacks
    rw [if_pos hx] at hc
    rw [TftpClient.reports, h.client.callbacks, h.client.session]
    exact hc
  server := by
    have hc := h.joined.right.data.callbacks
    rw [if_pos hy] at hc
    rw [TftpServer.reports, h.sessions]
    exact (List.append_nil _).trans hc
  file := by
    have hc := h.joined.left.data.content
    rw [if_pos hx] at hc
    refine ⟨u, s, ⟨h.client.session, h.sessions⟩, hc, ?_⟩
    have hw : u.io.wire = (U.readSender hbs hF).wireAt y := h.joined.right.wire
    have hsent : (U.readSender hbs hF).party.sent y = F.length / bs + 1 := by
      obtain ⟨py, n⟩ := y
      obtain rfl : py = .ended := hy
      rfl
    rw [hw, Speaker.wireAt, hsent]
    exact dataSent_blocks U.network.client F bs _

/-- **When a read request completes.** -/
theorem read_completes_iff (hbs : 8 ≤ bs) (hbs' : bs ≤ 65464) (hF : F.length < 65535 * bs)
    (hl : (U.request bs).messageLength ≤ 512) :
    U.Completes bs ↔ F.length < 2 ^ 31 ∧
      ∃ available, U.clientOs.available U.clientFolder = some available ∧ UInt64.ofNat F.length ≤ available := by
  have hS := read_served hbs hbs' hF hl
  constructor
  · intro h
    by_contra hno
    refine U.not_completes_of_dropped bs hS (fun past => ?_) h
    rcases lt_or_ge F.length (2 ^ 31) with hsmall | hlarge
    · rw [handled_read ⟨hbs, hbs'⟩ hsmall]
      cases ha : U.clientOs.available U.clientFolder with
      | none => exact ⟨rfl, rfl, rfl⟩
      | some available =>
        dsimp only
        rw [if_pos (UInt64.not_le.1 fun hle => hno ⟨hsmall, available, ha, hle⟩)]
        exact ⟨rfl, rfl, rfl⟩
    · rw [handled_eq ⟨hbs, hbs'⟩, handleOack_large ⟨hbs, hbs'⟩ hF hlarge]
      exact ⟨rfl, rfl, rfl⟩
  · rintro ⟨hsmall, available, ha, hspace⟩ t hr
    obtain ⟨hrest, hall⟩ := reach_ended hS (read_exchange hbs hbs' hF) isSession_receiver
      (read_starts hbs hF) (fun past => by
        rw [handled_read ⟨hbs, hbs'⟩ hsmall, ha]
        dsimp only
        rw [if_neg (UInt64.not_lt.2 hspace)]
        exact startSession_handedOver _) hr
    refine ⟨hrest, fun hrest => ?_⟩
    obtain ⟨x, y, s, u, i, j, ht, hx, hy⟩ := hall hrest
    exact read_completed ht hx hy

end

/-! ## Write requests -/

section
variable {U : Setup .wrq F}

/-- The client's sender, which gets ACK 0 after its DATA 1. -/
abbrev writeSender (U : Setup .wrq F) (hbs : 8 ≤ bs) (hF : F.length < 65535 * bs) :
    Speaker Tftpsender.proactor :=
  Tftpsender.speaker (Tftpsender.twice hbs hF) (U.network.server (.session 0))
    [(U.network.server .listen, (U.request bs).wire)]

abbrev writeReceiver (U : Setup .wrq F) (hbs : 8 ≤ bs) (hF : F.length < 65535 * bs) :
    Speaker TftpReceiver.proactor :=
  TftpReceiver.speaker (TftpReceiver.twice hbs hF) U.network.client [(U.network.client, oack F bs)]

theorem write_exchange (hbs : 8 ≤ bs) (hbs' : bs ≤ 65464) (hF : F.length < 65535 * bs) :
    Exchange U.network (U.writeSender hbs hF) (U.writeReceiver hbs hF) (U.request bs).wire (oack F bs) :=
  ⟨twice_linked hbs hbs' hF _ _ _ _, rfl, rfl, rfl, rfl⟩

theorem write_served (hbs : 8 ≤ bs) (hbs' : bs ≤ 65464) (hF : F.length < 65535 * bs)
    (hl : (U.request bs).messageLength ≤ 512) (hsmall : F.length < 2 ^ 31) :
    Served U bs (U.writeReceiver hbs hF) .receiver where
  kind := .inr rfl
  fits := hl
  range := ⟨hbs, hbs'⟩
  size _ := hsmall
  serves := (write_exchange hbs hbs' hF).serves
  isSession := isSession_receiver
  starts := by
    refine ⟨⟨.sending, 0⟩, (TftpReceiver.newConnected { started := true, wire := [(U.network.client, oack F bs)] }
      (U.serverOs.output (U.serverRoot ++ U.filename)) U.network.client bs
      retransmissionTime).start, rfl, ?_, ?_, ?_, rfl⟩
    · rw [(U.wrq rfl).2.2.1]
      exact TftpReceiver.newConnected_started hbs _ rfl _
    · exact (write_exchange hbs hbs' hF).linked.matched.right.1
    · simp

/-- The sender that the client then starts. -/
def writeStarted (U : Setup .wrq F) (bs : ℕ) : Tftpsender :=
  (Tftpsender.newConnected { started := true, wire := [(U.network.server .listen, (U.request bs).wire)] }
    (.ofFile (some F)) (U.network.server (.session 0)) 1 bs retransmissionTime).start

theorem write_starts (hbs : 8 ≤ bs) (hbs' : bs ≤ 65464) (hF : F.length < 65535 * bs) :
    Starts (U.writeSender hbs hF) ⟨.sending, 0⟩ (U.writeStarted bs) :=
  ⟨Tftpsender.newConnected_started hbs hbs' _ rfl _, (write_exchange hbs hbs' hF).linked.matched.left.1,
    by simp, rfl⟩

theorem handled_write (hbs : 8 ≤ bs ∧ bs ≤ 65464) (hF : F.length < 2 ^ 31) (past : Bytes) :
    U.handled bs past = ((U.answering bs).startSession (.sender (U.writeStarted bs))).release := by
  have hin : (U.answering bs).os.content (U.answering bs).filepath = some F := (U.wrq rfl).1
  rw [handled_eq hbs, handleOack_small hbs hF,
    if_neg (show (U.answering bs).requestType ≠ .rrq from fun h => TftpOpcode.noConfusion h),
    TftpClient.acceptOack_WRQ, hin]
  congr 1
  refine (if_neg ?_).trans rfl
  rw [Bool.not_eq_true]
  exact decide_eq_false (not_not.2 rfl)

/-- The client reports that it cannot read the file. -/
theorem write_reports {hbs : 8 ≤ bs} {hF : F.length < 65535 * bs} {t : EndToEnd} {x y : Dialogue.State}
    {s : Tftpsender} {u : TftpReceiver} {i j : ℕ}
    (h : t.Talking .sender .receiver (U.writeSender hbs hF) (U.writeReceiver hbs hF) x y s u i j)
    (hx : x.phase = .ended) : t.client.reports = [.inputFileOpen] := by
  have hc := h.joined.left.data.callbacks
  rw [if_pos hx] at hc
  rw [TftpClient.reports, h.client.callbacks, h.client.session]
  exact hc

/-- A write request for a small file comes to rest with that report. -/
theorem write_reported (hbs : 8 ≤ bs) (hbs' : bs ≤ 65464) (hF : F.length < 65535 * bs)
    (hl : (U.request bs).messageLength ≤ 512) (hsmall : F.length < 2 ^ 31) :
    ∃ t, (U.system bs).Reach t ∧ t.AtRest U.network ∧ t.client.reports = [.inputFileOpen] := by
  have hhand : ∀ past, (U.handled bs past).HandedOver (.sender (U.writeStarted bs)) := fun past => by
    rw [handled_write ⟨hbs, hbs'⟩ hsmall]
    exact startSession_handedOver _
  have hended := fun t (hr : (U.system bs).Reach t) => reach_ended (write_served hbs hbs' hF hl hsmall)
    (write_exchange hbs hbs' hF) isSession_sender (write_starts hbs hbs' hF) hhand hr
  obtain ⟨es, t, hrun, hrest⟩ := (hended _ (.init rfl)).1
  have hr := Lts.Reach.run (.init rfl) hrun
  obtain ⟨x, y, s, u, i, j, ht, hx, -⟩ := (hended t hr).2 hrest
  exact ⟨t, hr, hrest, write_reports ht hx⟩

/-- **A write request for a small file never completes.** -/
theorem write_not_completes (hbs : 8 ≤ bs) (hbs' : bs ≤ 65464) (hF : F.length < 65535 * bs)
    (hl : (U.request bs).messageLength ≤ 512) (hsmall : F.length < 2 ^ 31) : ¬ U.Completes bs := by
  intro hall
  obtain ⟨t, hr, hrest, hreports⟩ := write_reported hbs hbs' hF hl hsmall
  have hc := ((hall t hr).2 hrest).client
  rw [hreports] at hc
  cases hc

/-! ### Large files -/

/-- The receiver that the server starts for a request it has refused. -/
def refusedReceiver (U : Setup .wrq F) : TftpReceiver :=
  (TftpReceiver.newConnected { started := true } {} U.network.client defaultBlocksize retransmissionTime).start

/-- The server refuses the size of a large file, and starts a session all the same. -/
theorem receive_large (hbs : 8 ≤ bs ∧ bs ≤ 65464) (hF : F.length < 65535 * bs) (hlarge : 2 ^ 31 ≤ F.length)
    (hl : (U.request bs).messageLength ≤ 512) (past : Bytes) :
    (TftpServer.new U.serverOs U.serverRoot).receive past U.network.client (U.request bs).wire =
      (((TftpServer.arrived U.network.client (U.request bs).wire
        (.new U.serverOs U.serverRoot)).sendDatagram TftpServer.optionsError).startSession
          (U.request bs) {}).rearm := by
  have hdec := U.decode_request bs (.inr rfl) hl past
  have hle : 65535 * bs ≤ 65535 * 65464 := Nat.mul_le_mul_left _ hbs.2
  have hno : ¬ TransactionOptionValues.Acceptable (options .wrq F bs).getOptionsAsMap := by
    rw [(options_fromMap .wrq F hbs).acceptable_iff]
    intro h
    have hs := (h _ rfl).2
    rw [if_neg (by decide), size_toNat hF hbs.2] at hs
    omega
  have hne : (U.request bs).mOptionValues ≠ ∅ :=
    Std.ExtTreeMap.ne_empty_of_mem (TransactionOptionValues.mem_getOptionsAsMap.2
      (show ((options .wrq F bs).value blksizeName).isSome from rfl))
  have hnone : TftpServer.parseOptionFields (U.request bs) = .ok none := by
    cases hp : TftpServer.parseOptionFields (U.request bs) with
    | error e =>
      have ht := (TftpServer.parseOptionFields_eq_error_iff.1 hp).2.1
      have ht' : timeoutName ∈ (options .wrq F bs).getOptionsAsMap := ht
      rw [TransactionOptionValues.mem_getOptionsAsMap] at ht'
      cases ht'
    | ok o =>
      cases o with
      | none => rfl
      | some v =>
        rcases TftpServer.parseOptionFields_eq_ok_iff.1 hp with ⟨he, -⟩ | ⟨-, ha, -⟩
        · exact absurd he hne
        · exact absurd ha hno
  have hreceive := TftpServer.receive_decoded (by rw [hdec])
    (show (TftpServer.new U.serverOs U.serverRoot).io.isOpen = true from rfl) U.network.client
  rw [hdec, (TftpServer.admission_eq_none_iff _ _).2 ⟨U.sockets.2, hnone⟩] at hreceive
  exact hreceive

/-- The receiver sends ACK 0 and listens. -/
theorem refusedReceiver_listens (U : Setup .wrq F) : ∃ r₁ r₂,
    TftpReceiver.proactor.step U.refusedReceiver (.sendCompletes .success) = some r₁ ∧
    TftpReceiver.proactor.step r₁ (.runSend 0) = some r₂ ∧ r₂.io.Quiet ∧
    r₂.io.wire = [(U.network.client, ackOf 0)] ∧ r₁.threw = false ∧ U.refusedReceiver.threw = false :=
  ⟨_, _, rfl, rfl, ⟨rfl, rfl, rfl, rfl⟩, rfl, rfl, rfl⟩

/-- An ERROR message ends the negotiation. -/
theorem handleAnswer_error (past : Bytes) (msg : ErrorMessage) {c : TftpClient} (hr : c.requestType = .wrq)
    (hbuf : c.mRecvBuffer.take msg.encode.length = msg.encode) :
    c.handleAnswer past .success msg.encode.length = { c with io := c.io.timerCancel }.onDone .optNegotiation := by
  have hop := ErrorMessage.opcode_encode past msg
  have hne : ntohs (memory msg.encode past) 0 ≠ TftpOpcode.oack.toUInt16 := by
    rw [hop]
    decide
  have hne' : ntohs (memory msg.encode past) 0 ≠ TftpOpcode.ack.toUInt16 := by
    rw [hop]
    decide
  have hoack : OptionACKMessage.decode past {} msg.encode = (false, {}) := by
    by_cases hl : msg.encode.length < opcodeLength + 2
    · exact if_pos hl
    · exact (if_neg hl).trans (if_pos hne)
  have hack : AckMessage.decode past {} msg.encode = (false, {}) := by
    rw [AckMessage.decode]
    exact if_pos hne'
  rw [TftpClient.handleAnswer]
  dsimp only
  have hwrq : c.requestType ≠ .rrq := by
    rw [hr]
    decide
  rw [hbuf, hoack]
  dsimp only
  rw [if_pos rfl, if_neg Bool.false_ne_true, TftpClient.handleOther]
  dsimp only
  rw [if_neg hwrq, hack]
  exact if_neg Bool.false_ne_true

/-- The client, to which an ERROR message has been delivered. -/
def refusedBy (U : Setup .wrq F) (bs : ℕ) (msg : ErrorMessage) : TftpClient :=
  TftpClient.store (U.network.server .listen) msg.encode { U.asking bs with
    io := { (U.asking bs).io with
      receives := []
      received := [((), .success, msg.encode.length)] } }

theorem step_answer {c : TftpClient} (hd : c.dead = false) {n : ℕ}
    (hr : c.io.received = [((), .success, n)]) (past : Bytes) :
    c.step (.request past (.runReceive 0)) = some (TftpClient.handleAnswer past .success n
      { c with io := { c.io with received := [] } }).release := by
  have hd' : (TftpClient.proactor past).threw c = false := hd
  rw [TftpClient.step, Proactor.step, hd']
  simp only [Proactor.event, show ((TftpClient.proactor past).io c).received = _ from hr]
  rfl

/-- It closes its socket. -/
theorem client_refused (bs : ℕ) (msg : ErrorMessage) : ∃ c₁ c₂ : TftpClient,
    (U.refusedBy bs msg).step (.request [] (.runReceive 0)) = some c₁ ∧
    c₁.step (.request [] (.runTimer 0)) = some c₂ ∧ c₂.session = none ∧ c₂.io.isOpen = false ∧
    c₂.io.Quiet ∧ c₂.io.wire = [(U.network.server .listen, (U.request bs).wire)] := by
  have hbuf : (msg.encode ++ (U.asking bs).mRecvBuffer.drop msg.encode.length).take msg.encode.length =
      msg.encode := List.take_left
  have hstep := @step_answer (U.refusedBy bs msg) rfl msg.encode.length rfl []
  rw [handleAnswer_error [] msg rfl hbuf] at hstep
  exact ⟨_, _, hstep, rfl, rfl, rfl, ⟨rfl, rfl, rfl, rfl⟩, rfl⟩

/-- The server, which has refused a request by `msg` and yet serves it. -/
structure Refused (U : Setup .wrq F) (msg : ErrorMessage) (r : TftpReceiver) (s : TftpServer) : Prop where
  sessions : s.sessions = [.receiver r]
  isOpen : s.io.isOpen = true
  quiet : s.io.Quiet
  wire : s.io.wire = [(U.network.client, msg.encode)]
  threw : s.threw = none

/-- What such a server has sent. -/
theorem Refused.fromServer {msg : ErrorMessage} {r : TftpReceiver} {t : EndToEnd}
    (h : U.Refused msg r t.server) (k : ServerSocket) : t.fromServer U.network k =
      match k with
      | .listen => [msg.encode]
      | .session 0 => sentTo U.network.client r.io.wire
      | .session _ => [] := by
  unfold EndToEnd.fromServer TftpServer.wireAt
  cases k with
  | listen => rw [h.wire, sentTo_self]
  | session n =>
    rw [h.sessions]
    cases n with
    | zero => rfl
    | succ n => rfl

/-- A silent event of its session. -/
theorem Refused.step {msg : ErrorMessage} {r r' : TftpReceiver} (t : EndToEnd) (h : U.Refused msg r t.server)
    (hr : r.threw = false) (e : Event Endpoint) (ho : e.Orderly) (hd : e.isDelivery = false)
    (hstep : TftpReceiver.proactor.step r e = some r') :
    EndToEnd.step U.network t (.server (.session 0 e)) =
      some { t with server := { t.server with sessions := [.receiver r'] } } := by
  have hdead : t.server.dead = false := by
    simp [TftpServer.dead, h.threw, h.sessions, Session.threw, hr]
  refine EndToEnd.step_server_silent (.session 0 e) ho hd ?_
  simp [TftpServer.step, hdead, h.sessions, Session.step, hstep]

/-- The refusal reaches the client before anything else does, and all comes to rest. -/
theorem rest_of_refused {msg : ErrorMessage} (hm : msg.encode.length ≤ TftpClient.bufsize) {t : EndToEnd}
    (hr : (U.system bs).Reach t) (h : U.Refused msg U.refusedReceiver t.server)
    (hclient : t.client = U.asking bs) (hcount : ∀ k, t.toClient k = 0)
    (hserver : ∀ k, t.toServer k = if k = .listen then 1 else 0) :
    ∃ t', (U.system bs).Reach t' ∧ t'.AtRest U.network ∧ t'.client.session = none := by
  have hstep : ∀ {t e t'}, (U.system bs).Reach t → EndToEnd.step U.network t e = some t' →
      (U.system bs).Reach t' := fun hr he => hr.step he
  -- the ERROR message is delivered to the client, which handles it
  obtain ⟨t₁, h₁⟩ := @client_delivers t U.network .listen msg.encode (by rw [hclient]; rfl)
    (by rw [hclient]; rfl) (by rw [hcount, h.fromServer]; rfl)
  have hr₁ := hstep hr h₁
  obtain rfl : t₁ = { t with client := U.refusedBy bs msg, toClient := countAt .listen 1 t.toClient } := by
    rcases client_event (by rw [hclient]; rfl) (by rw [hclient]; rfl) (.inl (by rw [hclient]; rfl))
      (by rw [hclient]; rfl) h₁ with ⟨src, d, hd, rfl, -, rfl⟩ | ⟨past, n, hx, -⟩
    · rw [hcount, h.fromServer] at hd
      obtain rfl : msg.encode = d := Option.some.inj hd
      have hle : msg.encode.length ≤ t.client.mRecvBuffer.length := by
        rw [hclient]
        exact hm.trans_eq List.length_replicate.symm
      rw [List.take_of_length_le hle, min_eq_left hle, hclient]
      rfl
    · rw [hclient] at hx
      cases hx
  obtain ⟨c₁, c₂, hc₁, hc₂, hnone, hclosed, hquiet, hwire⟩ := U.client_refused bs msg
  have hr₂ := hstep hr₁ (EndToEnd.step_client_silent (.request [] (.runReceive 0)) trivial rfl hc₁ .listen)
  have hr₃ := hstep hr₂ (EndToEnd.step_client_silent (.request [] (.runTimer 0)) trivial rfl hc₂ .listen)
  -- the server's session sends ACK 0, which is discarded
  obtain ⟨r₁, r₂, hs₁, hs₂, hq, hw, hthrew₁, hthrew⟩ := U.refusedReceiver_listens
  obtain ⟨i, hi⟩ : ∃ i, i = countAt .listen 1 t.toClient := ⟨_, rfl⟩
  rw [← hi] at hr₃
  have hr₄ := hstep hr₃ (Refused.step ⟨c₂, t.server, i, t.toServer⟩ h hthrew (.sendCompletes .success) rfl rfl hs₁)
  have h₄ : U.Refused msg r₁ { t.server with sessions := [.receiver r₁] } :=
    ⟨rfl, h.isOpen, h.quiet, h.wire, h.threw⟩
  have hr₅ := hstep hr₄ (Refused.step ⟨c₂, { t.server with sessions := [.receiver r₁] }, i, t.toServer⟩ h₄
    hthrew₁ (.runSend 0) trivial rfl hs₂)
  obtain ⟨t₅, ht₅⟩ : ∃ t₅ : EndToEnd, t₅ =
      ⟨c₂, { t.server with sessions := [.receiver r₂] }, i, t.toServer⟩ := ⟨_, rfl⟩
  have hr₅' : (U.system bs).Reach t₅ := by
    rw [ht₅]
    exact hr₅
  have h₅ : U.Refused msg r₂ t₅.server := by
    rw [ht₅]
    exact ⟨rfl, h.isOpen, h.quiet, h.wire, h.threw⟩
  have hsent : sentTo U.network.client r₂.io.wire = [ackOf 0] := by rw [hw, sentTo_self]
  have hdiscard : EndToEnd.step U.network t₅ (.discardToClient (.session 0)) =
      some { t₅ with toClient := countAt (.session 0) 1 t₅.toClient } := by
    refine if_pos ?_
    have hfirst : t₅.toClient (.session 0) = 0 := by
      rw [ht₅]
      exact (congrFun hi (.session 0)).trans ((countAt_apply _ _ _ _).trans (hcount _))
    rw [h₅.fromServer, hsent, hfirst, ht₅, TftpClient.isOpen, hnone, Option.elim_none, hclosed]
    rfl
  refine ⟨_, hstep hr₅' hdiscard, ⟨?_, ⟨h₅.quiet, fun x hx => ?_⟩, fun k => ?_, fun k => ?_⟩, ?_⟩
  · rw [ht₅]
    exact ⟨hquiet, fun x hx => by rw [hnone] at hx; cases hx⟩
  · rw [h₅.sessions, List.mem_singleton] at hx
    rw [hx]
    exact hq
  · have hfrom : EndToEnd.fromServer U.network { t₅ with toClient := countAt (.session 0) 1 t₅.toClient } k =
        t₅.fromServer U.network k := rfl
    rw [hfrom, h₅.fromServer]
    dsimp only
    rw [countAt_apply, ht₅]
    dsimp only
    rw [hi, countAt_apply, hcount]
    cases k with
    | listen => rfl
    | session n =>
      cases n with
      | zero => rw [hsent]; rfl
      | succ n => simp
  · have hfrom : EndToEnd.fromClient U.network { t₅ with toClient := countAt (.session 0) 1 t₅.toClient } k =
        t₅.fromClient U.network k := rfl
    have hw₅ : t₅.client.wire = [(U.network.server .listen, (U.request bs).wire)] := by
      rw [ht₅, TftpClient.wire, hnone]
      exact hwire
    rw [hfrom, fromClient_request hw₅, ht₅]
    dsimp only
    rw [hserver]
    split_ifs <;> rfl
  · rw [ht₅]
    exact hnone

/-- **A write request for a large file does not complete either.** -/
theorem write_large_not_completes (hbs : 8 ≤ bs ∧ bs ≤ 65464) (hF : F.length < 65535 * bs)
    (hlarge : 2 ^ 31 ≤ F.length) (hl : (U.request bs).messageLength ≤ 512) : ¬ U.Completes bs := by
  intro hall
  have hle := length_wire_le hl
  have hmsg : (ErrorMessage.encode ⟨TftpErrorCode.optNegotiation.toUInt16,
      ascii "Option negotiation error: one of the option fields contained an invalid value"⟩).length ≤
      TftpClient.bufsize := by decide
  have hstart : (U.system bs).Reach (U.asked bs) := .init (start_eq (.inr rfl) hl).symm
  have hhandle : (U.requested bs).server.step (.listen [] (.runReceive 0)) =
      some ((TftpServer.new U.serverOs U.serverRoot).receive [] U.network.client (U.request bs).wire) := by
    rw [TftpServer.receive, List.take_of_length_le hle, min_eq_left hle]
    rfl
  rw [receive_large hbs hF hlarge hl] at hhandle
  have hstep : ∀ {t : EndToEnd} {e t'}, (U.system bs).Reach t → EndToEnd.step U.network t e = some t' →
      (U.system bs).Reach t' := fun h h' => .step h h'
  obtain ⟨e, he⟩ := asked_step hl
  have hreach := hstep (hstep hstart he)
    (EndToEnd.step_server_silent (.listen [] (.runReceive 0)) trivial rfl hhandle)
  obtain ⟨t, ht, hrest, hnone⟩ := rest_of_refused hmsg hreach
    ⟨congrArg (fun o => [Session.receiver (TftpReceiver.newConnected { started := true } o U.network.client
      defaultBlocksize retransmissionTime).start]) (U.wrq rfl).2.2.1, rfl, ⟨rfl, rfl, rfl, rfl⟩, rfl, rfl⟩ rfl
    (fun k => rfl) fun k => (countAt_apply .listen 1 (fun _ => 0) k).trans (Nat.zero_add _)
  obtain ⟨s, r, hs, -⟩ := ((hall t ht).2 hrest).file
  rw [EndToEnd.Sessions, if_neg (by decide), hnone] at hs
  cases hs.1

end

/-! ## Both requests -/

section
variable {requestType : TftpOpcode}

/-- **When a request with a block size completes**: it is a read request, which
    fits into its buffer, for a file whose size is not misread and that fits on
    the disk. -/
theorem completes_iff (U : Setup requestType F) (hk : requestType = .rrq ∨ requestType = .wrq)
    (hbs : 8 ≤ bs) (hbs' : bs ≤ 65464) (hF : F.length < 65535 * bs) :
    U.Completes bs ↔ requestType = .rrq ∧ (U.request bs).messageLength ≤ 512 ∧ F.length < 2 ^ 31 ∧
      ∃ available, U.clientOs.available U.clientFolder = some available ∧ UInt64.ofNat F.length ≤ available := by
  by_cases hl : (U.request bs).messageLength ≤ 512
  · rcases hk with rfl | rfl
    · exact (read_completes_iff hbs hbs' hF hl).trans ⟨fun h => ⟨rfl, hl, h⟩, fun h => h.2.2⟩
    · refine iff_of_false ?_ fun h => by cases h.1
      rcases lt_or_ge F.length (2 ^ 31) with hsmall | hlarge
      · exact write_not_completes hbs hbs' hF hl hsmall
      · exact write_large_not_completes ⟨hbs, hbs'⟩ hF hlarge hl
  · refine iff_of_false (U.not_completes_of_abandoned bs ?_) fun h => hl h.2.1
    rw [U.start_too_long bs hk (not_le.1 hl)]
    exact ⟨rfl, rfl, rfl⟩

end

/-- A client, and a server with one session. -/
def twoHosts : Network where
  client := ⟨1, 1⟩
  server k := if k = .listen then ⟨2, 69⟩ else if k = .session 0 then ⟨2, 70⟩ else ⟨2, 71⟩
  distinct := by
    rintro k l (rfl | rfl) h
    · by_contra hne
      rw [if_pos rfl, if_neg (Ne.symm hne)] at h
      split_ifs at h <;> simp at h
    · by_contra hne
      rw [if_neg (by simp), if_pos rfl, if_neg (Ne.symm hne)] at h
      split_ifs at h <;> simp at h
  specified := rfl
  ipv4 := rfl

/-- A file system in which all files have the same three bytes; its working directory is `/`. -/
def threeBytes : OperatingSystem where
  content _ := some [5, 6, 7]
  fileSize _ := 3
  output _ := {}
  available _ := some 1000
  absolute name := if name = [] then none else if name.head? = some 47 then some name else some (ascii "/" ++ name)

/-- A request for the file `f` of three bytes. -/
def smallFile (requestType : TftpOpcode) : Setup requestType [5, 6, 7] where
  network := twoHosts
  filename := [102]
  clientRoot := ascii "./"
  serverRoot := ascii "/"
  clientOs := threeBytes
  serverOs := threeBytes
  clientFolder := ascii "/./"
  absolute := rfl
  sockets := ⟨rfl, rfl⟩
  nulFree := by decide
  rrq _ := ⟨rfl, rfl, rfl⟩
  wrq _ := ⟨rfl, rfl, rfl, rfl⟩

theorem smallFile_read_completes : (smallFile .rrq).Completes 8 :=
  (completes_iff (smallFile .rrq) (.inl rfl) (by decide) (by decide) (by decide)).2
    ⟨rfl, by decide, by decide, 1000, rfl, by decide⟩

/-- A write request for it ends with the client's report of a failed read. -/
theorem smallFile_write_fails : ∃ t, ((smallFile .wrq).system 8).Reach t ∧
    t.AtRest (smallFile .wrq).network ∧ ¬ t.Completed .wrq [5, 6, 7] 8 := by
  obtain ⟨t, hr, hrest, hreports⟩ := @write_reported [5, 6, 7] 8 (smallFile .wrq) (by decide) (by decide)
    (by decide) (by decide) (by decide)
  refine ⟨t, hr, hrest, fun h => ?_⟩
  have hc := h.client
  rw [hreports] at hc
  cases hc

end Setup

end Ttftp

/-
  How the client resolves an option negotiation.

  The handler of the answer starts a session or reports a code, and the handler of the
  timer has it called where there is no answer.  `resolves_iff` says which answers break
  this, and that a timer that has expired at the same time does.
-/
import Ttftp.Client
import Ttftp.Proof.Options
import Ttftp.Proof.Sender
import Ttftp.Proof.Receiver

namespace Ttftp

open Bytes Asio

/-! ## The sessions that are started -/

section
variable {sock : Io ReceiverHandler Endpoint} {output : OStream} {remote : Endpoint} {data1 : DataMessage}
variable {blocksize : ℕ} {timeoutSeconds : UInt8}

/-- The constructor that takes the first block writes it to a file that can be opened. -/
theorem TftpReceiver.newConnectedData1_good (hf : output.fail = false) :
    newConnectedData1 sock output remote data1 blocksize timeoutSeconds =
      { newConnected sock output remote blocksize timeoutSeconds with
        output := output.write data1.mData, lastreceiveddatacount := 1 } :=
  if_neg (Bool.eq_false_iff.1 hf)

/-- For another one it throws. -/
theorem TftpReceiver.newConnectedData1_threw (ho : sock.isOpen = true) :
    (newConnectedData1 sock output remote data1 blocksize timeoutSeconds).threw = output.fail := by
  cases hf : output.fail with
  | true => exact congrArg TftpReceiver.threw (if_pos hf)
  | false =>
    rw [newConnectedData1_good hf]
    exact congrArg not ho

end

namespace TftpClient

/-! ## The handler of the answer -/

/-- The sessions that the answer `d` may lead to. -/
inductive Opens (past d : Bytes) (c : TftpClient) : Session → Prop
  | oackRead {oack : OptionACKMessage} {v : TransactionOptionValues} : c.requestType = .rrq →
      OptionACKMessage.decode past {} d = (true, oack) →
      TransactionOptionValues.setOptionsFromMap oack.mOptionValues {} = .ok (true, v) →
      Opens past d c (.receiver (TftpReceiver.newConnected c.sock (c.os.output c.filepath) c.mServerEndpoint
        (v.mBlocksize.getD defaultBlocksize) (v.mTimeout.getD retransmissionTime)).start)
  | oackWrite {oack : OptionACKMessage} {v : TransactionOptionValues} : c.requestType ≠ .rrq →
      OptionACKMessage.decode past {} d = (true, oack) →
      TransactionOptionValues.setOptionsFromMap oack.mOptionValues {} = .ok (true, v) →
      Opens past d c (.sender (Tftpsender.newConnected c.sock (.ofFile (c.os.content c.filepath)) c.mServerEndpoint 1
        (v.mBlocksize.getD defaultBlocksize) (v.mTimeout.getD retransmissionTime)).start)
  | data {msg : DataMessage} : c.requestType = .rrq → (DataMessage.new defaultBlocksize).decode d = (true, msg) →
      (c.os.output c.filepath).fail = false →
      Opens past d c (.receiver (TftpReceiver.newConnectedData1 c.sock (c.os.output c.filepath) c.mServerEndpoint msg
        defaultBlocksize retransmissionTime).start)
  | ack : c.requestType ≠ .rrq → (AckMessage.decode past {} d).1 = true →
      Opens past d c (.sender (Tftpsender.newConnected c.sock (.ofFile (c.os.content c.filepath)) c.mServerEndpoint 1
        defaultBlocksize retransmissionTime).start)

/-- Whether the file of the request cannot be opened. -/
def fileFails (c : TftpClient) : Bool :=
  if c.requestType = .rrq then (c.os.output c.filepath).fail else (c.os.content c.filepath).isNone

/-- Whether the size in an OACK keeps the client from a transfer: for an RRQ it exceeds the free
    space, or that is not known; for a WRQ it is not that of the file. -/
def refuses (t : UInt64) (c : TftpClient) : Bool :=
  if c.requestType = .rrq then (c.os.available c.mRootfolder).all (· < t) else t ≠ c.size_of_file

/-- The answers that are not resolved: an OACK with a timeout and no block size; one with valid
    values and a size that the client refuses; and an answer that starts a transfer of a file
    that cannot be opened, or not be written. -/
inductive Unresolvable (past d : Bytes) (c : TftpClient) : Prop
  | lookup {oack : OptionACKMessage} (h : OptionACKMessage.decode past {} d = (true, oack))
      (ht : timeoutName ∈ oack.mOptionValues) (hb : blksizeName ∉ oack.mOptionValues)
  | size {oack : OptionACKMessage} {v : TransactionOptionValues} {t : UInt64}
      (h : OptionACKMessage.decode past {} d = (true, oack))
      (hv : TransactionOptionValues.setOptionsFromMap oack.mOptionValues {} = .ok (true, v))
      (ht : v.mTransferSize = some t) (hs : c.refuses t = true)
  | file {oack : OptionACKMessage} {v : TransactionOptionValues}
      (h : OptionACKMessage.decode past {} d = (true, oack))
      (hv : TransactionOptionValues.setOptionsFromMap oack.mOptionValues {} = .ok (true, v))
      (hf : c.fileFails = true)
  | output {m : DataMessage} (h : (OptionACKMessage.decode past {} d).1 = false) (hr : c.requestType = .rrq)
      (hd : (DataMessage.new defaultBlocksize).decode d = (true, m))
      (ho : ((c.os.output c.filepath).write m.mData).fail = true)
  | input (h : (OptionACKMessage.decode past {} d).1 = false) (hr : c.requestType ≠ .rrq)
      (ha : (AckMessage.decode past {} d).1 = true) (hf : c.fileFails = true)

theorem Unresolvable.io {past d : Bytes} {c : TftpClient} (h : Unresolvable past d c) (io : Io Unit Endpoint) :
    Unresolvable past d { c with io := io } := by
  cases h with
  | lookup h ht hb => exact .lookup h ht hb
  | size h hv ht hs => exact .size h hv ht hs
  | file h hv hf => exact .file h hv hf
  | output h hr hd ho => exact .output h hr hd ho
  | input h hr ha hf => exact .input h hr ha hf

theorem Opens.io {past d : Bytes} {c : TftpClient} {x : Session} {io : Io Unit Endpoint}
    (h : Opens past d { c with io := io } x) (hw : io.wire = c.io.wire) : Opens past d c x := by
  have hsock : ∀ {H : Type}, sock (H := H) { c with io := io } = c.sock := fun {H} => by
    unfold sock
    rw [← hw]
  cases h with
  | oackRead hr ho hv => rw [hsock]; exact .oackRead hr ho hv
  | oackWrite hr ho hv => rw [hsock]; exact .oackWrite hr ho hv
  | data hr hd hf => rw [hsock]; exact .data hr hd hf
  | ack hr ha => rw [hsock]; exact .ack hr ha

/-- A transfer is started that has not ended yet, or a code is reported. -/
inductive Outcome (past d : Bytes) (c : TftpClient) : TftpClient → Prop
  | session {x : Session} (hs : Opens past d c x) (h : x.threw = false) (hc : x.callbacks = []) :
      Outcome past d c (c.startSession x)
  | report (wire : List (Endpoint × Bytes)) (code : TftpUserFacingErrorCode) :
      Outcome past d c ({ c with io := { c.io with wire := wire } }.onDone code)

section
variable {c : TftpClient} {past d : Bytes}

theorem Outcome.onDone (code : TftpUserFacingErrorCode) (c : TftpClient) : Outcome past d c (c.onDone code) :=
  .report c.io.wire code

section
variable (file : Option Bytes) (remote : Endpoint) (blocksize : ℕ) (timeoutSeconds : UInt8) (c : TftpClient)

theorem newConnected_wellFormed :
    (Tftpsender.newConnected c.sock (.ofFile file) remote 1 blocksize timeoutSeconds).WellFormed := by
  refine ⟨rfl, List.length_replicate, ?_, rfl⟩
  cases file <;> exact Nat.zero_le _

theorem start_sender_threw :
    (Tftpsender.newConnected c.sock (.ofFile file) remote 1 blocksize timeoutSeconds).start.threw = false :=
  Tftpsender.start_threw (newConnected_wellFormed file remote blocksize timeoutSeconds c)

theorem start_sender_callbacks :
    (Tftpsender.newConnected c.sock (.ofFile file) remote 1 blocksize timeoutSeconds).start.callbacks =
      if file.isNone then [.inputFileOpen] else [] := by
  refine (Tftpsender.start_callbacks (newConnected_wellFormed file remote blocksize timeoutSeconds c) rfl rfl).trans ?_
  cases file <;> rfl

end

theorem Outcome.sender {blocksize : ℕ} {timeoutSeconds : UInt8} (hf : c.os.content c.filepath ≠ none)
    (hs : Opens past d c (.sender (Tftpsender.newConnected c.sock (.ofFile (c.os.content c.filepath))
      c.mServerEndpoint 1 blocksize timeoutSeconds).start)) :
    Outcome past d c (c.startSession (.sender (Tftpsender.newConnected c.sock (.ofFile (c.os.content c.filepath))
      c.mServerEndpoint 1 blocksize timeoutSeconds).start)) := by
  refine .session hs (start_sender_threw _ _ _ _ c) ((start_sender_callbacks _ _ _ _ c).trans (if_neg ?_))
  rw [Option.isNone_iff_eq_none]
  exact hf

theorem Outcome.receiver {r : TftpReceiver} (hs : Opens past d c (.receiver r.start)) (ht : r.threw = false)
    (he : r.operationEnded = false) (hc : r.callbacks = []) (hf : r.output.fail = false) :
    Outcome past d c (c.startSession (.receiver r.start)) := by
  refine .session hs ((TftpReceiver.start_threw r).trans ht) ((TftpReceiver.start_callbacks he).trans ?_)
  rw [hc, hf]
  rfl

theorem content_of_fileFails (hr : c.requestType ≠ .rrq) (hf : c.fileFails = false) :
    c.os.content c.filepath ≠ none := by
  rw [fileFails, if_neg hr] at hf
  intro hn
  rw [hn] at hf
  cases hf

/-- The size of an acceptable OACK decides, and whether the file can be opened. -/
theorem handleOack_outcome {oack : OptionACKMessage}
    (hd : OptionACKMessage.decode past {} d = (true, oack))
    (hlookup : ¬ (timeoutName ∈ oack.mOptionValues ∧ blksizeName ∉ oack.mOptionValues))
    (hsize : ∀ v, TransactionOptionValues.setOptionsFromMap oack.mOptionValues {} = .ok (true, v) →
      c.fileFails = false ∧ ∀ t, v.mTransferSize = some t → c.refuses t = false) :
    Outcome past d c (c.handleOack oack) := by
  unfold handleOack
  split
  · rename_i e he
    exact absurd (TransactionOptionValues.setOptionsFromMap_error_iff.1 he).2 hlookup
  · rename_i v hv
    obtain ⟨hfile, hsize⟩ := hsize v hv
    split_ifs with hr
    · have hstart : Outcome past d c (c.receiveFile v) := by
        refine .receiver (.oackRead hr hd hv) rfl rfl rfl ?_
        rw [fileFails, if_pos hr] at hfile
        exact hfile
      unfold acceptOack_RRQ
      cases ht : v.mTransferSize with
      | none => exact hstart
      | some t =>
        have hroom := hsize t ht
        rw [refuses, if_pos hr] at hroom
        cases ha : c.os.available c.mRootfolder with
        | none => simp [ha] at hroom
        | some available =>
          dsimp only
          rw [if_neg (by simpa [ha] using hroom)]
          exact hstart
    · unfold acceptOack_WRQ
      rw [if_neg]
      · exact .sender (content_of_fileFails hr hfile) (.oackWrite hr hd hv)
      · rw [Option.any_eq_true]
        rintro ⟨t, ht, hne⟩
        have hsame := hsize t ht
        rw [refuses, if_neg hr] at hsame
        exact Bool.false_ne_true (hsame.symm.trans hne)
  · unfold Io.asyncSendDetached
    split_ifs
    · exact .report _ _
    · exact .onDone _ c

theorem handleOther_outcome
    (hdata : ∀ m, c.requestType = .rrq → (DataMessage.new defaultBlocksize).decode d = (true, m) →
      ((c.os.output c.filepath).write m.mData).fail = false)
    (hack : c.requestType ≠ .rrq → (AckMessage.decode past {} d).1 = true → c.fileFails = false) :
    Outcome past d c (c.handleOther past d) := by
  unfold handleOther
  dsimp only
  split_ifs with hr hd ht ha
  · have hfail := hdata _ hr (Prod.ext hd rfl)
    rw [TftpReceiver.newConnectedData1_threw rfl] at ht
    rw [OStream.write_fail, ht] at hfail
    cases hfail
  · have hfail := hdata _ hr (Prod.ext hd rfl)
    have hopen : (c.os.output c.filepath).fail = false := by
      rw [TftpReceiver.newConnectedData1_threw rfl] at ht
      exact Bool.eq_false_iff.2 ht
    refine .receiver (.data hr (Prod.ext hd rfl) hopen) (Bool.eq_false_iff.2 ht) ?_ ?_ ?_
    · rw [TftpReceiver.newConnectedData1_good hopen]
      rfl
    · rw [TftpReceiver.newConnectedData1_good hopen]
      rfl
    · rw [TftpReceiver.newConnectedData1_good hopen]
      exact hfail
  · exact .onDone _ c
  · exact .sender (content_of_fileFails hr (hack hr ha)) (.ack hr ha)
  · exact .onDone _ c

theorem handleAnswer_outcome {err : ErrorCode} {n : ℕ}
    (h : err = .success → ¬ Unresolvable past (c.mRecvBuffer.take n) c) :
    Outcome past (c.mRecvBuffer.take n) { c with io := c.io.timerCancel } (c.handleAnswer past err n) := by
  unfold handleAnswer
  dsimp only
  split_ifs with he ho
  · refine handleOack_outcome (Prod.ext ho rfl) (fun hl => h he (.lookup (Prod.ext ho rfl) hl.1 hl.2))
      fun v hv => ⟨?_, fun t ht => ?_⟩
    · exact Bool.eq_false_iff.2 fun hf => h he (.file (Prod.ext ho rfl) hv hf)
    · exact Bool.eq_false_iff.2 fun hs => h he (.size (Prod.ext ho rfl) hv ht hs)
  · refine handleOther_outcome (fun m hr hd => ?_) fun hr ha => ?_
    · exact Bool.eq_false_iff.2 fun hf => h he (.output (Bool.eq_false_iff.2 ho) hr hd hf)
    · exact Bool.eq_false_iff.2 fun hf => h he (.input (Bool.eq_false_iff.2 ho) hr ha hf)
  · exact .onDone _ _

end

/-! ## The negotiation -/

/-- The clients that have been started with options. -/
inductive Asks : TftpClient → Prop
  | mk (os : OperatingSystem) (rootfolder : Bytes) (server : Endpoint) {requestType : TftpOpcode}
      (hk : requestType = .rrq ∨ requestType = .wrq) (filename : Bytes) {IN_optionVals : TransactionOptionValues}
      (ho : IN_optionVals.isDefault = false) (transfermode : TftpMode) :
      Asks ((new os rootfolder).start server requestType filename IN_optionVals transfermode)

/-- Their runs. -/
def asking : Lts TftpClient ClientEvent where
  init := Asks
  step := step

/-- The answer has been handled, or that there was none. -/
def Answered (c : TftpClient) : Prop := c.io.receives = [] ∧ c.io.received = []

/-- What the client has to do with an answer `d`: to start a transfer of its file, which has not
    ended yet, or to report one code. -/
def Resolved (past d : Bytes) (c c' : TftpClient) : Prop :=
  (∃ x, Opens past d c x ∧ c'.session = some x ∧ c'.reports = []) ∨ c'.session = none ∧ c'.reports.length = 1

/-- What a step does that does not handle the answer. -/
structure Keeps (c c' : TftpClient) : Prop where
  answered : Answered c' ↔ Answered c
  session : c'.session.isSome = c.session.isSome
  callbacks : c'.callbacks = c.callbacks

/-- No exception leaves a handler of the request; the handler of the answer resolves it, and
    nothing else starts a transfer or reports a code; and until then the answer is waited for. -/
structure Resolves (x : TftpClient × ClientEvent × TftpClient) : Prop where
  threw : ∀ past e, x.2.1 = .request past e → x.2.2.dead = false
  resolved : ∀ past i err n, x.2.1 = .request past (.runReceive i) → x.1.io.received[i]? = some ((), err, n) →
    Answered x.2.2 ∧ Resolved past (x.1.mRecvBuffer.take n) x.1 x.2.2
  kept : (∀ past i, x.2.1 ≠ .request past (.runReceive i)) → Keeps x.1 x.2.2
  awaited : ¬ Answered x.2.2 → x.2.2.io.received ≠ [] ∨ x.2.2.io.waits ≠ 0 ∨ x.2.2.io.waited ≠ []

/-- The steps that break this: the handler of an answer that is not resolved; and that of a
    timer that has expired, once the socket has been handed over to a session. -/
def Breaks (c : TftpClient) : ClientEvent → Prop
  | .request past (.runReceive i) => ∃ n, c.io.received[i]? = some ((), .success, n) ∧
      Unresolvable past (c.mRecvBuffer.take n) c
  | .request _ (.runTimer i) => c.session.isSome = true ∧
      ∃ err, c.io.waited[i]? = some err ∧ err ≠ .operationAborted
  | _ => False

/-- Where the negotiation is. -/
inductive Stage (c : TftpClient) : Prop
  | waiting : c.session = none → c.callbacks = [] → c.io.isOpen = true → c.io.receives = [()] →
      c.io.received = [] → c.io.waits ≠ 0 ∨ c.io.waited ≠ [] → (∀ err ∈ c.io.waited, err ≠ .operationAborted) →
      Stage c
  | arrived (x : Unit × ErrorCode × ℕ) : c.session = none → c.callbacks = [] → c.io.isOpen = true →
      c.io.receives = [] → c.io.received = [x] → Stage c
  | started : c.session.isSome = true → c.callbacks = [] → Answered c → c.io.isOpen = false → Stage c
  | reported : c.session = none → c.callbacks.length = 1 → Answered c →
      (c.io.waits ≠ 0 ∨ c.io.waited ≠ [] → c.io.isOpen = true) → Stage c

section
variable {c c' c₁ : TftpClient} {past : Bytes}

theorem release_dead (c : TftpClient) : c.release.dead = c.dead := by
  unfold release
  split_ifs <;> rfl

/-- Releasing the socket does not change where the negotiation is. -/
theorem Stage.release (h : Stage c) : c.release.Stage := by
  unfold TftpClient.release
  split_ifs with hr
  · simp only [Bool.and_eq_true, List.isEmpty_iff, decide_eq_true_eq] at hr
    obtain ⟨⟨⟨h1, h2⟩, h3⟩, h4⟩ := hr
    have hanswered : Answered { c with io := c.io.close } :=
      ⟨rfl, by change c.io.received ++ c.io.receives.map _ = []; rw [h1, h2]; rfl⟩
    cases h with
    | waiting _ _ _ hreq => simp [h1] at hreq
    | arrived _ _ _ _ _ hrec => simp [h2] at hrec
    | started hs hc => exact .started hs hc hanswered rfl
    | reported hs hc _ _ =>
      refine .reported hs hc hanswered fun hw => ?_
      rcases hw with hw | hw
      · exact absurd h3 hw
      · exact absurd h4 hw
  · exact h

/-- An answer that is waited for is waited for until the timer expires. -/
theorem Stage.awaits (h : Stage c) (h1 : c.io.received = []) (h2 : c.io.receives ≠ []) :
    (c.io.waits ≠ 0 ∨ c.io.waited ≠ []) ∧ ∀ err ∈ c.io.waited, err ≠ .operationAborted := by
  cases h with
  | waiting _ _ _ _ _ hw hn => exact ⟨hw, hn⟩
  | arrived _ _ _ _ _ hrec => rw [h1] at hrec; cases hrec
  | started _ _ ha => exact absurd ha.1 h2
  | reported _ _ ha => exact absurd ha.1 h2

/-- What the handlers of the timer and the events between them change. -/
theorem Stage.timer (h : Stage c) {io : Io Unit Endpoint} (ho : io.isOpen = c.io.isOpen)
    (hr : io.receives = c.io.receives) (hrec : io.received = c.io.received)
    (hw : c.io.received = [] → c.io.receives ≠ [] →
      (io.waits ≠ 0 ∨ io.waited ≠ []) ∧ ∀ err ∈ io.waited, err ≠ .operationAborted)
    (hpend : io.waits ≠ 0 ∨ io.waited ≠ [] → c.io.waits ≠ 0 ∨ c.io.waited ≠ []) :
    Stage { c with io := io } := by
  cases h with
  | waiting hs hc hopen h1 h2 h3 h4 =>
    obtain ⟨hw1, hw2⟩ := hw h2 (by rw [h1]; simp)
    exact .waiting hs hc (ho.trans hopen) (hr.trans h1) (hrec.trans h2) hw1 hw2
  | arrived x hs hc hopen h1 h2 => exact .arrived x hs hc (ho.trans hopen) (hr.trans h1) (hrec.trans h2)
  | started hs hc ha hclosed => exact .started hs hc ⟨hr.trans ha.1, hrec.trans ha.2⟩ (ho.trans hclosed)
  | reported hs hc ha hopen =>
    exact .reported hs hc ⟨hr.trans ha.1, hrec.trans ha.2⟩ fun hp => ho.trans (hopen (hpend hp))

theorem Answered.release (h : Answered c) : Answered c.release := by
  unfold TftpClient.release
  split_ifs
  · exact ⟨rfl, by change c.io.received ++ c.io.receives.map _ = []; rw [h.1, h.2]; rfl⟩
  · exact h

theorem Resolved.release {d : Bytes} (h : Resolved past d c c') : Resolved past d c c'.release := by
  unfold TftpClient.release
  split_ifs
  · exact h
  · exact h

/-- A handled answer is resolved. -/
theorem Outcome.stage {d : Bytes} (h : Outcome past d c c') (hs : c.session = none) (hc : c.callbacks = [])
    (ht : c.threw = none) (hopen : c.io.isOpen = true) (ha : Answered c) :
    c'.Stage ∧ c'.dead = false ∧ Answered c' ∧ Resolved past d c c' := by
  cases h with
  | @session x hx hdead hcall =>
    have hanswered : Answered (c.startSession x) := by
      refine ⟨rfl, ?_⟩
      change c.io.received ++ c.io.receives.map _ = []
      rw [ha.1, ha.2]
      rfl
    refine ⟨.started rfl hc hanswered rfl, ?_, hanswered, .inl ⟨_, hx, rfl, ?_⟩⟩
    · simp [dead, startSession, ht, hdead]
    · change c.callbacks ++ _ = []
      rw [hc]
      exact hcall
  | report wire code =>
    refine ⟨.reported hs (by simp [TftpClient.onDone, hc]) ha fun _ => hopen, ?_, ha, .inr ⟨hs, ?_⟩⟩
    · simp [dead, TftpClient.onDone, ht, hs]
    · simp [reports, TftpClient.onDone, hc, hs]

/-- A receive is waited for, or has completed, only until the answer is handled. -/
theorem Stage.of_receives (h : Stage c) {r : Unit} {rs : List Unit} (hr : c.io.receives = r :: rs) :
    c.session = none ∧ c.callbacks = [] ∧ c.io.isOpen = true ∧ rs = [] ∧ c.io.received = [] := by
  cases h with
  | waiting hs hc ho h1 h2 =>
    rw [h1, List.cons.injEq] at hr
    exact ⟨hs, hc, ho, hr.2.symm, h2⟩
  | arrived _ _ _ _ h1 => rw [h1] at hr; cases hr
  | started _ _ ha => rw [ha.1] at hr; cases hr
  | reported _ _ ha => rw [ha.1] at hr; cases hr

theorem Stage.of_received (h : Stage c) {i : ℕ} {x : Unit × ErrorCode × ℕ} (hx : c.io.received[i]? = some x) :
    c.session = none ∧ c.callbacks = [] ∧ c.io.isOpen = true ∧ c.io.receives = [] ∧
      c.io.received.eraseIdx i = [] := by
  cases h with
  | waiting _ _ _ _ h2 => rw [h2] at hx; cases hx
  | arrived y hs hc ho h1 h2 =>
    rw [h2] at hx ⊢
    cases i with
    | zero => exact ⟨hs, hc, ho, h1, rfl⟩
    | succ i => cases hx
  | started _ _ ha => rw [ha.2] at hx; cases hx
  | reported _ _ ha => rw [ha.2] at hx; cases hx

/-- The handler of the answer. -/
theorem Stage.receive (h : Stage c) (hd : c.dead = false) {i n : ℕ} {r : Unit} {err : ErrorCode}
    (hx : c.io.received[i]? = some (r, err, n))
    (hb : err = .success → ¬ Unresolvable past (c.mRecvBuffer.take n) c)
    (hc' : c' = (handleAnswer past err n
      { c with io := { c.io with received := c.io.received.eraseIdx i } }).release) :
    c'.Stage ∧ c'.dead = false ∧ Answered c' ∧ Resolved past (c.mRecvBuffer.take n) c c' := by
  obtain ⟨hs, hc, ho, h1, h2⟩ := h.of_received hx
  have ht : c.threw = none := by
    simp only [dead, Bool.or_eq_false_iff] at hd
    exact Option.isSome_eq_false_iff.1 hd.1 |> Option.isNone_iff_eq_none.1
  have hout := @handleAnswer_outcome { c with
    io := { c.io with received := c.io.received.eraseIdx i } } past err n fun he hu => hb he (hu.io c.io)
  obtain ⟨hstage, hdead, hanswered, hres⟩ := hout.stage hs hc ht ho ⟨h1, h2⟩
  rw [hc']
  refine ⟨hstage.release, (release_dead _).trans hdead, hanswered.release, Resolved.release ?_⟩
  rcases hres with ⟨x, hx, hsome⟩ | hreport
  · exact .inl ⟨x, Opens.io (c := c) hx rfl, hsome⟩
  · exact .inr hreport

/-- The handler of the timer, while the socket is the request's. -/
theorem Stage.oackTimeout (h : Stage c) (hd : c.dead = false) {i : ℕ} {err : ErrorCode}
    (hx : c.io.waited[i]? = some err) (hb : c.session.isSome = true → err = .operationAborted) :
    (onOackTimeout err { c with io := { c.io with waited := c.io.waited.eraseIdx i } }).release.Stage ∧
      (onOackTimeout err { c with io := { c.io with waited := c.io.waited.eraseIdx i } }).release.dead = false := by
  have hmem := List.mem_of_getElem? hx
  have hne : c.io.waited ≠ [] := List.ne_nil_of_mem hmem
  by_cases he : err = .operationAborted
  · have hstage : Stage { c with io := { c.io with waited := c.io.waited.eraseIdx i } } := by
      refine h.timer rfl rfl rfl (fun h1 h2 => ?_) fun _ => .inr hne
      exact absurd he ((h.awaits h1 h2).2 err hmem)
    rw [onOackTimeout, if_pos he]
    exact ⟨hstage.release, (release_dead _).trans hd⟩
  · have hnone : c.session = none :=
      Option.not_isSome_iff_eq_none.1 fun hs => he (hb hs)
    have hopen : c.io.isOpen = true := by
      cases h with
      | waiting _ _ ho => exact ho
      | arrived _ _ _ ho => exact ho
      | started hs => rw [hnone] at hs; cases hs
      | reported _ _ _ ho => exact ho (.inr hne)
    have hcancel : Io.cancel { c.io with waited := c.io.waited.eraseIdx i } =
        some (Io.abortAll { c.io with waited := c.io.waited.eraseIdx i }) := if_pos hopen
    have hstage : Stage { c with io := Io.abortAll { c.io with waited := c.io.waited.eraseIdx i } } := by
      cases h with
      | waiting hs hc ho h1 h2 =>
        exact .arrived ((), .operationAborted, 0) hs hc ho rfl (by simp [Io.abortAll, h1, h2])
      | arrived x hs hc ho h1 h2 => exact .arrived x hs hc ho rfl (by simp [Io.abortAll, h1, h2])
      | started hs => rw [hnone] at hs; cases hs
      | reported hs hc ha => exact .reported hs hc ⟨rfl, by simp [Io.abortAll, ha.1, ha.2]⟩ fun _ => hopen
    rw [onOackTimeout, if_neg he]
    simp only [hcancel]
    exact ⟨hstage.release, (release_dead _).trans hd⟩

theorem Keeps.of_io {io : Io Unit Endpoint} (hr : io.receives = c.io.receives)
    (hrec : io.received = c.io.received) : Keeps c { c with io := io } :=
  ⟨by rw [Answered, Answered, hr, hrec], rfl, rfl⟩

theorem Keeps.release (h : Keeps c c') : Keeps c c'.release := by
  refine ⟨⟨fun ha => ?_, fun ha => (h.answered.2 ha).release⟩, ?_, ?_⟩
  · unfold TftpClient.release at ha
    split_ifs at ha with hr
    · simp only [Bool.and_eq_true, List.isEmpty_iff] at hr
      exact h.answered.1 ⟨hr.1.1.1, hr.1.1.2⟩
    · exact h.answered.1 ha
  · unfold TftpClient.release
    split_ifs <;> exact h.session
  · unfold TftpClient.release
    split_ifs <;> exact h.callbacks

/-- The handler of the timer does not handle the answer; it only lets one without a datagram come. -/
theorem Stage.keeps_oackTimeout (h : Stage c) (i : ℕ) (err : ErrorCode) :
    Keeps c (onOackTimeout err { c with io := { c.io with waited := c.io.waited.eraseIdx i } }).release := by
  refine Keeps.release ?_
  unfold onOackTimeout
  split_ifs
  · exact .of_io rfl rfl
  · unfold Io.cancel
    split_ifs
    · refine ⟨?_, rfl, rfl⟩
      cases h with
      | waiting _ _ _ h1 h2 => simp [Answered, Io.abortAll, h1, h2]
      | arrived x _ _ _ h1 h2 => simp [Answered, Io.abortAll, h1, h2]
      | started _ _ ha => simp [Answered, Io.abortAll, ha.1, ha.2]
      | reported _ _ ha => simp [Answered, Io.abortAll, ha.1, ha.2]
    · exact ⟨Iff.rfl, rfl, rfl⟩

theorem Stage.awaited (h : Stage c) (hn : ¬ Answered c) :
    c.io.received ≠ [] ∨ c.io.waits ≠ 0 ∨ c.io.waited ≠ [] := by
  cases h with
  | waiting _ _ _ _ _ hw => exact .inr hw
  | arrived _ _ _ _ _ hrec => exact .inl (by rw [hrec]; exact List.cons_ne_nil _ _)
  | started _ _ ha => exact absurd ha hn
  | reported _ _ ha => exact absurd ha hn

/-- A step that is not the handler of the answer. -/
theorem Resolves.of_keeps {e : ClientEvent} (hk : Keeps c c') (hs : c'.Stage)
    (hd : ∀ past e', e = .request past e' → c'.dead = false)
    (he : ∀ past i, e ≠ .request past (.runReceive i)) : Resolves (c, e, c') :=
  ⟨hd, fun past i _ _ h => absurd h (he past i), fun _ => hk, hs.awaited⟩

/-- **One step of the negotiation.** -/
theorem Stage.step (h : Stage c) {e : ClientEvent} (hstep : c.step e = some c') (hb : ¬ c.Breaks e) :
    c'.Stage ∧ Resolves (c, e, c') := by
  cases e with
  | session e =>
    simp only [TftpClient.step] at hstep
    split_ifs at hstep
    obtain ⟨x, hx, hstep⟩ := Option.bind_eq_some_iff.1 hstep
    obtain ⟨x', -, rfl⟩ := Option.map_eq_some_iff.1 hstep
    have hstage : Stage { c with session := some x' } := by
      cases h with
      | waiting hs => rw [hs] at hx; cases hx
      | arrived _ hs => rw [hs] at hx; cases hx
      | started _ hc ha ho => exact .started rfl hc ha ho
      | reported hs => rw [hs] at hx; cases hx
    refine ⟨hstage, .of_keeps ⟨Iff.rfl, ?_, rfl⟩ hstage (fun _ _ he => by cases he) fun _ _ he => by cases he⟩
    rw [hx]
    rfl
  | request past e =>
    obtain ⟨hd, hcase⟩ := Proactor.step_cases hstep
    clear hstep
    -- the events between the handlers
    have hsame : ∀ io, Stage { c with io := io } → Keeps c { c with io := io } → (∀ i, e ≠ .runReceive i) →
        Stage { c with io := io } ∧ Resolves (c, .request past e, { c with io := io }) := fun io hs hk he =>
      ⟨hs, .of_keeps hk hs (fun _ _ _ => hd) fun _ i hi => he i (by cases hi; rfl)⟩
    cases hcase with
    | start _ | sendCompletes _ | runSend _ =>
      exact hsame _ (h.timer rfl rfl rfl h.awaits id) (.of_io rfl rfl) fun _ he => by cases he
    | @deliver src d r rs hr =>
      obtain ⟨hs, hc, ho, rfl, hrec⟩ := h.of_receives hr
      have hstage : Stage (proactor past |>.store src (d.take c.mRecvBuffer.length)
          { c with io := { c.io with
            receives := [], received := c.io.received ++ [(r, .success, min d.length c.mRecvBuffer.length)] } }) :=
        .arrived (r, .success, min d.length c.mRecvBuffer.length) hs hc ho rfl (congrArg (· ++ [_]) hrec)
      refine ⟨hstage, .of_keeps ⟨iff_of_false (fun ha => ?_) fun ha => ?_, rfl, rfl⟩ hstage (fun _ _ _ => hd)
        fun _ _ he => by cases he⟩
      · exact List.append_ne_nil_of_right_ne_nil _ (List.cons_ne_nil _ _) ha.2
      · exact List.cons_ne_nil _ _ (hr.symm.trans ha.1)
    | @receiveFails err r rs hr _ =>
      obtain ⟨hs, hc, ho, rfl, hrec⟩ := h.of_receives hr
      refine hsame _ (.arrived (r, err, 0) hs hc ho rfl (congrArg (· ++ [_]) hrec)) ⟨iff_of_false (fun ha => ?_)
        fun ha => ?_, rfl, rfl⟩ fun _ he => by cases he
      · exact List.append_ne_nil_of_right_ne_nil _ (List.cons_ne_nil _ _) ha.2
      · exact List.cons_ne_nil _ _ (hr.symm.trans ha.1)
    | expire hw =>
      refine hsame _ (h.timer rfl rfl rfl (fun h1 h2 => ⟨.inr ?_, fun err he => ?_⟩) fun _ => .inl hw)
        (.of_io rfl rfl) fun _ he => by cases he
      · exact List.append_ne_nil_of_right_ne_nil _ (by simpa [List.replicate_eq_nil_iff] using hw)
      · rcases List.mem_append.1 he with he | he
        · exact (h.awaits h1 h2).2 err he
        · rw [List.eq_of_mem_replicate he]
          simp
    | @runReceive i r err n hx =>
      have hb' : err = .success → ¬ Unresolvable past (c.mRecvBuffer.take n) c := fun he hu =>
        hb ⟨n, by rw [← he]; exact hx, hu⟩
      obtain ⟨hs, hdead, hanswered, hres⟩ := h.receive hd hx hb' rfl
      refine ⟨hs, fun _ _ _ => hdead, fun past' i' err' n' he hx' => ?_, fun he => absurd rfl (he past i), hs.awaited⟩
      cases he
      cases hx.symm.trans hx'
      exact ⟨hanswered, hres⟩
    | @runTimer i err hx =>
      obtain ⟨hs, hdead⟩ := h.oackTimeout hd hx fun hsome => by_contra fun ha => hb ⟨hsome, err, hx, ha⟩
      exact ⟨hs, .of_keeps (h.keeps_oackTimeout i err) hs (fun _ _ _ => hdead) fun _ _ he => by cases he⟩

theorem requestOptions_isDefault (size : UInt64) {IN_optionVals : TransactionOptionValues}
    (h : IN_optionVals.isDefault = false) : (requestOptions size IN_optionVals).isDefault = false := by
  rw [requestOptions, if_neg (by simp [h])]
  simp [TransactionOptionValues.isDefault]

/-- The request is sent, or an exception is thrown. -/
theorem sendRequest_cases (c : TftpClient) (server : Endpoint) (msg : RequestMessage) (waits : Bool) :
    (∃ e, c.sendRequest server msg waits = { c with threw := some e }) ∨
      ∃ str, msg.encode = .ok str ∧ server.address.is_v4 = true ∧ c.sendRequest server msg waits = { c with
        io := if waits then
            (((c.io.asyncSendDetached server str).expiresFromNow
              (retransmissionTime.toNat * 4)).asyncWait).asyncReceiveFrom ()
          else c.io.asyncSendDetached server str } := by
  unfold sendRequest
  cases c.os.sockets with
  | false => exact .inl ⟨_, rfl⟩
  | true =>
    cases msg.encode with
    | error e => exact .inl ⟨e, rfl⟩
    | ok str =>
      cases server.address.is_v4 with
      | false => exact .inl ⟨_, rfl⟩
      | true => exact .inr ⟨str, rfl, rfl, by cases waits <;> rfl⟩

theorem sendRequest_stage {c : TftpClient} (hio : c.io = { started := true }) (hs : c.session = none)
    (hc : c.callbacks = []) (server : Endpoint) (msg : RequestMessage) :
    (c.sendRequest server msg true).dead = true ∨ (c.sendRequest server msg true).Stage := by
  rcases c.sendRequest_cases server msg true with ⟨e, heq⟩ | ⟨str, -, -, heq⟩
  · rw [heq]
    exact .inl rfl
  · right
    rw [heq, if_pos rfl, hio]
    exact .waiting hs hc rfl rfl rfl (.inl (Nat.succ_ne_zero _)) fun err he => by cases he

theorem Asks.stage (h : Asks c) : c.dead = true ∨ c.Stage := by
  cases h with
  | mk os rootfolder server hk filename ho transfermode =>
    unfold start
    split
    · exact .inl rfl
    · rename_i folder hfolder
      dsimp only
      split_ifs
      · exact .inl rfl
      · rcases hk with rfl | rfl
        · have hopts := requestOptions_isDefault 0 ho
          unfold start_RRQ
          simp only [hopts, Bool.and_false, Bool.not_false]
          exact sendRequest_stage rfl rfl rfl server _
        · have hopts := requestOptions_isDefault (os.fileSize (folder ++ filename)) ho
          unfold start_WRQ
          simp only [new, hopts, Bool.and_false, Bool.not_false]
          exact sendRequest_stage rfl rfl rfl server _

end

end TftpClient

end Ttftp

/-
  To whom a server sends, and what (`answers_only_heard`).

  A transfer sends its DATA messages or ACKs to its peer, and nothing but errors to anybody
  else; and each of those has sent something to its socket before.  As the peer has sent
  the request, no datagram of a server ever goes to a host that it has not heard of.
-/
import Ttftp.Lib.Post
import Ttftp.Proof.Pool
import Ttftp.Proof.Receiver

namespace Ttftp

open Bytes Asio

/-- The hosts a transfer knows, and its block size. -/
structure Correspondents where
  isConnected : Bool
  peer : Endpoint
  /-- the source of the datagram that has arrived last -/
  source : Endpoint
  blocksize : ℕ

/-- What may be sent: messages of the transfer and errors to the peer, and errors to others. -/
inductive Mail (message : Bytes → Prop) (peer : Endpoint) (others : Endpoint → Prop) : Endpoint × Bytes → Prop
  | message {d : Bytes} : message d → Mail message peer others (peer, d)
  | error (msg : ErrorMessage) : Mail message peer others (peer, msg.encode)
  | other {dst : Endpoint} (msg : ErrorMessage) : others dst → Mail message peer others (dst, msg.encode)

theorem Mail.mono {message message' : Bytes → Prop} {peer : Endpoint} {others others' : Endpoint → Prop}
    {x : Endpoint × Bytes} (h : Mail message peer others x) (hm : ∀ d, message d → message' d)
    (ho : ∀ dst, others dst → others' dst ∨ dst = peer) : Mail message' peer others' x := by
  cases h with
  | message hd => exact .message (hm _ hd)
  | error msg => exact .error msg
  | other msg hdst =>
    rcases ho _ hdst with hdst | rfl
    · exact .other msg hdst
    · exact .error msg

/-- A DATA message with at most `bs` bytes of data. -/
def IsDataMessage (bs : ℕ) (d : Bytes) : Prop := ∃ nr p, d = dataBytes nr p ∧ p.length ≤ bs

def IsAckMessage (d : Bytes) : Prop := ∃ nr, d = AckMessage.encode ⟨nr⟩

def IsErrorMessage (d : Bytes) : Prop := ∃ msg : ErrorMessage, d = msg.encode

namespace Correspondents
variable {msgs : ℕ → Bytes → Prop} {v v' : Correspondents}

/-- The code of a transfer connects it, and does nothing else to the hosts that it knows. -/
structure Becomes (v v' : Correspondents) : Prop where
  source : v'.source = v.source
  blocksize : v'.blocksize = v.blocksize
  connected : v.isConnected = true → v' = v

/-- A transfer sends its messages and errors, and once it is connected, to its correspondents. -/
structure May (msgs : ℕ → Bytes → Prop) (v : Correspondents) (x : Endpoint × Bytes) : Prop where
  plain : msgs v.blocksize x.2 ∨ IsErrorMessage x.2
  mail : v.isConnected = true → Mail (msgs v.blocksize) v.peer (· = v.source) x

theorem May.message {d : Bytes} (h : msgs v.blocksize d) : v.May msgs (v.peer, d) :=
  ⟨.inl h, fun _ => .message h⟩

theorem May.error (msg : ErrorMessage) : v.May msgs (v.peer, msg.encode) :=
  ⟨.inr ⟨msg, rfl⟩, fun _ => .error msg⟩

theorem May.other {dst : Endpoint} (msg : ErrorMessage) (h : dst = v.source) : v.May msgs (dst, msg.encode) :=
  ⟨.inr ⟨msg, rfl⟩, fun _ => .other msg h⟩

/-- A transfer as a poster. -/
def poster {σ H : Type} (io : σ → Io H Endpoint) (view : σ → Correspondents) (msgs : ℕ → Bytes → Prop) :
    Poster σ H Endpoint Correspondents where
  io := io
  view := view
  may := May msgs
  becomes := Becomes
  refl _ := ⟨rfl, rfl, fun _ => rfl⟩
  trans h h' := ⟨h'.source.trans h.source, h'.blocksize.trans h.blocksize, fun hc => by
    have hv := h.connected hc
    subst hv
    exact h'.connected hc⟩
  narrows {v w x} h hm := by
    refine ⟨?_, fun hc => ?_⟩
    · rw [← h.blocksize]
      exact hm.plain
    · have hv := h.connected hc
      subst hv
      exact hm.mail hc

/-- The source of a datagram is heard of. -/
def hear (src : Endpoint) (v : Correspondents) : Correspondents := { v with source := src }

end Correspondents

/-! ## The sender -/

namespace Tftpsender

theorem newConnected_wellFormed {sock : Io SenderHandler Endpoint} (ho : sock.isOpen = true) (file : Option Bytes)
    (remote : Endpoint) (firstAck : ℤ) (blocksize : ℕ) (timeoutSeconds : UInt8) :
    (newConnected sock (.ofFile file) remote firstAck blocksize timeoutSeconds).WellFormed := by
  refine ⟨ho, List.length_replicate, ?_, rfl⟩
  cases file <;> exact Nat.zero_le _

def correspondents (s : Tftpsender) : Correspondents where
  isConnected := s.isConnected
  peer := s.mReceiverEndpoint
  source := s.mLastReceivedReceiverEndpoint
  blocksize := s.blocksize

def poster : Poster Tftpsender SenderHandler Endpoint Correspondents :=
  Correspondents.poster io correspondents IsDataMessage

abbrev Posts : Tftpsender → Tftpsender → Prop := poster.Posts

namespace Posts

theorem sendErrorMsg (c : UInt16) (m : Bytes) (s : Tftpsender) : Posts s (s.sendErrorMsg c m s.mReceiverEndpoint) :=
  .sendDetached rfl rfl (.error _)

theorem endOperationWith (code : TftpUserFacingErrorCode) (s : Tftpsender) : Posts s (s.endOperationWith code) := by
  unfold Tftpsender.endOperationWith
  split_ifs
  · exact .refl s
  · exact .quiet rfl rfl

/-- The peer is told, and the operation ends. -/
theorem fail (c : UInt16) (m : Bytes) (code : TftpUserFacingErrorCode) {e : Endpoint} {s : Tftpsender}
    (he : e = s.mReceiverEndpoint) : Posts s ((s.sendErrorMsg c m e).endOperationWith code) := by
  subst he
  exact (sendErrorMsg c m s).trans (endOperationWith code _)

theorem startNextReceive (s : Tftpsender) : Posts s s.startNextReceive :=
  .quiet rfl (Io.asyncReceiveFrom_wire _ _)

theorem sendNextBlock {s : Tftpsender} (hs : s.WellFormed) : Posts s s.sendNextBlock := by
  cases hf : s.seeked.fail with
  | false =>
    rw [sendNextBlock_good hs hf]
    exact .send rfl rfl (.message ⟨_, _, rfl, IStream.length_read_le _ _⟩)
  | true =>
    rw [sendNextBlock_bad hs hf]
    have hseek : Posts s { s with input := s.seeked } := .quiet rfl rfl
    have hfail : Posts s s.inputFileError := hseek.trans (fail _ _ _ rfl)
    have hview : poster.view s.inputFileError = s.correspondents := by
      unfold inputFileError Tftpsender.endOperationWith
      split_ifs <;> rfl
    refine hfail.trans (.send rfl rfl ?_)
    rw [hview]
    refine .message ⟨_, _, rfl, ?_⟩
    rw [List.length_take]
    exact (min_le_left _ _).trans hs.gcount

theorem handleBlockSent (err : ErrorCode) (n : ℕ) (s : Tftpsender) : Posts s (s.handleBlockSent err n) := by
  unfold Tftpsender.handleBlockSent
  split_ifs
  · refine .trans ?_ (startNextReceive _)
    exact .quiet rfl rfl
  · exact .refl s

theorem start {s : Tftpsender} (hs : s.WellFormed) : Posts s s.start := by
  unfold Tftpsender.start
  split_ifs
  · exact fail _ _ _ rfl
  · exact sendNextBlock hs
  · exact startNextReceive s

theorem acceptAck {s : Tftpsender} (hs : s.WellFormed) : Posts s s.acceptAck := by
  have hcount : Posts s s.countAck := by
    unfold countAck
    dsimp only
    split_ifs with hc
    · exact .quiet rfl rfl
    · exact .becomes ⟨rfl, rfl, fun h => absurd h hc⟩ rfl
  unfold Tftpsender.acceptAck
  split_ifs
  · exact hcount.trans (endOperationWith _ _)
  · exact hcount.trans (sendNextBlock hs.countAck)

theorem checkAckForLastBlock {s : Tftpsender} (hs : s.WellFormed) (err : ErrorCode) (n : ℕ) :
    Posts s (s.checkAckForLastBlock err n) := by
  obtain ⟨t, ht⟩ : ∃ t, t = { s with io := s.io.timerCancel } := ⟨_, rfl⟩
  have hwf : t.WellFormed := by rw [ht]; exact hs.io _ rfl
  have hst : Posts s t := by rw [ht]; exact .quiet rfl rfl
  unfold Tftpsender.checkAckForLastBlock
  dsimp only
  rw [← ht]
  refine hst.trans ?_
  cases t.ackBranch err n with
  | wrongOpcode => exact fail _ _ _ (by rw [ht])
  | olderAck => exact sendNextBlock hwf
  | expectedAck => exact acceptAck hwf
  | futureAck => exact fail _ _ _ (by rw [ht])
  | foreignHost =>
    -- the stranger is told, and the block is sent again
    refine .trans ?_ (sendNextBlock (hwf.sendErrorMsg _ _ _))
    exact .sendDetached rfl rfl (.other _ (by rw [ht]; rfl))
  | retry => exact sendNextBlock hwf
  | fatal => exact endOperationWith _ t

theorem handleReadTimeout (err : ErrorCode) (s : Tftpsender) : Posts s (s.handleReadTimeout err) := by
  unfold Tftpsender.handleReadTimeout Io.cancel
  split_ifs
  · exact .refl s
  · dsimp only
    have h : Posts s { s with io := s.io.abortAll, timeoutcount := s.timeoutcount + 1 } := .quiet rfl rfl
    split_ifs
    · exact h
    · exact h.trans (fail _ _ _ rfl)
  · exact .quiet rfl rfl

end Posts

theorem posting : Poster.Posting proactor poster WellFormed Correspondents.hear where
  io _ := rfl
  io_setIo _ _ := rfl
  view_setIo _ _ := rfl
  good_setIo _ io hs ho := hs.io io ho
  io_store _ _ _ := rfl
  view_store _ _ _ := rfl
  start _ hs := Posts.start hs
  receive h err n s hs := by
    change Posts s (onReceive h err n s)
    rw [onReceive_eq]
    exact Posts.checkAckForLastBlock hs err n
  sent := fun err n s _ => Posts.handleBlockSent err n s
  timer := fun err s _ => Posts.handleReadTimeout err s

end Tftpsender

/-! ## The receiver -/

namespace TftpReceiver

def correspondents (s : TftpReceiver) : Correspondents where
  isConnected := s.isConnected
  peer := s.mSenderEndpoint
  source := s.mLastReceivedSenderEndpoint
  blocksize := s.blocksize

def poster : Poster TftpReceiver ReceiverHandler Endpoint Correspondents :=
  Correspondents.poster io correspondents fun _ => IsAckMessage

abbrev Posts : TftpReceiver → TftpReceiver → Prop := poster.Posts

namespace Posts

theorem sendErrorMsg (c : UInt16) (m : Bytes) (s : TftpReceiver) : Posts s (s.sendErrorMsg c m s.mSenderEndpoint) :=
  .sendDetached rfl rfl (.error _)

theorem endOperationWith (code : TftpUserFacingErrorCode) (s : TftpReceiver) :
    Posts s (s.endOperationWith code) := by
  unfold TftpReceiver.endOperationWith
  split_ifs
  · exact .refl s
  · exact .quiet rfl rfl

theorem fail (c : UInt16) (m : Bytes) (code : TftpUserFacingErrorCode) {e : Endpoint} {s : TftpReceiver}
    (he : e = s.mSenderEndpoint) : Posts s ((s.sendErrorMsg c m e).endOperationWith code) := by
  subst he
  exact (sendErrorMsg c m s).trans (endOperationWith code _)

theorem startNextReceive (s : TftpReceiver) : Posts s s.startNextReceive :=
  .quiet rfl (Io.asyncReceiveFrom_wire _ _)

theorem sendNextAck (l : Bool) (s : TftpReceiver) : Posts s (s.sendNextAck l) := by
  have hcount : Posts s { s with lastsentack := { mBlockNr := s.lastreceiveddatacount } } := .quiet rfl rfl
  unfold TftpReceiver.sendNextAck Io.sendTo
  dsimp only
  refine hcount.trans ?_
  split_ifs with hc hl ho
  · dsimp only
    refine .trans ?_ (endOperationWith _ _)
    exact .one (b := true) rfl rfl (.message ⟨s.lastreceiveddatacount, rfl⟩)
  · exact .quiet rfl rfl
  · exact .send rfl rfl (.message ⟨_, rfl⟩)
  · exact startNextReceive _

theorem outputFileError (s : TftpReceiver) : Posts s s.outputFileError := fail _ _ _ rfl

theorem start (s : TftpReceiver) : Posts s s.start := by
  have h : Posts s (if s.output.fail then s.outputFileError else s) := by
    split_ifs
    · exact outputFileError s
    · exact .refl s
  unfold TftpReceiver.start
  dsimp only
  refine h.trans ?_
  split_ifs
  · exact sendNextAck _ _
  · exact startNextReceive _
  · exact sendNextAck _ _
  · exact startNextReceive _

theorem handleACKsent (err : ErrorCode) (n : ℕ) (s : TftpReceiver) : Posts s (s.handleACKsent err n) := by
  unfold TftpReceiver.handleACKsent
  split_ifs
  · exact startNextReceive s
  · exact .refl s

theorem acceptBlock (n : ℕ) (s : TftpReceiver) : Posts s (s.acceptBlock n) := by
  have hcount : Posts s s.countBlock := by
    unfold countBlock
    dsimp only
    split_ifs with hc
    · exact .quiet rfl rfl
    · exact .becomes ⟨rfl, rfl, fun h => absurd h hc⟩ rfl
  have hwrite : ∀ (d : Bytes) (t : TftpReceiver), Posts t (t.writeBlock d) := by
    intro d t
    unfold writeBlock
    split_ifs
    · exact (outputFileError t).trans (.quiet rfl rfl)
    · exact .quiet rfl rfl
  exact (hcount.trans (hwrite _ _)).trans (sendNextAck _ _)

theorem checkReceivedBlock (err : ErrorCode) (n : ℕ) (s : TftpReceiver) :
    Posts s (s.checkReceivedBlock err n) := by
  obtain ⟨t, ht⟩ : ∃ t, t = { s with io := s.io.timerCancel } := ⟨_, rfl⟩
  have hst : Posts s t := by rw [ht]; exact .quiet rfl rfl
  unfold TftpReceiver.checkReceivedBlock
  dsimp only
  rw [← ht]
  refine hst.trans ?_
  cases t.blockBranch err n with
  | foreignHost =>
    refine .trans ?_ (sendNextAck _ _)
    exact .sendDetached rfl rfl (.other _ (by rw [ht]; rfl))
  | tooLarge => exact fail _ _ _ (by rw [ht])
  | wrongOpcode => exact fail _ _ _ (by rw [ht])
  | olderBlock => exact sendNextAck _ t
  | expectedBlock => exact acceptBlock n t
  | futureBlock => exact fail _ _ _ (by rw [ht])
  | aborted => exact sendNextAck _ t
  | fatal => exact endOperationWith _ t

theorem handleReadTimeout (err : ErrorCode) (s : TftpReceiver) : Posts s (s.handleReadTimeout err) := by
  unfold TftpReceiver.handleReadTimeout Io.cancel
  split_ifs
  · exact .refl s
  · dsimp only
    have h : Posts s { s with io := s.io.abortAll, timeoutcount := s.timeoutcount + 1 } := .quiet rfl rfl
    split_ifs
    · exact h
    · exact h.trans (fail _ _ _ rfl)
  · exact .quiet rfl rfl

end Posts

theorem posting : Poster.Posting proactor poster (fun _ => True) Correspondents.hear where
  io _ := rfl
  io_setIo _ _ := rfl
  view_setIo _ _ := rfl
  good_setIo _ _ hs _ := hs
  io_store _ _ _ := rfl
  view_store _ _ _ := rfl
  start s _ := Posts.start s
  receive h err n s _ := by
    change Posts s (onReceive h err n s)
    rw [onReceive_eq]
    exact Posts.checkReceivedBlock err n s
  sent := fun err n s _ => Posts.handleACKsent err n s
  timer := fun err s _ => Posts.handleReadTimeout err s

end TftpReceiver

/-! ## Sessions -/

/-- An OACK. -/
def IsOackMessage (d : Bytes) : Prop := ∃ msg : OptionACKMessage, msg.encode = .ok d

/-- The hosts `others`, with the one that an event is a datagram of. -/
def Known (others : Endpoint → Prop) (e : Event Endpoint) (dst : Endpoint) : Prop :=
  others dst ∨ ∃ d, e = .deliver dst d

/-- Who knows `v` has the peer `c`, and has sent `wire` to it and to `others`. -/
structure Confines (message : Bytes → Prop) (c : Endpoint) (others : Endpoint → Prop) (v : Correspondents)
    (wire : List (Endpoint × Bytes)) : Prop where
  connected : v.isConnected = true
  peer : v.peer = c
  source : others v.source ∨ v.source = c
  wire : ∀ p ∈ wire, Mail message c others p

namespace Confines
variable {message message' : Bytes → Prop} {c : Endpoint} {others others' : Endpoint → Prop} {v v' : Correspondents}
  {wire wire' : List (Endpoint × Bytes)} {msgs : ℕ → Bytes → Prop}

theorem mono (h : Confines message c others v wire) (hm : ∀ d, message d → message' d)
    (ho : ∀ dst, others dst → others' dst) : Confines message' c others' v wire :=
  ⟨h.connected, h.peer, h.source.imp_left (ho _), fun p hp => (h.wire p hp).mono hm fun _ hdst => .inl (ho _ hdst)⟩

/-- What may be sent is sent, after a datagram or without. -/
theorem grow (h : Confines message c others v wire) {e : Event Endpoint}
    (hv : (Poster.heard Correspondents.hear v e).Becomes v') (hw : ∃ w, wire' = wire ++ w ∧ ∀ x ∈ w, v.May msgs x)
    (hm : ∀ d, msgs v.blocksize d → message d) : Confines message c (Known others e) v' wire' := by
  obtain ⟨w, rfl, hw⟩ := hw
  have hwire : ∀ p ∈ wire ++ w, Mail message c (Known others e) p := by
    intro p hp
    rcases List.mem_append.1 hp with hp | hp
    · exact (h.wire p hp).mono (fun _ hd => hd) fun _ hdst => .inl (.inl hdst)
    · rw [← h.peer]
      refine ((hw p hp).mail h.connected).mono hm fun dst hdst => ?_
      rw [hdst, h.peer]
      exact h.source.imp_left .inl
  have hv' := hv.connected (by cases e <;> exact h.connected)
  subst hv'
  cases e with
  | deliver src d => exact ⟨h.connected, h.peer, .inl (.inr ⟨d, rfl⟩), hwire⟩
  | _ => exact ⟨h.connected, h.peer, h.source.imp_left .inl, hwire⟩

end Confines

namespace Session

def correspondents : Session → Correspondents
  | sender s => s.correspondents
  | receiver r => r.correspondents

def WellFormed : Session → Prop
  | sender s => s.WellFormed
  | receiver r => r.WellFormed

/-- Whatever the file becomes. -/
theorem WellFormed.rewrite {x : Session} (h : x.WellFormed) (content : Bytes) : (x.rewrite content).WellFormed := by
  cases x with
  | sender s => exact ⟨h.isOpen, h.lastsentdata, h.gcount, h.ackbuffer⟩
  | receiver r => exact h

/-- The messages of its own that a transfer sends. -/
def message : Session → ℕ → Bytes → Prop
  | sender _ => IsDataMessage
  | receiver _ => fun _ => IsAckMessage

/-- What a step sends, and whom the transfer knows then. -/
structure StepPosts (x : Session) (e : Event Endpoint) (x' : Session) : Prop where
  wf : x'.WellFormed
  message : x'.message = x.message
  view : (Poster.heard Correspondents.hear x.correspondents e).Becomes x'.correspondents
  wire : ∃ w, x'.wire = x.wire ++ w ∧ ∀ p ∈ w, x.correspondents.May x.message p

theorem StepPosts.sender {s s' : Tftpsender} (hwf : s'.WellFormed) (h : Tftpsender.Posts s s') :
    (Session.sender s).StepPosts .start (Session.sender s') := ⟨hwf, rfl, h.view, h.wire⟩

theorem StepPosts.receiver {r r' : TftpReceiver} (hwf : r'.WellFormed) (h : TftpReceiver.Posts r r') :
    (Session.receiver r).StepPosts .start (Session.receiver r') := ⟨hwf, rfl, h.view, h.wire⟩

theorem step_posts {x x' : Session} {e : Event Endpoint} (hwf : x.WellFormed) (h : x.step e = some x') :
    x.StepPosts e x' := by
  cases x with
  | sender s =>
    obtain ⟨s', hs, rfl⟩ := Option.map_eq_some_iff.1 h
    obtain ⟨hv, hw⟩ := Tftpsender.posting.step hwf hs
    exact ⟨Tftpsender.WellFormed.step hwf hs, rfl, hv, hw⟩
  | receiver r =>
    obtain ⟨r', hr, rfl⟩ := Option.map_eq_some_iff.1 h
    obtain ⟨hv, hw⟩ := TftpReceiver.posting.step trivial hr
    exact ⟨TftpReceiver.WellFormed.step hwf hr, rfl, hv, hw⟩

/-- The messages of a transfer that a server has started. -/
def IsMessage (x : Session) (d : Bytes) : Prop := IsOackMessage d ∨ x.message x.correspondents.blocksize d

/-- A transfer with the peer `c` at whose socket datagrams from `others` have arrived. -/
structure Confined (c : Endpoint) (others : Endpoint → Prop) (x : Session) : Prop where
  wf : x.WellFormed
  confines : Confines x.IsMessage c others x.correspondents x.wire

namespace Confined
variable {c : Endpoint} {others : Endpoint → Prop} {x x' : Session} {e : Event Endpoint}

theorem step_of_posts (h : x.Confined c others) (hp : x.StepPosts e x') : x'.Confined c (Known others e) := by
  have hbs : x'.correspondents.blocksize = x.correspondents.blocksize := by
    rw [hp.view.blocksize]
    cases e <;> rfl
  refine ⟨hp.wf, (h.confines.grow hp.view hp.wire fun d hd => .inr hd).mono (fun d hd => ?_) fun _ hdst => hdst⟩
  rw [IsMessage, hp.message, hbs]
  exact hd

theorem step (h : x.Confined c others) (hx : x.step e = some x') : x'.Confined c (Known others e) :=
  h.step_of_posts (step_posts h.wf hx)

/-- What a transfer reads makes no difference to whom it knows. -/
theorem rewrite (h : x.Confined c others) (content : Bytes) : (x.rewrite content).Confined c others := by
  refine ⟨h.wf.rewrite content, ?_⟩
  cases x <;> exact h.confines

theorem run (h : x.Confined c others) {es : List SessionEvent} (hx : system.run x es = some x') :
    x'.Confined c fun dst => others dst ∨ ∃ d, .socket (.deliver dst d) ∈ es := by
  induction es generalizing x others with
  | nil =>
    cases hx
    exact ⟨h.wf, h.confines.mono (fun _ hd => hd) fun _ => .inl⟩
  | cons e es ih =>
    obtain ⟨y, hy, hr⟩ := Option.bind_eq_some_iff.1 hx
    cases e with
    | rewritten content =>
      obtain ⟨-, hy⟩ := Option.ite_none_left_eq_some.1 hy
      obtain rfl := Option.some.inj hy
      obtain ⟨hwf, hc⟩ := ih (h.rewrite content) hr
      refine ⟨hwf, hc.mono (fun _ hd => hd) fun dst hdst => hdst.imp_right ?_⟩
      exact fun ⟨d, hd⟩ => ⟨d, List.mem_cons_of_mem _ hd⟩
    | socket e =>
      obtain ⟨hwf, hc⟩ := ih (h.step hy) hr
      refine ⟨hwf, hc.mono (fun _ hd => hd) ?_⟩
      rintro dst ((hdst | ⟨d, rfl⟩) | ⟨d, hd⟩)
      · exact .inl hdst
      · exact .inr ⟨d, List.mem_cons_self⟩
      · exact .inr ⟨d, List.mem_cons_of_mem _ hd⟩

end Confined

end Session

namespace TftpServer
variable {os : OperatingSystem} {root : Bytes}

/-- A session starts with its client as its peer; only an OACK is sent before. -/
theorem StartsFor.confined {past : Bytes} {src : Endpoint} {d : Bytes} {x : Session}
    (h : StartsFor os root past src d x) : x.Confined src fun _ => False := by
  obtain ⟨-, p, rfl, hp⟩ := h
  have hsent : ∀ y ∈ p.sent, ∃ o, IsOackMessage o ∧ y = (src, o) := by
    rcases hp with ⟨-, rfl⟩ | ⟨values, hvalues, rfl⟩
    · exact fun y hy => by cases hy
    · unfold paramsOf
      split_ifs
      · intro y hy
        rw [List.mem_singleton.1 hy]
        refine ⟨_, ⟨_, TransactionOptionValues.encode_getOptionsAsMap fun n hn => ?_⟩, rfl⟩
        rw [respond_mBlocksize] at hn
        exact (fromMap_of_parseOptionFields ((admission_eq_some_iff _ _).1 hvalues).2.1).small n hn
      · exact fun y hy => by cases hy
  have hwire : ∀ {x : Session}, ∀ y ∈ p.sent, Mail x.IsMessage src (fun _ => False) y := by
    intro x y hy
    obtain ⟨o, ho, rfl⟩ := hsent y hy
    exact .message (.inl ho)
  have hnone : ∀ dst, Known (fun _ => False) .start dst → False := by
    rintro dst (h | ⟨d, hd⟩)
    · exact h
    · cases hd
  unfold sessionOf
  split_ifs
  · generalize (new os root).os.content ((new os root).path (request past d).2) = content
    have hnew : (Session.sender (Tftpsender.newConnected { started := true, wire := p.sent }
        (.ofFile content) src p.expected_ack p.blocksize_to_use p.timeout_to_use)).Confined src fun _ => False :=
      ⟨Tftpsender.newConnected_wellFormed rfl _ _ _ _ _, rfl, rfl, .inr rfl, hwire⟩
    obtain ⟨hwf, hc⟩ := hnew.step_of_posts (.sender (Tftpsender.WellFormed.start hnew.wf) (.start hnew.wf))
    exact ⟨hwf, hc.mono (fun _ hd => hd) hnone⟩
  · generalize (new os root).os.output ((new os root).path (request past d).2) = output
    have hnew : (Session.receiver (TftpReceiver.newConnected { started := true, wire := p.sent }
        output src p.blocksize_to_use p.timeout_to_use)).Confined src fun _ => False :=
      ⟨⟨rfl, List.length_replicate⟩, rfl, rfl, .inr rfl, hwire⟩
    obtain ⟨hwf, hc⟩ := hnew.step_of_posts (.receiver (TftpReceiver.WellFormed.start hnew.wf) (.start _))
    exact ⟨hwf, hc.mono (fun _ hd => hd) hnone⟩

/-- The listening socket answers with errors, to whom it has heard of last. -/
theorem Handles.refuses {past : Bytes} {n : ℕ} {s s' : TftpServer} (h : Handles past n s s') :
    ∃ w, s'.io.wire = s.io.wire ++ w ∧ ∀ p ∈ w, p.1 = s.currAccEndpoint ∧ ∃ msg : ErrorMessage, p.2 = msg.encode := by
  have hrefuse : ∀ p ∈ (s.refusals past n).map fun d => (s.currAccEndpoint, d),
      p.1 = s.currAccEndpoint ∧ ∃ msg : ErrorMessage, p.2 = msg.encode := by
    intro p hp
    obtain ⟨d, hd, rfl⟩ := List.mem_map.1 hp
    unfold refusals at hd
    refine ⟨rfl, ?_⟩
    rcases List.mem_append.1 hd with hd | hd
    · split_ifs at hd
      · exact ⟨_, List.mem_singleton.1 hd⟩
      · cases hd
    · split_ifs at hd
      · cases hd
      · exact ⟨_, List.mem_singleton.1 hd⟩
  cases h with
  | ignored _ => exact ⟨_, Io.asyncReceiveFrom_wire _ _, hrefuse⟩
  | thrown _ _ => exact ⟨_, rfl, hrefuse⟩
  | invalid _ _ =>
    refine ⟨_, (Io.asyncReceiveFrom_wire _ _).trans ((Io.asyncSendDetached_wire _ _ _).trans
      (List.append_assoc _ _ _)), fun p hp => ?_⟩
    rcases List.mem_append.1 hp with hp | hp
    · exact hrefuse p hp
    · split_ifs at hp
      · rw [List.mem_singleton.1 hp]
        exact ⟨rfl, _, rfl⟩
      · cases hp
  | valid _ _ => exact ⟨_, Io.asyncReceiveFrom_wire _ _, hrefuse⟩

/-- The listening socket has sent errors to hosts it has heard of. -/
theorem listening_refuses {es : List HostEvent} {s : TftpServer}
    (h : (system os root).run (new os root) es = some s) : ∀ p ∈ s.io.wire,
      (∃ msg : ErrorMessage, p.2 = msg.encode) ∧ ∃ past d, .server (.listen past (.deliver p.1 d)) ∈ es := by
  induction es using List.reverseRecOn generalizing s with
  | nil =>
    cases h
    exact fun p hp => by cases hp
  | append_singleton es e ih =>
    rw [Lts.run_append] at h
    obtain ⟨t, ht, hlast⟩ := Option.bind_eq_some_iff.1 h
    obtain ⟨t', he, hlast⟩ := Option.bind_eq_some_iff.1 hlast
    cases hlast
    have hheard := heard ht
    -- what was sent before was sent to hosts heard of before
    have hold : ∀ p ∈ t.io.wire, (∃ msg : ErrorMessage, p.2 = msg.encode) ∧
        ∃ past d, .server (.listen past (.deliver p.1 d)) ∈ es ++ [e] := fun p hp => by
      obtain ⟨hmsg, past, d, hmem⟩ := ih ht p hp
      exact ⟨hmsg, past, d, List.mem_append_left _ hmem⟩
    cases (hostStep_cases he).2 with
    | changes _ => exact hold
    | rewritten _ _ => exact hold
    | @server e _ he =>
      cases e with
      | session n e =>
        obtain ⟨-, he⟩ := Option.ite_none_left_eq_some.1 he
        obtain ⟨x, -, he⟩ := Option.bind_eq_some_iff.1 he
        obtain ⟨x', -, rfl⟩ := Option.map_eq_some_iff.1 he
        exact hold
      | listen past e =>
        obtain ⟨-, hstep⟩ := Proactor.step_cases he
        clear he h
        cases hstep with
        | @runReceive i r err n hr =>
          by_cases herr : err = .success
          · subst herr
            have hopen : t.io.isOpen = true := hheard.inv.isOpen
            obtain ⟨past', d, hmem, -⟩ := hheard.box n (Io.mem_arrivals.2 (List.mem_of_getElem? hr))
            have hh := @handles past n { t with io := { t.io with received := t.io.received.eraseIdx i } } hopen
            obtain ⟨w, hw, hto⟩ := hh.refuses
            intro p hp
            rcases List.mem_append.1 (hw ▸ hp) with hp | hp
            · exact hold p hp
            · obtain ⟨hdst, hmsg⟩ := hto p hp
              exact ⟨hmsg, past', d, List.mem_append_left _ (by rw [hdst]; exact hmem)⟩
          · intro p hp
            refine hold p ?_
            change p ∈ (handleRequest past err n
              { t with io := { t.io with received := t.io.received.eraseIdx i } }).io.wire at hp
            rw [handleRequest, if_neg herr] at hp
            exact hp
        | _ => exact hold

end TftpServer

/-- An event of the session `n`, as one of the server. -/
def SessionEvent.host (n : ℕ) : SessionEvent → HostEvent
  | socket e => .server (.session n e)
  | rewritten content => .rewritten n content

theorem HostEvent.mem_own {n : ℕ} {a : SessionEvent} {es : List HostEvent} (h : a ∈ own n es) : a.host n ∈ es := by
  obtain ⟨b, hb, hown⟩ := List.mem_filterMap.1 h
  obtain ⟨e, he, rfl⟩ := List.mem_map.1 hb
  cases e with
  | changes os => cases hown
  | rewritten m content =>
    obtain ⟨hm, heq⟩ := Option.ite_none_right_eq_some.1 hown
    cases heq
    rw [← hm]
    exact he
  | server e =>
    cases e with
    | listen past e => cases hown
    | session m e =>
      obtain ⟨hm, heq⟩ := Option.ite_none_right_eq_some.1 hown
      cases heq
      rw [← hm]
      exact he

namespace TftpServer
variable {os : OperatingSystem} {root : Bytes}

theorem Origin.confined {es₁ es₂ : List HostEvent} {n : ℕ} {src : Endpoint} {d : Bytes} {x₀ x : Session}
    (h : Origin os root es₁ es₂ n src d x₀ x) :
    x.Confined src fun dst => ∃ d, .server (.session n (.deliver dst d)) ∈ es₂ := by
  obtain ⟨past, i, es', -, hstart⟩ := h.handled
  obtain ⟨hwf, hc⟩ := hstart.confined.run h.run
  refine ⟨hwf, hc.mono (fun _ hd => hd) fun dst hdst => ?_⟩
  obtain ⟨d', hd'⟩ := hdst.resolve_left id
  exact ⟨d', HostEvent.mem_own hd'⟩

end TftpServer

end Ttftp

/-
  No end of a transfer is left waiting without a timeout: when this holds.

  Sender and receiver do one thing at a time (`Tftpsender.oneByOne`,
  `TftpReceiver.oneByOne`).  Both drop the operation when a send fails; and only the
  sender has a start that listens without setting the timer.
-/
import Ttftp.Lib.Watch
import Ttftp.Proof.Course

namespace Ttftp

open Bytes Asio

/-! ## The sender -/

namespace Tftpsender

/-- What no operation takes back. -/
structure After (s s' : Tftpsender) : Prop where
  started : s'.io.started = s.io.started
  ended : s.operationEnded = true → s'.operationEnded = true

namespace After

theorem of_course {s s' : Tftpsender} (h : Course s s') : After s s' :=
  ⟨h.started, fun he => h.reported.ended he⟩

theorem handleBlockSent (err : ErrorCode) (n : ℕ) (s : Tftpsender) : After s (s.handleBlockSent err n) :=
  of_course (.handleBlockSent err n s)

theorem start (s : Tftpsender) : After s s.start := of_course (.start s)

theorem checkAckForLastBlock (err : ErrorCode) (n : ℕ) (s : Tftpsender) : After s (s.checkAckForLastBlock err n) :=
  of_course (.checkAckForLastBlock err n s)

theorem handleReadTimeout (err : ErrorCode) (s : Tftpsender) : After s (s.handleReadTimeout err) :=
  of_course (.handleReadTimeout err s)

end After

/-- A step takes back neither the start nor the end. -/
theorem step_after {s s' : Tftpsender} {e : Event Endpoint} (h : proactor.step s e = some s') :
    (e = .start ∨ s.io.started = true → s'.io.started = true) ∧
      (s.operationEnded = true → s'.operationEnded = true) :=
  handles.step_after h

/-- The sender waits for a first ACK without setting the timer. -/
def StartsUntimed (s : Tftpsender) : Prop := s.input.fail = false ∧ s.lastsentdatacount ≠ 1

/-- The next expiry of the timer is one too many. -/
def LastExpiry (s : Tftpsender) : Prop := retransmissionsUntilTimeout < s.timeoutcount + 1

section
variable {s : Tftpsender}

/-- The next block is sent, or the operation ends. -/
theorem sendNextBlock_live (hs : s.WellFormed) (ht : s.io.tokens = 0) :
    s.sendNextBlock.operationEnded = true ∨ s.sendNextBlock.io.Live := by
  cases h : s.seeked.fail with
  | false =>
    rw [sendNextBlock_good hs h]
    exact .inr (.send ht _ _)
  | true =>
    rw [sendNextBlock_bad hs h]
    exact .inl (inputFileError_ended s)

theorem checkAckForLastBlock_live (hs : s.WellFormed) (ht : s.io.tokens = 0) (err : ErrorCode) (n : ℕ) :
    (s.checkAckForLastBlock err n).operationEnded = true ∨ (s.checkAckForLastBlock err n).io.Live := by
  have h : WellFormed { s with io := s.io.timerCancel } := hs.io _ rfl
  unfold checkAckForLastBlock
  dsimp only
  split
  · exact .inl (endOperation_ended _ _)
  · exact sendNextBlock_live h ht
  · unfold acceptAck
    split_ifs
    · exact .inl (endOperation_ended _ _)
    · exact sendNextBlock_live h.countAck (by rw [countAck_io]; exact ht)
  · exact .inl (endOperation_ended _ _)
  · refine sendNextBlock_live (h.sendErrorMsg _ _ _) ?_
    exact (Io.asyncSendDetached_tokens _ _ _).trans ht
  · exact sendNextBlock_live h ht
  · exact .inl (endOperation_ended _ _)

theorem handleReadTimeout_retry (hs : s.WellFormed) (he : s.operationEnded = false) {err : ErrorCode}
    (ha : err ≠ .operationAborted) (hl : ¬ s.LastExpiry) :
    s.handleReadTimeout err = { s with io := s.io.abortAll, timeoutcount := s.timeoutcount + 1 } := by
  have hopen : s.io.isOpen = true := by rw [hs.isOpen, he]; rfl
  unfold handleReadTimeout Io.cancel
  rw [if_neg ha, if_pos hopen]
  exact if_pos (UInt16.not_lt.1 hl)

theorem handleReadTimeout_last (hs : s.WellFormed) (he : s.operationEnded = false) {err : ErrorCode}
    (ha : err ≠ .operationAborted) (hl : s.LastExpiry) : (s.handleReadTimeout err).operationEnded = true := by
  have hopen : s.io.isOpen = true := by rw [hs.isOpen, he]; rfl
  unfold handleReadTimeout Io.cancel
  rw [if_neg ha, if_pos hopen]
  dsimp only
  rw [if_neg (UInt16.not_le.2 hl)]
  exact endOperation_ended _ _

end

/-- The sender does one thing at a time. -/
theorem oneByOne : OneByOne proactor WellFormed operationEnded StartsUntimed LastExpiry where
  io_setIo _ _ := rfl
  io_store _ _ _ := rfl
  ended_setIo _ _ := rfl
  wf_setIo _ io hs h := hs.io io h
  bare_setIo _ _ := Iff.rfl
  last_setIo _ _ := Iff.rfl
  wf_step _ _ _ hs h := hs.step h
  ended_step _ _ _ h := (step_after h).2
  started_step _ _ _ h := (step_after h).1
  start s hs _ ht hb := by
    change (start s).operationEnded = true ∨ (start s).io.Live
    unfold start
    split_ifs with hf hc
    · exact .inl (endOperationWith_ended _ _)
    · exact sendNextBlock_live hs ht
    · exact absurd ⟨Bool.eq_false_iff.2 hf, hc⟩ hb
  start_bare s hs he ht hwaits hwaited hb := by
    have hstart : proactor.start s = s.startNextReceive := by
      change start s = _
      rw [start, if_neg (by rw [hb.1]; exact Bool.false_ne_true), if_neg hb.2]
    obtain ⟨-, h2, h3, h4⟩ := (Io.tokens_eq_zero _).1 ht
    have hopen : s.io.isOpen = true := by rw [hs.isOpen, he]; rfl
    rw [hstart]
    refine ⟨he, ?_⟩
    change (s.io.asyncReceiveFrom _).Idle ∧ ¬ (s.io.asyncReceiveFrom _).Watched
    rw [Io.asyncReceiveFrom, if_pos hopen]
    refine ⟨⟨h2, h4, hwaited⟩, ?_⟩
    rintro (hw | hw)
    · exact hw h3
    · exact hw.2 hwaits
  receive r err n s hs _ ht := by
    change (onReceive r err n s).operationEnded = true ∨ (onReceive r err n s).io.Live
    rw [onReceive_eq]
    exact checkAckForLastBlock_live hs ht err n
  sent n s ht hn := by
    change (s.handleBlockSent .success n).io.Live
    rw [handleBlockSent, if_pos ⟨rfl, hn⟩]
    exact .listen ht _ _
  failed _ _ _ h := if_neg h
  cancelled s := by
    change s.handleReadTimeout .operationAborted = s
    unfold handleReadTimeout
    exact if_pos rfl
  expired err s hs he ha hl := by
    change (s.handleReadTimeout err).operationEnded = false ∧ (s.handleReadTimeout err).io = _
    rw [handleReadTimeout_retry hs he ha hl]
    exact ⟨he, rfl⟩
  expired_last _ _ hs he ha hl := handleReadTimeout_last hs he ha hl

/-- **When a sender is never left waiting without a timeout.**  All states of a run are
    guarded exactly if no step starts the sender with a wait for ACK 0, handles a failed
    send, or has a late timer find no operation, with no other handler left to run. -/
theorem sender_guarded_iff {s₀ : Tftpsender} (h : Constructed s₀) (es : List (Event Endpoint)) :
    (∀ x ∈ lts.trace s₀ es, Guarded proactor operationEnded x.2.2) ↔
      ∀ x ∈ lts.trace s₀ es, ¬ Strands proactor operationEnded StartsUntimed LastExpiry x.1 x.2.1 := by
  have hfresh : Stage proactor operationEnded s₀ := by
    cases h with
    | unknown => exact .fresh rfl rfl rfl rfl rfl
    | known => exact .fresh rfl rfl rfl rfl rfl
  exact oneByOne.guarded_iff (ReportInv.init h).wf hfresh es

/-- A sender that knows its peer sets the timer once DATA 1 is sent. -/
theorem sender_guarded_data1 :
    (lts.trace (newConnected {} (.ofFile (some [])) ⟨1, 2⟩ 1 512 2)
      [.start, .sendCompletes .success, .runSend 0]).length = 3 ∧
    ∀ x ∈ lts.trace (newConnected {} (.ofFile (some [])) ⟨1, 2⟩ 1 512 2)
      [.start, .sendCompletes .success, .runSend 0], Guarded proactor operationEnded x.2.2 := by
  refine ⟨rfl, (sender_guarded_iff (.known _ _ _ _ _) _).2 fun x hx => ?_⟩
  have htrace : ∃ s s' s'', x ∈ [(newConnected {} (.ofFile (some [])) ⟨1, 2⟩ 1 512 2, .start, s),
      (s, .sendCompletes .success, s'), (s', .runSend 0, s'')] ∧
      s'.io.sent = [(.success, 4)] := ⟨_, _, _, hx, rfl⟩
  obtain ⟨s, s', s'', hx, hsent⟩ := htrace
  simp only [List.mem_cons, List.not_mem_nil, or_false] at hx
  rcases hx with rfl | rfl | rfl
  · exact fun hb => hb.2 rfl
  · exact id
  · rintro ⟨-, -, e, n, hx, hb⟩
    rw [show proactor.io s' = s'.io from rfl, hsent] at hx
    cases hx
    exact hb ⟨rfl, by decide⟩

/-- One that waits for its peer does not, and may wait for ever. -/
theorem sender_left_waiting : ¬ ∀ file firstAck blocksize timeoutSeconds es, firstAck = 0 ∨ firstAck = 1 →
    ∀ x ∈ lts.trace (new {} (.ofFile file) firstAck blocksize timeoutSeconds) es,
      Guarded proactor operationEnded x.2.2 := by
  intro h
  rcases h (some []) 0 512 2 [.start] (.inl rfl) _ (List.mem_singleton_self _) rfl rfl ⟨rfl, rfl, rfl⟩ with h | h
  · exact h rfl
  · exact h.2 rfl

end Tftpsender

/-! ## The receiver -/

namespace TftpReceiver

/-- What no operation takes back. -/
structure After (s s' : TftpReceiver) : Prop where
  started : s'.io.started = s.io.started
  ended : s.operationEnded = true → s'.operationEnded = true

namespace After

theorem of_course {s s' : TftpReceiver} (h : Course s s') : After s s' :=
  ⟨h.started, fun he => h.reported.ended he⟩

theorem sendNextAck (l : Bool) (s : TftpReceiver) : After s (s.sendNextAck l) := of_course (.sendNextAck l s)

theorem handleACKsent (err : ErrorCode) (n : ℕ) (s : TftpReceiver) : After s (s.handleACKsent err n) :=
  of_course (.handleACKsent err n s)

theorem start (s : TftpReceiver) : After s s.start := of_course (.start s)

theorem acceptBlock (n : ℕ) (s : TftpReceiver) : After s (s.acceptBlock n) := of_course (.acceptBlock n s)

theorem checkReceivedBlock (err : ErrorCode) (n : ℕ) (s : TftpReceiver) : After s (s.checkReceivedBlock err n) :=
  of_course (.checkReceivedBlock err n s)

theorem handleReadTimeout (err : ErrorCode) (s : TftpReceiver) : After s (s.handleReadTimeout err) :=
  of_course (.handleReadTimeout err s)

end After

/-- A step takes back neither the start nor the end. -/
theorem step_after {s s' : TftpReceiver} {e : Event Endpoint} (h : proactor.step s e = some s') :
    (e = .start ∨ s.io.started = true → s'.io.started = true) ∧
      (s.operationEnded = true → s'.operationEnded = true) :=
  handles.step_after h

/-- The next expiry of the timer is one too many. -/
def LastExpiry (s : TftpReceiver) : Prop := retransmissionsUntilTimeout < s.timeoutcount + 1

section
variable {s : TftpReceiver}

/-- The next ACK is sent, or the next block waited for, or the operation ends. -/
theorem sendNextAck_live (hs : s.WellFormed) (l : Bool)
    (ht : s.operationEnded = true ∨ s.io.tokens = 0) :
    (s.sendNextAck l).operationEnded = true ∨ (s.sendNextAck l).io.Live := by
  rcases ht with he | ht
  · exact .inl ((After.sendNextAck l s).ended he)
  · cases hc : s.isConnected with
    | false =>
      have hlisten : s.sendNextAck l =
          { s with lastsentack := ⟨s.lastreceiveddatacount⟩ }.startNextReceive := by
        simp [sendNextAck, hc]
      rw [hlisten]
      exact .inr (.listen ht _ _)
    | true =>
      cases l with
      | false =>
        rw [sendNextAck_false, if_pos hc]
        exact .inr (.send ht _ _)
      | true =>
        rw [sendNextAck_true s hc]
        split_ifs with hopen
        · exact .inl (endOperation_ended _ _)
        · left
          rw [Bool.not_eq_true, hs.isOpen, Bool.not_eq_false'] at hopen
          exact hopen

theorem acceptBlock_live (hs : s.WellFormed) (ht : s.io.tokens = 0) (n : ℕ) :
    (s.acceptBlock n).operationEnded = true ∨ (s.acceptBlock n).io.Live := by
  refine sendNextAck_live (hs.countBlock.writeBlock _) _ ?_
  unfold writeBlock
  split_ifs
  · exact .inl (outputFileError_ended _)
  · right
    change s.countBlock.io.tokens = 0
    rw [countBlock_io]
    exact ht

theorem checkReceivedBlock_live (hs : s.WellFormed) (ht : s.io.tokens = 0) (err : ErrorCode) (n : ℕ) :
    (s.checkReceivedBlock err n).operationEnded = true ∨ (s.checkReceivedBlock err n).io.Live := by
  have h : WellFormed { s with io := s.io.timerCancel } := hs.io _ rfl
  unfold checkReceivedBlock
  dsimp only
  split
  · refine sendNextAck_live (h.sendErrorMsg _ _ _) _ (.inr ?_)
    exact (Io.asyncSendDetached_tokens _ _ _).trans ht
  · exact .inl (endOperationWith_ended _ _)
  · exact .inl (endOperationWith_ended _ _)
  · exact sendNextAck_live h _ (.inr ht)
  · exact acceptBlock_live h ht _
  · exact .inl (endOperationWith_ended _ _)
  · exact sendNextAck_live h _ (.inr ht)
  · exact .inl (endOperation_ended _ _)

theorem start_live (hs : s.WellFormed) (ht : s.io.tokens = 0) :
    s.start.operationEnded = true ∨ s.start.io.Live := by
  cases hf : s.output.fail with
  | false =>
    rw [start_good s hf]
    split_ifs
    · exact sendNextAck_live hs _ (.inr ht)
    · exact .inr (.listen ht _ _)
  | true =>
    left
    unfold start
    rw [if_pos hf]
    dsimp only
    split_ifs
    · exact (After.sendNextAck _ _).ended (outputFileError_ended s)
    · exact (After.of_course (.startNextReceive _)).ended (outputFileError_ended s)

theorem handleReadTimeout_retry (hs : s.WellFormed) (he : s.operationEnded = false) {err : ErrorCode}
    (ha : err ≠ .operationAborted) (hl : ¬ s.LastExpiry) :
    s.handleReadTimeout err = { s with io := s.io.abortAll, timeoutcount := s.timeoutcount + 1 } := by
  have hopen : s.io.isOpen = true := by rw [hs.isOpen, he]; rfl
  unfold handleReadTimeout Io.cancel
  rw [if_neg ha, if_pos hopen]
  exact if_pos (UInt16.not_lt.1 hl)

theorem handleReadTimeout_last (hs : s.WellFormed) (he : s.operationEnded = false) {err : ErrorCode}
    (ha : err ≠ .operationAborted) (hl : s.LastExpiry) : (s.handleReadTimeout err).operationEnded = true := by
  have hopen : s.io.isOpen = true := by rw [hs.isOpen, he]; rfl
  unfold handleReadTimeout Io.cancel
  rw [if_neg ha, if_pos hopen]
  dsimp only
  rw [if_neg (UInt16.not_le.2 hl)]
  exact endOperation_ended _ _

end

/-- The receiver does one thing at a time, and always sets the timer. -/
theorem oneByOne : OneByOne proactor WellFormed operationEnded (fun _ => False) LastExpiry where
  io_setIo _ _ := rfl
  io_store _ _ _ := rfl
  ended_setIo _ _ := rfl
  wf_setIo _ io hs h := hs.io io h
  bare_setIo _ _ := Iff.rfl
  last_setIo _ _ := Iff.rfl
  wf_step _ _ _ hs h := hs.step h
  ended_step _ _ _ h := (step_after h).2
  started_step _ _ _ h := (step_after h).1
  start _ hs _ ht _ := start_live hs ht
  start_bare _ _ _ _ _ _ hb := hb.elim
  receive r err n s hs _ ht := by
    change (onReceive r err n s).operationEnded = true ∨ (onReceive r err n s).io.Live
    rw [onReceive_eq]
    exact checkReceivedBlock_live hs ht err n
  sent n s ht hn := by
    change (s.handleACKsent .success n).io.Live
    rw [handleACKsent, if_pos ⟨rfl, hn⟩]
    exact .listen ht _ _
  failed _ _ _ h := if_neg h
  cancelled s := by
    change s.handleReadTimeout .operationAborted = s
    unfold handleReadTimeout
    exact if_pos rfl
  expired err s hs he ha hl := by
    change (s.handleReadTimeout err).operationEnded = false ∧ (s.handleReadTimeout err).io = _
    rw [handleReadTimeout_retry hs he ha hl]
    exact ⟨he, rfl⟩
  expired_last _ _ hs he ha hl := handleReadTimeout_last hs he ha hl

/-- **When a receiver is never left waiting without a timeout.**  All states of a run are
    guarded exactly if no step handles a failed send, or has a late timer find no
    operation, with no other handler left to run. -/
theorem receiver_guarded_iff {s₀ : TftpReceiver} (h : Constructed s₀) (es : List (Event Endpoint)) :
    (∀ x ∈ lts.trace s₀ es, Guarded proactor operationEnded x.2.2) ↔
      ∀ x ∈ lts.trace s₀ es, ¬ Strands proactor operationEnded (fun _ => False) LastExpiry x.1 x.2.1 := by
  have hfresh : Stage proactor operationEnded s₀ := by
    cases h with
    | unknown => exact .fresh rfl rfl rfl rfl rfl
    | known => exact .fresh rfl rfl rfl rfl rfl
    | data1 =>
      unfold newConnectedData1
      dsimp only
      split_ifs <;> exact .fresh rfl rfl rfl rfl rfl
  exact oneByOne.guarded_iff h.wellFormed hfresh es

/-- A receiver that knows its peer sets the timer once ACK 0 is sent. -/
theorem receiver_guarded_ack0 :
    (lts.trace (newConnected {} {} ⟨1, 2⟩ 512 2) [.start, .sendCompletes .success, .runSend 0]).length = 3 ∧
    ∀ x ∈ lts.trace (newConnected {} {} ⟨1, 2⟩ 512 2) [.start, .sendCompletes .success, .runSend 0],
      Guarded proactor operationEnded x.2.2 := by
  refine ⟨rfl, (receiver_guarded_iff (.known false _ _ _ _) _).2 fun x hx => ?_⟩
  have htrace : ∃ s s' s'', x ∈ [(newConnected {} {} ⟨1, 2⟩ 512 2, .start, s),
      (s, .sendCompletes .success, s'), (s', .runSend 0, s'')] ∧
      s'.io.sent = [(.success, 4)] := ⟨_, _, _, hx, rfl⟩
  obtain ⟨s, s', s'', hx, hsent⟩ := htrace
  simp only [List.mem_cons, List.not_mem_nil, or_false] at hx
  rcases hx with rfl | rfl | rfl
  · exact id
  · exact id
  · rintro ⟨-, -, e, n, hx, hb⟩
    rw [show proactor.io s' = s'.io from rfl, hsent] at hx
    cases hx
    exact hb ⟨rfl, by decide⟩

/-- If the send of an ACK fails, nothing is started any more. -/
theorem receiver_left_waiting : ¬ ∀ s₀ es, Constructed s₀ →
    ∀ x ∈ lts.trace s₀ es, Guarded proactor operationEnded x.2.2 := by
  intro h
  have hlast : ∃ s s' : TftpReceiver, (s, .runSend 0, s') ∈ lts.trace (newConnected {} {} ⟨1, 2⟩ 512 2)
      [.start, .sendCompletes (.other 1), .runSend 0] ∧ s'.io.started = true ∧
      s'.operationEnded = false ∧ s'.io.received = [] ∧ s'.io.sent = [] ∧ s'.io.waited = [] ∧
      s'.io.tokens = 0 :=
    ⟨_, _, List.mem_cons_of_mem _ (List.mem_cons_of_mem _ (List.mem_singleton_self _)), rfl, rfl, rfl, rfl,
      rfl, rfl⟩
  obtain ⟨s, s', hx, h1, h2, h3, h4, h5, h6⟩ := hlast
  exact Io.not_watched h6 (h _ _ (.known false _ _ _ _) _ hx h1 h2 ⟨h3, h4, h5⟩)

end TftpReceiver

end Ttftp

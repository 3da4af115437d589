/-
  How much a server sends for what it receives.

  A transfer that hears nothing sends its message five times at most, and then an error; a
  datagram that it hears makes it send six more at most, because it starts the count again,
  or because its source is told with each retry that it is a stranger (`Tftpsender.meter`,
  `TftpReceiver.meter`).
-/
import Ttftp.Lib.Meter
import Ttftp.Proof.Correspondents
import Ttftp.Proof.Countdown
import Ttftp.Proof.Inbox
import Ttftp.Proof.Watch

namespace Ttftp

open Bytes Asio

/-- Every message costs one. -/
def each (_ : Bytes) : ℕ := 1

theorem spent_each (w : List (Endpoint × Bytes)) : Io.spent each w = w.length := by
  simp [Io.spent, each]

/-! ## The sender -/

namespace Tftpsender

def Within (s : Tftpsender) : Prop := s.timeoutcount.toNat ≤ 4

/-- The retries, each with an error for the stranger that has been heard last, and the error at the end. -/
def allowance (s : Tftpsender) : ℕ := (4 - s.timeoutcount.toNat) * (1 + s.wrongRemoteHost.toNat) + 1

/-- The expected ACK renews the allowance. -/
def share (datagram : Bool) (s : Tftpsender) : ℕ :=
  if datagram then if s.wrongRemoteHost then 2 else 5 else 1 + s.wrongRemoteHost.toNat

abbrev Affords (b : ℕ) (s s' : Tftpsender) : Prop :=
  Asio.Affords proactor Within operationEnded each allowance b s s'

section
variable {s : Tftpsender} {b : ℕ}

theorem one_le_share (datagram : Bool) (s : Tftpsender) : 1 ≤ share datagram s := by
  unfold share
  split_ifs <;> omega

theorem endOperationWith_sends (code : TftpUserFacingErrorCode) (s : Tftpsender) :
    s.io.Spends each 0 (s.endOperationWith code).io := by
  unfold endOperationWith
  split_ifs
  · exact .refl _ _ _
  · exact .close _

theorem fail_sends (c : UInt16) (m : Bytes) (e : Endpoint) (code : TftpUserFacingErrorCode) (s : Tftpsender) :
    s.io.Spends each 1 ((s.sendErrorMsg c m e).endOperationWith code).io := by
  have herror : s.io.Spends each 1 (s.sendErrorMsg c m e).io := .asyncSendDetached _ _ le_rfl
  exact herror.trans (endOperationWith_sends code _)

theorem sendNextBlock_sends (hs : s.WellFormed) : s.io.Spends each 1 s.sendNextBlock.io := by
  cases hf : s.seeked.fail with
  | false =>
    rw [sendNextBlock_good hs hf]
    exact .asyncSendTo _ _ le_rfl
  | true =>
    have hclosed : s.inputFileError.io.isOpen = false := by
      rw [hs.inputFileError.isOpen, inputFileError_ended]
      rfl
    have hend : s.io.Spends each 1 s.inputFileError.io := fail_sends _ _ _ _ { s with input := s.seeked }
    rw [sendNextBlock_bad hs hf]
    exact hend.trans (c := 0) (.of_closed (.asyncSendTo (b := 1) _ _ le_rfl) hclosed)

/-- The next block costs one, and leaves the count of timeouts as it is. -/
theorem sendNextBlock_keeps (hs : s.WellFormed) : s.sendNextBlock.operationEnded = true ∨
    s.sendNextBlock.timeoutcount = s.timeoutcount ∧ s.sendNextBlock.wrongRemoteHost = s.wrongRemoteHost := by
  cases hf : s.seeked.fail with
  | false =>
    rw [sendNextBlock_good hs hf]
    exact .inr ⟨rfl, rfl⟩
  | true =>
    rw [sendNextBlock_bad hs hf]
    exact .inl (inputFileError_ended s)

theorem allowance_congr {s' : Tftpsender} (ht : s'.timeoutcount = s.timeoutcount)
    (hw : s'.wrongRemoteHost = s.wrongRemoteHost) : s'.allowance = s.allowance := by
  rw [allowance, allowance, ht, hw]

/-- The block is sent after `a` messages, from a state with the same allowance, or a smaller one. -/
theorem Affords.block {t : Tftpsender} {a : ℕ} (ht : t.WellFormed) (hw : t.Within) (h : s.io.Spends each a t.io)
    (hb : a + 1 + t.allowance ≤ s.allowance + b) : Affords b s t.sendNextBlock := by
  have hspends := h.trans (sendNextBlock_sends ht)
  rcases sendNextBlock_keeps ht with he | ⟨hcount, hhost⟩
  · exact .of_ended he hspends (le_trans (Nat.le_add_right _ _) hb)
  · refine .of_le (fun _ => ?_) hspends (by rw [allowance_congr hcount hhost]; exact hb)
    rw [Within, hcount]
    exact hw

theorem ackBranch_stranger {err : ErrorCode} {n : ℕ} (h : s.ackBranch err n = .foreignHost) :
    s.wrongRemoteHost = true := by
  unfold ackBranch at h
  split_ifs at h with _ _ _ _ hhost
  exact hhost

theorem checkAckForLastBlock_affords (hs : s.WellFormed) (hw : s.Within) (err : ErrorCode) (n : ℕ) :
    Affords (share (decide (err = .success)) s) s (s.checkAckForLastBlock err n) := by
  obtain ⟨t, ht⟩ : ∃ t, t = { s with io := s.io.timerCancel } := ⟨_, rfl⟩
  have hwf : t.WellFormed := by rw [ht]; exact hs.io _ rfl
  have hst : s.io.Spends each 0 t.io := by rw [ht]; exact .of_eq rfl rfl rfl
  have hone := one_le_share (decide (err = .success)) s
  have hwithin : t.Within := by rw [ht]; exact hw
  have hallow : t.allowance = s.allowance := by rw [ht]; rfl
  have hbranch : t.ackBranch err n = s.ackBranch err n := by rw [ht]; rfl
  have hfail : ∀ c m e code, Affords (share (decide (err = .success)) s) s
      ((t.sendErrorMsg c m e).endOperationWith code) := fun c m e code =>
    .of_ended (endOperationWith_ended _ _) (hst.trans (fail_sends c m e code t)) (by omega)
  have hresend : Affords (share (decide (err = .success)) s) s t.sendNextBlock :=
    .block hwf hwithin hst (by omega)
  unfold Tftpsender.checkAckForLastBlock
  dsimp only
  rw [← ht]
  cases hb : t.ackBranch err n with
  | wrongOpcode => exact hfail _ _ _ _
  | olderAck => exact hresend
  | expectedAck =>
    obtain ⟨rfl, -, hhost, -⟩ := ackBranch_expectedAck hb
    have hsame : t.wrongRemoteHost = s.wrongRemoteHost := by rw [ht]; rfl
    have hshare : share (decide (ErrorCode.success = .success)) s = 5 := by simp [share, ← hsame, hhost]
    have hcount : t.countAck.timeoutcount = 0 := by unfold countAck; rfl
    have hspends : s.io.Spends each 0 t.countAck.io := by rw [countAck_io]; exact hst
    rw [hshare]
    unfold Tftpsender.acceptAck
    split_ifs
    · exact .of_ended (endOperation_ended _ _) (hspends.trans (endOperationWith_sends _ _)) (Nat.zero_le _)
    · -- the count of timeouts starts again
      have hnew : t.countAck.allowance = 5 := by
        obtain ⟨hc, hp⟩ := countAck_peer hhost
        have hlast : t.countAck.mLastReceivedReceiverEndpoint = t.mLastReceivedReceiverEndpoint := by
          unfold countAck onConnect
          split_ifs <;> rfl
        have hhost' : t.countAck.wrongRemoteHost = false := by
          rw [wrongRemoteHost, hp, hlast]
          simp
        rw [allowance, hcount, hhost']
        rfl
      refine .block hwf.countAck ?_ hspends ?_
      · rw [Within, hcount]
        exact Nat.zero_le 4
      · have hleft : 1 ≤ s.allowance := Nat.le_add_left _ _
        omega
  | futureAck => exact hfail _ _ _ _
  | foreignHost =>
    have hhost : s.wrongRemoteHost = true := ackBranch_stranger (hbranch.symm.trans hb)
    have hshare : 2 ≤ share (decide (err = .success)) s := by
      simp [share, hhost]
    refine .block (hwf.sendErrorMsg _ _ _) hwithin (hst.trans (c := 1) (.asyncSendDetached _ _ le_rfl)) ?_
    change 0 + 1 + 1 + t.allowance ≤ _
    omega
  | retry => exact hresend
  | fatal => exact .of_ended (endOperation_ended _ _) (hst.trans (endOperationWith_sends _ t)) (Nat.zero_le _)

/-- A retry uses up its part of the allowance. -/
theorem handleReadTimeout_pays (hw : s.Within) {err : ErrorCode} (hs : s.WellFormed)
    (he : s.operationEnded = false) (ha : err ≠ .operationAborted) (hl : ¬ s.LastExpiry) :
    (s.handleReadTimeout err).Within ∧ (s.handleReadTimeout err).allowance + share false s ≤ s.allowance := by
  have hsucc : (s.timeoutcount + 1).toNat = s.timeoutcount.toNat + 1 := by
    have h4 : s.timeoutcount.toNat ≤ 4 := hw
    rw [UInt16.toNat_add, UInt16.toNat_one, Nat.mod_eq_of_lt (by omega)]
  have hle : s.timeoutcount.toNat + 1 ≤ 4 := by
    rw [← hsucc]
    exact UInt16.le_iff_toNat_le.1 (UInt16.not_lt.1 hl)
  obtain ⟨k, hk⟩ : ∃ k, 4 - s.timeoutcount.toNat = k + 1 := ⟨3 - s.timeoutcount.toNat, by omega⟩
  have hk' : 4 - (s.timeoutcount.toNat + 1) = k := by omega
  rw [handleReadTimeout_retry hs he ha hl]
  refine ⟨by rw [Within, hsucc]; exact hle, ?_⟩
  change (4 - (s.timeoutcount + 1).toNat) * (1 + s.wrongRemoteHost.toNat) + 1 + (1 + s.wrongRemoteHost.toNat) ≤
    (4 - s.timeoutcount.toNat) * (1 + s.wrongRemoteHost.toNat) + 1
  rw [hsucc, hk', hk, Nat.succ_mul]
  omega

/-- The last timeout is reported to the peer. -/
theorem handleReadTimeout_sends (hs : s.WellFormed) (he : s.operationEnded = false) {err : ErrorCode}
    (ha : err ≠ .operationAborted) (hl : s.LastExpiry) :
    s.io.abortAll.Spends each s.allowance (s.handleReadTimeout err).io := by
  have hopen : s.io.isOpen = true := by rw [hs.isOpen, he]; rfl
  rw [handleReadTimeout, if_neg ha, Io.cancel, if_pos hopen]
  dsimp only
  rw [if_neg (UInt16.not_le.2 hl)]
  exact (fail_sends _ _ _ _ { s with io := s.io.abortAll, timeoutcount := s.timeoutcount + 1 }).mono
    (Nat.le_add_left _ _)

/-- A stranger's datagram is answered, and so is each of the retries after it. -/
theorem store_pays (src : Endpoint) (d : Bytes) (s : Tftpsender) :
    (s.store src d).allowance + share true (s.store src d) ≤ s.allowance + 6 := by
  have htime : (s.store src d).timeoutcount = s.timeoutcount := rfl
  have hle : 4 - s.timeoutcount.toNat ≤ 4 := Nat.sub_le _ _
  have hmul := Nat.mul_le_mul_left (4 - s.timeoutcount.toNat) (Nat.le_add_right 1 s.wrongRemoteHost.toNat)
  unfold allowance share
  rw [htime]
  cases (s.store src d).wrongRemoteHost with
  | false =>
    simp only [if_true, Bool.toNat_false, Nat.add_zero, Bool.false_eq_true, if_false]
    omega
  | true =>
    simp only [if_true, Bool.toNat_true]
    omega

/-- The first message. -/
theorem start_affords (hs : s.WellFormed) (hw : s.Within) : Affords 1 s s.start := by
  unfold start
  split_ifs
  · exact .of_ended (endOperationWith_ended _ _) (fail_sends _ _ _ _ s) (Nat.le_add_left _ _)
  · exact .block hs hw (.refl _ 0 _) (by omega)
  · exact .of_le (fun _ => hw) (.asyncReceiveFrom (b := 0) _ _) ((Nat.zero_add _).trans_le (Nat.le_add_right _ _))

/-- **The traffic of a sender**: a datagram makes it send six more at most, a failed receive two. -/
theorem meter : Meter proactor reporter WellFormed Within StartsUntimed LastExpiry each allowance share 6 2 where
  oneByOne := oneByOne
  handles := handles
  isOpen _ hs := hs.isOpen
  good_setIo _ _ hw := hw
  good_store _ _ _ hw := hw
  allowance_setIo _ _ := rfl
  share_setIo _ _ _ := rfl
  deliver s src d _ _ := store_pays src d s
  fails s := by
    change 1 + s.wrongRemoteHost.toNat ≤ 2
    have := Bool.toNat_le s.wrongRemoteHost
    omega
  receive r err n s hs hw _ := by
    change Affords _ s (onReceive r err n s)
    rw [onReceive_eq]
    exact checkAckForLastBlock_affords hs hw err n
  sent err n s _ hw _ := by
    change Affords 0 s (s.handleBlockSent err n)
    unfold handleBlockSent
    split_ifs
    · have hwait : s.io.Spends each 0 (s.io.expiresFromNow s.timeoutSeconds.toNat).asyncWait := .of_eq rfl rfl rfl
      exact .of_le (fun _ => hw) (hwait.trans (.asyncReceiveFrom (b := 0) _ _)) (Nat.zero_add _).le
    · exact .of_le (fun _ => hw) (.refl _ _ _) (Nat.zero_add _).le
  retry err s hs hw he ha hl := by
    obtain ⟨hw', hpaid⟩ := handleReadTimeout_pays hw hs he ha hl
    refine ⟨hw', hpaid, fun b => ?_⟩
    change share b (s.handleReadTimeout err) = share b s
    rw [handleReadTimeout_retry hs he ha hl]
    rfl
  giveUp _ _ hs _ he ha hl := handleReadTimeout_sends hs he ha hl

/-- A new sender sends six messages at most while nothing arrives. -/
theorem start_traffic (hs : s.WellFormed) (h0 : s.io.tokens = 0) (hst : s.io.started = true)
    (ht : s.timeoutcount = 0) (hhost : s.wrongRemoteHost = false) :
    Meter.Ready proactor reporter WellFormed Within s.start ∧ s.start.io.wire.length +
      Asio.reserve proactor operationEnded allowance share s.start ≤ s.io.wire.length + 6 := by
  have hw : s.Within := by rw [Within, ht]; exact Nat.zero_le 4
  have hallow : s.allowance = 5 := by rw [allowance, ht, hhost]; rfl
  obtain ⟨hready, hle⟩ := meter.started hs.start h0 hst (start_leaves s) (start_affords hs hw)
  rw [spent_each, spent_each, hallow] at hle
  exact ⟨hready, hle⟩

end

end Tftpsender

/-! ## The receiver -/

namespace TftpReceiver

def Within (s : TftpReceiver) : Prop := s.timeoutcount.toNat ≤ 4

/-- The retries, and the error at the end. -/
def allowance (s : TftpReceiver) : ℕ := 5 - s.timeoutcount.toNat

/-- The expected block renews the allowance. -/
def share (datagram : Bool) (_ : TftpReceiver) : ℕ := if datagram then 5 else 1

abbrev Affords (b : ℕ) (s s' : TftpReceiver) : Prop :=
  Asio.Affords proactor Within operationEnded each allowance b s s'

section
variable {s : TftpReceiver} {b : ℕ}

theorem endOperationWith_sends (code : TftpUserFacingErrorCode) (s : TftpReceiver) :
    s.io.Spends each 0 (s.endOperationWith code).io := by
  unfold endOperationWith
  split_ifs
  · exact .refl _ _ _
  · exact .close _

theorem fail_sends (c : UInt16) (m : Bytes) (e : Endpoint) (code : TftpUserFacingErrorCode) (s : TftpReceiver) :
    s.io.Spends each 1 ((s.sendErrorMsg c m e).endOperationWith code).io := by
  have herror : s.io.Spends each 1 (s.sendErrorMsg c m e).io := .asyncSendDetached _ _ le_rfl
  exact herror.trans (endOperationWith_sends code _)

theorem startNextReceive_sends (s : TftpReceiver) : s.io.Spends each 0 s.startNextReceive.io := by
  have hwait : s.io.Spends each 0 (s.io.expiresFromNow s.timeoutSeconds.toNat).asyncWait := .of_eq rfl rfl rfl
  exact hwait.trans (.asyncReceiveFrom (b := 0) _ _)

theorem sendNextAck_sends (l : Bool) (s : TftpReceiver) : s.io.Spends each 1 (s.sendNextAck l).io := by
  cases hc : s.isConnected with
  | false =>
    have hlisten : s.sendNextAck l = { s with lastsentack := ⟨s.lastreceiveddatacount⟩ }.startNextReceive := by
      simp [sendNextAck, hc]
    rw [hlisten]
    exact (startNextReceive_sends { s with lastsentack := ⟨s.lastreceiveddatacount⟩ }).mono (Nat.zero_le 1)
  | true =>
    cases l with
    | false =>
      rw [sendNextAck_false, if_pos hc]
      exact .asyncSendTo _ _ le_rfl
    | true =>
      rw [sendNextAck_true s hc]
      split_ifs with hopen
      · have hsend : s.io.Spends each 1 { s.io with
            wire := s.io.wire ++ [(s.mSenderEndpoint, AckMessage.encode ⟨s.lastreceiveddatacount⟩)] } := by
          refine ⟨⟨_, rfl, le_rfl, fun ho => ?_⟩, id, fun _ => rfl⟩
          rw [hopen] at ho
          cases ho
        exact hsend.trans (endOperationWith_sends _ { s with
          lastsentack := ⟨s.lastreceiveddatacount⟩
          io := { s.io with
            wire := s.io.wire ++ [(s.mSenderEndpoint, AckMessage.encode ⟨s.lastreceiveddatacount⟩)] } })
      · exact .refl _ _ _

theorem sendNextAck_timeoutcount (l : Bool) (s : TftpReceiver) :
    (s.sendNextAck l).timeoutcount = s.timeoutcount := by
  unfold sendNextAck
  dsimp only
  split_ifs
  · cases s.io.sendTo s.mSenderEndpoint (AckMessage.encode ⟨s.lastreceiveddatacount⟩) with
    | none => rfl
    | some io =>
      change (endOperationWith _ _).timeoutcount = _
      unfold endOperationWith
      split_ifs <;> rfl
  · rfl
  · rfl

/-- An unusable stream is reported instead of the ACK. -/
theorem acceptBlock_sends (hs : s.WellFormed) (n : ℕ) : s.io.Spends each 1 (s.acceptBlock n).io := by
  obtain ⟨t, ht⟩ : ∃ t, t = s.countBlock.writeBlock (s.receivedMsg n).2.mData := ⟨_, rfl⟩
  have hlast := sendNextAck_sends (decide (n ≠ s.blocksize + controlBytes)) t
  unfold acceptBlock
  rw [← countBlock_io s, ← ht]
  cases hf : s.countBlock.output.fail with
  | false =>
    rw [ht, writeBlock_good _ _ hf] at hlast ⊢
    exact hlast
  | true =>
    have hw : s.countBlock.io.Spends each 1 t.io := by
      rw [ht, writeBlock, if_pos hf]
      exact fail_sends _ _ _ _ s.countBlock
    have hclosed : t.io.isOpen = false := by
      rw [ht, (hs.countBlock.writeBlock _).isOpen, writeBlock, if_pos hf]
      simp
    exact hw.trans (c := 0) (hlast.of_closed hclosed)

theorem acceptBlock_timeoutcount (n : ℕ) (s : TftpReceiver) :
    (s.acceptBlock n).operationEnded = true ∨ (s.acceptBlock n).timeoutcount = 0 := by
  have hcount : s.countBlock.timeoutcount = 0 := rfl
  unfold acceptBlock
  cases hf : s.countBlock.output.fail with
  | false =>
    rw [sendNextAck_timeoutcount, writeBlock_good _ _ hf]
    exact .inr hcount
  | true =>
    refine .inl ((After.sendNextAck _ _).ended ?_)
    rw [writeBlock, if_pos hf]
    exact outputFileError_ended _

/-- A handler that leaves the count of timeouts as it is. -/
theorem Affords.same {s' : TftpReceiver} {c : ℕ} (hw : s.Within) (ht : s'.timeoutcount = s.timeoutcount)
    (h : s.io.Spends each c s'.io) (hc : c ≤ b) : Affords b s s' := by
  refine .of_le (fun _ => by rw [Within, ht]; exact hw) h ?_
  change c + (5 - s'.timeoutcount.toNat) ≤ 5 - s.timeoutcount.toNat + b
  rw [ht]
  omega

theorem blockBranch_stranger {err : ErrorCode} {n : ℕ} (h : s.blockBranch err n = .foreignHost) :
    err = .success := by
  unfold blockBranch at h
  split_ifs at h with herr
  exact herr

theorem checkReceivedBlock_affords (hs : s.WellFormed) (hw : s.Within) (err : ErrorCode) (n : ℕ) :
    Affords (share (decide (err = .success)) s) s (s.checkReceivedBlock err n) := by
  obtain ⟨t, ht⟩ : ∃ t, t = { s with io := s.io.timerCancel } := ⟨_, rfl⟩
  have hwf : t.WellFormed := by rw [ht]; exact hs.io _ rfl
  have hst : s.io.Spends each 0 t.io := by rw [ht]; exact .of_eq rfl rfl rfl
  have hcount : t.timeoutcount = s.timeoutcount := by rw [ht]
  have hleft : 1 ≤ s.allowance := by
    have h4 : s.timeoutcount.toNat ≤ 4 := hw
    change 1 ≤ 5 - s.timeoutcount.toNat
    omega
  have hfail : ∀ c m e code, Affords (share (decide (err = .success)) s) s
      ((t.sendErrorMsg c m e).endOperationWith code) := fun c m e code =>
    .of_ended (endOperationWith_ended _ _) (hst.trans (fail_sends c m e code t)) (by omega)
  have hone : 1 ≤ share (decide (err = .success)) s := by
    unfold share
    split_ifs <;> omega
  have hack : Affords (share (decide (err = .success)) s) s (t.sendNextAck false) :=
    .same hw ((sendNextAck_timeoutcount _ _).trans hcount) (hst.trans (sendNextAck_sends false t)) hone
  unfold TftpReceiver.checkReceivedBlock
  dsimp only
  rw [← ht]
  cases hb : t.blockBranch err n with
  | foreignHost =>
    obtain rfl := blockBranch_stranger hb
    have htold : ∀ c m e, Affords 5 s ((t.sendErrorMsg c m e).sendNextAck false) := fun c m e => by
      have herror : t.io.Spends each 1 (t.sendErrorMsg c m e).io := .asyncSendDetached _ _ le_rfl
      exact .same hw ((sendNextAck_timeoutcount _ _).trans hcount)
        ((hst.trans herror).trans (sendNextAck_sends _ _)) (by decide)
    exact htold _ _ _
  | tooLarge => exact hfail _ _ _ _
  | wrongOpcode => exact hfail _ _ _ _
  | olderBlock => exact hack
  | expectedBlock =>
    obtain ⟨rfl, -⟩ := blockBranch_expectedBlock hb
    have hspends := hst.trans (acceptBlock_sends hwf n)
    rcases acceptBlock_timeoutcount n t with he | htime
    · exact .of_ended he hspends (hleft.trans (Nat.le_add_right _ _))
    · refine .of_le (fun _ => ?_) hspends ?_
      · change (t.acceptBlock n).timeoutcount.toNat ≤ 4
        rw [htime]
        exact Nat.zero_le 4
      · change 1 + (5 - (t.acceptBlock n).timeoutcount.toNat) ≤ s.allowance + 5
        rw [htime]
        change 1 + 5 ≤ s.allowance + 5
        omega
  | futureBlock => exact hfail _ _ _ _
  | aborted => exact hack
  | fatal => exact .of_ended (endOperation_ended _ _) (hst.trans (endOperationWith_sends _ t)) (Nat.zero_le _)

theorem handleReadTimeout_sends (hs : s.WellFormed) (hw : s.Within) (he : s.operationEnded = false)
    {err : ErrorCode} (ha : err ≠ .operationAborted) (hl : s.LastExpiry) :
    s.io.abortAll.Spends each s.allowance (s.handleReadTimeout err).io := by
  have hopen : s.io.isOpen = true := by rw [hs.isOpen, he]; rfl
  have hleft : 1 ≤ s.allowance := by
    have h4 : s.timeoutcount.toNat ≤ 4 := hw
    change 1 ≤ 5 - s.timeoutcount.toNat
    omega
  rw [handleReadTimeout, if_neg ha, Io.cancel, if_pos hopen]
  dsimp only
  rw [if_neg (UInt16.not_le.2 hl)]
  exact (fail_sends _ _ _ _ { s with io := s.io.abortAll, timeoutcount := s.timeoutcount + 1 }).mono hleft

/-- The first ACK. -/
theorem start_affords (hs : s.WellFormed) (hw : s.Within) : Affords 1 s s.start := by
  cases hf : s.output.fail with
  | false =>
    rw [start_good s hf]
    split_ifs
    · exact .same hw (sendNextAck_timeoutcount _ _) (sendNextAck_sends _ _) le_rfl
    · exact .same hw rfl (startNextReceive_sends s) (Nat.zero_le 1)
  | true =>
    have hclosed : s.outputFileError.io.isOpen = false := by
      rw [hs.outputFileError.isOpen, outputFileError_ended]
      rfl
    have hfail : s.io.Spends each 1 s.outputFileError.io := fail_sends _ _ _ _ s
    unfold start
    rw [if_pos hf]
    dsimp only
    split_ifs
    · exact .of_ended ((After.sendNextAck _ _).ended (outputFileError_ended s))
        (hfail.trans (c := 0) ((sendNextAck_sends _ _).of_closed hclosed)) (Nat.le_add_left _ _)
    · exact .of_ended ((After.of_course (.startNextReceive _)).ended (outputFileError_ended s))
        (hfail.trans (startNextReceive_sends _)) (Nat.le_add_left _ _)

/-- **The traffic of a receiver**: a datagram makes it send five more at most, a failed receive one. -/
theorem meter :
    Meter proactor reporter WellFormed Within (fun _ => False) LastExpiry each allowance share 5 1 where
  oneByOne := oneByOne
  handles := handles
  isOpen _ hs := hs.isOpen
  good_setIo _ _ hw := hw
  good_store _ _ _ hw := hw
  allowance_setIo _ _ := rfl
  share_setIo _ _ _ := rfl
  deliver _ _ _ _ _ := le_rfl
  fails _ := le_rfl
  receive r err n s hs hw _ := by
    change Affords _ s (onReceive r err n s)
    rw [onReceive_eq]
    exact checkReceivedBlock_affords hs hw err n
  sent err n s _ hw _ := by
    change Affords 0 s (s.handleACKsent err n)
    unfold handleACKsent
    split_ifs
    · exact .same hw rfl (startNextReceive_sends s) le_rfl
    · exact .same hw rfl (.refl _ _ _) le_rfl
  retry err s hs hw he ha hl := by
    have hsucc : (s.timeoutcount + 1).toNat = s.timeoutcount.toNat + 1 := toNat_timeoutcount_add_one hw
    have hle : s.timeoutcount.toNat + 1 ≤ 4 := by
      rw [← hsucc]
      exact UInt16.le_iff_toNat_le.1 (UInt16.not_lt.1 hl)
    change (s.handleReadTimeout err).Within ∧ 5 - (s.handleReadTimeout err).timeoutcount.toNat + 1 ≤
      5 - s.timeoutcount.toNat ∧ ∀ b, share b (s.handleReadTimeout err) = share b s
    rw [handleReadTimeout_retry hs he ha hl]
    refine ⟨?_, ?_, fun _ => rfl⟩
    · change (s.timeoutcount + 1).toNat ≤ 4
      rw [hsucc]
      exact hle
    · change 5 - (s.timeoutcount + 1).toNat + 1 ≤ _
      rw [hsucc]
      omega
  giveUp _ _ hs hw he ha hl := handleReadTimeout_sends hs hw he ha hl

/-- A new receiver sends six messages at most while nothing arrives. -/
theorem start_traffic (hs : s.WellFormed) (h0 : s.io.tokens = 0) (hst : s.io.started = true)
    (ht : s.timeoutcount = 0) : Meter.Ready proactor reporter WellFormed Within s.start ∧
      s.start.io.wire.length + Asio.reserve proactor operationEnded allowance share s.start ≤
        s.io.wire.length + 6 := by
  have hw : s.Within := by rw [Within, ht]; exact Nat.zero_le 4
  have hallow : s.allowance = 5 := by rw [allowance, ht]; rfl
  obtain ⟨hready, hle⟩ := meter.started hs.start h0 hst (start_leaves s) (start_affords hs hw)
  rw [spent_each, spent_each, hallow] at hle
  exact ⟨hready, hle⟩

end

end TftpReceiver

/-! ## Sessions -/

namespace Session

/-- What a transfer may send without being sent anything more. -/
def reserve : Session → ℕ
  | sender s => Asio.reserve Tftpsender.proactor Tftpsender.operationEnded Tftpsender.allowance Tftpsender.share s
  | receiver r =>
    Asio.reserve TftpReceiver.proactor TftpReceiver.operationEnded TftpReceiver.allowance TftpReceiver.share r

def Ready : Session → Prop
  | sender s => Meter.Ready Tftpsender.proactor Tftpsender.reporter Tftpsender.WellFormed Tftpsender.Within s
  | receiver r =>
    Meter.Ready TftpReceiver.proactor TftpReceiver.reporter TftpReceiver.WellFormed TftpReceiver.Within r

/-- A datagram at the socket of a transfer makes it send six more at most. -/
theorem step_traffic {x x' : Session} {e : Event Endpoint} (h : x.Ready) (hs : x.step e = some x') :
    x'.Ready ∧ x'.wire.length + x'.reserve ≤ x.wire.length + x.reserve + e.brings 6 2 := by
  cases x with
  | sender s =>
    obtain ⟨s', hs', rfl⟩ := Option.map_eq_some_iff.1 hs
    obtain ⟨hready, hle⟩ := Tftpsender.meter.step h hs'
    rw [spent_each, spent_each] at hle
    exact ⟨hready, hle⟩
  | receiver r =>
    obtain ⟨r', hr, rfl⟩ := Option.map_eq_some_iff.1 hs
    obtain ⟨hready, hle⟩ := TftpReceiver.meter.step h hr
    rw [spent_each, spent_each] at hle
    refine ⟨hready, hle.trans (Nat.add_le_add_left ?_ _)⟩
    cases e with
    | deliver _ _ => exact (by decide : 5 ≤ 6)
    | receiveFails _ => exact (by decide : 1 ≤ 2)
    | _ => exact le_rfl

/-- A change of the file costs nothing. -/
theorem Ready.rewrite {x : Session} (h : x.Ready) (content : Bytes) : (x.rewrite content).Ready := by
  cases x with
  | sender s => exact ⟨WellFormed.rewrite (x := .sender s) h.wf content, h.started, h.good, h.tokens⟩
  | receiver r => exact h

theorem wire_rewrite (x : Session) (content : Bytes) : (x.rewrite content).wire = x.wire := by
  cases x <;> rfl

theorem reserve_rewrite (x : Session) (content : Bytes) : (x.rewrite content).reserve = x.reserve := by
  cases x <;> rfl

end Session

def SessionEvent.brings : SessionEvent → ℕ
  | .socket e => e.brings 6 2
  | .rewritten _ => 0

theorem Session.ownStep_traffic {x x' : Session} {e : SessionEvent} (h : x.Ready) (hs : x.ownStep e = some x') :
    x'.Ready ∧ x'.wire.length + x'.reserve ≤ x.wire.length + x.reserve + e.brings := by
  cases e with
  | socket e => exact step_traffic h hs
  | rewritten content =>
    obtain ⟨-, hs⟩ := Option.ite_none_left_eq_some.1 hs
    obtain rfl := Option.some.inj hs
    rw [wire_rewrite, reserve_rewrite]
    exact ⟨h.rewrite content, le_rfl⟩

namespace TftpServer

/-- A transfer that has been started sends six messages at most while nothing arrives. -/
theorem sessionOf_traffic (request : RequestMessage) (p : SessionParams) (client : Endpoint) (s : TftpServer) :
    (s.sessionOf request p client).Ready ∧
      (s.sessionOf request p client).wire.length + (s.sessionOf request p client).reserve ≤ p.sent.length + 6 := by
  unfold sessionOf
  split_ifs
  · refine Tftpsender.start_traffic (Tftpsender.newConnected_wellFormed rfl _ _ _ _ _) rfl rfl rfl ?_
    simp [Tftpsender.wrongRemoteHost, Tftpsender.newConnected, Tftpsender.onConnect, Tftpsender.new]
  · exact TftpReceiver.start_traffic ⟨rfl, List.length_replicate⟩ rfl rfl rfl

/-- A request is not refused twice. -/
theorem refusals_of_request {past : Bytes} {n : ℕ} {s : TftpServer}
    (h : (s.received past n).2.isRRQ ∨ (s.received past n).2.isWRQ) : (s.refusals past n).length ≤ 1 := by
  have hn : ¬ n < 2 := by
    intro hn
    have hshort : (s.buffer.take n).length < opcodeLength + 2 := by
      rw [List.length_take]
      exact (min_le_left _ _).trans_lt (hn.trans (by decide))
    unfold received RequestMessage.decode at h
    dsimp only at h
    rw [if_pos hshort] at h
    simp [RequestMessage.isRRQ, RequestMessage.isWRQ] at h
  unfold refusals
  rw [if_neg hn]
  split_ifs <;> simp

theorem refusals_le (past : Bytes) (n : ℕ) (s : TftpServer) : (s.refusals past n).length ≤ 2 := by
  unfold refusals
  split_ifs <;> simp

/-- The datagrams that have been sent, from all sockets. -/
def traffic (s : TftpServer) : ℕ := s.io.wire.length + (s.sessions.map fun x => x.wire.length).sum

/-- What has been sent, and what may still be sent if nothing arrives any more. -/
def forecast (s : TftpServer) : ℕ :=
  s.io.wire.length + 8 * s.io.arrivals.length + (s.sessions.map fun x => x.wire.length + x.reserve).sum

theorem traffic_le_forecast (s : TftpServer) : s.traffic ≤ s.forecast := by
  have hsum : (s.sessions.map fun x => x.wire.length).sum ≤
      (s.sessions.map fun x => x.wire.length + x.reserve).sum :=
    List.sum_le_sum fun x _ => Nat.le_add_right _ _
  unfold traffic forecast
  omega

theorem paramsOf_sent_le (respond : TransactionOptionValues → TransactionOptionValues)
    (values : TransactionOptionValues) (client : Endpoint) : (paramsOf respond values client).sent.length ≤ 1 := by
  unfold paramsOf
  split_ifs
  · exact le_rfl
  · exact Nat.zero_le 1

/-- **The traffic of a request.** -/
theorem Handles.traffic {past : Bytes} {n : ℕ} {s s' : TftpServer} (h : Handles past n s s')
    (harr : s.io.arrivals = []) (hr : ∀ x ∈ s.sessions, x.Ready) :
    (∀ x ∈ s'.sessions, x.Ready) ∧ s'.forecast ≤ s.forecast + 8 := by
  have hgrows := h.grows.2.2
  -- the sessions from before, and perhaps one more
  have hkeep : ∀ {t : TftpServer}, t.io.arrivals = [] → t.sessions = s.sessions →
      t.io.wire.length ≤ s.io.wire.length + 8 → (∀ x ∈ t.sessions, x.Ready) ∧ t.forecast ≤ s.forecast + 8 := by
    intro t ha hsess hwire
    refine ⟨fun x hx => hr x (hsess ▸ hx), ?_⟩
    unfold forecast
    rw [ha, harr, hsess]
    omega
  have hmore : ∀ {t : TftpServer} {request : RequestMessage} {p : SessionParams} {client : Endpoint} {k : ℕ},
      t.io.arrivals = [] → t.sessions = s.sessions ++ [s.sessionOf request p client] →
        t.io.wire.length ≤ s.io.wire.length + k → k + p.sent.length ≤ 2 →
          (∀ x ∈ t.sessions, x.Ready) ∧ t.forecast ≤ s.forecast + 8 := by
    intro t request p client k ha hsess hwire hk
    obtain ⟨hready, hle⟩ := sessionOf_traffic request p client s
    refine ⟨fun x hx => ?_, ?_⟩
    · rw [hsess] at hx
      rcases List.mem_append.1 hx with hx | hx
      · exact hr x hx
      · rw [List.mem_singleton.1 hx]
        exact hready
    · unfold forecast
      rw [ha, harr, hsess, List.map_append, List.sum_append, List.map_singleton, List.sum_singleton]
      omega
  have harr' := hgrows.trans harr
  have hwire : ∀ k, (s.refusals past n).length ≤ k → (s.refuse past n).io.wire.length ≤ s.io.wire.length + k := by
    intro k hk
    change (s.io.wire ++ (s.refusals past n).map fun d => (s.currAccEndpoint, d)).length ≤ _
    rw [List.length_append, List.length_map]
    omega
  cases h with
  | ignored _ =>
    refine hkeep harr' rfl (le_trans ?_ (hwire 8 ((refusals_le past n s).trans (by decide))))
    exact (congrArg List.length (Io.asyncReceiveFrom_wire _ _)).le
  | thrown _ _ => exact hkeep harr' rfl (hwire 8 ((refusals_le past n s).trans (by decide)))
  | invalid hreq _ =>
    have hrefused := hwire 1 (refusals_of_request hreq)
    refine hmore (k := 2) harr' rfl ?_ (by decide)
    change (((s.refuse past n).io.asyncSendDetached s.currAccEndpoint optionsError).asyncReceiveFrom ()).wire.length ≤ _
    rw [Io.asyncReceiveFrom_wire, Io.asyncSendDetached_wire, List.length_append]
    split_ifs
    · rw [List.length_singleton]
      omega
    · rw [List.length_nil]
      omega
  | @valid values hreq _ =>
    have hrefused := hwire 1 (refusals_of_request hreq)
    have hsent := paramsOf_sent_le (s.respond (s.received past n).2) values s.currAccEndpoint
    refine hmore (k := 1) harr' rfl ?_ (by omega)
    exact (congrArg List.length (Io.asyncReceiveFrom_wire _ _)).le.trans hrefused

end TftpServer

/-- How many datagrams an event makes the server send at most, then or later. -/
def ServerEvent.answers : ServerEvent → ℕ
  | .listen _ (.deliver _ _) => 8
  | .session _ (.deliver _ _) => 6
  | .session _ (.receiveFails _) => 2
  | _ => 0

def HostEvent.answers : HostEvent → ℕ
  | .server e => e.answers
  | _ => 0

namespace TftpServer
variable {os : OperatingSystem} {root : Bytes}

/-- A server whose sessions send no more than they are paid for. -/
structure Thrifty (s : TftpServer) : Prop where
  inv : s.Inv
  sessions : ∀ x ∈ s.sessions, x.Ready

theorem Thrifty.step {s s' : TftpServer} (h : s.Thrifty) {e : ServerEvent} (hs : s.step e = some s') :
    s'.Thrifty ∧ s'.forecast ≤ s.forecast + e.answers := by
  have hinv := h.inv.step hs
  cases e with
  | session n e =>
    obtain ⟨-, hs⟩ := Option.ite_none_left_eq_some.1 hs
    obtain ⟨x, hx, hs⟩ := Option.bind_eq_some_iff.1 hs
    obtain ⟨x', hx', rfl⟩ := Option.map_eq_some_iff.1 hs
    obtain ⟨hready, hle⟩ := Session.step_traffic (h.sessions x (List.mem_of_getElem? hx)) hx'
    refine ⟨⟨hinv, fun y hy => ?_⟩, ?_⟩
    · rcases List.mem_or_eq_of_mem_set hy with hy | rfl
      · exact h.sessions y hy
      · exact hready
    · have hsum := sum_map_set (fun x : Session => x.wire.length + x.reserve) hx x'
      have hworth : e.brings 6 2 = ServerEvent.answers (.session n e) := by cases e <;> rfl
      rw [← hworth]
      change s.io.wire.length + 8 * s.io.arrivals.length +
        ((s.sessions.set n x').map fun x => x.wire.length + x.reserve).sum ≤ s.forecast + e.brings 6 2
      unfold forecast
      omega
  | listen past e =>
    -- only datagrams and their handlers make a difference
    have hkeep : ∀ {t : TftpServer}, t.Inv → t.io.wire = s.io.wire → t.io.arrivals.length ≤ s.io.arrivals.length →
        t.sessions = s.sessions → t.Thrifty ∧ t.forecast ≤ s.forecast := by
      intro t ht hw ha hsess
      refine ⟨⟨ht, fun x hx => h.sessions x (hsess ▸ hx)⟩, ?_⟩
      unfold forecast
      rw [hw, hsess]
      omega
    have hle : ∀ {t : TftpServer} {b : ℕ}, t.Thrifty ∧ t.forecast ≤ s.forecast →
        t.Thrifty ∧ t.forecast ≤ s.forecast + b :=
      fun ht => ⟨ht.1, ht.2.trans (Nat.le_add_right _ _)⟩
    obtain ⟨-, hstep⟩ := Proactor.step_cases hs
    clear hs
    cases hstep with
    | start hst => exact absurd h.inv.started (by rw [show s.io.started = false from hst]; decide)
    | @deliver src d r rs hr =>
      refine ⟨⟨hinv, h.sessions⟩, ?_⟩
      have harr : ((s.io.received ++ [(r, ErrorCode.success, min d.length s.buffer.length)]).filter
          (·.2.1 = .success)).length = s.io.arrivals.length + 1 := by
        rw [List.filter_append, List.length_append]
        rfl
      change s.io.wire.length + 8 * (List.filter _ (s.io.received ++ [(r, _, min d.length s.buffer.length)])).length +
        (s.sessions.map fun x => x.wire.length + x.reserve).sum ≤ s.forecast + 8
      rw [harr]
      unfold forecast
      omega
    | @receiveFails err r rs hr hne =>
      refine hle (hkeep hinv rfl ?_ rfl)
      change (List.filter _ (s.io.received ++ [(r, err, 0)])).length ≤ _
      rw [List.filter_append, List.filter_cons_of_neg (by simpa using hne), List.filter_nil, List.append_nil]
      exact le_rfl
    | sendCompletes _ => exact hle (hkeep hinv rfl le_rfl rfl)
    | expire _ => exact hle (hkeep hinv rfl le_rfl rfl)
    | @runReceive i r err n hx =>
      obtain ⟨t, ht⟩ : ∃ t, t = { s with io := { s.io with received := s.io.received.eraseIdx i } } := ⟨_, rfl⟩
      have harr : t.io.arrivals = [] := by
        rw [ht]
        exact Io.arrivals_eq_nil (Io.tokens_eraseIdx_received hx h.inv.tokens).2
      have hready : ∀ x ∈ t.sessions, x.Ready := by
        rw [ht]
        exact h.sessions
      have hfore : t.forecast + 8 * s.io.arrivals.length = s.forecast := by
        rw [forecast, harr, ht]
        change s.io.wire.length + 8 * 0 + (s.sessions.map fun x => x.wire.length + x.reserve).sum +
          8 * s.io.arrivals.length = s.forecast
        unfold forecast
        omega
      change Thrifty (handleRequest past err n _) ∧ forecast (handleRequest past err n _) ≤ _ + 0
      change Inv (handleRequest past err n _) at hinv
      simp only [show (proactor past).setIo { (proactor past).io s with
        received := ((proactor past).io s).received.eraseIdx i } s = t from ht.symm] at hinv ⊢
      by_cases herr : err = .success
      · subst herr
        have hopen : t.io.isOpen = true := by
          rw [ht]
          exact h.inv.isOpen
        have hmem : (r, ErrorCode.success, n) ∈ s.io.arrivals := Io.mem_arrivals.2 (List.mem_of_getElem? hx)
        have hpos := List.length_pos_of_mem hmem
        obtain ⟨hready', hle'⟩ := (handles past n hopen).traffic harr hready
        exact ⟨⟨hinv, hready'⟩, by omega⟩
      · rw [handleRequest, if_neg herr] at hinv ⊢
        exact ⟨⟨hinv, hready⟩, by omega⟩
    | runSend _ => exact hle (hkeep hinv rfl le_rfl rfl)
    | runTimer _ => exact hle (hkeep hinv rfl le_rfl rfl)

theorem Thrifty.hostStep {s s' : TftpServer} (h : s.Thrifty) {e : HostEvent} (hs : s.hostStep e = some s') :
    s'.Thrifty ∧ s'.forecast ≤ s.forecast + e.answers := by
  cases (hostStep_cases hs).2 with
  | server he => exact h.step he
  | changes os => exact ⟨⟨(HostStep.changes os).inv h.inv, h.sessions⟩, le_rfl⟩
  | @rewritten n x hx content =>
    refine ⟨⟨(HostStep.rewritten hx content).inv h.inv, fun y hy => ?_⟩, ?_⟩
    · rcases List.mem_or_eq_of_mem_set hy with hy | rfl
      · exact h.sessions y hy
      · exact (h.sessions x (List.mem_of_getElem? hx)).rewrite content
    · have hsum := sum_map_set (fun x : Session => x.wire.length + x.reserve) hx (x.rewrite content)
      rw [Session.wire_rewrite, Session.reserve_rewrite] at hsum
      change s.io.wire.length + 8 * s.io.arrivals.length +
        ((s.sessions.set n (x.rewrite content)).map fun x => x.wire.length + x.reserve).sum ≤ s.forecast + 0
      unfold forecast
      omega

/-- **A server is no amplifier.**  Over any run, whoever sends what to which of its sockets, and
    whatever its timers and its files do, a server sends at most eight datagrams for each one
    that arrives at its listening socket, six for each one at a session, and two for each
    receive of a session that fails. -/
theorem traffic_bounded {es : List HostEvent} {s : TftpServer}
    (h : (system os root).run (new os root) es = some s) : s.traffic ≤ (es.map HostEvent.answers).sum := by
  have hnew : (TftpServer.new os root).Thrifty :=
    ⟨@reach_inv os root _ (.init rfl), fun x hx => by cases hx⟩
  have hzero : (TftpServer.new os root).forecast = 0 := rfl
  have hrun := Lts.run_potential (fun s e s' hs hstep => hs.hostStep hstep) hnew h
  rw [hzero, Nat.zero_add] at hrun
  exact (traffic_le_forecast s).trans hrun

/-- A timeout, and the handlers of what it aborts. -/
def timeoutRound : List (Event Endpoint) :=
  [.sendCompletes .success, .runSend 0, .expire, .runTimer 0, .runReceive 0]

/-- A client that is not heard of after its request. -/
def vanished (request : Bytes) : List HostEvent :=
  [.server (.listen [] (.deliver ⟨1, 1⟩ request)), .server (.listen [] (.runReceive 0))] ++
    (List.replicate 5 timeoutRound).flatten.map fun e => .server (.session 0 e)

/-- A request to upload with a block size, as an option of its own. -/
def smallBlocks : Bytes :=
  [0, 2, 102, 0, 111, 99, 116, 101, 116, 0] ++ ascii "blksize" ++ [0] ++ ascii "8" ++ [0]

/-- A further option has no value: the client is told twice, and served. -/
theorem traffic_bounded_valueless : ∃ s,
    (system oneFile slash).run (new oneFile slash) (vanished (smallBlocks ++ ascii "tsize" ++ [0])) = some s ∧
      s.traffic = 8 ∧ s.traffic ≤ ((vanished (smallBlocks ++ ascii "tsize" ++ [0])).map HostEvent.answers).sum := by
  have hlook : ((system oneFile slash).run (new oneFile slash)
      (vanished (smallBlocks ++ ascii "tsize" ++ [0]))).map traffic = some 8 := by decide +kernel
  obtain ⟨s, hs, hsent⟩ := Option.map_eq_some_iff.1 hlook
  exact ⟨s, hs, hsent, traffic_bounded hs⟩

/-- What a session has been started with is a message at most. -/
theorem StartsFor.traffic {past : Bytes} {src : Endpoint} {d : Bytes} {x : Session}
    (h : StartsFor os root past src d x) : x.Ready ∧ x.wire.length + x.reserve ≤ 7 := by
  obtain ⟨-, p, rfl, hp⟩ := h
  have hsent : p.sent.length ≤ 1 := by
    rcases hp with ⟨-, rfl⟩ | ⟨values, -, rfl⟩
    · exact Nat.zero_le 1
    · exact paramsOf_sent_le _ _ _
  obtain ⟨hready, hle⟩ := sessionOf_traffic (request past d).2 p src (TftpServer.new os root)
  exact ⟨hready, by omega⟩

/-- **What a transfer sends.**  Over any run of a server, each of its transfers sends seven
    datagrams at most, and six more for each one that arrives at its own socket, two for each
    of its receives that fails; what happens at the other sockets makes no difference. -/
theorem session_traffic_bounded {es : List HostEvent} {s : TftpServer}
    (h : (system os root).run (new os root) es = some s) {n : ℕ} {x : Session} (hx : s.sessions[n]? = some x) :
    x.wire.length ≤ 7 + ((HostEvent.own n es).map SessionEvent.brings).sum := by
  obtain ⟨es₁, es₂, src, d, x₀, rfl, ho⟩ := session_origin h hx
  have hrun := ho.run_all
  obtain ⟨past, i, es', -, hstart⟩ := ho.handled
  obtain ⟨hready, hfirst⟩ := hstart.traffic
  have hle := Lts.run_potential (fun x e x' => Session.ownStep_traffic) hready hrun
  omega

/-- The OACK, the first ACK, its copies and the error. -/
theorem session_traffic_bounded_vanished : ∃ s x,
    (system oneFile slash).run (new oneFile slash) (vanished smallBlocks) = some s ∧ s.sessions[0]? = some x ∧
      x.wire.length = 7 ∧
        x.wire.length ≤ 7 + ((HostEvent.own 0 (vanished smallBlocks)).map SessionEvent.brings).sum := by
  have hlook : (((system oneFile slash).run (new oneFile slash) (vanished smallBlocks)).bind
      (fun s => s.sessions[0]?)).map (fun x => x.wire.length) = some 7 := by decide +kernel
  obtain ⟨x, hx, hsent⟩ := Option.map_eq_some_iff.1 hlook
  obtain ⟨s, hs, hx⟩ := Option.bind_eq_some_iff.1 hx
  exact ⟨s, x, hs, hx, hsent, session_traffic_bounded hs hx⟩

end TftpServer

end Ttftp

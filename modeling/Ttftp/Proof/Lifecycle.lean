/-
  The finish callback of a client (`reports_once`).

  It is called by the handler of the answer or by the session, never by both: the handler
  runs once, as there is one receive, and where it starts a session it does not report.
-/
import Ttftp.Proof.Call
import Ttftp.Proof.Registry

namespace Ttftp

open Bytes Asio

/-- What has been reported stays reported. -/
theorem CallsBack.prefix_codes {x y : Bool × List TftpUserFacingErrorCode} (h : CallsBack x y) : x.2 <+: y.2 := by
  cases h with
  | goesOn => exact List.prefix_rfl
  | ends codes code => exact List.prefix_append _ _

namespace TftpClient

/-- A client on its own. -/
def system (c₀ : TftpClient) : Lts TftpClient ClientEvent where
  init c := c = c₀
  step := step

/-! ## Handlers -/

section
variable (past d : Bytes) (err : ErrorCode) (n : ℕ) (c : TftpClient)

/-- The handler of the answer reports at most one code. -/
theorem handleAnswer_callbacks : ∃ codes : List TftpUserFacingErrorCode, codes.length ≤ 1 ∧
    (c.handleAnswer past err n).callbacks = c.callbacks ++ codes := by
  have hnone : ∃ codes : List TftpUserFacingErrorCode, codes.length ≤ 1 ∧ c.callbacks = c.callbacks ++ codes :=
    ⟨[], Nat.zero_le _, (List.append_nil _).symm⟩
  have hone : ∀ code, ∃ codes : List TftpUserFacingErrorCode, codes.length ≤ 1 ∧
      c.callbacks ++ [code] = c.callbacks ++ codes := fun code => ⟨[code], le_rfl, rfl⟩
  unfold handleAnswer
  dsimp only
  split_ifs
  · unfold handleOack
    split
    · exact hnone
    · split_ifs
      · unfold acceptOack_RRQ
        split
        · exact hnone
        · split
          · exact hnone
          · split_ifs <;> exact hnone
      · unfold acceptOack_WRQ
        split_ifs <;> exact hnone
    · exact hone _
  · unfold handleOther
    dsimp only
    split_ifs
    · exact hnone
    · exact hnone
    · exact hone _
    · exact hnone
    · exact hone _
  · exact hone _

variable {past d c}

/-- A session may end in its own start. -/
theorem Opens.reported {x : Session} (h : Opens past d c x) : CallsBack (false, []) x.reports := by
  cases h with
  | @oackRead _ v _ _ _ =>
    exact .of_reported (TftpReceiver.Course.start (TftpReceiver.newConnected c.sock (c.os.output c.filepath)
      c.mServerEndpoint (v.mBlocksize.getD defaultBlocksize) (v.mTimeout.getD retransmissionTime))).reported
  | @oackWrite _ v _ _ _ =>
    exact .of_reported (Tftpsender.Course.start (Tftpsender.newConnected c.sock
      (IStream.ofFile (c.os.content c.filepath)) c.mServerEndpoint 1 (v.mBlocksize.getD defaultBlocksize)
      (v.mTimeout.getD retransmissionTime))).reported
  | ack _ _ =>
    exact .of_reported (Tftpsender.Course.start (Tftpsender.newConnected c.sock
      (IStream.ofFile (c.os.content c.filepath)) c.mServerEndpoint 1 defaultBlocksize retransmissionTime)).reported
  | @data msg _ _ hf =>
    have h := CallsBack.of_reported (TftpReceiver.Course.start (TftpReceiver.newConnectedData1 c.sock
      (c.os.output c.filepath) c.mServerEndpoint msg defaultBlocksize retransmissionTime)).reported
    have hnew : ((TftpReceiver.newConnectedData1 c.sock (c.os.output c.filepath) c.mServerEndpoint msg
        defaultBlocksize retransmissionTime).operationEnded, (TftpReceiver.newConnectedData1 c.sock
        (c.os.output c.filepath) c.mServerEndpoint msg defaultBlocksize retransmissionTime).callbacks) =
        (false, []) := by
      unfold TftpReceiver.newConnectedData1
      dsimp only
      split_ifs <;> rfl
    rw [← hnew]
    exact h

end

theorem release_callbacks (c : TftpClient) : c.release.callbacks = c.callbacks := by
  unfold release
  split_ifs <;> rfl

theorem onOackTimeout_callbacks (err : ErrorCode) (c : TftpClient) :
    (c.onOackTimeout err).callbacks = c.callbacks := by
  unfold onOackTimeout Io.cancel
  split_ifs <;> rfl

/-! ## The life of a client -/

/-- Before the answer nothing is reported; then the client has reported a code, or has a session
    that reports when it ends. -/
inductive Stands (c : TftpClient) : Prop
  | waits : c.session = none → c.callbacks = [] → c.io.started = true → c.io.tokens ≤ 1 → Stands c
  | declined : c.session = none → c.callbacks.length ≤ 1 → c.io.started = true → c.io.tokens = 0 → Stands c
  | runs {x : Session} : c.session = some x → c.callbacks = [] → c.io.started = true → c.io.tokens = 0 →
      x.callbacks.length = x.operationEnded.toNat → Stands c

namespace Stands
variable {c c' : TftpClient}

theorem length_reports (h : c.Stands) : c.reports.length ≤ 1 := by
  cases h with
  | waits hs hc _ _ => simp [reports, hs, hc]
  | declined hs hc _ _ => simpa [reports, hs] using hc
  | @runs x hs hc _ _ hx =>
    have hreports : c.reports = x.callbacks := by simp [reports, hs, hc]
    rw [hreports, hx]
    cases x.operationEnded <;> decide

theorem callbacks_or_session (h : c.Stands) : c.callbacks = [] ∨ c.session = none := by
  cases h with
  | waits hs hc _ _ => exact .inr hs
  | declined hs hc _ _ => exact .inr hs
  | runs hs hc _ _ _ => exact .inl hc

/-- The session takes a step. -/
theorem session {x x' : Session} {e : Event Endpoint} (h : c.Stands) (hx : c.session = some x)
    (hx' : x.step e = some x') :
    Stands { c with session := some x' } ∧ c.reports <+: reports { c with session := some x' } := by
  obtain ⟨-, hback⟩ := Session.step_reported hx'
  refine ⟨?_, ?_⟩
  · cases h with
    | waits hs | declined hs =>
      rw [hs] at hx
      cases hx
    | runs hs hc hst ht hcount =>
      obtain rfl := Option.some.inj (hs.symm.trans hx)
      exact .runs rfl hc hst ht (hback.count hcount)
  · rw [reports, reports, hx]
    exact (List.prefix_append_right_inj _).2 hback.prefix_codes

/-- Neither the session nor a report is touched, and no operation is added. -/
theorem keep (h : c.Stands) (hs : c'.session = c.session) (hc : c'.callbacks = c.callbacks)
    (hst : c'.io.started = c.io.started) (ht : c'.io.tokens ≤ c.io.tokens) :
    c'.Stands ∧ c.reports <+: c'.reports := by
  refine ⟨?_, ?_⟩
  · cases h with
    | waits h1 h2 h3 h4 => exact .waits (hs.trans h1) (hc.trans h2) (hst.trans h3) (ht.trans h4)
    | declined h1 h2 h3 h4 =>
      exact .declined (hs.trans h1) (by rw [hc]; exact h2) (hst.trans h3) (Nat.le_zero.1 (ht.trans h4.le))
    | runs h1 h2 h3 h4 h5 =>
      exact .runs (hs.trans h1) (hc.trans h2) (hst.trans h3) (Nat.le_zero.1 (ht.trans h4.le)) h5
  · have hreports : c'.reports = c.reports := by rw [reports, reports, hs, hc]
    exact hreports ▸ List.prefix_rfl

/-- The answer is handled: the only operation has completed. -/
theorem answer (h : c.Stands) {i n : ℕ} {r : Unit} {err : ErrorCode} (past : Bytes)
    (hx : c.io.received[i]? = some (r, err, n)) {t : TftpClient}
    (ht : t = handleAnswer past err n { c with io := { c.io with received := c.io.received.eraseIdx i } }) :
    t.release.Stands ∧ c.reports <+: t.release.reports := by
  have hone : c.io.tokens ≤ 1 := by
    cases h with
    | waits _ _ _ h4 => exact h4
    | declined _ _ _ h4 | runs _ _ _ h4 _ => omega
  obtain ⟨htok, hrest⟩ := Io.tokens_eraseIdx_received hx hone
  cases h with
  | declined _ _ _ h4 | runs _ _ _ h4 _ =>
    rw [h4] at htok
    cases htok
  | waits hs hc hst _ =>
    have hreports : c.reports = [] := by simp [reports, hs, hc]
    have hleaves := (release_leaves t).after (by
      rw [ht]
      exact handleAnswer_leaves past err _ n)
    have hstarted : t.release.io.started = true := hleaves.started.trans hst
    have htokens : t.release.io.tokens = 0 := Nat.le_zero.1 (hleaves.tokens.trans hrest.le)
    rw [hreports]
    refine ⟨?_, List.nil_prefix⟩
    rcases handleAnswer_cases past err n { c with io := { c.io with received := c.io.received.eraseIdx i } } with
      hd | ⟨rfl, x, hopens, heq⟩
    · obtain ⟨codes, hle, hcodes⟩ := handleAnswer_callbacks past err n
        { c with io := { c.io with received := c.io.received.eraseIdx i } }
      have hnone : t.release.session = none := by
        rw [(Declines.release t).session, ht, hd.session]
        exact hs
      refine .declined hnone ?_ hstarted htokens
      rw [release_callbacks, ht, hcodes, show c.callbacks = [] from hc]
      exact hle
    · have hsession : t.release.session = some x := by
        rw [(Declines.release t).session, ht, heq]
        rfl
      have hcallbacks : t.release.callbacks = [] := by
        rw [release_callbacks, ht, heq]
        exact hc
      exact .runs hsession hcallbacks hstarted htokens (hopens.reported.count rfl)

/-- **One step.** -/
theorem step (h : c.Stands) {e : ClientEvent} (hstep : c.step e = some c') :
    c'.Stands ∧ c.reports <+: c'.reports := by
  cases e with
  | session e =>
    obtain ⟨-, hstep⟩ := Option.ite_none_left_eq_some.1 hstep
    obtain ⟨x, hx, hstep⟩ := Option.bind_eq_some_iff.1 hstep
    obtain ⟨x', hx', rfl⟩ := Option.map_eq_some_iff.1 hstep
    exact h.session hx hx'
  | request past e =>
    have hstarted : c.io.started = true := by
      cases h with
      | waits _ _ h3 _ | declined _ _ h3 _ | runs _ _ h3 _ _ => exact h3
    obtain ⟨-, hcase⟩ := Proactor.step_cases (show (proactor past).step c e = some c' from hstep)
    cases hcase with
    | start hf =>
      rw [show c.io.started = false from hf] at hstarted
      cases hstarted
    | @deliver src d r rs hr =>
      have hr' : c.io.receives = r :: rs := hr
      refine h.keep rfl rfl rfl (le_of_eq ?_)
      simp only [Io.tokens, store, proactor, hr', List.length_append, List.length_cons, List.length_nil]
      omega
    | @receiveFails err r rs hr _ =>
      have hr' : c.io.receives = r :: rs := hr
      refine h.keep rfl rfl rfl (le_of_eq ?_)
      simp only [Io.tokens, proactor, hr', List.length_append, List.length_cons, List.length_nil]
      omega
    | @sendCompletes err m ms hm =>
      have hm' : c.io.sends = m :: ms := hm
      refine h.keep rfl rfl rfl (le_of_eq ?_)
      simp only [Io.tokens, proactor, hm', List.length_append, List.length_cons, List.length_nil]
      omega
    | expire _ => exact h.keep rfl rfl rfl le_rfl
    | @runReceive i r err n hx => exact h.answer past hx rfl
    | @runSend i err n hx =>
      refine h.keep rfl rfl rfl ?_
      have hlt : i < c.io.sent.length := (List.getElem?_eq_some_iff.1 hx).1
      simp only [Io.tokens, proactor, id, List.length_eraseIdx_of_lt hlt]
      omega
    | @runTimer i err _ =>
      have hd := (Declines.onOackTimeout err { c with io := { c.io with waited := c.io.waited.eraseIdx i } }).trans
        (.release _)
      have hleaves := (release_leaves _).after (onOackTimeout_leaves err
        { c with io := { c.io with waited := c.io.waited.eraseIdx i } })
      exact h.keep hd.session ((release_callbacks _).trans (onOackTimeout_callbacks err _)) hleaves.started
        hleaves.tokens

theorem run (h : c.Stands) {c₀ : TftpClient} {es : List ClientEvent} (hrun : (system c₀).run c es = some c') :
    c'.Stands ∧ c.reports <+: c'.reports := by
  induction es generalizing c with
  | nil =>
    cases hrun
    exact ⟨h, List.prefix_rfl⟩
  | cons e es ih =>
    obtain ⟨t, ht, hrun⟩ := Option.bind_eq_some_iff.1 hrun
    obtain ⟨h1, h2⟩ := h.step ht
    obtain ⟨h3, h4⟩ := ih h1 hrun
    exact ⟨h3, h2.trans h4⟩

end Stands

/-! ## The start -/

section
variable (server : Endpoint) (msg : RequestMessage) (waits : Bool) (c : TftpClient)

theorem sendRequest_session : (c.sendRequest server msg waits).session = c.session := by
  rcases c.sendRequest_cases server msg waits with ⟨e, heq⟩ | ⟨str, -, -, heq⟩ <;> rw [heq]

theorem sendRequest_callbacks : (c.sendRequest server msg waits).callbacks = c.callbacks := by
  rcases c.sendRequest_cases server msg waits with ⟨e, heq⟩ | ⟨str, -, -, heq⟩ <;> rw [heq]

theorem sendRequest_started : (c.sendRequest server msg waits).io.started = c.io.started := by
  rcases c.sendRequest_cases server msg waits with ⟨e, heq⟩ | ⟨str, -, -, heq⟩
  · rw [heq]
  · rw [heq]
    cases waits <;> simp

theorem sendRequest_tokens :
    (c.sendRequest server msg waits).io.tokens ≤ c.io.tokens + waits.toNat := by
  rcases c.sendRequest_cases server msg waits with ⟨e, heq⟩ | ⟨str, -, -, heq⟩
  · rw [heq]
    exact Nat.le_add_right _ _
  · rw [heq]
    cases waits <;> simp

end

/-- The request is sent; with a session of its own the answer is not waited for. -/
theorem Stands.sent {c₁ c c' : TftpClient} {server : Endpoint} {msg : RequestMessage} {direct : Bool} {x : Session}
    (hs : c₁.session = none) (hc : c₁.callbacks = []) (hst : c₁.io.started = true) (ht : c₁.io.tokens = 0)
    (hx : CallsBack (false, []) x.reports) (heq : c = c₁.sendRequest server msg (!direct))
    (heq' : c' = if c.threw.isNone && direct then c.startSession x else c) : c'.Stands := by
  have hs' : c.session = none := heq ▸ (sendRequest_session _ _ _ _).trans hs
  have hc' : c.callbacks = [] := heq ▸ (sendRequest_callbacks _ _ _ _).trans hc
  have hst' : c.io.started = true := heq ▸ (sendRequest_started _ _ _ _).trans hst
  have ht' : c.io.tokens ≤ (!direct).toNat := by
    have h := sendRequest_tokens server msg (!direct) c₁
    rwa [← heq, ht, Nat.zero_add] at h
  rw [heq']
  split_ifs with hgo
  · obtain ⟨-, rfl⟩ := Bool.and_eq_true_iff.1 hgo
    refine .runs rfl hc' hst' ?_ (hx.count rfl)
    rw [startSession, Io.close_tokens]
    exact Nat.le_zero.1 ht'
  · exact .waits hs' hc' hst' (ht'.trans (Bool.toNat_le _))

/-- **The start of a client**, unless its root folder has no absolute path. -/
theorem start_stands (os : OperatingSystem) (root : Bytes) (server : Endpoint) (requestType : TftpOpcode)
    (filename : Bytes) (v : TransactionOptionValues) (mode : TftpMode) :
    (os.absolute root = none ∧ (TftpClient.new os root).start server requestType filename v mode =
      { TftpClient.new os root with threw := some .systemError }) ∨
    ((TftpClient.new os root).start server requestType filename v mode).Stands := by
  unfold start
  cases habs : os.absolute root with
  | none => exact .inl ⟨rfl, by simp only [new, habs]⟩
  | some path =>
    right
    simp only [new, habs]
    split_ifs
    · exact .waits rfl rfl rfl (Nat.zero_le _)
    · split
      · refine .sent (c := sendRequest _ _ _ _) rfl rfl rfl rfl ?_ rfl rfl
        exact .of_reported (TftpReceiver.Course.start (TftpReceiver.new _ _ defaultBlocksize
          retransmissionTime)).reported
      · refine .sent (c := sendRequest _ _ _ _) rfl rfl rfl rfl ?_ rfl rfl
        exact .of_reported (Tftpsender.Course.start (Tftpsender.new _ _ 0 defaultBlocksize
          retransmissionTime)).reported
      · exact .waits rfl rfl rfl (Nat.zero_le _)

/-- A client that has thrown does nothing any more. -/
theorem run_of_threw {c₀ c c' : TftpClient} (h : c.threw.isSome = true) {es : List ClientEvent}
    (hrun : (system c₀).run c es = some c') : c' = c := by
  have hd : c.dead = true := by rw [dead, h, Bool.true_or]
  cases es with
  | nil => exact (Option.some.inj hrun).symm
  | cons e es =>
    obtain ⟨t, ht, -⟩ := Option.bind_eq_some_iff.1 hrun
    have hnone : c.step e = none := by
      cases e with
      | request past e => exact if_pos hd
      | session e => exact if_pos hd
    rw [show c.step e = some t from ht] at hnone
    cases hnone

/-- **The finish callback.**  In every run it has been called at most once, by the handler of the
    answer or by the session, never by both, and a call is never taken back. -/
theorem reports_once (os : OperatingSystem) (root : Bytes) (server : Endpoint) (requestType : TftpOpcode) (filename : Bytes)
    (v : TransactionOptionValues) (mode : TftpMode) {c₀ c : TftpClient}
    (h₀ : c₀ = (TftpClient.new os root).start server requestType filename v mode) {es : List ClientEvent}
    (hrun : (system c₀).run c₀ es = some c) :
    c.reports.length ≤ 1 ∧ (c.callbacks = [] ∨ c.session = none) ∧
      ∀ {es' : List ClientEvent} {c' : TftpClient}, (system c₀).run c es' = some c' → c.reports <+: c'.reports := by
  rcases start_stands os root server requestType filename v mode with ⟨-, hthrew⟩ | hstands
  · rw [← h₀] at hthrew
    have hsome : c₀.threw.isSome = true := congrArg (fun c => c.threw.isSome) hthrew
    obtain rfl := run_of_threw hsome hrun
    refine ⟨?_, .inl (by rw [hthrew]; rfl), fun hrun' => ?_⟩
    · rw [hthrew]
      exact Nat.zero_le 1
    · obtain rfl := run_of_threw hsome hrun'
      exact List.prefix_rfl
  · obtain ⟨hstands, -⟩ := (h₀ ▸ hstands : c₀.Stands).run hrun
    exact ⟨hstands.length_reports, hstands.callbacks_or_session, fun hrun' => (hstands.run hrun').2⟩

/-- A read request with a block size. -/
def sixteens : TftpClient :=
  (TftpClient.new TftpServer.oneFile TftpServer.slash).start ⟨2, 69⟩ .rrq [102] { mBlocksize := some 16 } .octet

/-- The answer is an OACK, and the only block ends the session. -/
def fetched : List ClientEvent := [
  .request [] (.deliver ⟨2, 70⟩ [0, 6, 98, 108, 107, 115, 105, 122, 101, 0, 49, 54, 0]), .request [] (.runReceive 0),
  .session (.sendCompletes .success), .session (.runSend 0),
  .session (.deliver ⟨2, 70⟩ [0, 3, 0, 1, 5]), .session (.runReceive 0)]

theorem reports_once_fetched : ∃ c, (system sixteens).run sixteens fetched = some c ∧ c.reports = [.noerr] ∧
    c.reports.length ≤ 1 ∧ (c.callbacks = [] ∨ c.session = none) ∧
      ∀ {es' : List ClientEvent} {c' : TftpClient}, (system sixteens).run c es' = some c' →
        c.reports <+: c'.reports := by
  have hlook : ((system sixteens).run sixteens fetched).map reports = some [.noerr] := by decide +kernel
  obtain ⟨c, hrun, hreports⟩ := Option.map_eq_some_iff.1 hlook
  exact ⟨c, hrun, hreports,
    reports_once TftpServer.oneFile TftpServer.slash ⟨2, 69⟩ .rrq [102] { mBlocksize := some 16 } .octet rfl hrun⟩

end TftpClient

end Ttftp

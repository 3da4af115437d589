/-
  What an object puts on the wire, and to whom.

  A `Poster` is an object with a view, such as the addresses it knows; `may` says what an
  object with this view may send, and `becomes` how its code may change the view, so that
  no more may be sent then.  `Posts` says that a piece of its code does nothing else.  For a
  proactor whose handlers do so, a step sends what the view allows, and changes it like a
  handler that finds the view after the datagram, if one arrives (`Posting.step`).
-/
import Ttftp.Lib.Asio

namespace Asio

structure Poster (σ H A V : Type) where
  io : σ → Io H A
  view : σ → V
  may : V → A × Bytes → Prop
  becomes : V → V → Prop
  refl : ∀ v, becomes v v
  trans : ∀ {u v w}, becomes u v → becomes v w → becomes u w
  narrows : ∀ {v w x}, becomes v w → may w x → may v x

namespace Poster
variable {σ H A V : Type} (R : Poster σ H A V)

/-- Only what may be sent has been added to the wire. -/
structure Posts (s s' : σ) : Prop where
  view : R.becomes (R.view s) (R.view s')
  wire : ∃ w, (R.io s').wire = (R.io s).wire ++ w ∧ ∀ x ∈ w, R.may (R.view s) x

variable {R} {s s' s'' : σ}

namespace Posts

/-- Nothing is sent. -/
theorem becomes (hv : R.becomes (R.view s) (R.view s')) (hw : (R.io s').wire = (R.io s).wire) : R.Posts s s' :=
  ⟨hv, [], by rw [hw, List.append_nil], fun x hx => by cases hx⟩

theorem quiet (hv : R.view s' = R.view s) (hw : (R.io s').wire = (R.io s).wire) : R.Posts s s' :=
  becomes (by rw [hv]; exact R.refl _) hw

theorem refl (s : σ) : R.Posts s s := quiet rfl rfl

theorem trans (h : R.Posts s s') (h' : R.Posts s' s'') : R.Posts s s'' := by
  obtain ⟨w, hw, hm⟩ := h.wire
  obtain ⟨w', hw', hm'⟩ := h'.wire
  refine ⟨R.trans h.view h'.view, w ++ w', by rw [hw', hw, List.append_assoc], fun x hx => ?_⟩
  rcases List.mem_append.1 hx with hx | hx
  · exact hm x hx
  · exact R.narrows h.view (hm' x hx)

/-- One datagram is sent, if the socket is open. -/
theorem one (hv : R.view s' = R.view s) {x : A × Bytes} {b : Bool}
    (hw : (R.io s').wire = (R.io s).wire ++ if b then [x] else []) (hm : R.may (R.view s) x) :
    R.Posts s s' := by
  refine ⟨by rw [hv]; exact R.refl _, _, hw, fun y hy => ?_⟩
  split_ifs at hy
  · rwa [List.mem_singleton.1 hy]
  · cases hy

theorem send {dest : A} {d : Bytes} (hv : R.view s' = R.view s) (hio : R.io s' = (R.io s).asyncSendTo dest d)
    (hm : R.may (R.view s) (dest, d)) : R.Posts s s' :=
  one hv (by rw [hio, Io.asyncSendTo_wire]) hm

theorem sendDetached {dest : A} {d : Bytes} (hv : R.view s' = R.view s)
    (hio : R.io s' = (R.io s).asyncSendDetached dest d) (hm : R.may (R.view s) (dest, d)) : R.Posts s s' :=
  one hv (by rw [hio, Io.asyncSendDetached_wire]) hm

end Posts

/-- The handlers of a proactor post; `good` are the states in which they run, and `hear` is
    what a datagram from somebody makes of the view. -/
structure Posting (P : Proactor σ H A) (R : Poster σ H A V) (good : σ → Prop) (hear : A → V → V) : Prop where
  io : ∀ s, R.io s = P.io s
  io_setIo : ∀ s io, P.io (P.setIo io s) = io
  view_setIo : ∀ s io, R.view (P.setIo io s) = R.view s
  good_setIo : ∀ s io, good s → io.isOpen = (P.io s).isOpen → good (P.setIo io s)
  io_store : ∀ s a d, P.io (P.store a d s) = P.io s
  view_store : ∀ s a d, R.view (P.store a d s) = hear a (R.view s)
  start : ∀ s, good s → R.Posts s (P.start s)
  receive : ∀ h e n s, good s → R.Posts s (P.onReceive h e n s)
  sent : ∀ e n s, good s → R.Posts s (P.onSend e n s)
  timer : ∀ e s, good s → R.Posts s (P.onTimer e s)

/-- The view that the handler of an event has. -/
def heard (hear : A → V → V) (v : V) : Event A → V
  | .deliver src _ => hear src v
  | _ => v

namespace Posting
variable {P : Proactor σ H A} {good : σ → Prop} {hear : A → V → V}

theorem handler (K : Posting P R good hear) (hg : good s) (io : Io H A) (ho : io.isOpen = (P.io s).isOpen)
    (hw : io.wire = (P.io s).wire) {f : σ → σ} (hf : ∀ s, good s → R.Posts s (f s)) :
    R.Posts s (f (P.setIo io s)) := by
  refine .trans (.quiet (K.view_setIo s io) ?_) (hf _ (K.good_setIo s io hg ho))
  rw [K.io, K.io, K.io_setIo, hw]

/-- **What a step sends**, it may send, with the view that it finds or hears of. -/
theorem step (K : Posting P R good hear) (hg : good s) {e : Event A} (h : P.step s e = some s') :
    R.becomes (heard hear (R.view s) e) (R.view s') ∧
      ∃ w, (P.io s').wire = (P.io s).wire ++ w ∧ ∀ x ∈ w, R.may (R.view s) x := by
  have hposts : ∀ {t : σ}, R.Posts s t → heard hear (R.view s) e = R.view s →
      R.becomes (heard hear (R.view s) e) (R.view t) ∧
        ∃ w, (P.io t).wire = (P.io s).wire ++ w ∧ ∀ x ∈ w, R.may (R.view s) x := by
    intro t ht hv
    refine ⟨by rw [hv]; exact ht.view, ?_⟩
    rw [← K.io, ← K.io]
    exact ht.wire
  have hquiet : ∀ io : Io H A, io.isOpen = (P.io s).isOpen → io.wire = (P.io s).wire → R.Posts s (P.setIo io s) :=
    fun io ho hw => K.handler hg io ho hw fun s _ => .refl s
  obtain ⟨-, hstep⟩ := Proactor.step_cases h
  cases hstep with
  | start _ => exact hposts (K.handler hg { P.io s with started := true } rfl rfl K.start) rfl
  | @deliver src d r rs _ =>
    refine ⟨?_, [], ?_, fun x hx => by cases hx⟩
    · rw [K.view_store, K.view_setIo]
      exact R.refl _
    · rw [K.io_store, K.io_setIo, List.append_nil]
  | receiveFails _ _ => exact hposts (hquiet _ rfl rfl) rfl
  | sendCompletes _ => exact hposts (hquiet _ rfl rfl) rfl
  | expire _ => exact hposts (hquiet _ rfl rfl) rfl
  | @runReceive i r err n _ =>
    exact hposts (K.handler hg { P.io s with received := (P.io s).received.eraseIdx i } rfl rfl
      (K.receive r err n)) rfl
  | @runSend i err n _ =>
    exact hposts (K.handler hg { P.io s with sent := (P.io s).sent.eraseIdx i } rfl rfl (K.sent err n)) rfl
  | @runTimer i err _ =>
    exact hposts (K.handler hg { P.io s with waited := (P.io s).waited.eraseIdx i } rfl rfl (K.timer err)) rfl

end Posting

end Poster

end Asio

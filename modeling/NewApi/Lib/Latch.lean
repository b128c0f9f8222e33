/-
**Latches: a cell that takes its final value once, and what is done on that occasion.**

Several parties try to give a cell its final value.  While the cell has none, nothing has been
logged for it; the step that gives it a value logs what is to be done because of it, and whatever
comes later changes neither.  It is enough that each step keeps the cell as it is or sets it: then
the log of a cell that was set is one that setting it once leaves.

Main definitions:

* `Latch.Step` — a step keeps the latch or sets it, and logs what setting it allows;
* `Latch.Sound` — the log is empty while the latch is open, and allowed for its value afterwards.

Main results:

* `Latch.Sound.step` — a step keeps a latch sound;
* `Latch.sound_run` — **the latch rule**: a run whose steps keep or set the latch leaves it sound.
-/

import NewApi.Lib.Transition

set_option autoImplicit false

namespace Latch

variable {σ ω ε : Type*} (value : σ → Option ω) (log : σ → List ε) (allowed : ω → List ε → Prop)

/-- What a step may do to a latch. -/
inductive Step (s s' : σ) : Prop
  | keep (hvalue : value s' = value s) (hlog : log s' = log s) : Step s s'
  | set (w : ω) (es : List ε) (hopen : value s = none) (hvalue : value s' = some w)
      (hlog : log s' = log s ++ es) (hallowed : allowed w es) : Step s s'

/-- An open latch has logged nothing, a latch with a value what is allowed for it. -/
def Sound (s : σ) : Prop :=
  match value s with
  | none => log s = []
  | some w => allowed w (log s)

variable {value log allowed}

/-- A latch that has logged nothing, where nothing need be logged. -/
theorem sound_of_nil {s : σ} (hlog : log s = []) (hnil : ∀ w, allowed w []) :
    Sound value log allowed s := by
  rw [Sound]
  cases value s with
  | none => exact hlog
  | some w =>
    rw [hlog]
    exact hnil w

theorem Sound.log_of_open {s : σ} (h : Sound value log allowed s) (hopen : value s = none) :
    log s = [] := by
  rwa [Sound, hopen] at h

theorem Sound.allowed_of_set {s : σ} {w : ω} (h : Sound value log allowed s)
    (hvalue : value s = some w) : allowed w (log s) := by
  rwa [Sound, hvalue] at h

theorem Sound.step {s s' : σ} (h : Sound value log allowed s)
    (hstep : Step value log allowed s s') : Sound value log allowed s' := by
  cases hstep with
  | keep hvalue hlog => rwa [Sound, hvalue, hlog]
  | set w es hopen hvalue hlog hallowed =>
    -- nothing was logged before, so the log is what this step logs
    rw [Sound, hvalue, hlog, h.log_of_open hopen]
    exact hallowed

/-- The **latch rule**: a run whose steps keep or set the latch leaves it sound. -/
theorem sound_run {α : Type*} {step : σ → α → σ} {ok : σ → α → Prop} {Inv : σ → Prop}
    (hinv : ∀ s a, Inv s → ok s a → Inv (step s a))
    (hstep : ∀ s a, Inv s → ok s a → Step value log allowed s (step s a)) {s : σ} {as : List α}
    (hs : Inv s) (hsound : Sound value log allowed s) (hok : Transition.Along step ok s as) :
    Sound value log allowed (Transition.run step s as) := by
  have hpres : ∀ s a, Inv s ∧ Sound value log allowed s → ok s a →
      Inv (step s a) ∧ Sound value log allowed (step s a) := by
    intro s a h hok
    exact ⟨hinv s a h.1 hok, h.2.step (hstep s a h.1 hok)⟩
  exact (Transition.run_invariant hpres ⟨hs, hsound⟩ hok).2

end Latch

/-
**Holds: an amount that is set aside, and later captured or released.**

An amount is held before the price of something is known.  While it is held it can be changed;
then it is captured, at the price that came out, or released.  A release is first promised and
carried out later, and carrying it out may fail and leave the amount taken.  Capturing and
releasing are final, and they exclude each other.

Main definitions:

* `Hold` — the states of a hold;
* `Hold.net` — the amount that is taken in a state;
* `Hold.Promised` — a release has been promised;
* `Hold.Step`, `Hold.Reach` — the transitions, and their closure.

Main results:

* `Hold.captured_final` — **a captured hold stays captured at its amount**;
* `Hold.Promised.reach` — **a hold whose release is promised is never captured**;
* `Hold.reach_releasing`, `Hold.reach_kept` — what becomes of a promised release.
-/

import Mathlib.Logic.Relation

set_option autoImplicit false

/-- The states of a hold on an amount. -/
inductive Hold (α : Type*) where
  | held (a : α)
  | captured (a : α)
  | releasing (a : α)
  | released
  | kept (a : α)

namespace Hold

variable {α : Type*}

/-- The amount taken in a state. -/
def net [Zero α] : Hold α → α
  | held a => a
  | captured a => a
  | releasing a => a
  | released => 0
  | kept a => a

/-- A release has been promised, and perhaps carried out. -/
def Promised : Hold α → Prop
  | held _ => False
  | captured _ => False
  | releasing _ => True
  | released => True
  | kept _ => True

section Transitions

variable (mayFail : Prop)

/-- The transitions of a hold.  Carrying out a release fails only where that is admitted. -/
inductive Step : Hold α → Hold α → Prop
  | change (a b : α) : Step (held a) (held b)
  | capture (a b : α) : Step (held a) (captured b)
  | release (a : α) : Step (held a) (releasing a)
  | payBack (a : α) : Step (releasing a) released
  | fail (a : α) : mayFail → Step (releasing a) (kept a)

/-- The states that can follow a state. -/
abbrev Reach : Hold α → Hold α → Prop := Relation.ReflTransGen (Step mayFail)

end Transitions

variable {mayFail : Prop}

/-- A state without transitions is not left. -/
theorem reach_of_final {h h' : Hold α} (hfinal : ∀ g, ¬ Step mayFail h g)
    (hr : Reach mayFail h h') : h' = h := by
  induction hr with
  | refl => rfl
  | tail _ hlast ih =>
    subst ih
    exact absurd hlast (hfinal _)

theorem captured_final {a : α} {h : Hold α} (hr : Reach mayFail (captured a) h) :
    h = captured a := reach_of_final (fun _ hs => nomatch hs) hr

theorem released_final {h : Hold α} (hr : Reach mayFail released h) : h = released :=
  reach_of_final (fun _ hs => nomatch hs) hr

/-- What can follow a promised release. -/
theorem reach_releasing {a : α} {h : Hold α} (hr : Reach mayFail (releasing a) h) :
    h = releasing a ∨ h = released ∨ (mayFail ∧ h = kept a) := by
  induction hr with
  | refl => exact Or.inl rfl
  | tail _ hlast ih =>
    rcases ih with rfl | rfl | ⟨hfail, rfl⟩
    · cases hlast with
      | payBack => exact Or.inr (Or.inl rfl)
      | fail _ hfail => exact Or.inr (Or.inr ⟨hfail, rfl⟩)
    · nomatch hlast
    · nomatch hlast

/-- Where carrying out a release does not fail, it is not how an amount comes to be kept. -/
theorem reach_kept {a : α} {h : Hold α} (hr : Reach mayFail h (kept a)) :
    h = kept a ∨ mayFail := by
  rcases Relation.ReflTransGen.cases_tail hr with heq | ⟨_, _, hlast⟩
  · exact Or.inl heq.symm
  · cases hlast with
    | fail _ hfail => exact Or.inr hfail

/-- A hold whose release is promised is never captured, nor held again. -/
theorem Promised.reach {h h' : Hold α} (hp : h.Promised) (hr : Reach mayFail h h') :
    h'.Promised := by
  induction hr with
  | refl => exact hp
  | tail _ hlast ih =>
    cases hlast with
    | change => exact ih
    | capture => exact ih
    | release => trivial
    | payBack => trivial
    | fail => trivial

end Hold

/-
**Runs of a transition system, and what holds along them.**

A system is a total step function on a type of states: an action the system refuses leaves the
state alone.  A run is a list of actions.  Two things are said about runs: what holds in the state
a run ends in, and that every action of the run met a condition in the state it was taken in.  The
second notion is what a conditional safety result needs: "in every run whose steps all meet the
condition, the property holds in every state reached".

Main definitions:

* `Transition.run` — the state a run ends in;
* `Transition.Along` — every action of the run meets a condition in the state it is taken in.

Main results:

* `Transition.run_invariant` — **the invariant rule**: what every conforming step preserves holds
  at the end of every conforming run;
* `Transition.along_of_invariant` — a condition every conforming step establishes for the next
  action holds along the whole run;
* `Transition.forall_take_iff_along` — what exactly the conforming steps preserve holds in every
  state of exactly the conforming runs;
* `Transition.run_of_frozen` — a state every action leaves alone is never left.
-/

import Mathlib.Data.List.Basic

set_option autoImplicit false

namespace Transition

variable {σ α : Type*} (step : σ → α → σ)

/-! ### Runs -/

/-- The state in which the run `as` from `s` ends. -/
def run (s : σ) (as : List α) : σ := as.foldl step s

@[simp] theorem run_nil (s : σ) : run step s [] = s := rfl

@[simp] theorem run_cons (s : σ) (a : α) (as : List α) :
    run step s (a :: as) = run step (step s a) as := rfl

theorem run_append (s : σ) (as bs : List α) :
    run step s (as ++ bs) = run step (run step s as) bs := by
  simp [run, List.foldl_append]

/-! ### Conditions along a run -/

/-- Every action of the run meets `ok` in the state it is taken in. -/
def Along (ok : σ → α → Prop) : σ → List α → Prop
  | _, [] => True
  | s, a :: as => ok s a ∧ Along ok (step s a) as

variable {step}

@[simp] theorem along_nil (ok : σ → α → Prop) (s : σ) : Along step ok s [] := trivial

@[simp] theorem along_cons (ok : σ → α → Prop) (s : σ) (a : α) (as : List α) :
    Along step ok s (a :: as) ↔ ok s a ∧ Along step ok (step s a) as := Iff.rfl

theorem along_append {ok : σ → α → Prop} {s : σ} {as bs : List α} :
    Along step ok s (as ++ bs) ↔ Along step ok s as ∧ Along step ok (run step s as) bs := by
  induction as generalizing s with
  | nil => simp
  | cons a as ih => simp only [List.cons_append, along_cons, run_cons, ih, and_assoc]

/-- A condition that the run's actions meet in any state is met along the run. -/
theorem along_of_forall {P : α → Prop} {s : σ} {as : List α} (hP : ∀ a ∈ as, P a) :
    Along step (fun _ a => P a) s as := by
  induction as generalizing s with
  | nil => trivial
  | cons a as ih => exact ⟨hP a List.mem_cons_self, ih fun b hb => hP b (List.mem_cons_of_mem a hb)⟩

/-- A condition met along a run, together with one that the run's actions meet in any state. -/
theorem along_and_forall {ok : σ → α → Prop} {P : α → Prop} {s : σ} {as : List α}
    (hok : Along step ok s as) (hP : ∀ a ∈ as, P a) :
    Along step (fun s a => ok s a ∧ P a) s as := by
  induction as generalizing s with
  | nil => trivial
  | cons a as ih =>
    refine ⟨⟨hok.1, hP a List.mem_cons_self⟩, ih hok.2 fun b hb => ?_⟩
    exact hP b (List.mem_cons_of_mem a hb)

/-- Whether a decidable condition holds along a run can be computed. -/
def decidableAlong {ok : σ → α → Prop} (dec : ∀ s a, Decidable (ok s a)) :
    ∀ (s : σ) (as : List α), Decidable (Along step ok s as)
  | _, [] => .isTrue trivial
  | s, a :: as =>
    match dec s a, decidableAlong dec (step s a) as with
    | .isTrue h, .isTrue h' => .isTrue ⟨h, h'⟩
    | .isFalse h, _ => .isFalse fun hs => h hs.1
    | _, .isFalse h => .isFalse fun hs => h hs.2

instance {ok : σ → α → Prop} [dec : ∀ s a, Decidable (ok s a)] (s : σ) (as : List α) :
    Decidable (Along step ok s as) := decidableAlong dec s as

/-- The **invariant rule**: a property that every conforming step preserves holds at the end of
every conforming run. -/
theorem run_invariant {ok : σ → α → Prop} {Inv : σ → Prop}
    (hstep : ∀ s a, Inv s → ok s a → Inv (step s a)) {s : σ} {as : List α} (hs : Inv s)
    (hok : Along step ok s as) : Inv (run step s as) := by
  induction as generalizing s with
  | nil => exact hs
  | cons a as ih => exact ih (hstep s a hs hok.1) hok.2

/-- The invariant rule for runs of any actions. -/
theorem run_invariant_always {Inv : σ → Prop} (hstep : ∀ s a, Inv s → Inv (step s a)) {s : σ}
    (hs : Inv s) (as : List α) : Inv (run step s as) := by
  induction as generalizing s with
  | nil => exact hs
  | cons a as ih => exact ih (hstep s a hs)

/-- A condition weaker than the one met along a run, in states that satisfy an invariant of the
run, is met along it as well. -/
theorem along_of_invariant {ok ok' : σ → α → Prop} {Inv : σ → Prop}
    (hstep : ∀ s a, Inv s → ok s a → Inv (step s a))
    (himp : ∀ s a, Inv s → ok s a → ok' s a) {s : σ} {as : List α} (hs : Inv s)
    (hok : Along step ok s as) : Along step ok' s as := by
  induction as generalizing s with
  | nil => trivial
  | cons a as ih => exact ⟨himp s a hs hok.1, ih (hstep s a hs hok.1) hok.2⟩

/-- The **converse of the invariant rule**: if a property is preserved by exactly the steps that
conform, it holds in every state of a run exactly if the run conforms. -/
theorem forall_take_iff_along {ok : σ → α → Prop} {Inv P : σ → Prop}
    (hinv : ∀ s a, Inv s → Inv (step s a))
    (hstep : ∀ s a, Inv s → P s → (P (step s a) ↔ ok s a)) {s : σ} {as : List α} (hs : Inv s)
    (hP : P s) : (∀ n, P (run step s (as.take n))) ↔ Along step ok s as := by
  induction as generalizing s with
  | nil => simp [hP]
  | cons a as ih =>
    constructor
    · intro h
      have hnext : P (step s a) := h 1
      exact ⟨(hstep s a hs hP).1 hnext, (ih (hinv s a hs) hnext).1 fun n => h (n + 1)⟩
    · rintro ⟨hok, hrest⟩ n
      have hnext : P (step s a) := (hstep s a hs hP).2 hok
      cases n with
      | zero => exact hP
      | succ n => exact (ih (hinv s a hs) hnext).2 hrest n

/-- A state that every action leaves alone is never left. -/
theorem run_of_frozen {s : σ} (h : ∀ a, step s a = s) (as : List α) : run step s as = s := by
  induction as with
  | nil => rfl
  | cons a as ih => rw [run_cons, h a, ih]

end Transition

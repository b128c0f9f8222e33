/-
**Loops that work off a table in batches.**

A batch says how many items it has worked off, or fails.  The loop calls the batch until it fails or
finds less than a full one.  It ends if each batch that does not fail makes some measure of the
state smaller by what it reports: a batch that counts an item and leaves it where it finds it again
is what keeps such a loop from ending.

Main definitions:

* `BatchLoop.loop` — the loop, with a bound on its rounds;
* `BatchLoop.Lowers` — what is asked of a batch.

Main results:

* `BatchLoop.loop_ends` — **the loop ends**, after no more rounds than the measure.
-/

import Mathlib.Data.List.Basic

set_option autoImplicit false

namespace BatchLoop

variable {σ : Type*} (size : ℕ) (batch : ℕ → σ → Option ℕ × σ)

/-- Call the batches from the `i`-th on until one fails or finds less than `size`: whether none has
failed, and the state; `none` when `rounds` were not enough. -/
def loop : ℕ → ℕ → σ → Option (Bool × σ)
  | 0, _, _ => none
  | rounds + 1, i, s =>
    match batch i s with
    | (none, s') => some (false, s')
    | (some n, s') => if n < size then some (true, s') else loop rounds (i + 1) s'

/-- A batch that does not fail lowers a measure by what it counts and keeps an invariant. -/
def Lowers (Inv : σ → Prop) (measure : σ → ℕ) : Prop :=
  ∀ i s n s', Inv s → batch i s = (some n, s') → Inv s' ∧ measure s' + n ≤ measure s

variable {size batch}

/-- The loop ends when every batch lowers a measure by what it counts.  What the batches preserve
holds when it has ended without a failure. -/
theorem loop_ends {Inv : σ → Prop} {measure : σ → ℕ} (hsize : 0 < size)
    (hbatch : Lowers batch Inv measure) {rounds : ℕ} (i : ℕ) {s : σ} (hs : Inv s)
    (hrounds : measure s < rounds) :
    ∃ ok s', loop size batch rounds i s = some (ok, s') ∧ (ok = true → Inv s') := by
  induction rounds generalizing i s with
  | zero => omega
  | succ rounds ih =>
    rcases hnext : batch i s with ⟨_ | n, s'⟩
    · exact ⟨false, s', by simp [loop, hnext], by simp⟩
    · obtain ⟨hinv, hless⟩ := hbatch i s n s' hs hnext
      by_cases hshort : n < size
      · exact ⟨true, s', by simp [loop, hnext, hshort], fun _ => hinv⟩
      · obtain ⟨ok, s'', hloop, hok⟩ := ih (i + 1) hinv (by omega)
        exact ⟨ok, s'', by simpa [loop, hnext, hshort] using hloop, hok⟩

end BatchLoop

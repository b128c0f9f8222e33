/-
**Streams of blocks.**

A stream opens blocks, sends data for them and closes them.  Blocks have consecutive indexes, each is
opened once, data and closings name a block that is open, the data being of the block's kind, and
when the stream is finished no block is open.  A reader of such a stream has to remember the next
index and the kinds of the blocks that are open.

A writer that has a group of blocks with consecutive indexes open at a time is in a *slice*: the
blocks from `lo` to `hi` are open, and `hi` is the next index.  The lemmas say what may come next in a
slice, and which slice it leads to.

Main definitions:

* `BlockStream.Event` — what a stream consists of;
* `BlockStream.Accepts`, `BlockStream.after` — a stream the reader accepts, and its state then;
* `BlockStream.slice` — a group of open blocks.

Main results:

* `BlockStream.accepts_append` — a stream is accepted piece by piece;
* `BlockStream.accepts_opens_slice`, `BlockStream.accepts_data_slice`,
  `BlockStream.accepts_closes_slice`, `BlockStream.accepts_finish_slice` — **what a slice accepts**.
-/

import Mathlib.Algebra.Order.Ring.Int
import Mathlib.Data.List.Range

set_option autoImplicit false

namespace BlockStream

variable {κ : Type*}

/-! ### The reader -/

inductive Event (κ : Type*) where
  | opens (index : ℤ) (kind : κ)
  | data (index : ℤ) (kind : κ)
  | closes (index : ℤ)
  | finish

/-- The next index and the kinds of the open blocks. -/
structure State (κ : Type*) where
  next : ℤ
  opened : ℤ → Option κ

/-- The state after an event. -/
def step (s : State κ) : Event κ → State κ
  | .opens index kind =>
    { next := s.next + 1, opened := Function.update s.opened index (some kind) }
  | .data _ _ => s
  | .closes index => { s with opened := Function.update s.opened index none }
  | .finish => s

/-- Whether an event may come. -/
def Allowed (s : State κ) : Event κ → Prop
  | .opens index _ => index = s.next
  | .data index kind => s.opened index = some kind
  | .closes index => s.opened index ≠ none
  | .finish => ∀ index, s.opened index = none

def after (s : State κ) (es : List (Event κ)) : State κ := es.foldl step s

/-- Every event may come when it does. -/
def Accepts : State κ → List (Event κ) → Prop
  | _, [] => True
  | s, e :: es => Allowed s e ∧ Accepts (step s e) es

@[simp] theorem accepts_nil (s : State κ) : Accepts s [] := trivial

@[simp] theorem after_nil (s : State κ) : after s [] = s := rfl

theorem accepts_cons {s : State κ} {e : Event κ} {es : List (Event κ)} :
    Accepts s (e :: es) ↔ Allowed s e ∧ Accepts (step s e) es := Iff.rfl

theorem accepts_singleton {s : State κ} {e : Event κ} : Accepts s [e] ↔ Allowed s e := by
  simp [Accepts]

theorem after_append (s : State κ) (es es' : List (Event κ)) :
    after s (es ++ es') = after (after s es) es' := List.foldl_append

/-- A stream is accepted piece by piece. -/
theorem accepts_append {s : State κ} {es es' : List (Event κ)} :
    Accepts s (es ++ es') ↔ Accepts s es ∧ Accepts (after s es) es' := by
  induction es generalizing s with
  | nil => simp
  | cons e es ih =>
    rw [List.cons_append, accepts_cons, accepts_cons, ih, and_assoc]
    rfl

/-! ### Slices -/

/-- The blocks from `lo` to `hi` are open. -/
def slice (lo hi : ℤ) (kind : κ) : State κ where
  next := hi
  opened index := if lo ≤ index ∧ index < hi then some kind else none

/-- A slice without a block has no kind. -/
theorem slice_empty (lo : ℤ) (kind kind' : κ) : slice lo lo kind = slice lo lo kind' := by
  have hopened : ∀ index : ℤ, ¬ (lo ≤ index ∧ index < lo) := by
    intro index
    omega
  simp [slice, hopened]

theorem accepts_opens_slice {lo hi index : ℤ} {kind kind' : κ} :
    Accepts (slice lo hi kind) [.opens index kind'] ↔ index = hi := accepts_singleton

/-- Opening the next block of a group. -/
theorem after_opens_slice {lo hi : ℤ} (kind : κ) (h : lo ≤ hi) :
    after (slice lo hi kind) [.opens hi kind] = slice lo (hi + 1) kind := by
  have hopened : Function.update (slice lo hi kind).opened hi (some kind) =
      (slice lo (hi + 1) kind).opened := by
    funext index
    by_cases hindex : index = hi
    · subst hindex
      rw [Function.update_self]
      simp only [slice]
      rw [if_pos (by omega)]
    · rw [Function.update_of_ne hindex]
      simp only [slice]
      split
      · rw [if_pos (by omega)]
      · rw [if_neg (by omega)]
  simp only [after, List.foldl_cons, List.foldl_nil, step]
  rw [hopened]
  rfl

/-- Opening the first block of a group. -/
theorem after_opens_empty (lo : ℤ) (kind kind' : κ) :
    after (slice lo lo kind) [.opens lo kind'] = slice lo (lo + 1) kind' := by
  rw [slice_empty lo kind kind']
  exact after_opens_slice kind' (le_refl lo)

theorem accepts_data_slice {lo hi index : ℤ} {kind : κ} :
    Accepts (slice lo hi kind) [.data index kind] ↔ lo ≤ index ∧ index < hi := by
  rw [accepts_singleton]
  simp only [Allowed, slice]
  split
  · rename_i hopen
    simp [hopen.1, hopen.2]
  · rename_i hopen
    simp only [reduceCtorEq, false_iff]
    exact hopen

@[simp] theorem after_data (s : State κ) (index : ℤ) (kind : κ) :
    after s [.data index kind] = s := rfl

theorem accepts_finish_slice {lo hi : ℤ} {kind : κ} :
    Accepts (slice lo hi kind) [.finish] ↔ hi ≤ lo := by
  rw [accepts_singleton]
  simp only [Allowed, slice]
  constructor
  · intro h
    by_contra hlt
    have hlo := h lo
    rw [if_pos (by omega)] at hlo
    simp at hlo
  · intro h index
    rw [if_neg (by omega)]

/-- The closings of `n` blocks from `base` on. -/
def closings (base : ℤ) (n : ℕ) : List (Event κ) :=
  (List.range n).map fun (offset : ℕ) => .closes (base + offset)

theorem closings_succ (base : ℤ) (n : ℕ) :
    (closings base (n + 1) : List (Event κ)) = closings base n ++ [Event.closes (base + n)] := by
  rw [closings, List.range_succ, List.map_append]
  rfl

/-- Closing the first blocks of a group, one after the other. -/
theorem after_closes_slice {lo hi : ℤ} (kind : κ) (n : ℕ) (h : lo + n ≤ hi) :
    after (slice lo hi kind) (closings lo n) = slice (lo + n) hi kind := by
  induction n with
  | zero => simp [closings]
  | succ n ih =>
    push_cast at h ⊢
    rw [closings_succ, after_append, ih (by omega)]
    have hopened : Function.update (slice (lo + n) hi kind).opened (lo + n) none =
        (slice (lo + (n + 1)) hi kind).opened := by
      funext index
      by_cases hindex : index = lo + n
      · subst hindex
        rw [Function.update_self]
        simp only [slice]
        rw [if_neg (by omega)]
      · rw [Function.update_of_ne hindex]
        simp only [slice]
        split
        · rw [if_pos (by omega)]
        · rw [if_neg (by omega)]
    simp only [after, List.foldl_cons, List.foldl_nil, step]
    rw [hopened]
    rfl

/-- **A group's blocks can be closed** as far as they are open. -/
theorem accepts_closes_slice {lo hi : ℤ} {kind : κ} {n : ℕ} (hle : lo ≤ hi) :
    Accepts (slice lo hi kind) (closings lo n) ↔ lo + n ≤ hi := by
  induction n with
  | zero => simpa [closings] using hle
  | succ n ih =>
    rw [closings_succ, accepts_append, ih]
    push_cast
    constructor
    · rintro ⟨hn, hlast⟩
      rw [after_closes_slice kind n hn, accepts_singleton] at hlast
      by_contra hlt
      refine hlast ?_
      simp only [slice]
      rw [if_neg (by omega)]
    · intro hn
      refine ⟨by omega, ?_⟩
      rw [after_closes_slice kind n (by omega), accepts_singleton]
      simp only [Allowed, slice]
      rw [if_pos (by omega)]
      simp

end BlockStream

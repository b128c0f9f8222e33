/-
**Rows under READ COMMITTED isolation.**

Several transactions read and write the rows of a table.  A transaction reads the version of a row
that was committed last, or its own version if it has written the row.  Writing a row takes its
lock: from then on, until the transaction ends, no other transaction can write that row, so a row
has at most one version that is not committed.  Reading takes no lock, and what was read may be
out of date by the time something is written.

Main definitions:

* `ReadCommitted.Database` — the committed rows, and the versions that are not committed;
* `ReadCommitted.Database.view` — what a transaction reads;
* `ReadCommitted.Database.Free` — no other transaction has the lock of a row;
* `ReadCommitted.Database.write`, `ReadCommitted.Database.commit`,
  `ReadCommitted.Database.rollback` — a statement, and the two ends of a transaction.

Main results:

* `ReadCommitted.Database.pending_commit_eq_some` — the versions a commit leaves pending;
* `ReadCommitted.Database.commit_write` — a statement that is a transaction of its own.
-/

import Mathlib.Logic.Function.Basic
import Mathlib.Data.Option.Basic

set_option autoImplicit false

namespace ReadCommitted

/-- The rows of a table: for each key the committed version, and the version a transaction has
written but not committed. -/
structure Database (κ τ α : Type*) where
  committed : κ → α
  pending : κ → Option (τ × α)

namespace Database

variable {κ τ α : Type*}

/-- A table without open transactions. -/
def ofRows (rows : κ → α) : Database κ τ α where
  committed := rows
  pending _ := none

variable [DecidableEq τ]

/-- The version of row `k` that transaction `t` reads. -/
def view (t : τ) (k : κ) (d : Database κ τ α) : α :=
  match d.pending k with
  | some (owner, a) => if owner = t then a else d.committed k
  | none => d.committed k

/-- Whether transaction `t` can write row `k`. -/
def Free (t : τ) (k : κ) (d : Database κ τ α) : Prop := ∀ p ∈ d.pending k, p.1 = t

instance (t : τ) (k : κ) (d : Database κ τ α) : Decidable (Free t k d) := by
  unfold Free
  infer_instance

/-- End a transaction: its versions become the committed ones. -/
def commit (t : τ) (d : Database κ τ α) : Database κ τ α where
  committed k := d.view t k
  pending k := (d.pending k).filter fun p => p.1 ≠ t

/-- End a transaction: its versions are dropped. -/
def rollback (t : τ) (d : Database κ τ α) : Database κ τ α where
  committed := d.committed
  pending k := (d.pending k).filter fun p => p.1 ≠ t

variable {t : τ} {k : κ} {d : Database κ τ α} {a : α}

/-! ### Reading -/

theorem view_of_none (h : d.pending k = none) :
    d.view t k = d.committed k := by
  rw [view, h]

theorem view_of_own (h : d.pending k = some (t, a)) : d.view t k = a := by
  rw [view, h]
  exact if_pos rfl

theorem view_of_other {t' : τ} (h : d.pending k = some (t', a)) (hne : t' ≠ t) :
    d.view t k = d.committed k := by
  rw [view, h]
  exact if_neg hne

/-- A transaction that has written nothing reads what is committed. -/
theorem view_of_not_own (hown : ∀ a, d.pending k ≠ some (t, a)) : d.view t k = d.committed k := by
  cases hp : d.pending k with
  | none => exact view_of_none hp
  | some p =>
    obtain ⟨owner, a⟩ := p
    refine view_of_other hp ?_
    rintro rfl
    exact hown a hp

omit [DecidableEq τ] in
/-- A row that is free for a transaction that has not written it has no version pending. -/
theorem pending_of_free (hfree : d.Free t k) (hown : ∀ a, d.pending k ≠ some (t, a)) :
    d.pending k = none := by
  cases hp : d.pending k with
  | none => rfl
  | some p =>
    obtain ⟨owner, a⟩ := p
    obtain rfl : owner = t := hfree _ hp
    exact absurd hp (hown a)

/-! ### Ending a transaction -/

@[simp] theorem committed_commit (t : τ) (d : Database κ τ α) (k : κ) :
    (d.commit t).committed k = d.view t k := rfl

theorem pending_commit_eq_some {t' : τ} :
    (d.commit t).pending k = some (t', a) ↔ d.pending k = some (t', a) ∧ t' ≠ t := by
  simp [commit, Option.filter_eq_some_iff]

/-! ### Writing -/

variable [DecidableEq κ]

/-- A statement of transaction `t` changes row `k`.  The row must be free for it. -/
def write (t : τ) (k : κ) (f : α → α) (d : Database κ τ α) : Database κ τ α :=
  { d with pending := Function.update d.pending k (some (t, f (d.view t k))) }

@[simp] theorem committed_write (t : τ) (k : κ) (f : α → α) (d : Database κ τ α) :
    (d.write t k f).committed = d.committed := rfl

@[simp] theorem pending_write_self (t : τ) (k : κ) (f : α → α) (d : Database κ τ α) :
    (d.write t k f).pending k = some (t, f (d.view t k)) := Function.update_self ..

theorem pending_write_of_ne {k' : κ} (f : α → α) (d : Database κ τ α) (h : k' ≠ k) :
    (d.write t k f).pending k' = d.pending k' := Function.update_of_ne h ..

/-- A transaction reads what it has written. -/
theorem view_write_self (t : τ) (k : κ) (f : α → α) (d : Database κ τ α) :
    (d.write t k f).view t k = f (d.view t k) := view_of_own (pending_write_self t k f d)

/-- A committed row is replaced. -/
def replace (k : κ) (a : α) (d : Database κ τ α) : Database κ τ α :=
  { d with committed := Function.update d.committed k a }

omit [DecidableEq τ] in
@[simp] theorem committed_replace (k : κ) (a : α) (d : Database κ τ α) :
    (d.replace k a).committed = Function.update d.committed k a := rfl

omit [DecidableEq τ] in
@[simp] theorem pending_replace (k : κ) (a : α) (d : Database κ τ α) :
    (d.replace k a).pending = d.pending := rfl

/-- **A statement that is a transaction of its own** changes the committed row and nothing else. -/
theorem commit_write {f : α → α} (hfree : d.Free t k) (hown : ∀ k' a, d.pending k' ≠ some (t, a)) :
    (d.write t k f).commit t = d.replace k (f (d.committed k)) := by
  have hcommitted : ((d.write t k f).commit t).committed =
      Function.update d.committed k (f (d.committed k)) := by
    funext k'
    by_cases hk : k' = k
    · subst hk
      rw [committed_commit, view_write_self, view_of_not_own (hown k'), Function.update_self]
    · rw [committed_commit, Function.update_of_ne hk, ← view_of_not_own (hown k')]
      simp only [view, pending_write_of_ne f d hk, committed_write]
  have hpending : ((d.write t k f).commit t).pending = d.pending := by
    funext k'
    by_cases hk : k' = k
    · subst hk
      simp [commit, pending_of_free hfree (hown k')]
    · simp only [commit, pending_write_of_ne f d hk]
      cases hp : d.pending k' with
      | none => rfl
      | some p =>
        obtain ⟨owner, a⟩ := p
        have hne : owner ≠ t := by
          rintro rfl
          exact hown k' a hp
        exact Option.filter_some_pos (by simpa using hne)
  cases hd : (d.write t k f).commit t with
  | mk committed pending =>
    rw [hd] at hcommitted hpending
    subst hcommitted hpending
    rfl

end Database

end ReadCommitted

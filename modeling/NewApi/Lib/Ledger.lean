/-
**A counter with a floor, and the accounts behind it.**

A counter is charged for one customer after the other, changed up or down on a customer's behalf,
and now and then set back to zero.  It keeps one number only, and that number never goes below
zero.  The ledger keeps what the counter forgets: an account for each customer charged since the
counter was last reset, the changes made since then on behalf of customers it has no account for,
and what the floor has cut off.  The three together are the counter.

Main definitions:

* `Accounts.total`, `Accounts.post` — keyed accounts, and a posting to one of them;
* `Accounts.sumFor` — what a list of postings comes to for a key;
* `Ledger` — the ledger, with `Ledger.reset`, `Ledger.charge` and `Ledger.change`;
* `Ledger.balance` — the counter the ledger stands for.

Main results:

* `Ledger.balance_reset`, `Ledger.balance_charge`, `Ledger.balance_change` — **the ledger follows
  the counter**;
* `Ledger.balance_of_clean` — without late changes and cuts the counter is the total.
-/

import Mathlib.Algebra.Order.Group.PosPart
import Mathlib.Algebra.BigOperators.Group.List.Basic
import Mathlib.Algebra.Order.Group.Defs
import Mathlib.Tactic.Abel

set_option autoImplicit false

/-! ### Accounts -/

namespace Accounts

variable {κ M : Type*} [AddCommGroup M]

/-- The sum of all accounts. -/
def total (l : List (κ × M)) : M := (l.map (·.2)).sum

/-- Whether there is an account for `k`. -/
def Has (k : κ) (l : List (κ × M)) : Prop := k ∈ l.map (·.1)

@[simp] theorem total_nil : total ([] : List (κ × M)) = 0 := rfl

theorem total_append (l : List (κ × M)) (k : κ) (x : M) : total (l ++ [(k, x)]) = total l + x := by
  simp [total]

variable [DecidableEq κ]

/-- What the postings of a list come to for `k`. -/
def sumFor (k : κ) (l : List (κ × M)) : M := ((l.filter (·.1 = k)).map (·.2)).sum

@[simp] theorem sumFor_nil (k : κ) : sumFor k ([] : List (κ × M)) = 0 := rfl

theorem sumFor_append (k : κ) (l m : List (κ × M)) :
    sumFor k (l ++ m) = sumFor k l + sumFor k m := by
  simp [sumFor]

@[simp] theorem sumFor_self (k : κ) (x : M) : sumFor k [(k, x)] = x := by simp [sumFor]

theorem sumFor_of_ne {k k' : κ} (x : M) (h : k' ≠ k) : sumFor k [(k', x)] = 0 := by
  simp [sumFor, h]

instance (k : κ) (l : List (κ × M)) : Decidable (Has k l) := by unfold Has; infer_instance

/-- Add `d` to the account of `k`, if there is one. -/
def post (k : κ) (d : M) : List (κ × M) → List (κ × M)
  | [] => []
  | (k', x) :: l => if k' = k then (k', x + d) :: l else (k', x) :: post k d l

/-- A posting changes the sum by the amount posted. -/
theorem total_post {k : κ} {l : List (κ × M)} (d : M) (h : Has k l) :
    total (post k d l) = total l + d := by
  induction l with
  | nil => simp [Has] at h
  | cons p l ih =>
    obtain ⟨k', x⟩ := p
    by_cases hk : k' = k
    · simp only [post, hk, if_true, total, List.map_cons, List.sum_cons]
      abel
    · have hrest : Has k l := by
        rcases List.mem_cons.1 h with he | hl
        · exact absurd he.symm hk
        · exact hl
      have := ih hrest
      simp only [total] at this
      simp only [post, hk, if_false, total, List.map_cons, List.sum_cons, this]
      abel

end Accounts

/-! ### The ledger -/

/-- What a counter with a floor at zero stands for. -/
structure Ledger (κ M : Type*) where
  accounts : List (κ × M)
  late : M
  cut : M
deriving DecidableEq, Repr

namespace Ledger

variable {κ M : Type*} [AddCommGroup M]

/-- The counter is set back to zero. -/
def reset : Ledger κ M where
  accounts := []
  late := 0
  cut := 0

/-- The counter: the accounts, the late changes and what was cut off. -/
def balance (l : Ledger κ M) : M := Accounts.total l.accounts + l.late + l.cut

/-- A new customer is charged. -/
def charge (k : κ) (x : M) (l : Ledger κ M) : Ledger κ M :=
  { l with accounts := l.accounts ++ [(k, x)] }

@[simp] theorem balance_reset : (reset : Ledger κ M).balance = 0 := by simp [balance, reset]

theorem balance_charge (k : κ) (x : M) (l : Ledger κ M) :
    (l.charge k x).balance = l.balance + x := by
  simp only [balance, charge, Accounts.total_append]
  abel

/-- Without late changes and cuts the counter is the total of the accounts. -/
theorem balance_of_clean {l : Ledger κ M} (hlate : l.late = 0) (hcut : l.cut = 0) :
    l.balance = Accounts.total l.accounts := by
  simp [balance, hlate, hcut]

variable [DecidableEq κ]

/-- The counter is changed by `d` on behalf of a customer, but not below zero. -/
def change [Lattice M] (k : κ) (d : M) (l : Ledger κ M) : Ledger κ M :=
  let cut := l.cut + (l.balance + d)⁻
  if Accounts.Has k l.accounts then
    { l with accounts := Accounts.post k d l.accounts, cut := cut }
  else { l with late := l.late + d, cut := cut }

section Ordered

variable [LinearOrder M] [IsOrderedAddMonoid M]

/-- A change moves the counter by its amount, cut at zero. -/
theorem balance_change (k : κ) (d : M) (l : Ledger κ M) :
    (l.change k d).balance = max 0 (l.balance + d) := by
  have hcut : l.balance + d + (l.balance + d)⁻ = max 0 (l.balance + d) := by
    rw [max_comm, ← posPart_def, ← eq_sub_iff_add_eq]
    exact (posPart_sub_negPart _).symm
  rw [← hcut]
  unfold change
  simp only
  split
  · rename_i h
    simp only [balance, Accounts.total_post d h]
    abel
  · simp only [balance]
    abel

/-- A change on behalf of a customer with an account that stays above the floor is late for nobody
and cuts nothing. -/
theorem change_clean {k : κ} {d : M} {l : Ledger κ M} (hk : Accounts.Has k l.accounts)
    (hd : 0 ≤ l.balance + d) : (l.change k d).late = l.late ∧ (l.change k d).cut = l.cut := by
  have hcut : (l.balance + d)⁻ = 0 := negPart_eq_zero.2 hd
  simp [change, hk, hcut]

end Ordered

end Ledger

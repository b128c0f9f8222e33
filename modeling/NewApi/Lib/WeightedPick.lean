/-
**Picking from a list by weights.**

A number is compared with the running sums of the weights of a list, and the first element whose sum
goes beyond it is picked.  If the number runs through all those below the sum of the weights, an
element is picked as often as its weight says, once for each time it is in the list.

Main definitions:

* `WeightedPick.pick` — the element that is picked;
* `WeightedPick.draws` — how many numbers pick an element.

Main results:

* `WeightedPick.exists_pick` — something is picked;
* `WeightedPick.draws_eq` — **how often an element is picked**.
-/

import Mathlib.Algebra.Order.BigOperators.Group.List
import Mathlib.Tactic.Ring

set_option autoImplicit false

namespace WeightedPick

variable {α : Type*} (weight : α → ℤ)

/-- The first element at which the running sum of the weights goes beyond `r`. -/
def pick : ℤ → List α → Option α
  | _, [] => none
  | r, a :: l => if r < weight a then some a else pick (r - weight a) l

/-- The sum of the weights. -/
def total (l : List α) : ℤ := (l.map weight).sum

/-- How many of the numbers below the sum of the weights pick an element. -/
def draws [DecidableEq α] (l : List α) (a : α) : ℕ :=
  (List.range (total weight l).toNat).countP fun r : ℕ => pick weight (r : ℤ) l = some a

@[simp] theorem total_nil : total weight [] = 0 := rfl

@[simp] theorem total_cons (a : α) (l : List α) :
    total weight (a :: l) = weight a + total weight l := by
  simp [total]

variable {weight}

theorem total_nonneg {l : List α} (hl : ∀ a ∈ l, 0 ≤ weight a) : 0 ≤ total weight l :=
  List.sum_nonneg fun n hn => by
    obtain ⟨a, ha, rfl⟩ := List.mem_map.1 hn
    exact hl a ha

/-- The sum of a constant weight. -/
theorem total_const (n : ℤ) (l : List α) : total (fun _ => n) l = l.length * n := by
  induction l with
  | nil => simp
  | cons a l ih =>
    rw [total_cons, ih, List.length_cons]
    push_cast
    ring

/-- **Something is picked** by every number below the sum of the weights. -/
theorem exists_pick {l : List α} (hne : l ≠ []) {r : ℤ} (hr : r < total weight l) :
    ∃ a ∈ l, pick weight r l = some a := by
  induction l generalizing r with
  | nil => exact absurd rfl hne
  | cons b l ih =>
    by_cases hb : r < weight b
    · exact ⟨b, List.mem_cons_self, by rw [pick, if_pos hb]⟩
    · rw [total_cons] at hr
      have hrest : l ≠ [] := by
        rintro rfl
        rw [total_nil] at hr
        omega
      obtain ⟨a, ha, hpick⟩ := ih hrest (by omega : r - weight b < total weight l)
      exact ⟨a, List.mem_cons_of_mem b ha, by rw [pick, if_neg hb, hpick]⟩

section Draws

variable [DecidableEq α]

/-- The numbers that are below the weight of the first element pick it. -/
theorem countP_first (a b : α) (l : List α) :
    (List.range (weight b).toNat).countP (fun r : ℕ => pick weight (r : ℤ) (b :: l) = some a) =
      if b = a then (weight b).toNat else 0 := by
  have hpick : ∀ r ∈ List.range (weight b).toNat,
      (pick weight (r : ℤ) (b :: l) = some a ↔ b = a) := by
    intro r hr
    have hlt := List.mem_range.1 hr
    rw [pick, if_pos (by omega), Option.some_inj]
  split
  · rename_i heq
    rw [List.countP_eq_length.2, List.length_range]
    intro r hr
    exact decide_eq_true ((hpick r hr).2 heq)
  · rename_i hne
    rw [List.countP_eq_zero]
    intro r hr hsome
    exact hne ((hpick r hr).1 (of_decide_eq_true hsome))

omit [DecidableEq α] in
/-- The other numbers pick what they pick of the rest without that weight. -/
theorem pick_rest {b : α} (hb : 0 ≤ weight b) (r : ℕ) (l : List α) :
    pick weight (((weight b).toNat + r : ℕ) : ℤ) (b :: l) = pick weight r l := by
  have hcast : (((weight b).toNat + r : ℕ) : ℤ) = weight b + r := by omega
  rw [hcast, pick, if_neg (by omega), add_sub_cancel_left]

/-- **How often an element is picked**: its weight, for each time it is in the list. -/
theorem draws_eq {l : List α} (hl : ∀ a ∈ l, 0 ≤ weight a) (a : α) :
    (draws weight l a : ℤ) = l.count a * weight a := by
  induction l with
  | nil => simp [draws]
  | cons b l ih =>
    have hb : 0 ≤ weight b := hl b List.mem_cons_self
    have hrest : ∀ c ∈ l, 0 ≤ weight c := fun c hc => hl c (List.mem_cons_of_mem b hc)
    have hsum : (total weight (b :: l)).toNat = (weight b).toNat + (total weight l).toNat := by
      have hnonneg := total_nonneg hrest
      rw [total_cons]
      omega
    have hdraws : draws weight (b :: l) a =
        (if b = a then (weight b).toNat else 0) + draws weight l a := by
      rw [draws, hsum, List.range_add, List.countP_append, countP_first, List.countP_map]
      congr 1
      refine List.countP_congr fun r _ => ?_
      simp only [Function.comp_apply, pick_rest hb]
    rw [hdraws, Nat.cast_add, ih hrest]
    by_cases heq : b = a
    · subst heq
      rw [if_pos rfl, List.count_cons_self, Int.toNat_of_nonneg hb]
      push_cast
      ring
    · rw [if_neg heq, Nat.cast_zero, zero_add, List.count_cons_of_ne heq]

end Draws

end WeightedPick

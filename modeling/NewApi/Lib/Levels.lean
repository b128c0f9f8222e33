/-
**The n-th largest element of a finite set.**

It is the element that `n` others exceed; there is at most one, and in a list in descending order it
stands at the place `n`.

Main definitions:

* `Levels.IsLevel` — the element that is exceeded by `n` others.

Main results:

* `Levels.IsLevel.unique` — there is only one;
* `Levels.isLevel_getElem` — **a list in descending order** goes through the levels in turn.
-/

import Mathlib.Data.Finset.Card
import Mathlib.Data.List.Sort

set_option autoImplicit false

namespace Levels

variable {α : Type*} [LinearOrder α]

/-- The element of a set that is exceeded by `n` others. -/
def IsLevel (s : Finset α) (n : ℕ) (a : α) : Prop := a ∈ s ∧ (s.filter (a < ·)).card = n

instance decidableIsLevel (s : Finset α) (n : ℕ) (a : α) : Decidable (IsLevel s n a) :=
  inferInstanceAs (Decidable (_ ∧ _))

/-- A smaller element is exceeded by more. -/
theorem card_lt_of_lt {s : Finset α} {a b : α} (hb : b ∈ s) (hlt : a < b) :
    (s.filter (b < ·)).card < (s.filter (a < ·)).card := by
  apply Finset.card_lt_card
  constructor
  · intro c hc
    obtain ⟨hmem, hbc⟩ := Finset.mem_filter.1 hc
    exact Finset.mem_filter.2 ⟨hmem, hlt.trans hbc⟩
  · intro hsub
    have hmem := hsub (Finset.mem_filter.2 ⟨hb, hlt⟩)
    exact lt_irrefl b (Finset.mem_filter.1 hmem).2

/-- **There is one element of a level.** -/
theorem IsLevel.unique {s : Finset α} {n : ℕ} {a b : α} (ha : IsLevel s n a)
    (hb : IsLevel s n b) : a = b := by
  rcases lt_trichotomy a b with hlt | heq | hlt
  · have hcard := card_lt_of_lt hb.1 hlt
    rw [ha.2, hb.2] at hcard
    exact absurd hcard (lt_irrefl n)
  · exact heq
  · have hcard := card_lt_of_lt ha.1 hlt
    rw [ha.2, hb.2] at hcard
    exact absurd hcard (lt_irrefl n)

/-- The first level is the largest element. -/
theorem isLevel_zero {s : Finset α} {a : α} (ha : a ∈ s) (hmax : ∀ b ∈ s, b ≤ a) :
    IsLevel s 0 a := by
  refine ⟨ha, Finset.card_eq_zero.2 (Finset.filter_eq_empty_iff.2 ?_)⟩
  intro b hb hlt
  exact absurd hlt (not_lt.2 (hmax b hb))

/-- **A list in descending order** goes through the levels of its elements in turn. -/
theorem isLevel_getElem {l : List α} (hl : l.Pairwise (· > ·)) {n : ℕ} (hn : n < l.length) :
    IsLevel l.toFinset n l[n] := by
  induction l generalizing n with
  | nil => exact absurd hn (Nat.not_lt_zero n)
  | cons a l ih =>
    obtain ⟨hfirst, hrest⟩ := List.pairwise_cons.1 hl
    cases n with
    | zero =>
      refine isLevel_zero (by simp) ?_
      intro b hb
      rcases List.mem_cons.1 (List.mem_toFinset.1 hb) with rfl | hb
      · exact le_rfl
      · exact (hfirst b hb).le
    | succ n =>
      have hn' : n < l.length := by simpa using hn
      obtain ⟨hmem, hcard⟩ := ih hrest hn'
      have hlt : l[n] < a := hfirst _ (List.getElem_mem hn')
      have hnew : a ∉ (l.toFinset.filter (l[n] < ·)) := by
        intro ha
        have hmem' := List.mem_toFinset.1 (Finset.mem_filter.1 ha).1
        exact lt_irrefl a (hfirst a hmem')
      rw [List.getElem_cons_succ, IsLevel, List.toFinset_cons]
      refine ⟨Finset.mem_insert_of_mem hmem, ?_⟩
      rw [Finset.filter_insert, if_pos hlt, Finset.card_insert_of_notMem hnew, hcard]

/-- The elements of a list without repetition, the largest first. -/
def descending (l : List α) : List α := l.dedup.insertionSort fun a b => b ≤ a

theorem descending_pairwise (l : List α) : (descending l).Pairwise (· > ·) := by
  have hsorted : (descending l).Pairwise fun a b => b ≤ a := List.pairwise_insertionSort _ _
  have hnodup : (descending l).Nodup :=
    (List.perm_insertionSort _ l.dedup).nodup_iff.2 (List.nodup_dedup l)
  exact (hsorted.and hnodup).imp fun h => lt_of_le_of_ne h.1 (Ne.symm h.2)

theorem mem_descending {l : List α} {a : α} : a ∈ descending l ↔ a ∈ l := by
  rw [descending, (List.perm_insertionSort _ l.dedup).mem_iff, List.mem_dedup]

theorem toFinset_descending (l : List α) : (descending l).toFinset = l.toFinset := by
  ext a
  rw [List.mem_toFinset, List.mem_toFinset, mem_descending]

theorem length_descending (l : List α) : (descending l).length = l.toFinset.card := by
  rw [← toFinset_descending, List.toFinset_card_of_nodup]
  exact (descending_pairwise l).imp fun h => (ne_of_gt h)

end Levels

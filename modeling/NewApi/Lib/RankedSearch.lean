/-
**The first match of a ranked list.**

A list that is sorted by a rank and searched from its front yields a match of the highest rank.  A
sort that need not be stable leaves open which of several it is: every match of the highest rank is
found under some sort.

Main definitions:

* `RankedSearch.Sorter` — a way to sort by a rank, highest first, in any order where ranks agree;
* `RankedSearch.TopMatch` — a match of the highest rank.

Main results:

* `RankedSearch.find?_sort` — what is found is a match of the highest rank;
* `RankedSearch.exists_sort_find?` — **every match of the highest rank is found under some sort**.
-/

import Mathlib.Data.List.Sort

set_option autoImplicit false

namespace RankedSearch

variable {α : Type*}

/-- A way to sort lists by a rank, highest first. -/
structure Sorter (rank : α → ℕ) where
  sort : List α → List α
  perm : ∀ l, (sort l).Perm l
  sorted : ∀ l, (sort l).Pairwise fun a b => rank b ≤ rank a

/-- `a` is a match in the list that no match has a higher rank than. -/
def TopMatch (rank : α → ℕ) (matched : α → Bool) (l : List α) (a : α) : Prop :=
  a ∈ l ∧ matched a = true ∧ ∀ b ∈ l, matched b = true → rank b ≤ rank a

variable {rank : α → ℕ} {matched : α → Bool} {l : List α} {a : α}

/-- **What is found is a match of the highest rank.** -/
theorem find?_sort (s : Sorter rank) (h : (s.sort l).find? matched = some a) :
    TopMatch rank matched l a := by
  obtain ⟨hmatched, before, after, hsplit, hnone⟩ := List.find?_eq_some_iff_append.1 h
  refine ⟨(s.perm l).mem_iff.1 (List.mem_of_find?_eq_some h), hmatched, fun b hb hmatch => ?_⟩
  have hsorted := s.sorted l
  rw [hsplit] at hsorted
  have hb' := (s.perm l).mem_iff.2 hb
  rw [hsplit, List.mem_append] at hb'
  rcases hb' with hb' | hb'
  · -- A match before the first one is none.
    have hno := hnone b hb'
    rw [hmatch] at hno
    exact absurd hno (by decide)
  · rcases List.mem_cons.1 hb' with rfl | hb'
    · exact le_refl _
    · exact List.rel_of_pairwise_cons (List.pairwise_append.1 hsorted).2.1 hb'

theorem find?_sort_eq_none (s : Sorter rank) :
    (s.sort l).find? matched = none ↔ ∀ a ∈ l, matched a = false := by
  rw [List.find?_eq_none]
  refine forall_congr' fun a => ?_
  rw [(s.perm l).mem_iff, Bool.not_eq_true]

/-- The order of the rank that puts the elements chosen first among those of one rank. -/
def ranksBefore (rank : α → ℕ) (chosen : α → Bool) (a b : α) : Bool :=
  decide (rank b < rank a) || (decide (rank a = rank b) && (chosen a || !chosen b))

theorem pairwise_mergeSort (rank : α → ℕ) (chosen : α → Bool) (l : List α) :
    (l.mergeSort (ranksBefore rank chosen)).Pairwise
      fun a b => ranksBefore rank chosen a b = true := by
  refine List.pairwise_mergeSort ?_ ?_ l
  · intro a b c hab hbc
    simp only [ranksBefore, Bool.or_eq_true, Bool.and_eq_true, decide_eq_true_eq] at hab hbc ⊢
    rcases hab with hab | ⟨hab, hab'⟩
    · exact .inl (by omega)
    · rcases hbc with hbc | ⟨hbc, hbc'⟩
      · exact .inl (by omega)
      · refine .inr ⟨by omega, ?_⟩
        rcases hab' with hab' | hab'
        · exact .inl hab'
        · rcases hbc' with hbc' | hbc'
          · rw [hbc'] at hab'
            exact absurd hab' (by decide)
          · exact .inr hbc'
  · intro a b
    simp only [ranksBefore, Bool.or_eq_true, Bool.and_eq_true, decide_eq_true_eq]
    rcases lt_trichotomy (rank a) (rank b) with h | h | h
    · exact .inr (.inl h)
    · cases hchosen : chosen a with
      | true => exact .inl (.inr ⟨h, .inl rfl⟩)
      | false => exact .inr (.inr ⟨h.symm, .inr rfl⟩)
    · exact .inl (.inl h)

/-- Sorting by a rank with the chosen elements first among those of one rank. -/
def choosing (rank : α → ℕ) (chosen : α → Bool) : Sorter rank where
  sort l := l.mergeSort (ranksBefore rank chosen)
  perm l := List.mergeSort_perm l _
  sorted l := by
    refine (pairwise_mergeSort rank chosen l).imp fun {a b} h => ?_
    simp only [ranksBefore, Bool.or_eq_true, Bool.and_eq_true, decide_eq_true_eq] at h
    omega

/-- **Every match of the highest rank is found under some sort.** -/
theorem exists_sort_find? [DecidableEq α] (h : TopMatch rank matched l a) :
    ∃ s : Sorter rank, (s.sort l).find? matched = some a := by
  refine ⟨choosing rank (· == a), ?_⟩
  cases hfound : ((choosing rank (· == a)).sort l).find? matched with
  | none =>
    have hno := (find?_sort_eq_none _).1 hfound a h.1
    rw [h.2.1] at hno
    exact absurd hno (by decide)
  | some b =>
    have htop := find?_sort _ hfound
    obtain ⟨-, before, after, hsplit, hnone⟩ := List.find?_eq_some_iff_append.1 hfound
    have hmem := ((choosing rank (· == a)).perm l).mem_iff.2 h.1
    have hsorted := pairwise_mergeSort rank (· == a) l
    change ((choosing rank (· == a)).sort l).Pairwise _ at hsorted
    rw [hsplit] at hmem hsorted
    rcases List.mem_append.1 hmem with hmem | hmem
    · -- `a` matches, and no match is before the first one.
      have hno := hnone a hmem
      rw [h.2.1] at hno
      exact absurd hno (by decide)
    rcases List.mem_cons.1 hmem with rfl | hmem
    · rfl
    · -- The element chosen stands before the others of its rank.
      have hbefore := List.rel_of_pairwise_cons (List.pairwise_append.1 hsorted).2.1 hmem
      have hrank : rank b = rank a :=
        le_antisymm (h.2.2 b htop.1 htop.2.1) (htop.2.2 a h.1 h.2.1)
      have hsame : b = a := by simpa [ranksBefore, hrank] using hbefore
      rw [hsame]

end RankedSearch

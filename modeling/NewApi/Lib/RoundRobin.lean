/-
**Taking turns among selected positions.**

Positions `0, …, size - 1` are gone through in a circle, beginning where the last turn ended, and
the first selected one is picked.  The rank of a position is the number of selected positions before
it.  A pick has the rank of the place the search began at, modulo the number of selected positions,
and the next search begins one rank further.  So the ranks of the picks run through the residues in
order, and every selected position gets its share of any number of turns.

Main definitions:

* `RoundRobin.firstFrom` — the first selected position from a place on;
* `RoundRobin.Turns` — the places and the picks of turns that follow each other.

Main results:

* `RoundRobin.firstFrom_rank` — the rank of a pick;
* `RoundRobin.Turns.count_picks` — **of `n` turns every selected position is picked in `n / m`, or
  in one more**, where `m` positions are selected.
-/

import Mathlib

set_option autoImplicit false

namespace RoundRobin

section Turns

variable {p : ℕ → Prop} [DecidablePred p] {size : ℕ}

/-- The first selected position from `start` on, the positions taken in a circle. -/
def firstFrom (p : ℕ → Prop) [DecidablePred p] (size start : ℕ) : Option ℕ :=
  ((List.range size).map fun i => (start + i) % size).find? fun idx => p idx

/-- What is picked is selected, and nothing is between the place the search began at and it. -/
theorem firstFrom_some {start idx : ℕ} (h : firstFrom p size start = some idx) :
    p idx ∧ ∃ i < size, idx = (start + i) % size ∧ ∀ j < i, ¬ p ((start + j) % size) := by
  unfold firstFrom at h
  rw [List.find?_map] at h
  obtain ⟨i, hfind, rfl⟩ := Option.map_eq_some_iff.1 h
  rw [List.find?_range_eq_some] at hfind
  obtain ⟨hp, hmem, hfirst⟩ := hfind
  refine ⟨by simpa using hp, i, by simpa using hmem, rfl, ?_⟩
  intro j hj
  simpa using hfirst j hj

/-- Something is picked if anything is selected. -/
theorem firstFrom_isSome {start i : ℕ} (hstart : start < size) (hi : i < size) (hp : p i) :
    (firstFrom p size start).isSome := by
  unfold firstFrom
  rw [List.find?_isSome]
  refine ⟨i, List.mem_map.2 ?_, by simpa using hp⟩
  by_cases hle : start ≤ i
  · refine ⟨i - start, List.mem_range.2 (by omega), ?_⟩
    rw [show start + (i - start) = i by omega, Nat.mod_eq_of_lt hi]
  · refine ⟨i + size - start, List.mem_range.2 (by omega), ?_⟩
    rw [show start + (i + size - start) = i + size by omega, Nat.add_mod_right,
      Nat.mod_eq_of_lt hi]

/-- Where nothing is selected the ranks do not grow. -/
theorem count_eq_of_not {a b : ℕ} (hle : a ≤ b) (h : ∀ i, a ≤ i → i < b → ¬ p i) :
    Nat.count p b = Nat.count p a := by
  induction b, hle using Nat.le_induction with
  | base => rfl
  | succ b hb ih =>
    rw [Nat.count_succ, if_neg (h b hb (by omega)), add_zero]
    exact ih fun i hi hlt => h i hi (by omega)

/-- **The rank of a pick** is that of the place the search began at, modulo the number of selected
positions. -/
theorem firstFrom_rank {start idx : ℕ} (hstart : start < size)
    (h : firstFrom p size start = some idx) :
    p idx ∧ idx < size ∧ Nat.count p idx = Nat.count p start % Nat.count p size := by
  obtain ⟨hp, i, hi, hidx, hfirst⟩ := firstFrom_some h
  have hlt : idx < size := by
    rw [hidx]
    exact Nat.mod_lt _ (by omega)
  have hrank : Nat.count p idx < Nat.count p size := Nat.count_strict_mono hp hlt
  refine ⟨hp, hlt, ?_⟩
  by_cases hwrap : start + i < size
  · rw [Nat.mod_eq_of_lt hwrap] at hidx
    have hsame : Nat.count p idx = Nat.count p start := by
      refine count_eq_of_not (by omega) ?_
      intro k hk hlt' hpk
      refine hfirst (k - start) (by omega) ?_
      rwa [show start + (k - start) = k by omega, Nat.mod_eq_of_lt (by omega)]
    rw [← hsame, Nat.mod_eq_of_lt hrank]
  · -- the search has come round: nothing is selected after the beginning, nor before the pick
    have hback : (start + i) % size = start + i - size := by
      rw [Nat.mod_eq_sub_mod (by omega), Nat.mod_eq_of_lt (by omega)]
    have hafter : Nat.count p size = Nat.count p start := by
      refine count_eq_of_not (by omega) ?_
      intro k hk hlt' hpk
      refine hfirst (k - start) (by omega) ?_
      rwa [show start + (k - start) = k by omega, Nat.mod_eq_of_lt hlt']
    have hbefore : Nat.count p idx = Nat.count p 0 := by
      refine count_eq_of_not (by omega) ?_
      intro k _ hlt' hpk
      refine hfirst (k + size - start) (by omega) ?_
      rwa [show start + (k + size - start) = k + size by omega, Nat.add_mod_right,
        Nat.mod_eq_of_lt (by omega)]
    rw [hbefore, ← hafter, Nat.mod_self, Nat.count_zero]

/-- Turns that follow each other: where each begins to search, and what it picks. -/
structure Turns (p : ℕ → Prop) [DecidablePred p] (size : ℕ) (starts picks : ℕ → ℕ) : Prop where
  lt : ∀ t, starts t < size
  pick : ∀ t, firstFrom p size (starts t) = some (picks t)
  next : ∀ t, starts (t + 1) = (picks t + 1) % size

namespace Turns

variable {starts picks : ℕ → ℕ}

/-- A turn begins one rank after the last one. -/
theorem rank_starts (h : Turns p size starts picks) (t : ℕ) :
    Nat.count p (starts (t + 1)) % Nat.count p size =
      (Nat.count p (starts t) + 1) % Nat.count p size := by
  obtain ⟨hp, hlt, hrank⟩ := firstFrom_rank (h.lt t) (h.pick t)
  have hsucc : Nat.count p (picks t + 1) = Nat.count p (picks t) + 1 := by
    rw [Nat.count_succ, if_pos hp]
  rw [h.next]
  by_cases hlast : picks t + 1 = size
  · rw [hlast, Nat.mod_self, Nat.count_zero, Nat.zero_mod]
    rw [hlast] at hsucc
    rw [Nat.add_mod, ← hrank, ← Nat.add_mod_mod, hsucc]
    simp
  · have hsmall : (picks t + 1) % size = picks t + 1 := Nat.mod_eq_of_lt (by omega)
    rw [hsmall, hsucc, hrank, Nat.mod_add_mod]

/-- The ranks of the picks run through the residues. -/
theorem rank_picks (h : Turns p size starts picks) (t : ℕ) :
    Nat.count p (picks t) = (Nat.count p (starts 0) + t) % Nat.count p size := by
  have hstarts : ∀ t, Nat.count p (starts t) % Nat.count p size =
      (Nat.count p (starts 0) + t) % Nat.count p size := by
    intro t
    induction t with
    | zero => rfl
    | succ t ih => rw [h.rank_starts, Nat.add_mod, ih, ← Nat.add_mod, add_assoc]
  rw [(firstFrom_rank (h.lt t) (h.pick t)).2.2, hstarts]

/-- **Every selected position gets its share**: of `n` turns, `n / m` or one more. -/
theorem count_picks (h : Turns p size starts picks) {i : ℕ} (hi : i < size) (hp : p i) (n : ℕ) :
    n / Nat.count p size ≤ Nat.count (fun t => picks t = i) n ∧
      Nat.count (fun t => picks t = i) n ≤ (n + Nat.count p size - 1) / Nat.count p size := by
  have hpos : 0 < Nat.count p size := by
    have := Nat.count_strict_mono hp hi
    omega
  have hrank : Nat.count p i < Nat.count p size := Nat.count_strict_mono hp hi
  generalize hm : Nat.count p size = m at hpos hrank ⊢
  -- the turns that pick `i` are those whose number has one residue
  obtain ⟨v, hv⟩ : ∃ v, ∀ t, picks t = i ↔ t ≡ v [MOD m] := by
    refine ⟨Nat.count p i + (m - Nat.count p (starts 0) % m), ?_⟩
    intro t
    have hpick := (firstFrom_rank (h.lt t) (h.pick t)).1
    have heq : picks t = i ↔ (Nat.count p (starts 0) + t) % m = Nat.count p i % m := by
      rw [Nat.mod_eq_of_lt hrank, ← hm, ← h.rank_picks]
      exact ⟨fun he => by rw [he], fun he => Nat.count_injective hpick hp he⟩
    have hless : Nat.count p (starts 0) % m < m := Nat.mod_lt _ hpos
    have hmod := Nat.mod_modEq (Nat.count p (starts 0)) m
    rw [heq]
    constructor
    · intro he
      have hsum : Nat.count p (starts 0) % m + t ≡ Nat.count p i [MOD m] :=
        (hmod.add_right t).trans he
      have hadd := hsum.add_right (m - Nat.count p (starts 0) % m)
      rw [show Nat.count p (starts 0) % m + t + (m - Nat.count p (starts 0) % m) = t + m by omega]
        at hadd
      exact ((Nat.add_modEq_right).symm.trans hadd)
    · intro he
      have hadd := he.add_left (Nat.count p (starts 0) % m)
      rw [show Nat.count p (starts 0) % m +
        (Nat.count p i + (m - Nat.count p (starts 0) % m)) = Nat.count p i + m by omega] at hadd
      exact ((hmod.add_right t).symm.trans hadd).trans Nat.add_modEq_right
  have hcount : Nat.count (fun t => picks t = i) n = Nat.count (· ≡ v [MOD m]) n := by
    simp only [hv]
  rw [hcount, Nat.count_modEq_card n hpos]
  by_cases hrest : v % m < n % m
  · rw [if_pos hrest]
    refine ⟨by omega, ?_⟩
    rw [Nat.le_div_iff_mul_le hpos]
    have hdiv := Nat.div_add_mod n m
    have hcomm : (n / m + 1) * m = m * (n / m) + m := by ring
    omega
  · rw [if_neg hrest]
    refine ⟨by omega, ?_⟩
    exact Nat.div_le_div_right (by omega)

end Turns

end Turns

end RoundRobin

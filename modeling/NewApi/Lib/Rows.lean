/-
**Tables of keyed rows.**

A table is a list of rows, each with a key.  `Rows.save` is the write an object mapper does for a
row it holds in memory: all columns are written to the row with that key, and a row whose key is
not in the table is inserted.  The lemmas say what a look-up by key finds after a write, and that
a write keeps whatever holds of every row and the keys' being distinct.

Main definitions:

* `Rows.first` — the first row with a key;
* `Rows.save` — write a row by its key;
* `Rows.update` — change the rows a predicate selects;
* `Rows.saveAll` — write several rows.

Main results:

* `Rows.first_save_self`, `Rows.first_save_of_ne` — **a look-up after a write**;
* `Rows.forall_save`, `Rows.nodup_save` — what a write keeps;
* `Rows.first_update` — a look-up after a change;
* `Rows.filter_map_of_fixed` — a selection of rows that a change does not concern;
* `Rows.length_filter_update`, `Rows.length_filter_save_lt` — a selection that rows are taken from;
* `Rows.first_saveAll`, `Rows.length_filter_saveAll` — the same for several writes.
-/

import Mathlib.Data.List.Basic
import Mathlib.Data.List.Nodup

set_option autoImplicit false

namespace Rows

variable {α κ : Type*} [DecidableEq κ] (key : α → κ)

/-! ### Look-up by key -/

/-- The first row with key `k`. -/
def first (k : κ) (rows : List α) : Option α := rows.find? fun r => key r = k

variable {key}

theorem mem_of_first {k : κ} {rows : List α} {r : α} (h : first key k rows = some r) :
    r ∈ rows := List.mem_of_find?_eq_some h

theorem key_of_first {k : κ} {rows : List α} {r : α} (h : first key k rows = some r) :
    key r = k := by simpa using List.find?_some h

theorem first_eq_none {k : κ} {rows : List α} : first key k rows = none ↔ ∀ r ∈ rows, key r ≠ k := by
  simp [first]

theorem first_append_of_ne {k : κ} {rows : List α} {r : α} (h : key r ≠ k) :
    first key k (rows ++ [r]) = first key k rows := by
  simp [first, List.find?_append, h]

theorem first_append_self {rows : List α} {r : α} (h : first key (key r) rows = none) :
    first key (key r) (rows ++ [r]) = some r := by
  simp only [first] at h
  simp [first, List.find?_append, h]

/-- In a table with distinct keys every row is the one its key finds. -/
theorem first_of_mem {rows : List α} (hnd : (rows.map key).Nodup) {r : α} (hr : r ∈ rows) :
    first key (key r) rows = some r := by
  induction rows with
  | nil => simp at hr
  | cons x rows ih =>
    rw [List.map_cons, List.nodup_cons] at hnd
    rcases List.mem_cons.1 hr with rfl | hr
    · simp [first]
    · have hne : key x ≠ key r := by
        intro he
        exact hnd.1 (he ▸ List.mem_map.2 ⟨r, hr, rfl⟩)
      have hrest := ih hnd.2 hr
      simp only [first] at hrest
      simp [first, hne, hrest]

/-- In a table with distinct keys the row that has a key and satisfies a predicate is the one the key
finds. -/
theorem find?_and_key {rows : List α} (hnd : (rows.map key).Nodup) (k : κ) (p : α → Bool) :
    (rows.find? fun r => key r = k && p r) = (first key k rows).filter p := by
  induction rows with
  | nil => rfl
  | cons x rows ih =>
    rw [List.map_cons, List.nodup_cons] at hnd
    have hrest := ih hnd.2
    by_cases hx : key x = k
    · have hfirst : first key k (x :: rows) = some x := by simp [first, hx]
      rw [hfirst, Option.filter_some]
      cases hp : p x with
      | true => simp [hx, hp]
      | false =>
        have hnone : first key k rows = none := by
          refine first_eq_none.2 fun y hy hk => hnd.1 ?_
          exact List.mem_map.2 ⟨y, hy, hk.trans hx.symm⟩
        rw [hnone, Option.filter_none] at hrest
        rw [List.find?_cons_of_neg (by simp [hp]), hrest]
        rfl
    · simp only [first] at hrest
      simp [first, hx, hrest]

/-! ### Writing a row -/

variable (key)

/-- Write the row `r`: every row with its key is replaced, a row with a new key is appended. -/
def save (r : α) (rows : List α) : List α :=
  if rows.any (fun x => key x = key r) then rows.map fun x => if key x = key r then r else x
  else rows ++ [r]

/-- Apply `f` to the rows that `p` selects. -/
def update (p : α → Bool) (f : α → α) (rows : List α) : List α :=
  rows.map fun x => if p x then f x else x

variable {key}

theorem mem_save {r x : α} {rows : List α} (h : x ∈ save key r rows) :
    x = r ∨ (x ∈ rows ∧ key x ≠ key r) := by
  unfold save at h
  split at h
  · obtain ⟨y, hy, rfl⟩ := List.mem_map.1 h
    by_cases hk : key y = key r
    · exact Or.inl (by simp [hk])
    · exact Or.inr (by simpa [hk] using hy)
  · rename_i hany
    rcases List.mem_append.1 h with hx | hx
    · refine Or.inr ⟨hx, fun hk => hany ?_⟩
      exact List.any_eq_true.2 ⟨x, hx, by simpa using hk⟩
    · exact Or.inl (by simpa using hx)

/-- The rows of a table after a row that was in it has been written. -/
theorem mem_save_iff {r x : α} {rows : List α} :
    x ∈ save key r rows ↔ x = r ∨ (x ∈ rows ∧ key x ≠ key r) := by
  refine ⟨mem_save, fun h => ?_⟩
  unfold save
  split
  · rename_i hany
    rcases h with rfl | ⟨hx, hne⟩
    · obtain ⟨y, hy, hk⟩ := List.any_eq_true.1 hany
      exact List.mem_map.2 ⟨y, hy, if_pos (by simpa using hk)⟩
    · exact List.mem_map.2 ⟨x, hx, if_neg hne⟩
  · rcases h with rfl | ⟨hx, _⟩
    · simp
    · exact List.mem_append.2 (Or.inl hx)

/-- Writing keeps whatever holds of every row, if it holds of the row written. -/
theorem forall_save {P : α → Prop} {r : α} {rows : List α} (hrows : ∀ x ∈ rows, P x) (hr : P r) :
    ∀ x ∈ save key r rows, P x := by
  intro x hx
  rcases mem_save hx with rfl | ⟨hx, _⟩
  · exact hr
  · exact hrows x hx

theorem keys_save (r : α) (rows : List α) :
    (save key r rows).map key =
      if rows.any (fun x => key x = key r) then rows.map key else rows.map key ++ [key r] := by
  unfold save
  split
  · rw [List.map_map]
    refine List.map_congr_left fun x _ => ?_
    by_cases hk : key x = key r <;> simp [hk]
  · simp

/-- Writing keeps the keys distinct. -/
theorem nodup_save {r : α} {rows : List α} (h : (rows.map key).Nodup) :
    ((save key r rows).map key).Nodup := by
  rw [keys_save]
  split
  · exact h
  · rename_i hany
    refine List.Nodup.append h (List.nodup_singleton _) ?_
    intro k hk hk'
    obtain ⟨x, hx, rfl⟩ := List.mem_map.1 hk
    exact hany (List.any_eq_true.2 ⟨x, hx, by simpa using hk'⟩)

/-- A look-up finds the row just written. -/
theorem first_save_self (r : α) (rows : List α) : first key (key r) (save key r rows) = some r := by
  unfold save
  split
  · rename_i hany
    obtain ⟨y, hy, hk⟩ := List.any_eq_true.1 hany
    have hk : key y = key r := by simpa using hk
    clear hany
    induction rows with
    | nil => simp at hy
    | cons x rows ih =>
      by_cases hx : key x = key r
      · simp [first, hx]
      · have hy : y ∈ rows := by
          rcases List.mem_cons.1 hy with rfl | hy
          · exact absurd hk hx
          · exact hy
        have hrest := ih hy
        simp only [first] at hrest
        simp [first, hx, hrest]
  · rename_i hany
    refine first_append_self (first_eq_none.2 fun x hx hk => hany ?_)
    exact List.any_eq_true.2 ⟨x, hx, by simpa using hk⟩

/-- Two rows of a table with distinct keys that have the same key are one row. -/
theorem eq_of_key_eq {rows : List α} (hnd : (rows.map key).Nodup) {x y : α} (hx : x ∈ rows)
    (hy : y ∈ rows) (h : key x = key y) : x = y := by
  have hfx := first_of_mem hnd hx
  have hfy := first_of_mem hnd hy
  rw [h, hfy] at hfx
  exact (Option.some.inj hfx).symm

/-- A look-up by another key than the one written under finds the same row, as it is now, when the
write changes that other key of no row. -/
theorem first_save_other {κ₂ : Type*} [DecidableEq κ₂] {key₂ : α → κ₂} {k : κ₂} {y : α}
    {rows : List α} (hmem : ∃ z ∈ rows, key z = key y)
    (hkey : ∀ z ∈ rows, key z = key y → key₂ z = key₂ y) :
    first key₂ k (save key y rows) =
      (first key₂ k rows).map fun z => if key z = key y then y else z := by
  have hany : rows.any (fun x => key x = key y) = true := by
    obtain ⟨z, hz, hk⟩ := hmem
    exact List.any_eq_true.2 ⟨z, hz, by simpa using hk⟩
  rw [save, if_pos hany]
  clear hany hmem
  induction rows with
  | nil => rfl
  | cons x rows ih =>
    have hrest := ih fun z hz => hkey z (List.mem_cons_of_mem x hz)
    simp only [first] at hrest
    have hkeep : key₂ (if key x = key y then y else x) = key₂ x := by
      split
      · rename_i hk
        exact (hkey x List.mem_cons_self hk).symm
      · rfl
    simp only [first, List.map_cons, List.find?_cons, hkeep]
    split
    · rfl
    · exact hrest

/-- A look-up finds the changed row, when the change leaves the keys alone. -/
theorem first_update {p : α → Bool} {f : α → α} (hkey : ∀ x, key (f x) = key x) (k : κ)
    (rows : List α) :
    first key k (update p f rows) = (first key k rows).map fun x => if p x then f x else x := by
  induction rows with
  | nil => rfl
  | cons x rows ih =>
    have hkeep : key (if p x then f x else x) = key x := by
      split
      · exact hkey x
      · rfl
    simp only [first, update] at ih
    simp only [first, update, List.map_cons, List.find?_cons, hkeep]
    split
    · rfl
    · exact ih

/-- The rows a predicate selects are the same after a change of rows it does not select. -/
theorem filter_map_of_fixed {p : α → Bool} {f : α → α} {rows : List α}
    (hp : ∀ x ∈ rows, p (f x) = p x) (hf : ∀ x ∈ rows, p x = true → f x = x) :
    (rows.map f).filter p = rows.filter p := by
  induction rows with
  | nil => rfl
  | cons x rows ih =>
    have hrest := ih (fun y hy => hp y (List.mem_cons_of_mem x hy))
      fun y hy => hf y (List.mem_cons_of_mem x hy)
    rw [List.map_cons, List.filter_cons, List.filter_cons, hp x List.mem_cons_self, hrest]
    split
    · rename_i hx
      rw [hf x List.mem_cons_self hx]
    · rfl

/-- A change that takes some rows out of a selection: those it takes and those that stay are the
selection before. -/
theorem length_filter_update {p q : α → Bool} {f : α → α} {rows : List α}
    (hbefore : ∀ x ∈ rows, p x = true → q x = true)
    (hafter : ∀ x ∈ rows, p x = true → q (f x) = false) :
    ((update p f rows).filter q).length + (rows.filter p).length = (rows.filter q).length := by
  induction rows with
  | nil => rfl
  | cons x rows ih =>
    have hrest := ih (fun y hy => hbefore y (List.mem_cons_of_mem x hy))
      fun y hy => hafter y (List.mem_cons_of_mem x hy)
    simp only [update] at hrest ⊢
    cases hp : p x with
    | true =>
      simp only [List.map_cons, hp, if_true, List.filter_cons, hbefore x List.mem_cons_self hp,
        hafter x List.mem_cons_self hp, List.length_cons, Bool.false_eq_true, if_false]
      omega
    | false =>
      cases hq : q x with
      | true =>
        simp only [List.map_cons, hp, if_false, List.filter_cons, hq, if_true,
          List.length_cons, Bool.false_eq_true]
        omega
      | false =>
        simp only [List.map_cons, hp, if_false, List.filter_cons, hq, Bool.false_eq_true]
        exact hrest

/-- Writing a row that is in the table as it is does nothing. -/
theorem save_of_mem {r : α} {rows : List α} (hnd : (rows.map key).Nodup) (hr : r ∈ rows) :
    save key r rows = rows := by
  have hany : rows.any (fun x => key x = key r) = true :=
    List.any_eq_true.2 ⟨r, hr, by simp⟩
  rw [save, if_pos hany]
  refine (List.map_congr_left fun x hx => ?_).trans (List.map_id rows)
  split
  · rename_i hk
    exact (eq_of_key_eq hnd hx hr hk).symm
  · rfl

/-- A write of a row that is not selected leaves no more rows in a selection. -/
theorem length_filter_save_le {q : α → Bool} {r : α} {rows : List α} (hr : q r = false) :
    ((save key r rows).filter q).length ≤ (rows.filter q).length := by
  unfold save
  split
  · clear * - hr
    induction rows with
    | nil => exact Nat.le_refl _
    | cons x rows ih =>
      have hrest : (rows.filter q).length ≤ ((x :: rows).filter q).length := by
        rw [List.filter_cons]
        split
        · exact Nat.le_succ _
        · exact Nat.le_refl _
      rw [List.map_cons]
      by_cases hk : key x = key r
      · rw [if_pos hk, List.filter_cons_of_neg (by simp [hr])]
        exact Nat.le_trans ih hrest
      · rw [if_neg hk, List.filter_cons, List.filter_cons]
        split
        · exact Nat.succ_le_succ ih
        · exact ih
  · simp [hr]

/-- A write that takes its row out of a selection leaves fewer rows in it. -/
theorem length_filter_save_lt {q : α → Bool} {r x : α} {rows : List α}
    (hnd : (rows.map key).Nodup) (hx : x ∈ rows) (hkey : key x = key r) (hbefore : q x = true)
    (hafter : q r = false) : ((save key r rows).filter q).length < (rows.filter q).length := by
  have hany : rows.any (fun y => key y = key r) = true :=
    List.any_eq_true.2 ⟨x, hx, by simpa using hkey⟩
  have hsave : save key r rows = update (fun y => key y = key r) (fun _ => r) rows := by
    rw [save, if_pos hany, update]
    simp
  have hselected : ∀ y ∈ rows, decide (key y = key r) = true → q y = true := by
    intro y hy hp
    rw [eq_of_key_eq hnd hy hx ((of_decide_eq_true hp).trans hkey.symm)]
    exact hbefore
  have hremoved : ∀ y ∈ rows, decide (key y = key r) = true → q r = false := fun _ _ _ => hafter
  have hlength := length_filter_update hselected hremoved
  have hone : 0 < (rows.filter fun y => key y = key r).length :=
    List.length_pos_of_mem (List.mem_filter.2 ⟨hx, by simpa using hkey⟩)
  rw [hsave]
  omega

/-- A look-up by another key does not see the write. -/
theorem first_save_of_ne {k : κ} {r : α} {rows : List α} (h : key r ≠ k) :
    first key k (save key r rows) = first key k rows := by
  unfold save
  split
  · clear * - h
    induction rows with
    | nil => rfl
    | cons x rows ih =>
      simp only [first] at ih
      by_cases hx : key x = key r
      · simp [first, hx, h, ih]
      · simp only [first, List.map_cons, if_neg hx, List.find?_cons]
        split <;> simp_all
  · exact first_append_of_ne h

/-! ### Writing several rows -/

variable (key) in
/-- Write, for each row of `rs`, the row that `g` makes of it. -/
def saveAll (g : α → α) (rs rows : List α) : List α := rs.foldl (fun rows r => save key (g r) rows) rows

variable {g : α → α}

theorem nodup_saveAll {rs rows : List α} (hnd : (rows.map key).Nodup) :
    ((saveAll key g rs rows).map key).Nodup := by
  induction rs generalizing rows with
  | nil => exact hnd
  | cons r rs ih => exact ih (nodup_save hnd)

theorem mem_saveAll {rs rows : List α} {x : α} (h : x ∈ saveAll key g rs rows) :
    x ∈ rows ∨ ∃ r ∈ rs, x = g r := by
  induction rs generalizing rows with
  | nil => exact .inl h
  | cons r rs ih =>
    rcases ih h with hx | ⟨y, hy, rfl⟩
    · rcases mem_save hx with rfl | ⟨hx, _⟩
      · exact .inr ⟨r, List.mem_cons_self, rfl⟩
      · exact .inl hx
    · exact .inr ⟨y, List.mem_cons_of_mem r hy, rfl⟩

theorem first_saveAll_of_notMem (hkey : ∀ r, key (g r) = key r) {rs rows : List α} {k : κ}
    (hk : k ∉ rs.map key) : first key k (saveAll key g rs rows) = first key k rows := by
  induction rs generalizing rows with
  | nil => rfl
  | cons r rs ih =>
    rw [List.map_cons, List.mem_cons, not_or] at hk
    refine (ih hk.2).trans (first_save_of_ne ?_)
    rw [hkey]
    exact Ne.symm hk.1

/-- A look-up by the key of a row that has been written. -/
theorem first_saveAll (hkey : ∀ r, key (g r) = key r) {rs rows : List α} (hrs : (rs.map key).Nodup)
    {r : α} (hr : r ∈ rs) : first key (key r) (saveAll key g rs rows) = some (g r) := by
  induction rs generalizing rows with
  | nil => simp at hr
  | cons x rs ih =>
    rw [List.map_cons, List.nodup_cons] at hrs
    rcases List.mem_cons.1 hr with rfl | hr
    · refine (first_saveAll_of_notMem hkey hrs.1).trans ?_
      rw [← hkey r]
      exact first_save_self (g r) rows
    · exact ih hrs.2 hr

/-- Where the writes take the rows that `p` selects out of a selection and leave the others as they
are, the selection has lost as many rows as `p` selects. -/
theorem length_filter_saveAll {p q : α → Bool} (hkey : ∀ r, key (g r) = key r) {rs rows : List α}
    (hnd : (rows.map key).Nodup) (hrs : (rs.map key).Nodup) (hmem : ∀ r ∈ rs, r ∈ rows)
    (hbefore : ∀ r ∈ rs, q r = true) (hafter : ∀ r ∈ rs, p r = true → q (g r) = false)
    (hkept : ∀ r ∈ rs, p r = false → g r = r) :
    ((saveAll key g rs rows).filter q).length + (rs.filter p).length ≤ (rows.filter q).length := by
  induction rs generalizing rows with
  | nil => exact Nat.le_refl _
  | cons x rs ih =>
    rw [List.map_cons, List.nodup_cons] at hrs
    have hmem' : ∀ r ∈ rs, r ∈ save key (g x) rows := by
      intro r hr
      refine mem_save_iff.2 (.inr ⟨hmem r (List.mem_cons_of_mem x hr), ?_⟩)
      rw [hkey]
      exact fun he => hrs.1 (he ▸ List.mem_map_of_mem hr)
    have hrest := ih (nodup_save (r := g x) hnd) hrs.2 hmem'
      (fun r hr => hbefore r (List.mem_cons_of_mem x hr))
      (fun r hr => hafter r (List.mem_cons_of_mem x hr))
      fun r hr => hkept r (List.mem_cons_of_mem x hr)
    have hx := hmem x List.mem_cons_self
    have hunfold : saveAll key g (x :: rs) rows = saveAll key g rs (save key (g x) rows) := rfl
    rw [hunfold, List.filter_cons]
    cases hp : p x with
    | true =>
      have hless := length_filter_save_lt hnd hx (hkey x).symm
        (hbefore x List.mem_cons_self) (hafter x List.mem_cons_self hp)
      simp only [if_true, List.length_cons]
      omega
    | false =>
      rw [hkept x List.mem_cons_self hp, save_of_mem hnd hx] at hrest ⊢
      simpa using hrest

end Rows

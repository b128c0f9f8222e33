/-
**Entries that are collected under keys.**

Two readers collect the same entries piece by piece, each under keys of its own.  As long as their
keys name the same entries, a piece for an entry keeps the entries equal; and they stay equal when
each adds the same new entry.

Main definitions:

* `Keyed.update` — a change of the entry under a key;
* `Keyed.Renumbered` — the same entries under other keys, with the keys that belong together.

Main results:

* `Keyed.Renumbered.update`, `Keyed.Renumbered.concat` — **the entries stay the same**.
-/

import Mathlib.Data.List.Basic

set_option autoImplicit false

namespace Keyed

variable {κ κ' ν : Type*} [DecidableEq κ] [DecidableEq κ']

def keys (entries : List (κ × ν)) : List κ := entries.map Prod.fst

def values (entries : List (κ × ν)) : List ν := entries.map Prod.snd

/-- Change the entries under a key. -/
def update (k : κ) (f : ν → ν) (entries : List (κ × ν)) : List (κ × ν) :=
  entries.map fun e => if e.1 = k then (e.1, f e.2) else e

@[simp] theorem keys_update (k : κ) (f : ν → ν) (entries : List (κ × ν)) :
    keys (update k f entries) = keys entries := by
  induction entries with
  | nil => rfl
  | cons e entries ih =>
    have hkey : (if e.1 = k then (e.1, f e.2) else e).1 = e.1 := by split <;> rfl
    simp only [update, keys, List.map_cons, hkey] at ih ⊢
    rw [ih]

/-- A change that changes no entry. -/
theorem update_id {k : κ} {f : ν → ν} (entries : List (κ × ν)) (hf : ∀ v, f v = v) :
    update k f entries = entries := by
  have hsame : ∀ e : κ × ν, (if e.1 = k then (e.1, f e.2) else e) = e := by
    intro e
    split
    · rw [hf]
    · rfl
  simp [update, hsame]

/-- A change under a key without an entry. -/
theorem update_of_notMem {k : κ} (f : ν → ν) {entries : List (κ × ν)} (hk : k ∉ keys entries) :
    update k f entries = entries := by
  have hsame : ∀ e ∈ entries, (if e.1 = k then (e.1, f e.2) else e) = e := by
    intro e he
    rw [if_neg]
    rintro rfl
    exact hk (List.mem_map_of_mem he)
  rw [update, List.map_congr_left hsame]
  exact List.map_id' entries

/-- A change of the only entry under its key. -/
theorem update_middle {k : κ} (f : ν → ν) (v : ν) {entries rest : List (κ × ν)}
    (hk : k ∉ keys entries) (hk' : k ∉ keys rest) :
    update k f (entries ++ (k, v) :: rest) = entries ++ (k, f v) :: rest := by
  have hhead : update k f ((k, v) :: rest) = (k, f v) :: update k f rest := by simp [update]
  calc update k f (entries ++ (k, v) :: rest) = update k f entries ++ update k f ((k, v) :: rest) :=
        List.map_append
    _ = entries ++ (k, f v) :: rest := by rw [hhead, update_of_notMem f hk, update_of_notMem f hk']

/-- A change of the last entry, the only one under its key. -/
theorem update_concat {k : κ} (f : ν → ν) (v : ν) {entries : List (κ × ν)}
    (hk : k ∉ keys entries) : update k f (entries ++ [(k, v)]) = entries ++ [(k, f v)] :=
  update_middle f v hk List.not_mem_nil

/-- A change of an entry leaves what it does not change of the entries. -/
theorem map_values_update {β : Type*} (k : κ) {f : ν → ν} {g : ν → β} (hg : ∀ v, g (f v) = g v)
    (entries : List (κ × ν)) :
    (values (update k f entries)).map g = (values entries).map g := by
  induction entries with
  | nil => rfl
  | cons e entries ih =>
    have hhead : g (if e.1 = k then (e.1, f e.2) else e).2 = g e.2 := by
      split
      · exact hg e.2
      · rfl
    simp only [update, values, List.map_cons, hhead] at ih ⊢
    rw [ih]

/-- The same entries under other keys. -/
inductive Renumbered : List (κ × κ') → List (κ × ν) → List (κ' × ν) → Prop
  | nil : Renumbered [] [] []
  | cons (k : κ) (k' : κ') (v : ν) {pairs : List (κ × κ')} {entries : List (κ × ν)}
      {entries' : List (κ' × ν)} (h : Renumbered pairs entries entries') :
      Renumbered ((k, k') :: pairs) ((k, v) :: entries) ((k', v) :: entries')

namespace Renumbered

variable {pairs : List (κ × κ')} {entries : List (κ × ν)} {entries' : List (κ' × ν)}

omit [DecidableEq κ] [DecidableEq κ'] in
theorem values_eq (h : Renumbered pairs entries entries') : values entries = values entries' := by
  induction h with
  | nil => rfl
  | cons k k' v _ ih =>
    simp only [values, List.map_cons] at ih ⊢
    rw [ih]

omit [DecidableEq κ] [DecidableEq κ'] in
theorem keys_left (h : Renumbered pairs entries entries') :
    keys entries = pairs.map Prod.fst := by
  induction h with
  | nil => rfl
  | cons k k' v _ ih =>
    simp only [keys, List.map_cons] at ih ⊢
    rw [ih]

omit [DecidableEq κ] [DecidableEq κ'] in
theorem keys_right (h : Renumbered pairs entries entries') :
    keys entries' = pairs.map Prod.snd := by
  induction h with
  | nil => rfl
  | cons k k' v _ ih =>
    simp only [keys, List.map_cons] at ih ⊢
    rw [ih]

/-- A change under keys that name the same entries. -/
theorem update (h : Renumbered pairs entries entries') (f : ν → ν) {k : κ} {k' : κ'}
    (hk : ∀ p ∈ pairs, p.1 = k ↔ p.2 = k') :
    Renumbered pairs (Keyed.update k f entries) (Keyed.update k' f entries') := by
  induction h with
  | nil => exact .nil
  | cons j j' v _ ih =>
    have hhead : j = k ↔ j' = k' := hk (j, j') List.mem_cons_self
    have hrest := ih fun p hp => hk p (List.mem_cons_of_mem _ hp)
    simp only [Keyed.update, List.map_cons] at hrest ⊢
    by_cases hj : j = k
    · rw [if_pos hj, if_pos (hhead.1 hj)]
      exact .cons j j' (f v) hrest
    · rw [if_neg hj, if_neg fun hj' => hj (hhead.2 hj')]
      exact .cons j j' v hrest

omit [DecidableEq κ] [DecidableEq κ'] in
/-- A new entry at the end of both. -/
theorem concat (h : Renumbered pairs entries entries') (k : κ) (k' : κ') (v : ν) :
    Renumbered (pairs ++ [(k, k')]) (entries ++ [(k, v)]) (entries' ++ [(k', v)]) := by
  induction h with
  | nil => exact .cons k k' v .nil
  | cons j j' w _ ih => exact .cons j j' w ih

end Renumbered

end Keyed

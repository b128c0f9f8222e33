/-
**The keys seen in a window of time.**

A log of sightings is too long to keep; to tell how many different keys were seen after a time it
is enough to know when each key was seen last, and keys seen too long ago may be forgotten.  This
module says when such a table answers for the whole log.

Main definitions:

* `LastSeen.touch`, `LastSeen.after` — a sighting in a table, and the entries after a time;
* `LastSeen.distinct` — the number of different keys seen after a time;
* `LastSeen.Tracks` — a table answers for a log from a time on.

Main results:

* `LastSeen.Tracks.touch`, `LastSeen.Tracks.after` — a table still answers for the log after a
  sighting, and after older entries were forgotten;
* `LastSeen.Tracks.length_after` — **the entries of the table after a time are as many as the
  different keys seen after it**.
-/

import Mathlib.Data.Finset.Card
import Mathlib.Data.Finset.Dedup
import Mathlib.Data.List.Nodup
import Mathlib.Order.Defs.LinearOrder

set_option autoImplicit false

namespace LastSeen

variable {κ τ : Type*} [DecidableEq κ]

/-! ### Sightings -/

/-- A key is seen at a time. -/
def touch (k : κ) (t : τ) (table : List (κ × τ)) : List (κ × τ) :=
  table.filter (fun e => e.1 ≠ k) ++ [(k, t)]

/-- A table keeps one entry for a key. -/
theorem nodup_touch {table : List (κ × τ)} (h : (table.map Prod.fst).Nodup) (k : κ) (t : τ) :
    ((touch k t table).map Prod.fst).Nodup := by
  rw [touch, List.map_append, List.nodup_append]
  refine ⟨h.sublist (List.filter_sublist.map _), by simp, ?_⟩
  intro a ha b hb
  obtain ⟨e, he, rfl⟩ := List.mem_map.1 ha
  have hne : e.1 ≠ k := by simpa using (List.mem_filter.1 he).2
  obtain rfl : b = k := by simpa using hb
  exact hne

/-! ### The keys seen after a time -/

variable [LinearOrder τ]

/-- The entries after a time. -/
def after (b : τ) (table : List (κ × τ)) : List (κ × τ) := table.filter fun e => b < e.2

/-- The keys seen after a time. -/
def keysAfter (b : τ) (log : List (κ × τ)) : Finset κ := ((after b log).map Prod.fst).toFinset

/-- The number of different keys seen after a time. -/
def distinct (b : τ) (log : List (κ × τ)) : ℕ := (keysAfter b log).card

theorem mem_keysAfter {b : τ} {log : List (κ × τ)} {k : κ} :
    k ∈ keysAfter b log ↔ ∃ t, (k, t) ∈ log ∧ b < t := by
  simp [keysAfter, after]

/-- A table answers for a log from the time `lo` on: it has one entry for a key, and the same keys
are found in both after any such time. -/
structure Tracks (lo : τ) (table log : List (κ × τ)) : Prop where
  nodup : (table.map Prod.fst).Nodup
  same : ∀ b, lo ≤ b → keysAfter b table = keysAfter b log

theorem tracks_nil (lo : τ) : Tracks lo ([] : List (κ × τ)) [] := ⟨List.nodup_nil, fun _ _ => rfl⟩

/-- From a later time on a table answers as well. -/
theorem Tracks.mono {lo lo' : τ} {table log : List (κ × τ)} (h : Tracks lo table log)
    (hle : lo ≤ lo') : Tracks lo' table log :=
  ⟨h.nodup, fun b hb => h.same b (hle.trans hb)⟩

/-- Nothing has to be remembered of a log that is over. -/
theorem tracks_of_old {lo : τ} {log : List (κ × τ)} (h : ∀ e ∈ log, e.2 ≤ lo) :
    Tracks lo [] log := by
  refine ⟨List.nodup_nil, fun b hb => ?_⟩
  ext k
  rw [mem_keysAfter, mem_keysAfter]
  constructor
  · rintro ⟨t, hmem, -⟩
    cases hmem
  · rintro ⟨t, hmem, ht⟩
    exact absurd ht (not_lt.2 ((h _ hmem).trans hb))

/-- **A sighting** at a time no earlier one comes after. -/
theorem Tracks.touch {lo t : τ} {table log : List (κ × τ)} (h : Tracks lo table log)
    (hlast : ∀ e ∈ log, e.2 ≤ t) (k : κ) :
    Tracks lo (touch k t table) (log ++ [(k, t)]) := by
  constructor
  · exact nodup_touch h.nodup k t
  · intro b hb
    ext j
    have hsame := Finset.ext_iff.1 (h.same b hb) j
    rw [mem_keysAfter, mem_keysAfter] at hsame
    rw [mem_keysAfter, mem_keysAfter]
    by_cases hj : j = k
    · -- the key itself was seen last at `t`
      subst hj
      constructor
      · rintro ⟨u, hmem, hu⟩
        have hut : u = t := by simpa [LastSeen.touch] using hmem
        exact ⟨t, by simp, hut ▸ hu⟩
      · rintro ⟨u, hmem, hu⟩
        refine ⟨t, by simp [LastSeen.touch], ?_⟩
        rcases List.mem_append.1 hmem with hmem | hmem
        · exact hu.trans_le (hlast _ hmem)
        · obtain rfl : u = t := by simpa using hmem
          exact hu
    · -- the other keys are where they were
      simpa [LastSeen.touch, hj] using hsame

/-- **Older entries may be forgotten.** -/
theorem Tracks.after {lo b : τ} {table log : List (κ × τ)} (h : Tracks lo table log)
    (hb : lo ≤ b) : Tracks b (after b table) log := by
  refine ⟨h.nodup.sublist (List.filter_sublist.map _), fun c hc => ?_⟩
  rw [← h.same c (hb.trans hc)]
  ext k
  rw [mem_keysAfter, mem_keysAfter]
  constructor
  · rintro ⟨t, hmem, ht⟩
    exact ⟨t, (List.mem_filter.1 hmem).1, ht⟩
  · rintro ⟨t, hmem, ht⟩
    exact ⟨t, List.mem_filter.2 ⟨hmem, by simpa using hc.trans_lt ht⟩, ht⟩

/-- **The entries of the table after a time are as many as the different keys seen after it.** -/
theorem Tracks.length_after {lo b : τ} {table log : List (κ × τ)} (h : Tracks lo table log)
    (hb : lo ≤ b) : (LastSeen.after b table).length = distinct b log := by
  have hnodup : ((LastSeen.after b table).map Prod.fst).Nodup :=
    h.nodup.sublist (List.filter_sublist.map _)
  rw [distinct, ← h.same b hb, keysAfter, List.toFinset_card_of_nodup hnodup, List.length_map]

end LastSeen

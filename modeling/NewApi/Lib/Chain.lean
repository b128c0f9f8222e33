/-
**Following a partial function to its end.**

Each element may name a next one.  Following the names from an element leads to one that names
none, or names itself, or it leads round a cycle.  A walk that remembers where it has been finds
out which: it stops at the first element that is an end, or at the first that names one it has
visited.  It needs at most one step for every element that is named.

Main definitions:

* `Chain.Leads` — an element names another one;
* `Chain.Ends`, `Chain.Cycles` — where following the names leads to;
* `Chain.walk` — the walk, with bounded fuel.

Main results:

* `Chain.walk_ne_none` — **the walk comes to an end** when there is fuel for every name;
* `Chain.walk_start` — **it finds the end, or that there is none**;
* `Chain.Ends.not_cycles` — there is only one of the two.
-/

import Mathlib.Logic.Relation
import Mathlib.Data.List.Basic

set_option autoImplicit false

namespace Chain

open Relation

variable {α : Type*} (next : α → Option α)

/-- The element `a` names another one, `b`. -/
def Leads (a b : α) : Prop := next a = some b ∧ b ≠ a

/-- Following the names from `a` ends at `e`, which names nothing but possibly itself. -/
def Ends (a e : α) : Prop := ReflTransGen (Leads next) a e ∧ ∀ b, ¬ Leads next e b

/-- Following the names from `a` leads round a cycle of at least two elements. -/
def Cycles (a : α) : Prop :=
  ∃ b c, ReflTransGen (Leads next) a b ∧ Leads next b c ∧ ReflTransGen (Leads next) c b

variable {next}

theorem leads_rightUnique : Relator.RightUnique (Leads next) := by
  intro a b c hb hc
  exact Option.some.inj (hb.1.symm.trans hc.1)

theorem eq_of_reach_of_stuck {e a : α} (hstuck : ∀ b, ¬ Leads next e b)
    (h : ReflTransGen (Leads next) e a) : a = e := by
  rcases ReflTransGen.cases_head h with heq | ⟨b, hb, -⟩
  · exact heq.symm
  · exact absurd hb (hstuck b)

theorem Ends.unique {a e e' : α} (h : Ends next a e) (h' : Ends next a e') : e = e' := by
  rcases ReflTransGen.total_of_right_unique leads_rightUnique h.1 h'.1 with hr | hr
  · exact (eq_of_reach_of_stuck h.2 hr).symm
  · exact eq_of_reach_of_stuck h'.2 hr

/-- Whatever is reached from a cycle leads back to it. -/
theorem back_of_cycle {b c x : α} (hbc : Leads next b c) (hcb : ReflTransGen (Leads next) c b)
    (hx : ReflTransGen (Leads next) b x) : ReflTransGen (Leads next) x b := by
  induction hx with
  | refl => exact .refl
  | tail hy hyx ih =>
    rename_i y x
    rcases ReflTransGen.cases_head ih with heq | ⟨z, hyz, hzb⟩
    · subst heq
      rwa [leads_rightUnique hyx hbc]
    · rwa [leads_rightUnique hyx hyz]

/-- **An end excludes a cycle.** -/
theorem Ends.not_cycles {a e : α} (h : Ends next a e) : ¬ Cycles next a := by
  rintro ⟨b, c, hab, hbc, hcb⟩
  have hstuck : b ≠ e := by
    rintro rfl
    exact h.2 c hbc
  rcases ReflTransGen.total_of_right_unique leads_rightUnique h.1 hab with hr | hr
  · exact hstuck (eq_of_reach_of_stuck h.2 hr)
  · exact hstuck (eq_of_reach_of_stuck h.2 (back_of_cycle hbc hcb hr))

/-! ### The walk -/

variable (next) [DecidableEq α]

/-- Walk on from an element, having visited others: `none` when the fuel runs out, and otherwise
the end, or nothing when the walk comes back to where it has been. -/
def walk : ℕ → List α → α → Option (Option α)
  | 0, _, _ => none
  | fuel + 1, visited, a =>
    match next a with
    | none => some (some a)
    | some b =>
      if b = a then some (some a)
      else if b ∈ visited then some none
      else walk fuel (b :: visited) b

variable {next}

attribute [local simp] walk in
theorem walk_of_none {fuel : ℕ} {visited : List α} {a : α} (h : next a = none) :
    walk next (fuel + 1) visited a = some (some a) := by
  simp only [walk, h]

theorem walk_of_self {fuel : ℕ} {visited : List α} {a : α} (h : next a = some a) :
    walk next (fuel + 1) visited a = some (some a) := by
  simp only [walk, h, if_true]

theorem walk_of_leads {fuel : ℕ} {visited : List α} {a b : α} (h : Leads next a b) :
    walk next (fuel + 1) visited a =
      if b ∈ visited then some none else walk next fuel (b :: visited) b := by
  simp only [walk, h.1, if_neg h.2]

/-- An element leads to another one, or the walk is at its end. -/
theorem leads_or_stuck (next : α → Option α) (a : α) :
    (∃ b, Leads next a b) ∨
      (∀ b, ¬ Leads next a b) ∧ ∀ fuel visited, walk next (fuel + 1) visited a = some (some a) := by
  cases hnext : next a with
  | none =>
    refine .inr ⟨fun b hb => ?_, fun fuel visited => walk_of_none hnext⟩
    rw [hb.1] at hnext
    cases hnext
  | some b =>
    by_cases hb : b = a
    · subst hb
      refine .inr ⟨fun c hc => ?_, fun fuel visited => walk_of_self hnext⟩
      rw [hc.1] at hnext
      exact hc.2 (Option.some.inj hnext)
    · exact .inl ⟨b, hnext, hb⟩

/-- What a walk finds, if all it has visited leads to where it is. -/
theorem walk_sound {fuel : ℕ} {visited : List α} {a : α} {r : Option α}
    (hvisited : ∀ v ∈ visited, ReflTransGen (Leads next) v a)
    (h : walk next fuel visited a = some r) :
    match r with
    | none => Cycles next a
    | some e => Ends next a e := by
  induction fuel generalizing visited a with
  | zero => cases h
  | succ fuel ih =>
    rcases leads_or_stuck next a with ⟨b, hb⟩ | ⟨hstuck, hwalk⟩
    · rw [walk_of_leads hb] at h
      by_cases hmem : b ∈ visited
      · rw [if_pos hmem] at h
        cases h
        exact ⟨a, b, .refl, hb, hvisited b hmem⟩
      · rw [if_neg hmem] at h
        have hrest : ∀ v ∈ b :: visited, ReflTransGen (Leads next) v b := by
          intro v hv
          rcases List.mem_cons.1 hv with rfl | hv
          · exact .refl
          · exact (hvisited v hv).tail hb
        have hfound := ih hrest h
        cases r with
        | none =>
          obtain ⟨c, d, hc, hcd, hdc⟩ := hfound
          exact ⟨c, d, .head hb hc, hcd, hdc⟩
        | some e => exact ⟨.head hb hfound.1, hfound.2⟩
    · rw [hwalk] at h
      cases h
      exact ⟨.refl, hstuck⟩

/-- **The walk comes to an end** when it has fuel for every name it has not visited. -/
theorem walk_ne_none {names : List α} (hnames : ∀ a b, next a = some b → b ∈ names)
    {fuel : ℕ} {visited : List α} {a : α}
    (hfuel : (names.filter (· ∉ visited)).length < fuel) : walk next fuel visited a ≠ none := by
  induction fuel generalizing visited a with
  | zero => omega
  | succ fuel ih =>
    rcases leads_or_stuck next a with ⟨b, hb⟩ | ⟨-, hwalk⟩
    · rw [walk_of_leads hb]
      by_cases hmem : b ∈ visited
      · rw [if_pos hmem]
        nofun
      · rw [if_neg hmem]
        refine ih (Nat.lt_of_lt_of_le ?_ (Nat.le_of_lt_succ hfuel))
        -- `b` is a name that has now been visited
        have hsub : (names.filter (· ∉ b :: visited)) =
            (names.filter (· ∉ visited)).filter (· ≠ b) := by
          rw [List.filter_filter]
          refine List.filter_congr fun x _ => ?_
          simp only [List.mem_cons, not_or, Bool.decide_and, ne_eq]
        rw [hsub]
        have hb' : b ∈ names.filter (· ∉ visited) :=
          List.mem_filter.2 ⟨hnames a b hb.1, by simpa using hmem⟩
        exact List.length_filter_lt_length_iff_exists.2 ⟨b, hb', by simp⟩
    · rw [hwalk]
      nofun

section Enough

variable {names : List α} {fuel : ℕ} {a : α}

/-- A walk that starts at `a` with fuel for every name. -/
theorem walk_start (hnames : ∀ a b, next a = some b → b ∈ names) (hfuel : names.length < fuel) :
    (∃ e, walk next fuel [a] a = some (some e) ∧ Ends next a e) ∨
      walk next fuel [a] a = some none ∧ Cycles next a := by
  have hvisited : ∀ v ∈ [a], ReflTransGen (Leads next) v a := by
    intro v hv
    rw [List.mem_singleton.1 hv]
  cases hwalk : walk next fuel [a] a with
  | none =>
    exact absurd hwalk (walk_ne_none hnames (Nat.lt_of_le_of_lt (List.length_filter_le _ _) hfuel))
  | some r =>
    have hfound := walk_sound hvisited hwalk
    cases r with
    | none => exact .inr ⟨rfl, hfound⟩
    | some e => exact .inl ⟨e, rfl, hfound⟩

end Enough

end Chain

/-
**Lists that are gone through one after the other.**

The entries of a list of lists are numbered by the list they are from.  What is gone through is the
first list, then the second, and so on; and it is known at every place what comes next.

Main definitions:

* `Blocks.numbered` — the entries of the lists, each with the number of its list;
* `Blocks.after` — what is left from an entry of a list on.

Main results:

* `Blocks.after_eq_cons`, `Blocks.after_length` — what comes next;
* `Blocks.numbered_prefix_iff` — **one list of lists begins another** exactly if its lists are the
  same but for the last, and the last begins the other.
-/

import Mathlib.Data.List.Basic

set_option autoImplicit false

namespace Blocks

variable {α : Type*}

/-- The entries of lists that are numbered from `i` on. -/
def numbered : ℕ → List (List α) → List (ℕ × α)
  | _, [] => []
  | i, block :: blocks => block.map (i, ·) ++ numbered (i + 1) blocks

@[simp] theorem numbered_nil (i : ℕ) : numbered i ([] : List (List α)) = [] := rfl

@[simp] theorem numbered_cons (i : ℕ) (block : List α) (blocks : List (List α)) :
    numbered i (block :: blocks) = block.map (i, ·) ++ numbered (i + 1) blocks := rfl

/-- What is left from the entry `p` of the list `i` on. -/
def after (blocks : List (List α)) (i p : ℕ) : List (ℕ × α) :=
  (numbered i (blocks.drop i)).drop p

/-! ### What comes next -/

theorem drop_of_getElem? {β : Type*} {l : List β} {i : ℕ} {b : β} (h : l[i]? = some b) :
    l.drop i = b :: l.drop (i + 1) := by
  obtain ⟨hlt, rfl⟩ := List.getElem?_eq_some_iff.1 h
  exact List.drop_eq_getElem_cons hlt

section Next

variable {blocks : List (List α)} {i p : ℕ} {block : List α}

/-- An entry of a list comes next. -/
theorem after_eq_cons (h : blocks[i]? = some block) (hp : p < block.length) :
    after blocks i p = (i, block[p]) :: after blocks i (p + 1) := by
  have hlt : p < (numbered i (blocks.drop i)).length := by
    rw [drop_of_getElem? h, numbered_cons, List.length_append, List.length_map]
    omega
  have hget : (numbered i (blocks.drop i))[p] = (i, block[p]) := by
    simp only [drop_of_getElem? h, numbered_cons]
    rw [List.getElem_append_left (by rwa [List.length_map]), List.getElem_map]
  unfold after
  rw [List.drop_eq_getElem_cons hlt, hget]

/-- After its last entry the next list begins. -/
theorem after_length (h : blocks[i]? = some block) :
    after blocks i block.length = after blocks (i + 1) 0 := by
  have hlength : block.length = (block.map (i, ·)).length := (List.length_map _).symm
  unfold after
  rw [drop_of_getElem? h, numbered_cons, hlength, List.drop_left, List.drop_zero]

/-- After the last list there is nothing. -/
theorem after_of_length_le (h : blocks.length ≤ i) : after blocks i p = [] := by
  unfold after
  rw [List.drop_eq_nil_of_le h, numbered_nil, List.drop_nil]

end Next

theorem after_zero (blocks : List (List α)) : after blocks 0 0 = numbered 0 blocks := rfl

/-- Lists that are all as long. -/
theorem length_numbered {n : ℕ} {blocks : List (List α)} (h : ∀ block ∈ blocks, block.length = n)
    (i : ℕ) : (numbered i blocks).length = n * blocks.length := by
  induction blocks generalizing i with
  | nil => rfl
  | cons block blocks ih =>
    have hfirst := h block List.mem_cons_self
    have hrest := ih (fun b hb => h b (List.mem_cons_of_mem block hb)) (i + 1)
    rw [numbered_cons, List.length_append, List.length_map, hfirst, hrest, List.length_cons,
      Nat.mul_succ, Nat.add_comm]

/-! ### One list of lists begins another -/

/-- The entries of later lists have greater numbers. -/
theorem le_of_mem_numbered {i : ℕ} {blocks : List (List α)} {a : ℕ × α}
    (ha : a ∈ numbered i blocks) : i ≤ a.1 := by
  induction blocks generalizing i with
  | nil => cases ha
  | cons block blocks ih =>
    rcases List.mem_append.1 ha with hfirst | hrest
    · obtain ⟨x, -, rfl⟩ := List.mem_map.1 hfirst
      exact Nat.le_refl i
    · exact Nat.le_trans (Nat.le_succ i) (ih hrest)

theorem filter_numbered (i : ℕ) (block : List α) (blocks : List (List α)) :
    (block.map (i, ·) ++ numbered (i + 1) blocks).filter (·.1 = i) = block.map (i, ·) := by
  rw [List.filter_append, List.filter_eq_self.2, List.filter_eq_nil_iff.2, List.append_nil]
  · intro a ha hi
    have hle := le_of_mem_numbered ha
    have heq : a.1 = i := of_decide_eq_true hi
    omega
  · intro a ha
    obtain ⟨x, -, rfl⟩ := List.mem_map.1 ha
    exact decide_eq_true rfl

/-- The first list begins the other first one, and is all of it if another list follows. -/
theorem cons_prefix_iff {i : ℕ} {block block' : List α} {blocks blocks' : List (List α)}
    (hmore : numbered (i + 1) blocks ≠ []) :
    numbered i (block :: blocks) <+: numbered i (block' :: blocks') ↔
      block = block' ∧ numbered (i + 1) blocks <+: numbered (i + 1) blocks' := by
  have hinjective : Function.Injective fun x : α => (i, x) := fun _ _ h => (Prod.mk.inj h).2
  rw [numbered_cons, numbered_cons]
  constructor
  · intro h
    have hfirst := h.filter (·.1 = i)
    rw [filter_numbered, filter_numbered, List.prefix_map_iff_of_injective hinjective] at hfirst
    obtain ⟨rest, rfl⟩ := hfirst
    rw [List.map_append, List.append_assoc, List.prefix_append_right_inj] at h
    -- the next entry is from a later list
    cases rest with
    | nil => exact ⟨(List.append_nil block).symm, h⟩
    | cons x rest =>
      exfalso
      cases hnext : numbered (i + 1) blocks with
      | nil => exact hmore hnext
      | cons a as =>
        rw [hnext, List.map_cons, List.cons_append, List.cons_prefix_cons] at h
        have hle : i + 1 ≤ a.1 := le_of_mem_numbered (hnext ▸ List.mem_cons_self)
        rw [h.1] at hle
        exact absurd hle (Nat.not_succ_le_self i)
  · rintro ⟨rfl, h⟩
    exact (List.prefix_append_right_inj _).2 h

/-- **One list of lists begins another** exactly if its lists are the same but for the last, and
the last begins the other. -/
theorem numbered_prefix_iff {β : Type*} {f g : β → List α} {l : List β} (hf : ∀ b ∈ l, f b ≠ [])
    (i : ℕ) :
    numbered i (l.map f) <+: numbered i (l.map g) ↔
      (∀ b ∈ l.dropLast, f b = g b) ∧ ∀ b ∈ l.getLast?, f b <+: g b := by
  induction l generalizing i with
  | nil =>
    constructor
    · intro _
      exact ⟨fun b hb => absurd hb List.not_mem_nil, fun b hb => by cases hb⟩
    · intro _
      exact List.prefix_rfl
  | cons b l ih =>
    have hinjective : Function.Injective fun x : α => (i, x) := fun _ _ h => (Prod.mk.inj h).2
    cases l with
    | nil =>
      rw [List.map_cons, List.map_cons, List.map_nil, List.map_nil, numbered_cons,
        numbered_cons, numbered_nil, List.append_nil, List.append_nil,
        List.prefix_map_iff_of_injective hinjective]
      simp
    | cons c l =>
      have hmore : numbered (i + 1) ((c :: l).map f) ≠ [] := by
        intro hnil
        have hc : f c = [] := by
          have hempty := (List.append_eq_nil_iff.1 hnil).1
          exact List.map_eq_nil_iff.1 hempty
        exact hf c (List.mem_cons_of_mem b List.mem_cons_self) hc
      have hrest := ih (fun d hd => hf d (List.mem_cons_of_mem b hd)) (i + 1)
      change numbered i (f b :: (c :: l).map f) <+: numbered i (g b :: (c :: l).map g) ↔ _
      rw [cons_prefix_iff hmore, hrest, List.dropLast_cons_cons, List.getLast?_cons_cons,
        List.forall_mem_cons, and_assoc]

end Blocks

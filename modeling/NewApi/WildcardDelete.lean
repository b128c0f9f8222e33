/-
**Deleting the nodes a path with wildcards stands for.**

The `delete` operation of a parameter override finds all the texts first and deletes at them one
after another.  A field that is deleted does not move the others, but an element does: those after it
are one step nearer to the beginning when the text of the next one is read.  So of the elements of an
array that are all to go, every other one stays.

Main definitions:

* `NewApi.deleteValue`, `NewApi.applyDelete` — the operation, over all the texts of its path;
* `NewApi.RemovesMatched` — the nodes the path stands for are removed, and nothing else.

Main results:

* `NewApi.wildcard_delete_exact` — **exactly the matched nodes are removed if and only if no array
  has two of them**;
* `NewApi.second_element_survives` — an array that keeps an element.
-/

import NewApi.WildcardEdit

set_option autoImplicit false

namespace NewApi

open JsonTree (Doc Step)

section Deletes

variable {σ : Type*}

/-! ### The operation -/

def deleteValue (lib : PathLibrary σ) (data : Doc σ) (path : String) : Except String (Doc σ) :=
  if trimSpace path = "" then .ok data else lib.deleteBytes data path

/-- The operation, at a path whose negative indexes have been resolved. -/
def applyDelete (lib : PathLibrary σ) (data : Doc σ) (opPath : String) : Except String (Doc σ) :=
  match (resolveOperationPaths data opPath).foldlM (deleteValue lib) data with
  | .ok result => .ok result
  | .error e => .error ("operation delete failed: " ++ e)

/-! ### What the operation is for -/

/-- A node without the children that are chosen. -/
def withoutChildren (chosen : Step → Prop) [DecidablePred chosen] : Doc σ → Doc σ
  | .scalar s => .scalar s
  | .arr items => .arr ((items.zipIdx.filter fun e => ¬ chosen (.elem e.2)).map Prod.fst)
  | .obj fields => .obj (fields.filter fun e => ¬ chosen (.key e.1))

theorem not_matches_nil (d : Doc σ) (A : List Step) : ¬ Matches [] d A := by
  intro h
  cases h

instance (pattern : List String) (d : Doc σ) (A : List Step) : Decidable (Matches pattern d A) :=
  if h : pattern = [] then isFalse (by rw [h]; exact not_matches_nil d A)
  else decidable_of_iff _ (mem_places h)

/-- The nodes above those that a pattern stands for lose exactly these, and the nodes nearer to the
root have the keys, in their order, and the lengths that they had. -/
structure RemovesMatched (pattern : List String) (data result : Doc σ) : Prop where
  parents : ∀ P x, P.length + 1 = pattern.length → JsonTree.node P (some data) = some x →
    JsonTree.node P (some result) =
      some (withoutChildren (fun s => Matches pattern data (P ++ [s])) x)
  above : ∀ A, A.length + 1 < pattern.length →
    (JsonTree.node A (some result)).map JsonTree.outline =
      (JsonTree.node A (some data)).map JsonTree.outline

/-! ### The places below one node -/

/-- Of the parts of a list only the one of an element counts, if the others have nothing. -/
theorem flatMap_eq_ite {α β : Type*} [DecidableEq α] {l : List α} (hnodup : l.Nodup)
    (g : α → List β) {t : α} (h : ∀ s ∈ l, s ≠ t → g s = []) :
    l.flatMap g = if t ∈ l then g t else [] := by
  induction l with
  | nil => rfl
  | cons s l ih =>
    rw [List.nodup_cons] at hnodup
    rw [List.flatMap_cons, ih hnodup.2 fun r hr => h r (List.mem_cons_of_mem _ hr)]
    by_cases hst : s = t
    · subst hst
      rw [if_neg hnodup.1, List.append_nil, if_pos List.mem_cons_self]
    · have hts : t ≠ s := fun heq => hst heq.symm
      rw [h s List.mem_cons_self hst, List.nil_append]
      by_cases ht : t ∈ l
      · rw [if_pos ht, if_pos (List.mem_cons_of_mem _ ht)]
      · rw [if_neg ht, if_neg (by simp [ht, hts])]

/-- Below a step to a node, the rest of the pattern counts. -/
theorem mem_places_cons {segment : String} {rest : List String} {d c : Doc σ} {t : Step}
    {P : List Step} (hc : JsonTree.follow t d = some c) (hP : P.length = rest.length) :
    t :: P ∈ places (segment :: rest) d ↔ t ∈ choices segment d ∧ P ∈ places rest c := by
  cases rest with
  | nil =>
    obtain rfl := List.eq_nil_of_length_eq_zero hP
    simp [places]
  | cons next rest =>
    simp only [places, List.mem_flatMap]
    constructor
    · rintro ⟨s, hs, hmem⟩
      cases hfs : JsonTree.follow s d with
      | none => simp [hfs] at hmem
      | some c' =>
        simp only [hfs, List.mem_map, List.cons.injEq] at hmem
        obtain ⟨B, hB, rfl, rfl⟩ := hmem
        obtain rfl := Option.some.inj (hc.symm.trans hfs)
        exact ⟨hs, hB⟩
    · rintro ⟨ht, hmem⟩
      refine ⟨t, ht, ?_⟩
      simp only [hc, List.mem_map]
      exact ⟨P, hmem, rfl⟩

theorem ne_nil_of_mem_places {segment : String} {rest : List String} {d : Doc σ} {A : List Step}
    (h : A ∈ places (segment :: rest) d) : A ≠ [] := by
  have hlength := ((mem_places (by simp)).1 h).length
  rintro rfl
  simp at hlength

/-- The places below one node, in their order. -/
theorem filter_places {init : List String} {last : String} {d x : Doc σ} {P : List Step}
    (hP : P.length = init.length) (hx : JsonTree.node P (some d) = some x) :
    (places (init ++ [last]) d).filter (fun A => A.dropLast = P) =
      if P ∈ places init d then (choices last x).map (fun s => P ++ [s]) else [] := by
  induction init generalizing P d with
  | nil =>
    obtain rfl := List.eq_nil_of_length_eq_zero hP
    obtain rfl := Option.some.inj hx
    rw [List.nil_append, places, if_pos (List.mem_singleton_self _),
      List.filter_eq_self.2]
    · rfl
    · intro A hA
      obtain ⟨s, -, rfl⟩ := List.mem_map.1 hA
      rfl
  | cons segment init ih =>
    cases P with
    | nil => simp at hP
    | cons t P =>
      have hP' : P.length = init.length := by simpa using hP
      obtain ⟨c, hc, hxc⟩ : ∃ c, JsonTree.follow t d = some c ∧
          JsonTree.node P (some c) = some x := by
        have hx' : JsonTree.node P (JsonTree.follow t d) = some x := hx
        cases hc : JsonTree.follow t d with
        | none => simp [hc] at hx'
        | some c => exact ⟨c, rfl, by rw [← hc, hx']⟩
      obtain ⟨next, rest, hnext⟩ : ∃ next rest, init ++ [last] = next :: rest :=
        List.exists_cons_of_ne_nil (by simp)
      have ih' := ih hP' hxc
      rw [hnext] at ih'
      rw [List.cons_append, hnext, places, List.filter_flatMap]
      rw [@flatMap_eq_ite _ _ _ _ (nodup_choices segment d) _ t ?_]
      · simp only [hc, List.filter_map]
        have hdrop : (places (next :: rest) c).filter
            ((fun A => decide (A.dropLast = t :: P)) ∘ (t :: ·)) =
            (places (next :: rest) c).filter fun A => A.dropLast = P := by
          refine List.filter_congr fun A hA => ?_
          have hne := ne_nil_of_mem_places hA
          simp [List.dropLast_cons_of_ne_nil hne]
        rw [hdrop, ih']
        by_cases ht : t ∈ choices segment d
        · by_cases hmem : P ∈ places init c
          · rw [if_pos ht, if_pos hmem, if_pos ((mem_places_cons hc hP').2 ⟨ht, hmem⟩),
              List.map_map]
            rfl
          · rw [if_pos ht, if_neg hmem,
              if_neg fun h => hmem ((mem_places_cons hc hP').1 h).2]
            rfl
        · rw [if_neg ht, if_neg fun h => ht ((mem_places_cons hc hP').1 h).1]
      · intro s _ hst
        cases hfs : JsonTree.follow s d with
        | none => rfl
        | some c' =>
          dsimp only
          rw [List.filter_eq_nil_iff]
          intro A hA
          obtain ⟨B, hB, rfl⟩ := List.mem_map.1 hA
          have hne := ne_nil_of_mem_places hB
          simp [List.dropLast_cons_of_ne_nil hne, hst]

/-- The places below a node, one by one. -/
theorem matches_append_iff {init : List String} {last : String} {d x : Doc σ} {P : List Step}
    (hP : P.length = init.length) (hx : JsonTree.node P (some d) = some x) (s : Step) :
    Matches (init ++ [last]) d (P ++ [s]) ↔ P ∈ places init d ∧ s ∈ choices last x := by
  have hfilter := @filter_places _ init last d x P hP hx
  rw [← mem_places (by simp)]
  have hmem : P ++ [s] ∈ places (init ++ [last]) d ↔
      P ++ [s] ∈ (places (init ++ [last]) d).filter fun A => A.dropLast = P := by
    rw [List.mem_filter]
    simp
  rw [hmem, hfilter]
  by_cases hplace : P ∈ places init d
  · rw [if_pos hplace]
    simp [hplace]
  · rw [if_neg hplace]
    simp [hplace]

/-- What is above a place is there. -/
theorem Matches.parent {pattern : List String} {d : Doc σ} {A : List Step}
    (h : Matches pattern d A) : (JsonTree.node A.dropLast (some d)).isSome := by
  induction h with
  | last h => rfl
  | @step segment next rest d c s A h hc hrest ih =>
    have hne : A ≠ [] := by
      have hlength := hrest.length
      rintro rfl
      simp at hlength
    rw [List.dropLast_cons_of_ne_nil hne]
    show (JsonTree.node A.dropLast (JsonTree.follow s d)).isSome
    rw [hc]
    exact ih

/-! ### Removing children one after another -/

theorem withoutChildren_congr {p q : Step → Prop} [DecidablePred p] [DecidablePred q]
    (h : ∀ s, p s ↔ q s) (x : Doc σ) : withoutChildren p x = withoutChildren q x := by
  cases x <;> simp only [withoutChildren, h]

theorem withoutChildren_none {p : Step → Prop} [DecidablePred p] (h : ∀ s, ¬ p s) (x : Doc σ) :
    withoutChildren p x = x := by
  cases x with
  | scalar s => rfl
  | arr items => simp [withoutChildren, h]
  | obj fields => simp [withoutChildren, h]

theorem eraseKey_eq_filter {key : String} {fields : List (String × Doc σ)}
    (h : (fields.map Prod.fst).Nodup) :
    JsonTree.eraseKey key fields = fields.filter fun e => e.1 ≠ key := by
  induction fields with
  | nil => rfl
  | cons e rest ih =>
    obtain ⟨k, x⟩ := e
    simp only [List.map_cons, List.nodup_cons] at h
    by_cases hk : k = key
    · subst hk
      have hrest : ∀ e ∈ rest, e.1 ≠ k := fun e he heq => h.1 (List.mem_map.2 ⟨e, he, heq⟩)
      simp only [JsonTree.eraseKey, if_true, List.filter_cons, ne_eq, not_true_eq_false,
        decide_false, Bool.false_eq_true, if_false]
      exact (List.filter_eq_self.2 fun e he => by simpa using hrest e he).symm
    · simp [JsonTree.eraseKey, hk, ih h.2]

/-- Fields do not move one another. -/
theorem foldl_removeChild_keys (keys : List String) {fields : List (String × Doc σ)}
    (h : (fields.map Prod.fst).Nodup) :
    (keys.map Step.key).foldl (fun x s => JsonTree.removeChild s x) (.obj fields) =
      .obj (fields.filter fun e => e.1 ∉ keys) := by
  induction keys generalizing fields with
  | nil => simp
  | cons key keys ih =>
    have hnodup : ((fields.filter fun e => e.1 ≠ key).map Prod.fst).Nodup :=
      h.sublist (List.filter_sublist.map _)
    rw [List.map_cons, List.foldl_cons, JsonTree.removeChild, eraseKey_eq_filter h, ih hnodup,
      List.filter_filter]
    refine congrArg Doc.obj (List.filter_congr fun e _ => ?_)
    by_cases hk : e.1 = key <;> simp [hk]

/-- An element that is removed, by its index. -/
theorem eraseIdx_eq_filter (items : List (Doc σ)) (i k : ℕ) :
    items.eraseIdx i = ((items.zipIdx k).filter fun e => e.2 ≠ i + k).map Prod.fst := by
  induction items generalizing i k with
  | nil => rfl
  | cons c items ih =>
    cases i with
    | zero =>
      have hrest : ∀ e ∈ items.zipIdx (k + 1), e.2 ≠ 0 + k := by
        intro e he heq
        have hle := List.le_snd_of_mem_zipIdx he
        omega
      rw [List.eraseIdx_cons_zero, List.zipIdx_cons, List.filter_cons_of_neg (by simp),
        List.filter_eq_self.2 fun e he => by simpa using hrest e he]
      exact (List.zipIdx_map_fst _ _).symm
    | succ i =>
      rw [List.eraseIdx_cons_succ, ih i (k + 1), List.zipIdx_cons,
        List.filter_cons_of_pos (by simp), List.map_cons]
      have heq : i + (k + 1) = i + 1 + k := by omega
      rw [heq]

/-- The first element stays, if none but later ones are removed. -/
theorem foldl_removeChild_head (indexes : List ℕ) (h : ∀ i ∈ indexes, 0 < i) (c : Doc σ)
    (items : List (Doc σ)) :
    ∃ rest, (indexes.map Step.elem).foldl (fun x s => JsonTree.removeChild s x)
      (.arr (c :: items)) = .arr (c :: rest) := by
  induction indexes generalizing items with
  | nil => exact ⟨items, rfl⟩
  | cons i indexes ih =>
    obtain ⟨j, rfl⟩ : ∃ j, i = j + 1 := ⟨i - 1, by have := h i List.mem_cons_self; omega⟩
    exact ih (fun i hi => h i (List.mem_cons_of_mem _ hi)) (items.eraseIdx j)

/-- Of two elements or more that are all to be removed, the second one stays. -/
theorem foldl_removeChild_range {items : List (Doc σ)} (h : 2 ≤ items.length) :
    ∃ c rest, ((List.range items.length).map Step.elem).foldl
      (fun x s => JsonTree.removeChild s x) (.arr items) = .arr (c :: rest) := by
  obtain ⟨a, c, items, rfl⟩ : ∃ a c rest, items = a :: c :: rest := by
    match items, h with
    | a :: c :: rest, _ => exact ⟨a, c, rest, rfl⟩
  obtain ⟨rest, hrest⟩ := foldl_removeChild_head ((List.range (items.length + 1)).map (· + 1))
    (by simp) c items
  refine ⟨c, rest, ?_⟩
  have hrange : List.range (a :: c :: items).length =
      0 :: (List.range (items.length + 1)).map (· + 1) := by
    rw [List.length_cons, List.length_cons, List.range_succ_eq_map]
  rw [hrange]
  exact hrest

/-- **Removing the children that a segment stands for, one after another, removes them and nothing
else** exactly if they are not two elements of an array. -/
theorem foldl_removeChild_iff (last : String) {x : Doc σ}
    (hkeys : ∀ fields, x = .obj fields → (fields.map Prod.fst).Nodup) :
    (choices last x).foldl (fun x s => JsonTree.removeChild s x) x =
        withoutChildren (fun s => s ∈ choices last x) x ↔
      ∀ i j, Step.elem i ∈ choices last x → Step.elem j ∈ choices last x → i = j := by
  cases x with
  | scalar s => simp [choices, withoutChildren]
  | obj fields =>
    obtain ⟨keys, hchoices⟩ : ∃ keys : List String,
        choices last (.obj fields) = keys.map Step.key := by
      simp only [choices]
      by_cases hblank : last = ""
      · exact ⟨[], by rw [if_pos hblank]; rfl⟩
      by_cases hstar : last = "*"
      · exact ⟨sortedKeys fields, by rw [if_neg hblank, if_pos hstar]⟩
      · exact ⟨[last], by rw [if_neg hblank, if_neg hstar]; rfl⟩
    rw [hchoices, foldl_removeChild_keys keys (hkeys fields rfl)]
    simp [withoutChildren]
  | arr items =>
    by_cases hstar : last = "*"
    · have hchoices : choices last (.arr items) = (List.range items.length).map Step.elem := by
        simp only [choices, if_pos hstar]
      rw [hchoices]
      have hall : withoutChildren
          (fun s => s ∈ (List.range items.length).map Step.elem) (.arr items) = .arr [] := by
        simp only [withoutChildren, Doc.arr.injEq, List.map_eq_nil_iff, List.filter_eq_nil_iff]
        intro e he
        have hlt := List.snd_lt_of_mem_zipIdx he
        simpa using hlt
      rw [hall]
      constructor
      · intro heq i j hi hj
        by_cases htwo : 2 ≤ items.length
        · obtain ⟨c, rest, hfold⟩ := foldl_removeChild_range htwo
          rw [hfold] at heq
          simp at heq
        · have hi' : i < items.length := by simpa using hi
          have hj' : j < items.length := by simpa using hj
          omega
      · intro hone
        have hshort : items.length ≤ 1 := by
          by_contra hlong
          have h01 := hone 0 1 (by simp; omega) (by simp; omega)
          omega
        cases items with
        | nil => rfl
        | cons c items =>
          obtain rfl := List.eq_nil_of_length_eq_zero (l := items) (by simpa using hshort)
          rfl
    · have hchoices : choices last (.arr items) = [] ∨
          ∃ i, choices last (.arr items) = [Step.elem i] := by
        simp only [choices, if_neg hstar]
        cases GoJson.parseInt last with
        | none => exact .inl rfl
        | some i =>
          by_cases hrange : i < 0 ∨ items.length ≤ i
          · exact .inl (by simp only [if_pos hrange])
          · exact .inr ⟨i.toNat, by simp only [if_neg hrange]⟩
      obtain hnone | ⟨i, hone⟩ := hchoices
      · rw [hnone, withoutChildren_none (by simp)]
        simp
      · rw [hone]
        have heq := eraseIdx_eq_filter items i 0
        simp only [Nat.add_zero] at heq
        simp [withoutChildren, JsonTree.removeChild, heq]

/-! ### The operation at all its texts -/

/-- The change that deleting at a place is. -/
def removal (A : List Step) : List Step × (Doc σ → Doc σ) :=
  (A.dropLast, fun x => A.getLast?.elim x fun s => JsonTree.removeChild s x)

theorem removal_append (P : List Step) (s : Step) :
    (removal (P ++ [s]) : List Step × (Doc σ → Doc σ)) = (P, JsonTree.removeChild s) := by
  simp [removal]

theorem LeadsTo.delete {lib : PathLibrary σ} {data : Doc σ} {path : String} {P : List Step}
    {s : Step} (h : LeadsTo lib data path (P ++ [s])) (hblank : trimSpace path ≠ "") :
    deleteValue lib data path = .ok (JsonTree.edit (JsonTree.removeChild s) P data) := by
  obtain ⟨segments, hreads, hsite⟩ := h
  rw [deleteValue, if_neg hblank, lib.delete_reads _ _ _ hreads, JsonTree.delete_of_site hsite]

theorem foldlM_deleteValue {lib : PathLibrary σ} {text : List Step → String}
    {L : List (List Step)} {n : ℕ} (hlength : ∀ A ∈ L, A.length = n + 1)
    (hblank : ∀ A ∈ L, trimSpace (text A) ≠ "") {data : Doc σ}
    (hleads : ∀ A ∈ L, LeadsTo lib data (text A) A) :
    (L.map text).foldlM (deleteValue lib) data = .ok (JsonTree.edits (L.map removal) data) := by
  induction L generalizing data with
  | nil => rfl
  | cons A L ih =>
    have hA : A.length = n + 1 := hlength A List.mem_cons_self
    obtain ⟨P, s, rfl⟩ : ∃ P s, A = P ++ [s] := by
      obtain rfl | ⟨P, s, hP⟩ := List.eq_nil_or_concat A
      · simp at hA
      · exact ⟨P, s, by simpa using hP⟩
    have hP : P.length = n := by simpa using hA
    have hstep : deleteValue lib data (text (P ++ [s])) =
        .ok (JsonTree.edit (JsonTree.removeChild s) P data) :=
      (hleads _ List.mem_cons_self).delete (hblank _ List.mem_cons_self)
    rw [List.map_cons, List.foldlM_cons, hstep, List.map_cons, removal_append,
      JsonTree.edits_cons]
    refine ih (fun B hB => hlength B (List.mem_cons_of_mem _ hB))
      (fun B hB => hblank B (List.mem_cons_of_mem _ hB)) fun B hB => ?_
    -- a node keeps its kind when it loses a child, so that the other texts lead where they led
    refine (hleads B (List.mem_cons_of_mem _ hB)).edit (.inr ⟨?_, ?_⟩)
    · rw [hlength B (List.mem_cons_of_mem _ hB), hP]
    · exact JsonTree.kind_removeChild s

/-- What the operation leaves of a node above the places. -/
theorem node_removals {init : List String} {last : String} {data x : Doc σ} {P : List Step}
    (hP : P.length = init.length) (hx : JsonTree.node P (some data) = some x) :
    JsonTree.node P
        (some (JsonTree.edits ((places (init ++ [last]) data).map removal) data)) =
      some (if P ∈ places init data then
        (choices last x).foldl (fun x s => JsonTree.removeChild s x) x else x) := by
  have hlength : ∀ e ∈ (places (init ++ [last]) data).map (removal (σ := σ)),
      e.1.length = P.length := by
    intro e he
    obtain ⟨A, hA, rfl⟩ := List.mem_map.1 he
    have hA' := ((mem_places (by simp)).1 hA).length
    rw [List.length_append, List.length_singleton] at hA'
    simp only [removal, List.length_dropLast]
    omega
  have hfilter : ((places (init ++ [last]) data).map (removal (σ := σ))).filter
      (fun e => e.1 = P) =
        ((places (init ++ [last]) data).filter fun A => A.dropLast = P).map removal := by
    rw [List.filter_map]
    rfl
  rw [JsonTree.node_edits hlength, hfilter, filter_places hP hx, hx, Option.map_some]
  by_cases hplace : P ∈ places init data
  · rw [if_pos hplace, if_pos hplace, List.map_map, List.foldl_map]
    simp only [Function.comp_apply, removal_append]
  · rw [if_neg hplace, if_neg hplace]
    rfl

/-- **A deletion removes exactly the matched nodes** if and only if no array has two of them. -/
theorem wildcard_delete_exact {lib : PathLibrary σ} {data : Doc σ} {path : String}
    (hstar : contains path "*" = true) (hkeys : DistinctKeys data)
    (hread : Reread lib (pathPattern path) data)
    (hblank : ∀ A, Matches (pathPattern path) data A →
      trimSpace (pathText (pathPattern path) A) ≠ "") :
    ∃ result, applyDelete lib data path = .ok result ∧
      (RemovesMatched (pathPattern path) data result ↔
        ∀ P i j, Matches (pathPattern path) data (P ++ [Step.elem i]) →
          Matches (pathPattern path) data (P ++ [Step.elem j]) → i = j) := by
  have hmem : ∀ {A}, A ∈ places (pathPattern path) data ↔ Matches (pathPattern path) data A :=
    mem_places (pathPattern_ne_nil path)
  obtain ⟨init, last, hpattern⟩ : ∃ init last, pathPattern path = init ++ [last] := by
    obtain hnil | ⟨init, last, h⟩ := List.eq_nil_or_concat (pathPattern path)
    · exact absurd hnil (pathPattern_ne_nil path)
    · exact ⟨init, last, by simpa using h⟩
  have hfold := @foldlM_deleteValue _ lib (pathText (pathPattern path))
    (places (pathPattern path) data) init.length
    (fun A hA => by rw [(hmem.1 hA).length, hpattern]; simp)
    (fun A hA => hblank A (hmem.1 hA)) data (fun A hA => hread A (hmem.1 hA))
  refine ⟨JsonTree.edits ((places (pathPattern path) data).map removal) data, ?_, ?_⟩
  · rw [applyDelete, resolveOperationPaths_eq hstar hkeys hread, hfold]
  rw [hpattern] at hmem ⊢
  -- what is left of a node, and what is to be left of it
  have hnode : ∀ P x, P.length = init.length → JsonTree.node P (some data) = some x →
      (JsonTree.node P
          (some (JsonTree.edits ((places (init ++ [last]) data).map removal) data)) =
        some (withoutChildren (fun s => Matches (init ++ [last]) data (P ++ [s])) x) ↔
      ∀ i j, Matches (init ++ [last]) data (P ++ [Step.elem i]) →
        Matches (init ++ [last]) data (P ++ [Step.elem j]) → i = j) := by
    intro P x hP hx
    rw [node_removals hP hx, Option.some.injEq]
    have hmatch := fun s => @matches_append_iff _ init last data x P hP hx s
    by_cases hplace : P ∈ places init data
    · rw [if_pos hplace, @withoutChildren_congr _ _ (fun s => s ∈ choices last x) _ _
        (fun s => by rw [hmatch s]; simp [hplace]) x,
        foldl_removeChild_iff last fun fields h => hkeys P fields (by rw [hx, h])]
      simp [hmatch, hplace]
    · rw [if_neg hplace, withoutChildren_none (fun s => by simp [hmatch s, hplace])]
      simp [hmatch, hplace]
  constructor
  · intro hremoves P i j hi hj
    have hP : P.length = init.length := by
      have hlength := hi.length
      simp only [List.length_append, List.length_singleton] at hlength
      omega
    obtain ⟨x, hx⟩ := Option.isSome_iff_exists.1 hi.parent
    rw [List.dropLast_concat] at hx
    exact (hnode P x hP hx).1 (hremoves.parents P x (by simp [hP]) hx) i j hi hj
  · intro hone
    refine ⟨?_, ?_⟩
    · intro P x hP hx
      exact (hnode P x (by simpa using hP) hx).2 (hone P)
    · intro A hA
      apply JsonTree.outline_edits
      intro e he
      obtain ⟨B, hB, rfl⟩ := List.mem_map.1 he
      have hlength := (hmem.1 hB).length
      simp only [removal, List.length_dropLast]
      omega

end Deletes

/-! ### A body that loses fields and one that keeps an element -/

/-- The names of two tools are deleted: what is matched are fields, not elements. -/
theorem wildcard_delete_exact_names :
    ∃ result, applyDelete dotted twoTools "tools.*.name" = .ok result ∧
      RemovesMatched (pathPattern "tools.*.name") twoTools result := by
  obtain ⟨result, hresult, hiff⟩ := @wildcard_delete_exact _ dotted twoTools "tools.*.name"
    (by decide) distinctKeys_twoTools reread_twoTools (by
      intro A hA
      obtain rfl | rfl := eq_of_matches_twoTools hA <;> decide)
  refine ⟨result, hresult, hiff.2 ?_⟩
  intro P i j hi
  obtain h | h := eq_of_matches_twoTools hi
  · have hlast := congrArg List.getLast? h
    simp at hlast
  · have hlast := congrArg List.getLast? h
    simp at hlast

/-- **Of two elements that are all to be deleted, the second one survives.** -/
theorem second_element_survives :
    applyDelete dotted (.obj [("stop", .arr [.scalar (some "a"), .scalar (some "b")])]) "stop.*" =
        .ok (.obj [("stop", .arr [.scalar (some "b")])]) ∧
      ¬ RemovesMatched (pathPattern "stop.*")
        (.obj [("stop", .arr [.scalar (some "a"), .scalar (some "b")])])
        (.obj [("stop", .arr [.scalar (some "b")])]) := by
  have hplaces : places (pathPattern "stop.*")
      (.obj [("stop", .arr [.scalar (some "a"), .scalar (some "b")])]) =
      [[.key "stop", .elem 0], [.key "stop", .elem 1]] := by
    decide
  have hmem : ∀ i, i < 2 → Matches (pathPattern "stop.*")
      (.obj [("stop", .arr [.scalar (some "a"), .scalar (some "b")])])
      ([Step.key "stop"] ++ [Step.elem i]) := by
    intro i hi
    rw [← mem_places (pathPattern_ne_nil _), hplaces]
    obtain rfl | rfl : i = 0 ∨ i = 1 := by omega
    · simp
    · simp
  refine ⟨?_, ?_⟩
  · rw [applyDelete, show resolveOperationPaths (.obj [("stop", .arr [.scalar (some "a"),
      .scalar (some "b")])]) "stop.*" = ["stop.0", "stop.1"] by decide]
    rfl
  · intro h
    have hlist := h.parents [.key "stop"] (.arr [.scalar (some "a"), .scalar (some "b")])
      (by decide) rfl
    have hempty : withoutChildren (fun s => Matches (pathPattern "stop.*")
        (.obj [("stop", .arr [.scalar (some "a"), .scalar (some "b")])]) ([Step.key "stop"] ++ [s]))
        (.arr [.scalar (some "a"), .scalar (some "b")]) = .arr [] := by
      simp only [withoutChildren, List.zipIdx_cons, List.zipIdx_nil, hmem 0 (by omega),
        hmem 1 (by omega), List.filter_cons, List.filter_nil]
      rfl
    rw [hempty] at hlist
    have hnode := Option.some.inj hlist
    simp at hnode

end NewApi

/-
**Moving a value within a request body.**

The `move` operation of a parameter override reads the value at one path, writes it at another and
deletes the first path.  The paths are followed anew by each of the three, so what the deletion
finds depends on what the write has done: a value that is moved onto itself, or into itself, is
deleted, and one that is moved above its old place loses what it has at the rest of the old path.
The header variant of the operation compares its two names before it deletes.

Main definitions:

* `NewApi.moveValue` — the operation, with paths as lists of segments;
* `NewApi.MoveKeeps` — what it promises;
* `NewApi.MoveFits` — the condition.

Main results:

* `NewApi.move_keeps_value` — **the value is at its new place, and the other nodes are where they
  were or have moved up with the elements of their array, exactly under the condition**;
* `NewApi.moved_onto_itself` — a value that is lost.
-/

import NewApi.Lib.JsonAddress

set_option autoImplicit false

namespace NewApi

open JsonTree (Doc Step)

section Move

variable {σ : Type*}

/-! ### The operation -/

/-- Move the value at one path to another.  A value that is read and written again has its numbers
as `float` has them, as floating-point numbers. -/
def moveValue (float : σ → σ) (null : σ) (data : Doc σ) (fromPath toPath : List String) :
    Except String (Doc σ) :=
  match JsonTree.get fromPath (some data) with
  | none => .error ("source path does not exist: " ++ ".".intercalate fromPath)
  | some sourceValue =>
    if fromPath = [] then .error "source path does not exist: "
    else if toPath = [] then .error "path cannot be empty"
    else
      match JsonTree.set null (JsonTree.mapScalars float sourceValue) toPath (some data) with
      | none => .error "cannot set array element for non-numeric key"
      | some result => .ok (JsonTree.delete fromPath result)

/-- What a move of `value` from the address `source` to the address `goal` promises of the document
it leaves: the value is at the place of `goal`, and the nodes outside the two are where they were,
those of the same array as a deleted element moved up. -/
structure MoveKeeps (data result : Doc σ) (value : Doc σ) (source goal : List Step) : Prop where
  present : ∃ place, JsonTree.relocate source goal = some place ∧
    JsonTree.node place (some result) = some value
  others : ∀ A x, JsonTree.node A (some data) = some x → ¬ source <+: A → ¬ goal <+: A →
    ∃ A' y, JsonTree.relocate source A = some A' ∧ JsonTree.node A' (some result) = some y ∧
      JsonTree.kind y = JsonTree.kind x ∧ (¬ A <+: source → ¬ A <+: goal → y = x)

/-- The new place is not the old one or below it; nothing but containers is on the way to it; the
numbers of the value survive; and if the new place is above the old one, the value has nothing at
the rest of the old path. -/
structure MoveFits (float : σ → σ) (data value : Doc σ) (fromPath : List String)
    (source goal : List Step) : Prop where
  apart : ¬ source <+: goal
  free : ∀ A s, A <+: goal → A ≠ goal → JsonTree.node A (some data) ≠ some (.scalar s)
  survives : JsonTree.mapScalars float value = value
  whole : goal <+: source → JsonTree.delete (fromPath.drop goal.length) value = value

/-! ### Other nodes -/

/-- What is known of the other nodes after a move, whatever was in the way. -/
def OthersFollow (data result : Doc σ) (source goal : List Step) : Prop :=
  ∀ A x, JsonTree.node A (some data) = some x → ¬ source <+: A → ¬ goal <+: A →
    ∃ A' y, JsonTree.relocate source A = some A' ∧ JsonTree.node A' (some result) = some y ∧
      (¬ A <+: source → ¬ A <+: goal → y = x) ∧
      ((∀ s, JsonTree.kind x ≠ .scalar s) → JsonTree.kind y = JsonTree.kind x) ∧
      (A <+: goal → A ≠ goal → ∀ s, JsonTree.kind y ≠ .scalar s)

theorem kind_eq_scalar {x : Doc σ} {s : σ} : JsonTree.kind x = .scalar s ↔ x = .scalar s := by
  cases x <;> simp [JsonTree.kind]

/-- A scalar is not above anything. -/
theorem node_scalar_below {A : List Step} {data : Doc σ} {s : σ}
    (h : JsonTree.node A (some data) = some (.scalar s)) {B : List Step} (hpre : A <+: B)
    (hne : A ≠ B) : JsonTree.node B (some data) = none := by
  obtain ⟨C, rfl⟩ := hpre
  rw [JsonTree.node_append, h]
  cases C with
  | nil => simp at hne
  | cons a C => cases a <;> exact JsonTree.node_none C

/-- The other nodes are kept exactly if nothing but containers is on the way to the new place. -/
theorem others_iff {data result : Doc σ} {source goal : List Step} {x₀ : Doc σ}
    (hsource : JsonTree.node source (some data) = some x₀) (hapart : ¬ source <+: goal)
    (h : OthersFollow data result source goal) :
    (∀ A x, JsonTree.node A (some data) = some x → ¬ source <+: A → ¬ goal <+: A →
      ∃ A' y, JsonTree.relocate source A = some A' ∧ JsonTree.node A' (some result) = some y ∧
        JsonTree.kind y = JsonTree.kind x ∧ (¬ A <+: source → ¬ A <+: goal → y = x)) ↔
      ∀ A s, A <+: goal → A ≠ goal → JsonTree.node A (some data) ≠ some (.scalar s) := by
  constructor
  · intro hothers A s hpre hne hscalar
    have hgoal : ¬ goal <+: A := fun hback =>
      hne (hpre.eq_of_length (le_antisymm hpre.length_le hback.length_le))
    have hsource' : ¬ source <+: A := fun hback => hapart (hback.trans hpre)
    obtain ⟨A', y, hA', hy, hkind, -⟩ := hothers A _ hscalar hsource' hgoal
    obtain ⟨B', z, hB', hz, -, -, habove⟩ := h A _ hscalar hsource' hgoal
    obtain rfl := Option.some.inj (hA'.symm.trans hB')
    obtain rfl := Option.some.inj (hy.symm.trans hz)
    exact habove hpre hne s hkind
  · intro hfree A x hx hsource' hgoal
    obtain ⟨A', y, hA', hy, hapart', hsame, -⟩ := h A x hx hsource' hgoal
    refine ⟨A', y, hA', hy, ?_, hapart'⟩
    by_cases hbox : ∀ s, JsonTree.kind x ≠ .scalar s
    · exact hsame hbox
    · -- a scalar is on the way to neither place
      obtain ⟨s, hs⟩ : ∃ s, JsonTree.kind x = .scalar s := by simpa using hbox
      obtain rfl := kind_eq_scalar.1 hs
      have hnotgoal : ¬ A <+: goal := fun hpre =>
        hfree A s hpre (fun heq => hgoal (heq ▸ List.prefix_refl A)) hx
      have hnotsource : ¬ A <+: source := by
        intro hpre
        have hnone := node_scalar_below hx hpre
          (fun heq => hsource' (heq ▸ List.prefix_refl A))
        rw [hnone] at hsource
        cases hsource
      rw [hapart' hnotsource hnotgoal]

/-! ### The moved value -/

/-- A value that is written and loses what is at a path is the value exactly if its numbers survive
and it has nothing there. -/
theorem delete_float_iff (float : σ → σ) (r : List String) (value : Doc σ) :
    JsonTree.delete r (JsonTree.mapScalars float value) = value ↔
      JsonTree.mapScalars float value = value ∧ JsonTree.delete r value = value := by
  constructor
  · intro h
    -- the shape of the value, in which the numbers do not count
    have hshape : JsonTree.mapScalars (fun _ => ()) (JsonTree.mapScalars float value) =
        JsonTree.mapScalars (fun _ => ()) value := JsonTree.mapScalars_comp _ _ _
    have hidle : JsonTree.delete r (JsonTree.mapScalars (fun _ => ())
        (JsonTree.mapScalars float value)) =
        JsonTree.mapScalars (fun _ => ()) (JsonTree.mapScalars float value) := by
      rw [← JsonTree.mapScalars_delete, h, hshape]
    have hself := JsonTree.delete_eq_self_of_map _ hidle
    have hsurvives : JsonTree.mapScalars float value = value := hself.symm.trans h
    refine ⟨hsurvives, ?_⟩
    rwa [hsurvives] at h
  · rintro ⟨hsurvives, hwhole⟩
    rw [hsurvives, hwhole]

/-- A move to a place that is neither above nor below the old one. -/
theorem move_apart {float : σ → σ} {null : σ} {data d₁ value : Doc σ}
    {fromPath toPath : List String} (hne : fromPath ≠ [])
    (hset : JsonTree.set null (JsonTree.mapScalars float value) toPath (some data) = some d₁)
    {source goal : List Step} (hsource : JsonTree.resolve fromPath (some data) = some source)
    (hgoal : JsonTree.target toPath (some data) = some goal) (hST : ¬ source <+: goal)
    (hTS : ¬ goal <+: source) :
    (∃ place, JsonTree.relocate source goal = some place ∧
        JsonTree.node place (some (JsonTree.delete fromPath d₁)) =
          some (JsonTree.mapScalars float value)) ∧
      OthersFollow data (JsonTree.delete fromPath d₁) source goal := by
  obtain ⟨T, hT, hnode, hwritten⟩ := JsonTree.node_set hset
  obtain rfl := Option.some.inj (hgoal.symm.trans hT)
  have hresolve := JsonTree.resolve_set hwritten (by rw [hnode]; rfl) hsource
    fun hpre => absurd hpre hTS
  refine ⟨?_, ?_⟩
  · obtain ⟨place, y, hplace, hy, hsame, -⟩ := JsonTree.node_delete hne hresolve hnode hST
    refine ⟨place, hplace, ?_⟩
    rw [hy, hsame hTS]
  · intro A x hx hA hA'
    obtain ⟨y, hy, hw⟩ := hwritten A x hx hA'
    obtain ⟨B, z, hB, hz, hsame, hkind⟩ := JsonTree.node_delete hne hresolve hy hA
    refine ⟨B, z, hB, hz, ?_, ?_, ?_⟩
    · intro hnS hnT
      rw [hsame hnS, hw.apart hnT]
    · intro hbox
      rw [hkind, hw.same hbox]
    · intro hpre hneq s
      rw [hkind]
      exact hw.above hpre hneq s

/-- Nodes apart from what a deleted node is below stay where they are. -/
theorem relocate_of_not_below {T R A : List Step} (hR : R ≠ []) (h : ¬ T <+: A) :
    JsonTree.relocate (T ++ R) A = some A := by
  induction T generalizing A with
  | nil => exact absurd List.nil_prefix h
  | cons s T ih =>
    cases A with
    | nil => cases T <;> cases R <;> simp_all [JsonTree.relocate]
    | cons a A =>
      obtain ⟨n, m, hnm⟩ : ∃ n m, T ++ R = n :: m := by
        cases hTR : T ++ R with
        | nil => simp_all
        | cons n m => exact ⟨n, m, rfl⟩
      rw [List.cons_append, hnm]
      rw [hnm] at ih
      by_cases hs : s = a
      · subst hs
        have hnot : ¬ T <+: A := fun hpre => h ((List.prefix_cons_inj s).2 hpre)
        cases s <;> simp [JsonTree.relocate, ih hnot]
      · cases s <;> simp [JsonTree.relocate, hs]

/-- A move to a place above the old one. -/
theorem move_above {float : σ → σ} {null : σ} {data d₁ value : Doc σ}
    {fromPath toPath : List String}
    (hset : JsonTree.set null (JsonTree.mapScalars float value) toPath (some data) = some d₁)
    {goal R : List Step} (hR : R ≠ [])
    (hsource : JsonTree.resolve fromPath (some data) = some (goal ++ R))
    (hgoal : JsonTree.target toPath (some data) = some goal) :
    JsonTree.relocate (goal ++ R) goal = some goal ∧
      JsonTree.node goal (some (JsonTree.delete fromPath d₁)) =
        some (JsonTree.delete (fromPath.drop goal.length) (JsonTree.mapScalars float value)) ∧
      OthersFollow data (JsonTree.delete fromPath d₁) (goal ++ R) goal := by
  obtain ⟨T, hT, hnode, hwritten⟩ := JsonTree.node_set hset
  obtain rfl := Option.some.inj (hgoal.symm.trans hT)
  -- the path to the new place, and the rest of the old path
  obtain ⟨p, r, hp, hlength⟩ : ∃ p r, fromPath = p ++ r ∧ p.length = goal.length := by
    have hle := JsonTree.length_of_resolve hsource
    rw [List.length_append] at hle
    exact ⟨fromPath.take goal.length, fromPath.drop goal.length,
      (List.take_append_drop _ _).symm, by rw [List.length_take]; omega⟩
  subst hp
  obtain ⟨A, B, hAB, hA, hB⟩ := JsonTree.resolve_append hsource
  have hlengthA := JsonTree.length_of_resolve hA
  obtain ⟨rfl, rfl⟩ : goal = A ∧ R = B := List.append_inj hAB (by omega)
  have hr : r ≠ [] := by
    have := JsonTree.length_of_resolve hB
    rintro rfl
    exact hR (List.eq_nil_of_length_eq_zero (by simpa using this))
  have hresolve := JsonTree.resolve_set hwritten (by rw [hnode]; rfl) hA fun _ => rfl
  obtain ⟨hbelow, hleft⟩ := JsonTree.delete_below hr hresolve
  have hdrop : (p ++ r).drop goal.length = r := by rw [← hlength, List.drop_left]
  refine ⟨JsonTree.relocate_of_above hR, ?_, ?_⟩
  · rw [hdrop, hbelow, hnode, Option.map_some]
  · intro A x hx hA hA'
    obtain ⟨y, hy, hw⟩ := hwritten A x hx hA'
    obtain ⟨z, hz, hsame, hkind⟩ := hleft A y hy hA'
    refine ⟨A, z, relocate_of_not_below hR hA', hz, ?_, ?_, ?_⟩
    · intro _ hnT
      rw [hsame hnT, hw.apart hnT]
    · intro hbox
      rw [hkind, hw.same hbox]
    · intro hpre hneq s
      rw [hkind]
      exact hw.above hpre hneq s

/-- **A move keeps the value** exactly if it is not moved onto or into itself, the way to the new
place is free, the numbers survive, and nothing of the value is at the rest of the old path. -/
theorem move_keeps_value {float : σ → σ} {null : σ} {data result : Doc σ}
    {fromPath toPath : List String}
    (hmove : moveValue float null data fromPath toPath = .ok result) :
    ∃ value source goal, JsonTree.get fromPath (some data) = some value ∧
      JsonTree.resolve fromPath (some data) = some source ∧
      JsonTree.target toPath (some data) = some goal ∧
      (MoveKeeps data result value source goal ↔
        MoveFits float data value fromPath source goal) := by
  unfold moveValue at hmove
  cases hget : JsonTree.get fromPath (some data) with
  | none => simp [hget] at hmove
  | some value =>
    simp only [hget] at hmove
    by_cases hfrom : fromPath = []
    · simp [hfrom] at hmove
    rw [if_neg hfrom] at hmove
    by_cases hto : toPath = []
    · simp [hto] at hmove
    rw [if_neg hto] at hmove
    cases hset : JsonTree.set null (JsonTree.mapScalars float value) toPath (some data) with
    | none => simp [hset] at hmove
    | some d₁ =>
      simp only [hset, Except.ok.injEq] at hmove
      subst hmove
      obtain ⟨source, hsource⟩ := JsonTree.resolve_of_get (by rw [hget]; rfl)
      obtain ⟨goal, hgoal, -, -⟩ := JsonTree.node_set hset
      refine ⟨value, source, goal, rfl, hsource, hgoal, ?_⟩
      have hnode : JsonTree.node source (some data) = some value := by
        rw [← (JsonTree.get_of_resolve hsource).1, hget]
      have hsourcene : source ≠ [] := by
        have := JsonTree.length_of_resolve hsource
        rintro rfl
        exact hfrom (List.eq_nil_of_length_eq_zero (by simpa using this.symm))
      by_cases hST : source <+: goal
      · -- the new place is deleted with the old one
        have hnone := (JsonTree.relocate_eq_none hsourcene).2 hST
        constructor
        · intro hkeeps
          obtain ⟨place, hplace, -⟩ := hkeeps.present
          rw [hnone] at hplace
          cases hplace
        · intro hfits
          exact absurd hST hfits.apart
      by_cases hTS : goal <+: source
      · obtain ⟨R, rfl⟩ := hTS
        have hR : R ≠ [] := by
          rintro rfl
          exact hST (by simp)
        obtain ⟨hplace, hvalue, hfollow⟩ := move_above hset hR hsource hgoal
        have hothers := others_iff hnode hST hfollow
        have hwhole := delete_float_iff float (fromPath.drop goal.length) value
        constructor
        · intro hkeeps
          obtain ⟨place, hplace', hpresent⟩ := hkeeps.present
          obtain rfl := Option.some.inj (hplace.symm.trans hplace')
          rw [hvalue, Option.some.injEq] at hpresent
          obtain ⟨hsurvives, hidle⟩ := hwhole.1 hpresent
          exact ⟨hST, hothers.1 hkeeps.others, hsurvives, fun _ => hidle⟩
        · intro hfits
          refine ⟨⟨goal, hplace, ?_⟩, hothers.2 hfits.free⟩
          rw [hvalue, hwhole.2 ⟨hfits.survives, hfits.whole (List.prefix_append _ _)⟩]
      · obtain ⟨⟨place, hplace, hvalue⟩, hfollow⟩ :=
          move_apart hfrom hset hsource hgoal hST hTS
        have hothers := others_iff hnode hST hfollow
        constructor
        · intro hkeeps
          obtain ⟨place', hplace', hpresent⟩ := hkeeps.present
          obtain rfl := Option.some.inj (hplace.symm.trans hplace')
          rw [hvalue, Option.some.injEq] at hpresent
          exact ⟨hST, hothers.1 hkeeps.others, hpresent, fun h => absurd h hTS⟩
        · intro hfits
          refine ⟨⟨place, hplace, ?_⟩, hothers.2 hfits.free⟩
          rw [hvalue, hfits.survives]

end Move

/-! ### A value that is moved and one that is lost -/

/-- An element is moved out of an array to a new field, and the element after it moves up. -/
theorem move_keeps_value_element :
    MoveKeeps (Doc.obj [("messages", .arr [.scalar "a", .scalar "b"])])
      (.obj [("messages", .arr [.scalar "b"]), ("system", .scalar "a")]) (.scalar "a")
      [.key "messages", .elem 0] [.key "system"] := by
  obtain ⟨value, source, goal, hvalue, hsource, hgoal, hiff⟩ :=
    @move_keeps_value _ id "null" (Doc.obj [("messages", .arr [.scalar "a", .scalar "b"])])
      _ ["messages", "0"] ["system"] rfl
  obtain rfl := Option.some.inj hvalue
  obtain rfl := Option.some.inj hsource
  obtain rfl := Option.some.inj hgoal
  refine hiff.2 ⟨by decide, ?_, rfl, fun h => absurd h (by decide)⟩
  -- above the new place there is nothing but the document
  intro A s hpre hne
  obtain ⟨B, hB⟩ := hpre
  cases A with
  | nil => simp [JsonTree.node]
  | cons a A =>
    obtain ⟨rfl, hrest⟩ := List.cons.inj hB
    obtain ⟨rfl, -⟩ := List.append_eq_nil_iff.1 hrest
    exact absurd rfl hne

/-- **A value that is moved onto itself is lost.** -/
theorem moved_onto_itself :
    moveValue id "null" (.obj [("model", .scalar "a")]) ["model"] ["model"] = .ok (.obj []) ∧
      JsonTree.resolve ["model"] (some (Doc.obj [("model", .scalar "a")])) =
        some [.key "model"] ∧
      JsonTree.target ["model"] (some (Doc.obj [("model", .scalar "a")])) =
        some [.key "model"] ∧
      ¬ MoveKeeps (.obj [("model", .scalar "a")]) (.obj []) (.scalar "a") [.key "model"]
        [.key "model"] := by
  refine ⟨rfl, rfl, rfl, ?_⟩
  intro h
  obtain ⟨place, hplace, -⟩ := h.present
  cases hplace

end NewApi

/-
**The nodes of a document, and where they are after a write or a deletion.**

A path is a list of texts, and what a text means depends on the node it is applied to.  An address
is a list of steps that each say what they are: a key of an object, or an index of an array.  A path
that leads to something resolves to its address.  Writing at a path touches the address it writes
to, and the scalars in the way; deleting touches the address it removes, and the elements of an
array that come after it are one step nearer to the beginning.

Main definitions:

* `JsonTree.Step`, `JsonTree.node` — steps, and the node at an address;
* `JsonTree.resolve`, `JsonTree.target` — the address a path leads to, or writes to;
* `JsonTree.relocate` — where a node is after another one has been deleted.

Main results:

* `JsonTree.node_set` — **what a write leaves of a document**;
* `JsonTree.node_delete` — **what a deletion leaves of it**;
* `JsonTree.resolve_set` — a path leads to the same address after a write that is not above it.
-/

import NewApi.Lib.JsonTree

set_option autoImplicit false

namespace JsonTree

/-! ### Addresses -/

/-- A step from a node to one of its children. -/
inductive Step where
  | key (k : String)
  | elem (i : ℕ)
deriving DecidableEq, Repr

section Addresses

variable {σ : Type*}

/-- The child a step leads to. -/
def follow : Step → Doc σ → Option (Doc σ)
  | .key k, .obj fields => fields.lookup k
  | .elem i, .arr items => items[i]?
  | _, _ => none

/-- The node at an address. -/
def node : List Step → Option (Doc σ) → Option (Doc σ)
  | [], d => d
  | s :: rest, d => node rest (d.bind (follow s))

/-- The step a segment is at a node. -/
def stepAt (segment : String) : Doc σ → Option Step
  | .scalar _ => none
  | .arr _ => (index segment).map .elem
  | .obj _ => some (.key segment)

/-- The address a path leads to, if it leads to anything. -/
def resolve : List String → Option (Doc σ) → Option (List Step)
  | _, none => none
  | [], some _ => some []
  | segment :: rest, some d =>
    (stepAt segment d).bind fun s => (resolve rest (follow s d)).map (s :: ·)

/-- The address a write at a path writes to. -/
def target : List String → Option (Doc σ) → Option (List Step)
  | [], _ => some []
  | segment :: rest, some (.obj fields) =>
    (target rest (fields.lookup segment)).map (.key segment :: ·)
  | segment :: rest, some (.arr items) =>
    match index segment with
    | some i => (target rest items[i]?).map (.elem i :: ·)
    | none =>
      if segment = "-1" then (target rest none).map (.elem items.length :: ·) else none
  | segment :: rest, some (.scalar _) =>
    match index segment with
    | some i => (target rest none).map (.elem i :: ·)
    | none => (target rest none).map (.key segment :: ·)
  | segment :: rest, none =>
    match index segment with
    | some i => (target rest none).map (.elem i :: ·)
    | none =>
      if segment = "-1" then (target rest none).map (.elem 0 :: ·)
      else (target rest none).map (.key segment :: ·)

/-- The address of a node after the node at the first address has been deleted: `none` if it is
deleted with it. -/
def relocate : List Step → List Step → Option (List Step)
  | _, [] => some []
  | [], _ :: _ => none
  | [.elem i], .elem j :: rest =>
    if j = i then none else some (.elem (if i < j then j - 1 else j) :: rest)
  | [s], a :: rest => if s = a then none else some (a :: rest)
  | s :: next :: more, a :: rest =>
    if s = a then (relocate (next :: more) rest).map (a :: ·) else some (a :: rest)

/-- What a node is, without what is below it. -/
inductive Kind (σ : Type*) where
  | scalar (s : σ)
  | arr
  | obj
deriving DecidableEq

def kind : Doc σ → Kind σ
  | .scalar s => .scalar s
  | .arr _ => .arr
  | .obj _ => .obj

/-! ### Paths that lead to something -/

theorem resolve_cons (segment : String) (rest : List String) (d : Doc σ) :
    resolve (segment :: rest) (some d) =
      (stepAt segment d).bind fun s => (resolve rest (follow s d)).map (s :: ·) := rfl

@[simp] theorem node_none (A : List Step) : node A (none : Option (Doc σ)) = none := by
  induction A with
  | nil => rfl
  | cons s rest ih => exact ih

theorem node_append (A B : List Step) (d : Option (Doc σ)) :
    node (A ++ B) d = node B (node A d) := by
  induction A generalizing d with
  | nil => rfl
  | cons s rest ih => exact ih _

theorem child_eq (segment : String) (d : Doc σ) :
    child segment d = (stepAt segment d).bind fun s => follow s d := by
  cases d with
  | scalar s => rfl
  | arr items =>
    simp only [child, stepAt]
    cases index segment <;> rfl
  | obj fields => rfl

/-- A path leads to the node at the address it resolves to. -/
theorem get_of_resolve {p : List String} {d : Option (Doc σ)} {A : List Step}
    (h : resolve p d = some A) : get p d = node A d ∧ (get p d).isSome := by
  induction p generalizing d A with
  | nil =>
    cases d with
    | none => cases h
    | some d =>
      obtain rfl := Option.some.inj h
      exact ⟨rfl, rfl⟩
  | cons segment rest ih =>
    cases d with
    | none => cases h
    | some d =>
      simp only [resolve_cons, Option.bind_eq_some_iff, Option.map_eq_some_iff] at h
      obtain ⟨s, hs, B, hB, rfl⟩ := h
      have hchild : child segment d = follow s d := by rw [child_eq, hs, Option.bind_some]
      obtain ⟨hnode, hsome⟩ := ih hB
      simp only [get, node, Option.bind_some, hchild]
      exact ⟨hnode, hsome⟩

/-- Whatever a path leads to has an address. -/
theorem resolve_of_get {p : List String} {d : Option (Doc σ)} (h : (get p d).isSome) :
    ∃ A, resolve p d = some A := by
  induction p generalizing d with
  | nil =>
    obtain ⟨x, rfl⟩ := Option.isSome_iff_exists.1 h
    exact ⟨[], rfl⟩
  | cons segment rest ih =>
    cases d with
    | none => simp at h
    | some d =>
      have h' : (get rest (child segment d)).isSome := h
      rw [child_eq] at h'
      cases hs : stepAt segment d with
      | none => simp [hs] at h'
      | some s =>
        rw [hs, Option.bind_some] at h'
        obtain ⟨B, hB⟩ := ih h'
        exact ⟨s :: B, by simp [resolve_cons, hs, hB]⟩

theorem length_of_resolve {p : List String} {d : Option (Doc σ)} {A : List Step}
    (h : resolve p d = some A) : A.length = p.length := by
  induction p generalizing d A with
  | nil =>
    cases d with
    | none => cases h
    | some d =>
      obtain rfl := Option.some.inj h
      rfl
  | cons segment rest ih =>
    cases d with
    | none => cases h
    | some d =>
      simp only [resolve_cons, Option.bind_eq_some_iff, Option.map_eq_some_iff] at h
      obtain ⟨s, -, B, hB, rfl⟩ := h
      simp [ih hB]

/-- A path that resolves does so in two parts. -/
theorem resolve_append {p q : List String} {d : Option (Doc σ)} {C : List Step}
    (h : resolve (p ++ q) d = some C) :
    ∃ A B, C = A ++ B ∧ resolve p d = some A ∧ resolve q (node A d) = some B := by
  induction p generalizing d C with
  | nil =>
    cases d with
    | none => cases q <;> cases h
    | some d => exact ⟨[], C, rfl, rfl, h⟩
  | cons segment rest ih =>
    cases d with
    | none => cases h
    | some d =>
      simp only [List.cons_append, resolve_cons, Option.bind_eq_some_iff,
        Option.map_eq_some_iff] at h
      obtain ⟨s, hs, C', hC', rfl⟩ := h
      obtain ⟨A, B, rfl, hA, hB⟩ := ih hC'
      refine ⟨s :: A, B, rfl, ?_, hB⟩
      simp [resolve_cons, hs, hA]

/-! ### Children after a write -/

/-- The child at a step, and no other, is replaced. -/
theorem follow_upsert (k : String) (c : Doc σ) (fields : List (String × Doc σ)) (s : Step) :
    follow s (.obj (upsert k c fields)) =
      if s = .key k then some c else follow s (.obj fields) := by
  cases s with
  | elem i => rfl
  | key k' =>
    by_cases hk : k' = k
    · subst hk
      simp [follow, lookup_upsert_self]
    · simp [follow, lookup_upsert_of_ne hk, hk]

/-- Elements that are there stay where they are when another one is written. -/
theorem follow_place {filler c : Doc σ} {i : ℕ} {items : List (Doc σ)} :
    follow (.elem i) (.arr (place filler i c items)) = some c ∧
      ∀ s x, s ≠ .elem i → follow s (.arr items) = some x →
        follow s (.arr (place filler i c items)) = some x := by
  by_cases hlt : i < items.length
  · simp only [place, if_pos hlt]
    refine ⟨by simp [follow, hlt], ?_⟩
    intro s x hne hx
    cases s with
    | key k => cases hx
    | elem j =>
      have hij : i ≠ j := fun h => hne (by rw [h])
      have hx' : items[j]? = some x := hx
      show (items.set i c)[j]? = some x
      rw [List.getElem?_set_ne hij, hx']
  · simp only [place, if_neg hlt]
    have hlength : (items ++ List.replicate (i - items.length) filler).length = i := by
      rw [List.length_append, List.length_replicate]
      omega
    refine ⟨?_, ?_⟩
    · show (items ++ List.replicate (i - items.length) filler ++ [c])[i]? = some c
      rw [List.getElem?_append_right (by omega), hlength]
      simp
    · intro s x hne hx
      cases s with
      | key k => cases hx
      | elem j =>
        have hx' : items[j]? = some x := hx
        have hj : j < items.length := (List.getElem?_eq_some_iff.1 hx').1
        show (items ++ List.replicate (i - items.length) filler ++ [c])[j]? = some x
        rw [List.append_assoc, List.getElem?_append_left hj, hx']

/-! ### Writing -/

/-- What a write at `T` may make of the node `x` at `A`: nothing, unless it is in the way, and then
it is a container of the same kind, or one instead of a scalar. -/
structure Written (T A : List Step) (x y : Doc σ) : Prop where
  apart : ¬ A <+: T → y = x
  same : (∀ s, kind x ≠ .scalar s) → kind y = kind x
  above : A <+: T → A ≠ T → ∀ s, kind y ≠ .scalar s

/-- The write at an address below a child, from that below the child's own address. -/
theorem written_cons {s₀ : Step} {d d' c value : Doc σ} {T : List Step}
    (hc : follow s₀ d' = some c)
    (hother : ∀ s x, s ≠ s₀ → follow s d = some x → follow s d' = some x)
    (hkind : (∀ s, kind d ≠ .scalar s) → kind d' = kind d) (hbox : ∀ s, kind d' ≠ .scalar s)
    (hnode : node T (some c) = some value)
    (hbelow : ∀ A x, node A (follow s₀ d) = some x → ¬ T <+: A →
      ∃ y, node A (some c) = some y ∧ Written T A x y) :
    node (s₀ :: T) (some d') = some value ∧
      ∀ A x, node A (some d) = some x → ¬ (s₀ :: T) <+: A →
        ∃ y, node A (some d') = some y ∧ Written (s₀ :: T) A x y := by
  refine ⟨by simpa [node, hc] using hnode, ?_⟩
  intro A x hx hnot
  cases A with
  | nil =>
    obtain rfl := Option.some.inj hx
    exact ⟨d', rfl, ⟨fun h => absurd (List.nil_prefix) h, hkind, fun _ _ => hbox⟩⟩
  | cons s A =>
    have hx' : node A (follow s d) = some x := hx
    by_cases hs : s = s₀
    · subst hs
      have hnot' : ¬ T <+: A := fun h => hnot ((List.prefix_cons_inj s).2 h)
      obtain ⟨y, hy, hwritten⟩ := hbelow A x hx' hnot'
      refine ⟨y, by simpa [node, hc] using hy, ?_, hwritten.same, ?_⟩
      · intro h
        exact hwritten.apart fun hpre => h ((List.prefix_cons_inj s).2 hpre)
      · intro hpre hne
        exact hwritten.above ((List.prefix_cons_inj s).1 hpre) fun h => hne (by rw [h])
    · -- another child is as it was
      obtain ⟨z, hz⟩ : ∃ z, follow s d = some z := by
        cases hf : follow s d with
        | none => simp [hf] at hx'
        | some z => exact ⟨z, rfl⟩
      have hsame := hother s z hs hz
      refine ⟨x, ?_, fun _ => rfl, fun _ => rfl, ?_⟩
      · rw [hz] at hx'
        simpa [node, hsame] using hx'
      · intro hpre
        exact absurd (List.cons_prefix_cons.1 hpre).1 hs

/-- A write below nothing. -/
theorem written_fresh {T : List Step} (c : Option (Doc σ)) (A : List Step) (x : Doc σ)
    (hx : node A (none : Option (Doc σ)) = some x) (_ : ¬ T <+: A) :
    ∃ y, node A c = some y ∧ Written T A x y := by
  simp at hx

/-- **What a write leaves of a document**: the value is at the address that is written to, and the
other nodes are as they were but for those in the way. -/
theorem node_set {null : σ} {value : Doc σ} {p : List String} {d : Option (Doc σ)} {d' : Doc σ}
    (h : set null value p d = some d') :
    ∃ T, target p d = some T ∧ node T (some d') = some value ∧
      ∀ A x, node A d = some x → ¬ T <+: A →
        ∃ y, node A (some d') = some y ∧ Written T A x y := by
  induction p generalizing d d' with
  | nil =>
    obtain rfl := Option.some.inj h
    exact ⟨[], rfl, rfl, fun A x _ hnot => absurd List.nil_prefix hnot⟩
  | cons segment rest ih =>
    -- a new container, with the one child that is written
    have hnew : ∀ s₀ (d₁ c : Doc σ) T, follow s₀ d₁ = some c → node T (some c) = some value →
        node (s₀ :: T) (some d₁) = some value := by
      intro s₀ d₁ c T hc hT
      simpa [node, hc] using hT
    cases d with
    | none =>
      cases hindex : index segment with
      | some i =>
        simp only [set, hindex, Option.map_eq_some_iff] at h
        obtain ⟨c, hset, rfl⟩ := h
        obtain ⟨T, hT, hnode, -⟩ := ih hset
        refine ⟨.elem i :: T, by simp [target, hindex, hT],
          hnew _ _ c T (follow_place).1 hnode, written_fresh _⟩
      | none =>
        simp only [set, hindex] at h
        by_cases hlast : segment = "-1"
        · rw [if_pos hlast, Option.map_eq_some_iff] at h
          obtain ⟨c, hset, rfl⟩ := h
          obtain ⟨T, hT, hnode, -⟩ := ih hset
          refine ⟨.elem 0 :: T, ?_, hnew _ _ c T rfl hnode, written_fresh _⟩
          simp only [target, hindex, if_pos hlast, hT, Option.map_some]
        · rw [if_neg hlast, Option.map_eq_some_iff] at h
          obtain ⟨c, hset, rfl⟩ := h
          obtain ⟨T, hT, hnode, -⟩ := ih hset
          refine ⟨.key segment :: T, ?_, hnew _ _ c T ?_ hnode, written_fresh _⟩
          · simp only [target, hindex, if_neg hlast, hT, Option.map_some]
          · simp [follow]
    | some d =>
      cases d with
      | scalar s =>
        cases hindex : index segment with
        | some i =>
          simp only [set, hindex, Option.map_eq_some_iff] at h
          obtain ⟨c, hset, rfl⟩ := h
          obtain ⟨T, hT, hnode, -⟩ := ih hset
          refine ⟨.elem i :: T, by simp [target, hindex, hT], ?_⟩
          exact @written_cons _ (.elem i) (.scalar s) _ c value T follow_place.1
            (fun s x _ hx => by cases s <;> cases hx)
            (fun hbox => absurd rfl (hbox s)) (fun s => by simp [kind]) hnode
            (written_fresh _)
        | none =>
          simp only [set, hindex, Option.map_eq_some_iff] at h
          obtain ⟨c, hset, rfl⟩ := h
          obtain ⟨T, hT, hnode, -⟩ := ih hset
          refine ⟨.key segment :: T, by simp [target, hindex, hT], ?_⟩
          exact @written_cons _ (.key segment) (.scalar s) _ c value T
            (by simp [follow])
            (fun s x _ hx => by cases s <;> cases hx)
            (fun hbox => absurd rfl (hbox s)) (fun s => by simp [kind]) hnode
            (written_fresh _)
      | obj fields =>
        simp only [set, Option.map_eq_some_iff] at h
        obtain ⟨c, hset, rfl⟩ := h
        obtain ⟨T, hT, hnode, hbelow⟩ := ih hset
        refine ⟨.key segment :: T, by simp [target, hT], ?_⟩
        refine @written_cons _ (.key segment) (.obj fields) _ c value T ?_ ?_
          (fun _ => rfl) (fun s => by simp [kind]) hnode hbelow
        · rw [follow_upsert, if_pos rfl]
        · intro s x hne hx
          rw [follow_upsert, if_neg hne, hx]
      | arr items =>
        cases hindex : index segment with
        | some i =>
          simp only [set, hindex, Option.map_eq_some_iff] at h
          obtain ⟨c, hset, rfl⟩ := h
          obtain ⟨T, hT, hnode, hbelow⟩ := ih hset
          refine ⟨.elem i :: T, by simp [target, hindex, hT], ?_⟩
          exact @written_cons _ (.elem i) (.arr items) _ c value T follow_place.1
            follow_place.2 (fun _ => rfl) (fun s => by simp [kind]) hnode hbelow
        | none =>
          simp only [set, hindex] at h
          by_cases hlast : segment = "-1"
          · rw [if_pos hlast, Option.map_eq_some_iff] at h
            obtain ⟨c, hset, rfl⟩ := h
            obtain ⟨T, hT, hnode, -⟩ := ih hset
            refine ⟨.elem items.length :: T, ?_, ?_⟩
            · simp only [target, hindex, if_pos hlast, hT, Option.map_some]
            refine @written_cons _ (.elem items.length) (.arr items) _ c value T
              (by simp [follow]) ?_ (fun _ => rfl) (fun s => by simp [kind]) hnode ?_
            · intro s x _ hx
              cases s with
              | key k => cases hx
              | elem j =>
                have hx' : items[j]? = some x := hx
                have hj : j < items.length := (List.getElem?_eq_some_iff.1 hx').1
                show (items ++ [c])[j]? = some x
                rw [List.getElem?_append_left hj, hx']
            · intro A x hx hnot
              have hnone : follow (.elem items.length) (.arr items) = none := by
                simp [follow]
              rw [hnone] at hx
              exact written_fresh _ A x hx hnot
          · rw [if_neg hlast] at h
            cases h

/-- The segments of a path mean the same at containers of the same kind. -/
theorem stepAt_of_kind {d d' : Doc σ} (h : (∀ s, kind d ≠ .scalar s) → kind d' = kind d)
    {segment : String} {s : Step} (hs : stepAt segment d = some s) :
    stepAt segment d' = some s := by
  cases d with
  | scalar x => cases hs
  | arr items =>
    have hkind := h fun s => by simp [kind]
    cases d' with
    | arr items' => exact hs
    | scalar x => cases hkind
    | obj fields => cases hkind
  | obj fields =>
    have hkind := h fun s => by simp [kind]
    cases d' with
    | obj fields' => exact hs
    | scalar x => cases hkind
    | arr items => cases hkind

/-- A path resolves to the address of a node if the nodes along it are of the kinds they were. -/
theorem resolve_of_kinds {p : List String} {d d' : Option (Doc σ)} {A : List Step}
    (hA : resolve p d = some A) (hsome : (node A d').isSome)
    (hkinds : ∀ B x, B <+: A → B ≠ A → node B d = some x →
      ∃ y, node B d' = some y ∧ ((∀ s, kind x ≠ .scalar s) → kind y = kind x)) :
    resolve p d' = some A := by
  induction p generalizing d d' A with
  | nil =>
    cases d with
    | none => cases hA
    | some d =>
      obtain rfl := Option.some.inj hA
      obtain ⟨y, rfl⟩ := Option.isSome_iff_exists.1 hsome
      rfl
  | cons segment rest ih =>
    cases d with
    | none => cases hA
    | some d =>
      simp only [resolve_cons, Option.bind_eq_some_iff, Option.map_eq_some_iff] at hA
      obtain ⟨s, hs, A', hA', rfl⟩ := hA
      obtain ⟨y, hy, hkind⟩ := hkinds [] d List.nil_prefix (by simp) rfl
      have hd' : d' = some y := hy
      subst hd'
      have hrest : resolve rest (follow s y) = some A' := by
        refine ih hA' hsome ?_
        intro B x hB hne hx
        exact hkinds (s :: B) x ((List.prefix_cons_inj s).2 hB) (by simpa using hne) hx
      simp only [resolve_cons, stepAt_of_kind hkind hs, Option.bind_some, hrest, Option.map_some]

/-- **A path leads to the same address after a write** that is not above it. -/
theorem resolve_set {T F : List Step} {f : List String} {d : Option (Doc σ)} {d' : Doc σ}
    (hwritten : ∀ A x, node A d = some x → ¬ T <+: A →
      ∃ y, node A (some d') = some y ∧ Written T A x y)
    (hT : (node T (some d')).isSome) (hf : resolve f d = some F) (hno : T <+: F → T = F) :
    resolve f (some d') = some F := by
  obtain ⟨hget, hsome⟩ := get_of_resolve hf
  rw [hget] at hsome
  obtain ⟨x, hx⟩ := Option.isSome_iff_exists.1 hsome
  refine resolve_of_kinds hf ?_ ?_
  · by_cases hpre : T <+: F
    · rw [← hno hpre]
      exact hT
    · obtain ⟨y, hy, -⟩ := hwritten F x hx hpre
      exact Option.isSome_iff_exists.2 ⟨y, hy⟩
  · intro B z hB hne hz
    have hnot : ¬ T <+: B := by
      intro hpre
      have hF := hno (hpre.trans hB)
      rw [hF] at hpre
      exact hne (hB.eq_of_length (le_antisymm hB.length_le hpre.length_le))
    obtain ⟨y, hy, hwr⟩ := hwritten B z hz hnot
    exact ⟨y, hy, hwr.same⟩

/-! ### Deleting -/

theorem lookup_eraseKey_of_ne {key other : String} (hne : other ≠ key)
    (fields : List (String × Doc σ)) :
    (eraseKey key fields).lookup other = fields.lookup other := by
  induction fields with
  | nil => rfl
  | cons f fields ih =>
    obtain ⟨k, value⟩ := f
    by_cases hk : k = key
    · have hother : (other == k) = false := by simpa [hk] using hne
      simp only [eraseKey, if_pos hk, List.lookup_cons, hother]
    · simp only [eraseKey, if_neg hk, List.lookup_cons, ih]

/-- A deletion below a child replaces the child. -/
theorem delete_cons {segment : String} {q : List String} (hq : q ≠ []) {d c : Doc σ} {s : Step}
    (hs : stepAt segment d = some s) (hc : follow s d = some c) :
    follow s (delete (segment :: q) d) = some (delete q c) ∧
      (∀ s' x, s' ≠ s → follow s' d = some x → follow s' (delete (segment :: q) d) = some x) ∧
      kind (delete (segment :: q) d) = kind d := by
  obtain ⟨next, rest, rfl⟩ := List.exists_cons_of_ne_nil hq
  cases d with
  | scalar x => cases hs
  | obj fields =>
    obtain rfl := Option.some.inj hs
    have hlookup : fields.lookup segment = some c := hc
    have hdelete : delete (segment :: next :: rest) (.obj fields) =
        .obj (upsert segment (delete (next :: rest) c) fields) := by
      simp only [delete, hlookup]
    rw [hdelete]
    refine ⟨?_, ?_, rfl⟩
    · rw [follow_upsert, if_pos rfl]
    · intro s' x hne hx
      rw [follow_upsert, if_neg hne, hx]
  | arr items =>
    simp only [stepAt, Option.map_eq_some_iff] at hs
    obtain ⟨i, hi, rfl⟩ := hs
    have hitem : items[i]? = some c := hc
    have hlt : i < items.length := (List.getElem?_eq_some_iff.1 hitem).1
    have hdelete : delete (segment :: next :: rest) (.arr items) =
        .arr (items.set i (delete (next :: rest) c)) := by
      simp only [delete, hi, hitem]
    rw [hdelete]
    refine ⟨by simp [follow, hlt], ?_, rfl⟩
    intro s' x hne hx
    cases s' with
    | key k => cases hx
    | elem j =>
      have hx' : items[j]? = some x := hx
      have hij : i ≠ j := fun h => hne (by rw [h])
      show (items.set i (delete (next :: rest) c))[j]? = some x
      rw [List.getElem?_set_ne hij, hx']

/-- A deletion at a node with a child that it removes. -/
theorem delete_one {segment : String} {d c : Doc σ} {s : Step}
    (hs : stepAt segment d = some s) (hc : follow s d = some c) :
    kind (delete [segment] d) = kind d ∧
      ∀ s' x, s' ≠ s → follow s' d = some x → ∀ A, ∃ s'', relocate [s] (s' :: A) =
        some (s'' :: A) ∧ follow s'' (delete [segment] d) = some x := by
  cases d with
  | scalar x => cases hs
  | obj fields =>
    obtain rfl := Option.some.inj hs
    refine ⟨rfl, ?_⟩
    intro s' x hne hx A
    cases s' with
    | elem j => cases hx
    | key k =>
      have hk : k ≠ segment := fun h => hne (by rw [h])
      have hlookup : fields.lookup k = some x := hx
      refine ⟨.key k, by simp [relocate, Ne.symm hne], ?_⟩
      show (eraseKey segment fields).lookup k = some x
      rw [lookup_eraseKey_of_ne hk, hlookup]
  | arr items =>
    simp only [stepAt, Option.map_eq_some_iff] at hs
    obtain ⟨i, hi, rfl⟩ := hs
    have hdelete : delete [segment] (.arr items) = .arr (items.eraseIdx i) := by
      simp only [delete, hi]
    rw [hdelete]
    refine ⟨rfl, ?_⟩
    intro s' x hne hx A
    cases s' with
    | key k => cases hx
    | elem j =>
      have hij : j ≠ i := fun h => hne (by rw [h])
      have hitem : items[j]? = some x := hx
      refine ⟨.elem (if i < j then j - 1 else j), by simp [relocate, hij], ?_⟩
      show (items.eraseIdx i)[if i < j then j - 1 else j]? = some x
      rw [List.getElem?_eraseIdx]
      by_cases hlt : i < j
      · rw [if_pos hlt, if_neg (by omega), show j - 1 + 1 = j by omega, hitem]
      · rw [if_neg hlt, if_pos (by omega), hitem]

/-- **What a deletion leaves of a document**: the nodes that are not deleted with it, each where it
has been moved to, and those above it with the child missing. -/
theorem node_delete {f : List String} (hf : f ≠ []) {d : Doc σ} {F : List Step}
    (h : resolve f (some d) = some F) {A : List Step} {x : Doc σ} (hx : node A (some d) = some x)
    (hnot : ¬ F <+: A) :
    ∃ A' y, relocate F A = some A' ∧ node A' (some (delete f d)) = some y ∧
      (¬ A <+: F → y = x) ∧ kind y = kind x := by
  induction f generalizing d F A x with
  | nil => exact absurd rfl hf
  | cons segment rest ih =>
    simp only [resolve_cons, Option.bind_eq_some_iff, Option.map_eq_some_iff] at h
    obtain ⟨s, hs, F', hF', rfl⟩ := h
    obtain ⟨c, hc⟩ : ∃ c, follow s d = some c := by
      cases hfollow : follow s d with
      | none =>
        rw [hfollow] at hF'
        cases rest <;> cases hF'
      | some c => exact ⟨c, rfl⟩
    rw [hc] at hF'
    have hlength := length_of_resolve hF'
    cases A with
    | nil =>
      obtain rfl := Option.some.inj hx
      refine ⟨[], delete (segment :: rest) d, by cases F' <;> cases s <;> rfl, rfl, ?_, ?_⟩
      · intro h
        exact absurd List.nil_prefix h
      · by_cases hrest : rest = []
        · subst hrest
          exact (delete_one hs hc).1
        · exact (delete_cons hrest hs hc).2.2
    | cons s' A =>
      obtain ⟨z, hz⟩ : ∃ z, follow s' d = some z := by
        cases hfollow : follow s' d with
        | none => simp [node, hfollow] at hx
        | some z => exact ⟨z, rfl⟩
      have hx' : node A (some z) = some x := by
        have hx' : node A (follow s' d) = some x := hx
        rwa [hz] at hx'
      by_cases hrest : rest = []
      · -- the child itself is deleted
        subst hrest
        have hF'nil : F' = [] := List.eq_nil_of_length_eq_zero (by simpa using hlength)
        subst hF'nil
        have hne : s' ≠ s := by
          rintro rfl
          exact hnot ⟨A, rfl⟩
        obtain ⟨s'', hrelocate, hfollow⟩ := (delete_one hs hc).2 s' z hne hz A
        refine ⟨s'' :: A, x, hrelocate, ?_, fun _ => rfl, rfl⟩
        show node A (follow s'' (delete [segment] d)) = some x
        rw [hfollow, hx']
      · obtain ⟨hself, hother, -⟩ := delete_cons hrest hs hc
        obtain ⟨n, m, hnm⟩ : ∃ n m, F' = n :: m := by
          cases F' with
          | nil => exact absurd (List.eq_nil_of_length_eq_zero hlength.symm) hrest
          | cons n m => exact ⟨n, m, rfl⟩
        subst hnm
        by_cases hne : s' = s
        · subst hne
          obtain rfl : z = c := Option.some.inj (hz.symm.trans hc)
          have hnot' : ¬ (n :: m) <+: A := fun h => hnot ((List.prefix_cons_inj s').2 h)
          obtain ⟨A', y, hrelocate, hy, hapart, hkind⟩ := ih hrest hF' hx' hnot'
          refine ⟨s' :: A', y, ?_, ?_, ?_, hkind⟩
          · simp [relocate, hrelocate]
          · show node A' (follow s' (delete (segment :: rest) d)) = some y
            rw [hself, hy]
          · intro h
            exact hapart fun hpre => h ((List.prefix_cons_inj s').2 hpre)
        · refine ⟨s' :: A, x, by simp [relocate, Ne.symm hne], ?_, fun _ => rfl, rfl⟩
          show node A (follow s' (delete (segment :: rest) d)) = some x
          rw [hother s' z hne hz, hx']

/-- A deletion below an address deletes from the node there, and leaves the nodes elsewhere. -/
theorem delete_below {f r : List String} (hr : r ≠ []) {d : Doc σ} {T : List Step}
    (h : resolve f (some d) = some T) :
    node T (some (delete (f ++ r) d)) = (node T (some d)).map (delete r) ∧
      ∀ A x, node A (some d) = some x → ¬ T <+: A →
        ∃ y, node A (some (delete (f ++ r) d)) = some y ∧ (¬ A <+: T → y = x) ∧
          kind y = kind x := by
  induction f generalizing d T with
  | nil =>
    obtain rfl := Option.some.inj h
    exact ⟨rfl, fun A x _ hnot => absurd List.nil_prefix hnot⟩
  | cons segment rest ih =>
    simp only [resolve_cons, Option.bind_eq_some_iff, Option.map_eq_some_iff] at h
    obtain ⟨s, hs, T', hT', rfl⟩ := h
    obtain ⟨c, hc⟩ : ∃ c, follow s d = some c := by
      cases hfollow : follow s d with
      | none =>
        rw [hfollow] at hT'
        cases rest <;> cases hT'
      | some c => exact ⟨c, rfl⟩
    rw [hc] at hT'
    have hbelow : rest ++ r ≠ [] := by simp [hr]
    obtain ⟨hself, hother, hkind⟩ := delete_cons hbelow hs hc
    obtain ⟨hnode, hleft⟩ := ih hT'
    refine ⟨?_, ?_⟩
    · show node T' (follow s (delete (segment :: (rest ++ r)) d)) = (node T' (follow s d)).map _
      rw [hself, hc, hnode]
    · intro A x hx hnot
      cases A with
      | nil =>
        obtain rfl := Option.some.inj hx
        exact ⟨_, rfl, fun h => absurd List.nil_prefix h, hkind⟩
      | cons s' A =>
        obtain ⟨z, hz⟩ : ∃ z, follow s' d = some z := by
          cases hfollow : follow s' d with
          | none => simp [node, hfollow] at hx
          | some z => exact ⟨z, rfl⟩
        have hx' : node A (some z) = some x := by
          have hx' : node A (follow s' d) = some x := hx
          rwa [hz] at hx'
        by_cases hne : s' = s
        · subst hne
          obtain rfl : z = c := Option.some.inj (hz.symm.trans hc)
          have hnot' : ¬ T' <+: A := fun h => hnot ((List.prefix_cons_inj s').2 h)
          obtain ⟨y, hy, hapart, hkind'⟩ := hleft A x hx' hnot'
          refine ⟨y, ?_, ?_, hkind'⟩
          · show node A (follow s' (delete (segment :: (rest ++ r)) d)) = some y
            rw [hself, hy]
          · intro h
            exact hapart fun hpre => h ((List.prefix_cons_inj s').2 hpre)
        · refine ⟨x, ?_, fun _ => rfl, rfl⟩
          show node A (follow s' (delete (segment :: (rest ++ r)) d)) = some x
          rw [hother s' z hne hz, hx']

/-- Nothing is where a node has been deleted, and only there. -/
theorem relocate_eq_none {F A : List Step} (hF : F ≠ []) : relocate F A = none ↔ F <+: A := by
  induction F generalizing A with
  | nil => exact absurd rfl hF
  | cons s F ih =>
    cases A with
    | nil => cases F <;> cases s <;> simp [relocate]
    | cons a A =>
      cases F with
      | nil =>
        cases s with
        | key k => by_cases hk : (Step.key k) = a <;> simp [relocate, hk]
        | elem i =>
          cases a with
          | key k => simp [relocate]
          | elem j =>
            by_cases hij : j = i
            · simp [relocate, hij]
            · simp [relocate, hij, Ne.symm hij]
      | cons n m =>
        by_cases hs : s = a
        · subst hs
          simp [relocate, ih]
        · simp [relocate, hs]

/-- What is above a deleted node stays where it is. -/
theorem relocate_of_above {A R : List Step} (hR : R ≠ []) : relocate (A ++ R) A = some A := by
  induction A with
  | nil => cases R <;> rfl
  | cons a A ih =>
    obtain ⟨n, m, hnm⟩ : ∃ n m, A ++ R = n :: m := by
      cases hAR : A ++ R with
      | nil => simp_all
      | cons n m => exact ⟨n, m, rfl⟩
    rw [List.cons_append, hnm]
    rw [hnm] at ih
    cases a <;> simp [relocate, ih]

end Addresses

end JsonTree

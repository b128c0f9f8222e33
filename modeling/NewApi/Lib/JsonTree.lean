/-
**Reading and writing a JSON document at a path.**

A document is a tree of objects, arrays and scalars.  A path is a list of segments: at an object a
segment is a key, and at an array it is an index.  Writing at a path follows it as far as it goes,
replaces what is there, and builds what is missing; a scalar in the way gives place to an object or
an array.  Deleting removes a field, or an element, and then the elements after it move down.

Main definitions:

* `JsonTree.Doc` — documents, with scalars of any type;
* `JsonTree.get`, `JsonTree.set`, `JsonTree.delete` — reading, writing and deleting at a path;
* `JsonTree.mapScalars` — a document with other scalars;
* `JsonTree.Diverge` — neither of two paths leads through the other;
* `JsonTree.Open` — nothing but objects is in the way of a path.

Main results:

* `JsonTree.set_of_open` — **what is written is read back, and everything apart from it stays**;
* `JsonTree.filter_upsert` — writing a field leaves the others in their order;
* `JsonTree.delete_eq_self_of_map` — whether a deletion deletes anything does not depend on the
  scalars.
-/

import NewApi.Lib.GoJson

set_option autoImplicit false

namespace JsonTree

/-! ### Documents and paths -/

/-- A document with scalars of the type `σ`. -/
inductive Doc (σ : Type*) where
  | scalar (s : σ)
  | arr (items : List (Doc σ))
  | obj (fields : List (String × Doc σ))

/-- The array index a segment is, if it is one. -/
def index (segment : String) : Option ℕ := GoJson.parseDigits segment.toList

section Paths

variable {σ : Type*}

/-- The child of a node that a segment names. -/
def child (segment : String) : Doc σ → Option (Doc σ)
  | .scalar _ => none
  | .arr items => (index segment).bind fun i => items[i]?
  | .obj fields => fields.lookup segment

/-- The node a path leads to. -/
def get : List String → Option (Doc σ) → Option (Doc σ)
  | [], node => node
  | segment :: rest, node => get rest (node.bind (child segment))

/-- Write a field of an object: in its place if there is one, at the end otherwise. -/
def upsert (key : String) (value : Doc σ) : List (String × Doc σ) → List (String × Doc σ)
  | [] => [(key, value)]
  | (k, old) :: rest =>
    if k = key then (k, value) :: rest else (k, old) :: upsert key value rest

/-- Write an element of an array; what is missing before it is filled up. -/
def place (filler : Doc σ) (i : ℕ) (value : Doc σ) (items : List (Doc σ)) : List (Doc σ) :=
  if i < items.length then items.set i value
  else items ++ List.replicate (i - items.length) filler ++ [value]

/-- Write at a path; `none` if a segment is no index where there is an array.  The index `-1` is one
beyond the end. -/
def set (null : σ) (value : Doc σ) : List String → Option (Doc σ) → Option (Doc σ)
  | [], _ => some value
  | segment :: rest, some (.obj fields) =>
    (set null value rest (fields.lookup segment)).map fun c => .obj (upsert segment c fields)
  | segment :: rest, some (.arr items) =>
    match index segment with
    | some i =>
      (set null value rest items[i]?).map fun c => .arr (place (.scalar null) i c items)
    | none =>
      if segment = "-1" then (set null value rest none).map fun c => .arr (items ++ [c])
      else none
  | segment :: rest, some (.scalar _) =>
    match index segment with
    | some i => (set null value rest none).map fun c => .arr (place (.scalar null) i c [])
    | none => (set null value rest none).map fun c => .obj [(segment, c)]
  | segment :: rest, none =>
    match index segment with
    | some i => (set null value rest none).map fun c => .arr (place (.scalar null) i c [])
    | none =>
      if segment = "-1" then (set null value rest none).map fun c => .arr [c]
      else (set null value rest none).map fun c => .obj [(segment, c)]

/-- Remove the first field of an object with the given key. -/
def eraseKey (key : String) : List (String × Doc σ) → List (String × Doc σ)
  | [] => []
  | (k, value) :: rest => if k = key then rest else (k, value) :: eraseKey key rest

/-- Remove what a path leads to, if it leads to anything. -/
def delete : List String → Doc σ → Doc σ
  | [], node => node
  | [segment], .obj fields => .obj (eraseKey segment fields)
  | [segment], .arr items =>
    match index segment with
    | some i => .arr (items.eraseIdx i)
    | none => if segment = "-1" then .arr items.dropLast else .arr items
  | segment :: next :: rest, .obj fields =>
    match fields.lookup segment with
    | some c => .obj (upsert segment (delete (next :: rest) c) fields)
    | none => .obj fields
  | segment :: next :: rest, .arr items =>
    match index segment with
    | some i =>
      match items[i]? with
      | some c => .arr (items.set i (delete (next :: rest) c))
      | none => .arr items
    | none => .arr items
  | _ :: _, .scalar s => .scalar s

/-! ### Fields -/

theorem lookup_upsert_self (key : String) (value : Doc σ) (fields : List (String × Doc σ)) :
    (upsert key value fields).lookup key = some value := by
  induction fields with
  | nil => simp [upsert]
  | cons f fields ih =>
    obtain ⟨k, old⟩ := f
    by_cases hk : k = key
    · simp [upsert, hk]
    · have hne : (key == k) = false := by simpa using fun h : key = k => hk h.symm
      simp only [upsert, if_neg hk, List.lookup_cons, hne]
      exact ih

theorem lookup_upsert_of_ne {key other : String} (hne : other ≠ key) (value : Doc σ)
    (fields : List (String × Doc σ)) :
    (upsert key value fields).lookup other = fields.lookup other := by
  induction fields with
  | nil =>
    have : (other == key) = false := by simpa using hne
    simp [upsert, List.lookup_cons, this]
  | cons f fields ih =>
    obtain ⟨k, old⟩ := f
    by_cases hk : k = key
    · have hother : (other == k) = false := by simpa [hk] using hne
      simp only [upsert, if_pos hk, List.lookup_cons, hother]
    · simp only [upsert, if_neg hk, List.lookup_cons, ih]

/-- Writing what a field has changes nothing. -/
theorem upsert_lookup {key : String} {value : Doc σ} {fields : List (String × Doc σ)}
    (h : fields.lookup key = some value) : upsert key value fields = fields := by
  induction fields with
  | nil => cases h
  | cons f fields ih =>
    obtain ⟨k, old⟩ := f
    by_cases hk : k = key
    · have hkey : (key == k) = true := by simp [hk]
      rw [List.lookup_cons, hkey] at h
      obtain rfl := Option.some.inj h
      simp only [upsert, if_pos hk]
    · have hkey : (key == k) = false := by simpa using fun h : key = k => hk h.symm
      rw [List.lookup_cons, hkey] at h
      simp only [upsert, if_neg hk, ih h]

/-- Writing a field leaves the others in their order. -/
theorem filter_upsert (key : String) (value : Doc σ) (fields : List (String × Doc σ)) :
    (upsert key value fields).filter (fun f => f.1 ≠ key) =
      fields.filter fun f => f.1 ≠ key := by
  induction fields with
  | nil => simp [upsert]
  | cons f fields ih =>
    obtain ⟨k, old⟩ := f
    by_cases hk : k = key
    · simp [upsert, hk]
    · simp only [upsert, if_neg hk, List.filter_cons, ih]

/-! ### Paths through objects -/

/-- Neither path leads through the other. -/
def Diverge : List String → List String → Prop
  | a :: p, b :: q => a ≠ b ∨ Diverge p q
  | _, _ => False

instance Diverge.decidable : (p q : List String) → Decidable (Diverge p q)
  | [], _ => isFalse id
  | _ :: _, [] => isFalse id
  | _ :: p, _ :: q => @instDecidableOr _ _ _ (Diverge.decidable p q)

theorem Diverge.symm {p q : List String} (h : Diverge p q) : Diverge q p := by
  induction p generalizing q with
  | nil => cases h
  | cons a p ih =>
    cases q with
    | nil => cases h
    | cons b q =>
      obtain h | h := h
      · exact .inl (Ne.symm h)
      · exact .inr (ih h)

/-- Two paths are the same, or one leads through the other, or they diverge. -/
theorem eq_or_below_or_diverge (p q : List String) :
    p = q ∨ (∃ rest, rest ≠ [] ∧ q = p ++ rest) ∨ (∃ rest, rest ≠ [] ∧ p = q ++ rest) ∨
      Diverge p q := by
  induction p generalizing q with
  | nil =>
    cases q with
    | nil => exact .inl rfl
    | cons b q => exact .inr (.inl ⟨b :: q, by simp, rfl⟩)
  | cons a p ih =>
    cases q with
    | nil => exact .inr (.inr (.inl ⟨a :: p, by simp, rfl⟩))
    | cons b q =>
      by_cases hab : a = b
      · subst hab
        obtain rfl | ⟨rest, hrest, rfl⟩ | ⟨rest, hrest, rfl⟩ | hdiv := ih q
        · exact .inl rfl
        · exact .inr (.inl ⟨rest, hrest, rfl⟩)
        · exact .inr (.inr (.inl ⟨rest, hrest, rfl⟩))
        · exact .inr (.inr (.inr (.inr hdiv)))
      · exact .inr (.inr (.inr (.inl hab)))

/-- None of the segments can be an index. -/
def Words (p : List String) : Prop := ∀ segment ∈ p, index segment = none ∧ segment ≠ "-1"

/-- Along the path there are objects, until it ends or nothing more is there; the last of them may
be a scalar, which then gives place. -/
def Open : List String → Option (Doc σ) → Prop
  | [], _ => True
  | _ :: _, none => True
  | _ :: _, some (.scalar _) => True
  | _ :: _, some (.arr _) => False
  | segment :: rest, some (.obj fields) => Open rest (fields.lookup segment)

@[simp] theorem get_none (p : List String) : get p (none : Option (Doc σ)) = none := by
  induction p with
  | nil => rfl
  | cons segment rest ih => exact ih

theorem get_append (p q : List String) (node : Option (Doc σ)) :
    get (p ++ q) node = get q (get p node) := by
  induction p generalizing node with
  | nil => rfl
  | cons segment rest ih => exact ih _

/-- Below a scalar there is nothing. -/
theorem get_scalar {p : List String} (hp : p ≠ []) (s : σ) :
    get p (some (.scalar s) : Option (Doc σ)) = none := by
  cases p with
  | nil => exact absurd rfl hp
  | cons segment rest => exact get_none rest

/-- Where something is below a path, the path leads to an object or an array. -/
theorem get_of_below {p q : List String} (hq : q ≠ []) {node : Option (Doc σ)} {x : Doc σ}
    (h : get (p ++ q) node = some x) :
    (∃ fields, get p node = some (.obj fields)) ∨ ∃ items, get p node = some (.arr items) := by
  rw [get_append] at h
  cases hp : get p node with
  | none =>
    rw [hp, get_none] at h
    cases h
  | some c =>
    rw [hp] at h
    cases c with
    | scalar s =>
      rw [get_scalar hq] at h
      cases h
    | arr items => exact .inr ⟨items, rfl⟩
    | obj fields => exact .inl ⟨fields, rfl⟩

theorem open_none (p : List String) : Open p (none : Option (Doc σ)) := by
  cases p <;> trivial

/-- A new object with one field reads as that field, and is open to whatever the field is. -/
theorem fresh_field {segment : String} {rest : List String} {c value : Doc σ}
    (hc : get rest (some c) = some value)
    (hq : ∀ q, Diverge rest q → get q (some c) = none ∧ Open q (some c)) :
    get (segment :: rest) (some (.obj [(segment, c)])) = some value ∧
      ∀ q, Diverge (segment :: rest) q → get q (some (.obj [(segment, c)])) = none ∧
        Open q (some (.obj [(segment, c)])) := by
  refine ⟨?_, ?_⟩
  · simpa [get, child, List.lookup_cons] using hc
  · intro q h
    cases q with
    | nil => cases h
    | cons b q =>
      by_cases hb : b = segment
      · subst hb
        have hdiv : Diverge rest q := h.resolve_left (by simp)
        simpa [get, child, Open, List.lookup_cons] using hq q hdiv
      · have hne : (b == segment) = false := by simpa using hb
        simp [get, child, Open, List.lookup_cons, hne, open_none]

/-- **What is written is read back, and everything apart from it stays**, on a path of words with
nothing but objects in the way. -/
theorem set_of_open (null : σ) (value : Doc σ) {p : List String} (hwords : Words p)
    {node : Option (Doc σ)} (hopen : Open p node) :
    ∃ node', set null value p node = some node' ∧ get p (some node') = some value ∧
      ∀ q, Diverge p q → get q (some node') = get q node ∧ (Open q node → Open q (some node')) := by
  induction p generalizing node with
  | nil => exact ⟨value, rfl, rfl, fun q h => by cases h⟩
  | cons segment rest ih =>
    have hrest : Words rest := fun s hs => hwords s (List.mem_cons_of_mem _ hs)
    obtain ⟨hindex, hlast⟩ := hwords segment List.mem_cons_self
    -- what is built where nothing is
    obtain ⟨new, hnew, hself, hother⟩ := ih hrest (open_none rest)
    obtain ⟨hfresh, happart⟩ := @fresh_field _ segment rest new value hself fun q h => by
      obtain ⟨hget, hkeeps⟩ := hother q h
      exact ⟨hget.trans (get_none q), hkeeps (open_none q)⟩
    cases node with
    | none =>
      refine ⟨.obj [(segment, new)], ?_, hfresh, ?_⟩
      · simp only [set, hindex, if_neg hlast, hnew, Option.map_some]
      · intro q h
        rw [(happart q h).1, get_none]
        exact ⟨rfl, fun _ => (happart q h).2⟩
    | some node =>
      cases node with
      | arr items => cases hopen
      | scalar s =>
        refine ⟨.obj [(segment, new)], ?_, hfresh, ?_⟩
        · simp only [set, hindex, hnew, Option.map_some]
        · intro q h
          have hq' : q ≠ [] := by
            rintro rfl
            cases h
          rw [(happart q h).1, get_scalar hq']
          exact ⟨rfl, fun _ => (happart q h).2⟩
      | obj fields =>
        obtain ⟨c, hset, hc, hq⟩ := @ih hrest (fields.lookup segment) hopen
        refine ⟨.obj (upsert segment c fields), ?_, ?_, ?_⟩
        · simp only [set, hset, Option.map_some]
        · simpa [get, child, lookup_upsert_self] using hc
        · intro q h
          cases q with
          | nil => cases h
          | cons b q =>
            by_cases hb : b = segment
            · subst hb
              have hdiv : Diverge rest q := h.resolve_left (by simp)
              simpa [get, child, Open, lookup_upsert_self] using hq q hdiv
            · simp [get, child, Open, lookup_upsert_of_ne hb]

/-- Writing at a path of more than one segment leaves an object where it begins. -/
theorem set_obj (null : σ) (value : Doc σ) {segment : String} {rest : List String}
    {fields : List (String × Doc σ)} {node' : Doc σ}
    (h : set null value (segment :: rest) (some (.obj fields)) = some node') :
    ∃ c, node' = .obj (upsert segment c fields) := by
  simp only [set, Option.map_eq_some_iff] at h
  obtain ⟨c, -, rfl⟩ := h
  exact ⟨c, rfl⟩

end Paths

/-! ### Scalars -/

section Scalars

variable {σ τ υ : Type*}

mutual

/-- Apply a function to the scalars of a document. -/
def mapScalars (f : σ → τ) : Doc σ → Doc τ
  | .scalar s => .scalar (f s)
  | .arr items => .arr (mapItems f items)
  | .obj fields => .obj (mapFields f fields)

def mapItems (f : σ → τ) : List (Doc σ) → List (Doc τ)
  | [] => []
  | d :: rest => mapScalars f d :: mapItems f rest

def mapFields (f : σ → τ) : List (String × Doc σ) → List (String × Doc τ)
  | [] => []
  | e :: rest => mapField f e :: mapFields f rest

def mapField (f : σ → τ) : String × Doc σ → String × Doc τ
  | (k, d) => (k, mapScalars f d)

end

mutual

theorem mapScalars_comp (f : σ → τ) (g : τ → υ) : (d : Doc σ) →
    mapScalars g (mapScalars f d) = mapScalars (g ∘ f) d
  | .scalar _ => rfl
  | .arr items => by rw [mapScalars, mapScalars, mapScalars, mapItems_comp]
  | .obj fields => by rw [mapScalars, mapScalars, mapScalars, mapFields_comp]

theorem mapItems_comp (f : σ → τ) (g : τ → υ) : (items : List (Doc σ)) →
    mapItems g (mapItems f items) = mapItems (g ∘ f) items
  | [] => rfl
  | d :: rest => by rw [mapItems, mapItems, mapItems, mapScalars_comp, mapItems_comp]

theorem mapFields_comp (f : σ → τ) (g : τ → υ) : (fields : List (String × Doc σ)) →
    mapFields g (mapFields f fields) = mapFields (g ∘ f) fields
  | [] => rfl
  | (k, d) :: rest => by
      rw [mapFields, mapFields, mapFields, mapField, mapField, mapField, mapScalars_comp,
        mapFields_comp]

end

variable (f : σ → τ) (key : String) (fields : List (String × Doc σ))

theorem mapItems_eq (items : List (Doc σ)) :
    mapItems f items = items.map (mapScalars f) := by
  induction items with
  | nil => rfl
  | cons d rest ih => rw [mapItems, ih, List.map_cons]

theorem lookup_mapFields :
    (mapFields f fields).lookup key = (fields.lookup key).map (mapScalars f) := by
  induction fields with
  | nil => rfl
  | cons e rest ih =>
    obtain ⟨k, d⟩ := e
    rw [mapFields, mapField, List.lookup_cons, List.lookup_cons, ih]
    cases key == k <;> rfl

theorem mapFields_upsert (value : Doc σ) (fields : List (String × Doc σ)) :
    mapFields f (upsert key value fields) =
      upsert key (mapScalars f value) (mapFields f fields) := by
  induction fields with
  | nil => rfl
  | cons e rest ih =>
    obtain ⟨k, d⟩ := e
    by_cases hk : k = key
    · simp only [upsert, if_pos hk, mapFields, mapField]
    · simp only [upsert, if_neg hk, mapFields, mapField, ih]

theorem mapFields_eraseKey :
    mapFields f (eraseKey key fields) = eraseKey key (mapFields f fields) := by
  induction fields with
  | nil => rfl
  | cons e rest ih =>
    obtain ⟨k, d⟩ := e
    by_cases hk : k = key
    · simp only [eraseKey, if_pos hk, mapFields, mapField]
    · simp only [eraseKey, if_neg hk, mapFields, mapField, ih]

/-- Deleting does not look at scalars. -/
theorem mapScalars_delete (p : List String) (d : Doc σ) :
    mapScalars f (delete p d) = delete p (mapScalars f d) := by
  induction p generalizing d with
  | nil => rfl
  | cons segment rest ih =>
    cases rest with
    | nil =>
      cases d with
      | scalar s => rfl
      | obj fields =>
        simp only [delete, mapScalars, mapFields_eraseKey]
      | arr items =>
        simp only [delete, mapScalars, mapItems_eq]
        cases index segment with
        | some i =>
          simp only [mapScalars, mapItems_eq, List.eraseIdx_eq_take_drop_succ,
            List.map_append, List.map_take, List.map_drop]
        | none =>
          by_cases hlast : segment = "-1"
          · simp only [if_pos hlast, mapScalars, mapItems_eq, List.map_dropLast]
          · simp only [if_neg hlast, mapScalars, mapItems_eq]
    | cons next more =>
      cases d with
      | scalar s => rfl
      | obj fields =>
        simp only [delete, mapScalars, lookup_mapFields]
        cases fields.lookup segment with
        | none => simp only [Option.map_none, mapScalars]
        | some c => simp only [Option.map_some, mapScalars, mapFields_upsert, ih]
      | arr items =>
        simp only [delete, mapScalars, mapItems_eq]
        cases index segment with
        | none => simp only [mapScalars, mapItems_eq]
        | some i =>
          simp only [List.getElem?_map]
          cases items[i]? with
          | none => simp only [Option.map_none, mapScalars, mapItems_eq]
          | some c =>
            simp only [Option.map_some, mapScalars, mapItems_eq, List.map_set, ih]

theorem length_mapFields : (mapFields f fields).length = fields.length := by
  induction fields with
  | nil => rfl
  | cons e rest ih => rw [mapFields, List.length_cons, List.length_cons, ih]

/-- Erasing a key leaves the fields alone or makes them fewer. -/
theorem eraseKey_eq_or :
    eraseKey key fields = fields ∨ (eraseKey key fields).length < fields.length := by
  induction fields with
  | nil => exact .inl rfl
  | cons e rest ih =>
    obtain ⟨k, d⟩ := e
    by_cases hk : k = key
    · simp [eraseKey, hk]
    · simp only [eraseKey, if_neg hk]
      obtain heq | hlt := ih
      · exact .inl (by rw [heq])
      · exact .inr (by simpa using hlt)

/-- **Whether a deletion deletes anything does not depend on the scalars.** -/
theorem delete_eq_self_of_map {p : List String} {d : Doc σ}
    (h : delete p (mapScalars f d) = mapScalars f d) : delete p d = d := by
  rw [← mapScalars_delete] at h
  induction p generalizing d with
  | nil => rfl
  | cons segment rest ih =>
    cases rest with
    | nil =>
      cases d with
      | scalar s => rfl
      | obj fields =>
        obtain heq | hlt := eraseKey_eq_or segment fields
        · simp only [delete, heq]
        · simp only [delete, mapScalars, Doc.obj.injEq] at h
          have hlength := congrArg List.length h
          rw [length_mapFields, length_mapFields] at hlength
          omega
      | arr items =>
        simp only [delete] at h ⊢
        cases hindex : index segment with
        | some i =>
          simp only [hindex, mapScalars, mapItems_eq, Doc.arr.injEq] at h
          have hlength := congrArg List.length h
          rw [List.length_map, List.length_map, List.length_eraseIdx] at hlength
          have hle : items.length ≤ i := by
            split at hlength <;> omega
          simp only [List.eraseIdx_of_length_le hle]
        | none =>
          by_cases hlast : segment = "-1"
          · simp only [hindex, if_pos hlast, mapScalars, mapItems_eq, Doc.arr.injEq] at h
            have hlength := congrArg List.length h
            rw [List.length_map, List.length_map, List.length_dropLast] at hlength
            have hnil : items = [] := List.eq_nil_of_length_eq_zero (by omega)
            simp [hnil]
          · simp only [if_neg hlast]
    | cons next more =>
      cases d with
      | scalar s => rfl
      | obj fields =>
        simp only [delete] at h ⊢
        cases hlookup : fields.lookup segment with
        | none => rfl
        | some c =>
          simp only [hlookup, mapScalars, Doc.obj.injEq, mapFields_upsert] at h
          have hchild := congrArg (List.lookup segment) h
          rw [lookup_upsert_self, lookup_mapFields, hlookup, Option.map_some,
            Option.some.injEq] at hchild
          simp only [ih hchild, upsert_lookup hlookup]
      | arr items =>
        simp only [delete] at h ⊢
        cases hindex : index segment with
        | none => rfl
        | some i =>
          cases hitem : items[i]? with
          | none => simp only [hitem]
          | some c =>
            simp only [hindex, hitem, mapScalars, mapItems_eq, Doc.arr.injEq,
              List.map_set] at h
            have hlt : i < items.length := (List.getElem?_eq_some_iff.1 hitem).1
            have hchild := congrArg (fun l => l[i]?) h
            simp only [List.getElem?_map, hitem, Option.map_some] at hchild
            rw [List.getElem?_set_self (by simpa using hlt), Option.some.injEq] at hchild
            simp only [hitem, ih hchild]
            rw [List.getElem?_eq_some_iff] at hitem
            obtain ⟨_, hget⟩ := hitem
            rw [← hget, List.set_getElem_self]

end Scalars

end JsonTree

/-
**Changing a document at the addresses of some of its nodes.**

A path that names a place of a document leads, whatever is written or deleted there, to a change of
one node at an address: the node itself is replaced, or it loses a child.  The changes at addresses
of one length do not touch one another, so what a run of them leaves of a node can be read off from
those that are made at its own address, and everything nearer to the root keeps its outline.

Main definitions:

* `JsonTree.edit`, `JsonTree.edits` — changing the node at an address, and several nodes in turn;
* `JsonTree.removeChild` — what a node is without one of its children;
* `JsonTree.site` — the address of the place a path names, whether or not anything is there;
* `JsonTree.outline` — what is seen of a node without its children.

Main results:

* `JsonTree.set_of_site`, `JsonTree.delete_of_site` — **writing and deleting are changes at an
  address**;
* `JsonTree.node_edits`, `JsonTree.outline_edits` — **what changes at addresses of one length leave
  of a document**;
* `JsonTree.site_edit` — a path names the same place after another node has changed.
-/

import NewApi.Lib.JsonAddress

set_option autoImplicit false

namespace JsonTree

/-- What is seen of a node without its children. -/
inductive Outline (σ : Type*) where
  | scalar (s : σ)
  | arr (length : ℕ)
  | obj (keys : List String)
deriving DecidableEq

section Edits

variable {σ : Type*}

def outline : Doc σ → Outline σ
  | .scalar s => .scalar s
  | .arr items => .arr items.length
  | .obj fields => .obj (fields.map Prod.fst)

/-! ### Changes at an address -/

/-- Put something in the place of a child. -/
def replaceChild : Step → Doc σ → Doc σ → Doc σ
  | .key k, c, .obj fields => .obj (upsert k c fields)
  | .elem i, c, .arr items => .arr (items.set i c)
  | _, _, d => d

/-- Change the node at an address, if there is one. -/
def edit (f : Doc σ → Doc σ) : List Step → Doc σ → Doc σ
  | [], d => f d
  | s :: A, d =>
    match follow s d with
    | some c => replaceChild s (edit f A c) d
    | none => d

/-- Change nodes one after another. -/
def edits (changes : List (List Step × (Doc σ → Doc σ))) (d : Doc σ) : Doc σ :=
  changes.foldl (fun d e => edit e.2 e.1 d) d

/-- A node without one of its children; the elements of an array after it are one step nearer to
the beginning. -/
def removeChild : Step → Doc σ → Doc σ
  | .key k, .obj fields => .obj (eraseKey k fields)
  | .elem i, .arr items => .arr (items.eraseIdx i)
  | _, d => d

/-- The address of the place a path names, whether or not the last segment leads to anything. -/
def site : List String → Doc σ → Option (List Step)
  | [], _ => some []
  | [segment], d => (stepAt segment d).map ([·])
  | segment :: next :: rest, d =>
    (stepAt segment d).bind fun s =>
      (follow s d).bind fun c => (site (next :: rest) c).map (s :: ·)

variable {c old d x : Doc σ} {s : Step} {A B : List Step} {p : List String}

/-! ### Children -/

theorem keys_upsert {k : String} {fields : List (String × Doc σ)} (h : fields.lookup k = some old) :
    (upsert k c fields).map Prod.fst = fields.map Prod.fst := by
  induction fields with
  | nil => cases h
  | cons e rest ih =>
    obtain ⟨k', x⟩ := e
    by_cases hk : k' = k
    · simp [upsert, hk]
    · have hne : (k == k') = false := by simpa using fun h : k = k' => hk h.symm
      rw [List.lookup_cons, hne] at h
      simp only [upsert, if_neg hk, List.map_cons, ih h]

theorem follow_replaceChild (h : follow s d = some old) (t : Step) :
    follow t (replaceChild s c d) = if t = s then some c else follow t d := by
  cases d with
  | scalar x => cases s <;> cases h
  | obj fields =>
    cases s with
    | elem i => cases h
    | key k => exact follow_upsert k c fields t
  | arr items =>
    cases s with
    | key k => cases h
    | elem i =>
      have hlt : i < items.length := (List.getElem?_eq_some_iff.1 h).1
      cases t with
      | key k => rfl
      | elem j =>
        by_cases hij : j = i
        · subst hij
          simp [replaceChild, follow, hlt]
        · have hne : i ≠ j := fun h => hij h.symm
          simp [replaceChild, follow, hij, hne]

theorem outline_replaceChild (h : follow s d = some old) :
    outline (replaceChild s c d) = outline d := by
  cases d with
  | scalar x => cases s <;> cases h
  | obj fields =>
    cases s with
    | elem i => cases h
    | key k =>
      have hkeys := @keys_upsert _ c old k fields h
      simp only [replaceChild, outline, hkeys]
  | arr items =>
    cases s with
    | key k => cases h
    | elem i => simp only [replaceChild, outline, List.length_set]

/-- Putting a child in its own place changes nothing. -/
theorem replaceChild_self (h : follow s d = some c) :
    replaceChild s c d = d := by
  cases d with
  | scalar x => cases s <;> cases h
  | obj fields =>
    cases s with
    | elem i => cases h
    | key k => simp only [replaceChild, upsert_lookup (show fields.lookup k = some c from h)]
  | arr items =>
    cases s with
    | key k => cases h
    | elem i =>
      obtain ⟨hlt, hget⟩ := List.getElem?_eq_some_iff.1 (show items[i]? = some c from h)
      simp only [replaceChild, ← hget, List.set_getElem_self]

theorem stepAt_congr {d' : Doc σ} (h : kind d' = kind d) (segment : String) :
    stepAt segment d' = stepAt segment d := by
  cases d <;> cases d' <;> first | rfl | cases h

theorem kind_of_outline {d' : Doc σ} (h : outline d' = outline d) : kind d' = kind d := by
  cases d <;> cases d' <;> simp_all [outline, kind]

theorem kind_removeChild (s : Step) (d : Doc σ) : kind (removeChild s d) = kind d := by
  cases s <;> cases d <;> rfl

/-! ### Nodes after a change -/

theorem edit_cons (f : Doc σ → Doc σ) (h : follow s d = some c) (A : List Step) :
    edit f (s :: A) d = replaceChild s (edit f A c) d := by
  simp only [edit, h]

theorem edit_cons_none (f : Doc σ → Doc σ) (h : follow s d = none) (A : List Step) :
    edit f (s :: A) d = d := by
  simp only [edit, h]

/-- The child at a step after a change below some step. -/
theorem follow_edit (f : Doc σ → Doc σ) (s t : Step) (A : List Step) (d : Doc σ) :
    follow t (edit f (s :: A) d) =
      if t = s then (follow s d).map (edit f A) else follow t d := by
  cases hs : follow s d with
  | none =>
    rw [edit_cons_none f hs]
    by_cases hts : t = s
    · rw [if_pos hts, hts, hs, Option.map_none]
    · rw [if_neg hts]
  | some c => rw [edit_cons f hs, follow_replaceChild hs, Option.map_some]

theorem outline_edit_cons (f : Doc σ → Doc σ) (s : Step) (A : List Step) (d : Doc σ) :
    outline (edit f (s :: A) d) = outline d := by
  cases hs : follow s d with
  | none => rw [edit_cons_none f hs]
  | some c => rw [edit_cons f hs, outline_replaceChild hs]

theorem node_edit_self (f : Doc σ → Doc σ) (A : List Step) (d : Doc σ) :
    node A (some (edit f A d)) = (node A (some d)).map f := by
  induction A generalizing d with
  | nil => rfl
  | cons s A ih =>
    have hchild : follow s (edit f (s :: A) d) = (follow s d).map (edit f A) := by
      rw [follow_edit, if_pos rfl]
    simp only [node, Option.bind_some, hchild]
    cases follow s d with
    | none => simp
    | some c => exact ih c

/-- A change leaves the nodes alone that are neither above nor below. -/
theorem node_edit_of_apart (f : Doc σ → Doc σ) (hAB : ¬ A <+: B) (hBA : ¬ B <+: A) (d : Doc σ) :
    node A (some (edit f B d)) = node A (some d) := by
  induction B generalizing A d with
  | nil => exact absurd List.nil_prefix hBA
  | cons s B ih =>
    cases A with
    | nil => exact absurd List.nil_prefix hAB
    | cons t A =>
      simp only [node, Option.bind_some, follow_edit]
      by_cases hts : t = s
      · subst hts
        have hAB' : ¬ A <+: B := fun h => hAB ((List.prefix_cons_inj t).2 h)
        have hBA' : ¬ B <+: A := fun h => hBA ((List.prefix_cons_inj t).2 h)
        rw [if_pos rfl]
        cases follow t d with
        | none => rfl
        | some c => exact ih hAB' hBA' c
      · rw [if_neg hts]

/-- A change leaves the outline of what is nearer to the root. -/
theorem outline_edit (f : Doc σ → Doc σ) (h : A.length < B.length) (d : Doc σ) :
    (node A (some (edit f B d))).map outline = (node A (some d)).map outline := by
  induction A generalizing B d with
  | nil =>
    cases B with
    | nil => exact absurd h (lt_irrefl _)
    | cons s B => exact congrArg some (outline_edit_cons f s B d)
  | cons t A ih =>
    cases B with
    | nil => exact absurd h (Nat.not_lt_zero _)
    | cons s B =>
      have hlt : A.length < B.length := by simpa using h
      simp only [node, Option.bind_some, follow_edit]
      by_cases hts : t = s
      · subst hts
        rw [if_pos rfl]
        cases follow t d with
        | none => rfl
        | some c => exact ih hlt c
      · rw [if_neg hts]

/-- Writing what is there changes nothing. -/
theorem edit_self (h : node A (some d) = some x) :
    edit (fun _ => x) A d = d := by
  induction A generalizing d with
  | nil => exact (Option.some.inj h).symm
  | cons s A ih =>
    have h' : node A (follow s d) = some x := h
    cases hs : follow s d with
    | none => exact edit_cons_none _ hs A
    | some c =>
      rw [hs] at h'
      rw [edit_cons _ hs, ih h', replaceChild_self hs]

/-- Only what a change makes of the node that is there counts. -/
theorem edit_congr {f g : Doc σ → Doc σ} (h : node A (some d) = some x) (hfg : f x = g x) :
    edit f A d = edit g A d := by
  induction A generalizing d with
  | nil =>
    obtain rfl := Option.some.inj h
    exact hfg
  | cons s A ih =>
    have h' : node A (follow s d) = some x := h
    cases hs : follow s d with
    | none => rw [edit_cons_none f hs, edit_cons_none g hs]
    | some c =>
      rw [hs] at h'
      rw [edit_cons f hs, edit_cons g hs, ih h']

/-! ### Runs of changes -/

theorem edits_cons (e : List Step × (Doc σ → Doc σ)) (L : List (List Step × (Doc σ → Doc σ)))
    (d : Doc σ) : edits (e :: L) d = edits L (edit e.2 e.1 d) := rfl

/-- **The nodes at addresses of the length of the changes**: each is what the changes at its own
address make of it. -/
theorem node_edits {L : List (List Step × (Doc σ → Doc σ))} (hL : ∀ e ∈ L, e.1.length = A.length)
    (d : Doc σ) :
    node A (some (edits L d)) =
      (node A (some d)).map fun x =>
        (L.filter fun e => e.1 = A).foldl (fun x e => e.2 x) x := by
  induction L generalizing d with
  | nil => simp [edits]
  | cons e L ih =>
    obtain ⟨B, f⟩ := e
    have hlength : B.length = A.length := hL (B, f) List.mem_cons_self
    rw [edits_cons, ih fun e he => hL e (List.mem_cons_of_mem _ he)]
    by_cases hBA : B = A
    · subst hBA
      simp only [node_edit_self, Option.map_map, List.filter_cons, decide_true, if_true,
        List.foldl_cons]
      rfl
    · have hapart : ¬ A <+: B := fun h => hBA (h.eq_of_length hlength.symm).symm
      have hapart' : ¬ B <+: A := fun h => hBA (h.eq_of_length hlength)
      simp only [node_edit_of_apart f hapart hapart', List.filter_cons, hBA, decide_false]
      rfl

/-- **Nodes nearer to the root keep their outline.** -/
theorem outline_edits {L : List (List Step × (Doc σ → Doc σ))}
    (hL : ∀ e ∈ L, A.length < e.1.length) (d : Doc σ) :
    (node A (some (edits L d))).map outline = (node A (some d)).map outline := by
  induction L generalizing d with
  | nil => rfl
  | cons e L ih =>
    rw [edits_cons, ih fun e he => hL e (List.mem_cons_of_mem _ he),
      outline_edit e.2 (hL e List.mem_cons_self)]

/-! ### Paths that name a place -/

theorem site_cons {segment next : String} {rest : List String}
    (h : site (segment :: next :: rest) d = some A) :
    ∃ s c B, stepAt segment d = some s ∧ follow s d = some c ∧
      site (next :: rest) c = some B ∧ A = s :: B := by
  simp only [site, Option.bind_eq_some_iff, Option.map_eq_some_iff] at h
  obtain ⟨s, hs, c, hc, B, hB, rfl⟩ := h
  exact ⟨s, c, B, hs, hc, hB, rfl⟩

theorem length_of_site (h : site p d = some A) : A.length = p.length := by
  induction p generalizing d A with
  | nil =>
    obtain rfl := Option.some.inj h
    rfl
  | cons segment rest ih =>
    cases rest with
    | nil =>
      obtain ⟨s, -, rfl⟩ := Option.map_eq_some_iff.1 h
      rfl
    | cons next rest =>
      obtain ⟨s, c, B, -, -, hB, rfl⟩ := site_cons h
      simp [ih hB]

/-- A path reads what is at the place it names. -/
theorem get_of_site (h : site p d = some A) :
    get p (some d) = node A (some d) := by
  induction p generalizing d A with
  | nil =>
    obtain rfl := Option.some.inj h
    rfl
  | cons segment rest ih =>
    cases rest with
    | nil =>
      obtain ⟨s, hs, rfl⟩ := Option.map_eq_some_iff.1 h
      simp only [get, node, Option.bind_some, child_eq, hs]
    | cons next rest =>
      obtain ⟨s, c, B, hs, hc, hB, rfl⟩ := site_cons h
      have hchild : child segment d = some c := by rw [child_eq, hs, Option.bind_some, hc]
      have hget : get (next :: rest) (some c) = node B (some c) := ih hB
      simp only [node, Option.bind_some, hc]
      rw [← hget, get, Option.bind_some, hchild]

/-- Writing below a child that is there replaces the child. -/
theorem set_cons {null : σ} {value new : Doc σ} {segment : String} {rest : List String}
    (hs : stepAt segment d = some s) (hc : follow s d = some c)
    (hset : set null value rest (some c) = some new) :
    set null value (segment :: rest) (some d) = some (replaceChild s new d) := by
  cases d with
  | scalar x => cases hs
  | obj fields =>
    obtain rfl := Option.some.inj hs
    have hlookup : fields.lookup segment = some c := hc
    simp only [set, hlookup, hset, Option.map_some, replaceChild]
  | arr items =>
    obtain ⟨i, hi, rfl⟩ := Option.map_eq_some_iff.1 hs
    have hitem : items[i]? = some c := hc
    have hlt : i < items.length := (List.getElem?_eq_some_iff.1 hitem).1
    simp only [set, hi, hitem, hset, Option.map_some, replaceChild, place, if_pos hlt]

/-- **Writing where something is replaces it.** -/
theorem set_of_site {null : σ} {value : Doc σ} (h : site p d = some A)
    (hx : node A (some d) = some x) :
    set null value p (some d) = some (edit (fun _ => value) A d) := by
  induction p generalizing d A with
  | nil =>
    obtain rfl := Option.some.inj h
    rfl
  | cons segment rest ih =>
    cases rest with
    | nil =>
      obtain ⟨s, hs, rfl⟩ := Option.map_eq_some_iff.1 h
      have hc : follow s d = some x := hx
      rw [edit_cons _ hc]
      exact set_cons hs hc rfl
    | cons next rest =>
      obtain ⟨s, c, B, hs, hc, hB, rfl⟩ := site_cons h
      have hx' : node B (some c) = some x := by
        rw [← hc]
        exact hx
      rw [edit_cons _ hc]
      exact set_cons hs hc (ih hB hx')

/-- **Deleting takes a child from the node above the place the path names.** -/
theorem delete_of_site {P : List Step} (h : site p d = some (P ++ [s])) :
    delete p d = edit (removeChild s) P d := by
  induction p generalizing d P with
  | nil =>
    have := Option.some.inj h
    simp at this
  | cons segment rest ih =>
    cases rest with
    | nil =>
      obtain ⟨t, ht, hP⟩ := Option.map_eq_some_iff.1 h
      obtain ⟨rfl, rfl⟩ : P = [] ∧ t = s := by
        cases P with
        | nil => simpa using hP
        | cons a P => simp at hP
      cases d with
      | scalar x => cases ht
      | obj fields =>
        obtain rfl := Option.some.inj ht
        rfl
      | arr items =>
        obtain ⟨i, hi, rfl⟩ := Option.map_eq_some_iff.1 ht
        simp only [delete, hi, edit, removeChild]
    | cons next rest =>
      obtain ⟨t, c, B, ht, hc, hB, hP⟩ := site_cons h
      obtain ⟨P', rfl, rfl⟩ : ∃ P', P = t :: P' ∧ B = P' ++ [s] := by
        cases P with
        | nil =>
          have hlength := length_of_site hB
          simp only [List.nil_append, List.cons.injEq] at hP
          rw [← hP.2] at hlength
          simp at hlength
        | cons a P =>
          simp only [List.cons_append, List.cons.injEq] at hP
          exact ⟨P, by rw [hP.1], hP.2.symm⟩
      rw [edit_cons _ hc, ← ih hB]
      cases d with
      | scalar x => cases ht
      | obj fields =>
        obtain rfl := Option.some.inj ht
        have hlookup : fields.lookup segment = some c := hc
        simp only [delete, hlookup, replaceChild]
      | arr items =>
        obtain ⟨i, hi, rfl⟩ := Option.map_eq_some_iff.1 ht
        have hitem : items[i]? = some c := hc
        simp only [delete, hi, hitem, replaceChild]

/-- **A path names the same place after a change** that is not above the place, or one step above it
and leaves a node of the same kind. -/
theorem site_edit {f : Doc σ → Doc σ} (h : site p d = some A)
    (hB : A.length ≤ B.length ∨ (A.length = B.length + 1 ∧ ∀ x, kind (f x) = kind x)) :
    site p (edit f B d) = some A := by
  induction p generalizing d A B with
  | nil => exact h
  | cons segment rest ih =>
    -- the step that the segment is, at what is left of the node
    have hkind : kind (edit f B d) = kind d := by
      cases B with
      | nil =>
        obtain hle | ⟨-, hf⟩ := hB
        · have hlength := length_of_site h
          simp only [List.length_cons, List.length_nil] at hle hlength
          omega
        · exact hf d
      | cons t B => exact kind_of_outline (outline_edit_cons f t B d)
    cases rest with
    | nil =>
      obtain ⟨s, hs, rfl⟩ := Option.map_eq_some_iff.1 h
      simp only [site, stepAt_congr hkind, hs, Option.map_some]
    | cons next rest =>
      obtain ⟨s, c, A', hs, hc, hA', rfl⟩ := site_cons h
      have hlength := length_of_site hA'
      simp only [List.length_cons] at hB hlength
      cases B with
      | nil =>
        simp only [List.length_nil] at hB
        omega
      | cons t B =>
        simp only [List.length_cons] at hB
        have hB' : A'.length ≤ B.length ∨
            (A'.length = B.length + 1 ∧ ∀ x, kind (f x) = kind x) := by
          obtain hle | ⟨heq, hf⟩ := hB
          · exact .inl (by omega)
          · exact .inr ⟨by omega, hf⟩
        rw [site, stepAt_congr hkind, hs, Option.bind_some, follow_edit]
        by_cases hst : s = t
        · subst hst
          rw [if_pos rfl, hc, Option.map_some, Option.bind_some, ih hA' hB',
            Option.map_some]
        · rw [if_neg hst, hc, Option.bind_some, hA', Option.map_some]

end Edits

end JsonTree

/-
**Editing the nodes a path with wildcards stands for.**

The `set` operation of a parameter override, and those that rewrite a string, go through the texts of
the nodes one by one: each is read, and then written, in the body as the ones before have left it.
None of these changes moves another node, so that every node is still where its text says, if the
text says where it is.

Main definitions:

* `NewApi.applyEdit` — an operation, over all the texts of its path;
* `NewApi.rewriteNode` — what it is to make of a node;
* `NewApi.EditsMatched` — the nodes the path stands for are rewritten, and nothing else changes.

Main results:

* `NewApi.wildcard_edit_exact` — **exactly the matched nodes are rewritten, if the text of each of
  them leads back to it**;
* `NewApi.dotted_key_misread` — a key with a dot in it, for which another node is written.
-/

import NewApi.ModelMapping
import NewApi.WildcardPaths

set_option autoImplicit false

namespace NewApi

open JsonTree (Doc Step)

/-! ### Strings -/

def trimPrefix (s pre : String) : String :=
  if hasPrefix s pre then String.ofList (s.toList.drop pre.toList.length) else s

/-- Replace a text wherever it occurs, from the left; the first `skip` characters belong to an
occurrence that has been replaced. -/
def replaceFrom (old new : List Char) : ℕ → List Char → List Char
  | _, [] => []
  | skip + 1, _ :: l => replaceFrom old new skip l
  | 0, c :: l =>
    if old.isPrefixOf (c :: l) then new ++ replaceFrom old new (old.length - 1) l
    else c :: replaceFrom old new 0 l

/-- `strings.ReplaceAll`, of a text that is not empty. -/
def replaceText (s old new : String) : String :=
  String.ofList (replaceFrom old.toList new.toList 0 s.toList)

/-- What is used of the scalars of a body, and of the standard library: the text of a string, how a
value is printed, and regular expressions. -/
structure StringLibrary (σ : Type*) where
  text : σ → Option String
  string : String → σ
  typeName : Option (Doc σ) → String
  sprint : Doc σ → String
  toLower : String → String
  toUpper : String → String
  compile : String → Except String (String → String → String)

/-- The operations that change values. -/
inductive EditMode where
  | set | trimPrefix | trimSuffix | ensurePrefix | ensureSuffix | trimSpace | toLower | toUpper
  | replace | regexReplace
deriving DecidableEq, Repr

def EditMode.name : EditMode → String
  | .set => "set"
  | .trimPrefix => "trim_prefix"
  | .trimSuffix => "trim_suffix"
  | .ensurePrefix => "ensure_prefix"
  | .ensureSuffix => "ensure_suffix"
  | .trimSpace => "trim_space"
  | .toLower => "to_lower"
  | .toUpper => "to_upper"
  | .replace => "replace"
  | .regexReplace => "regex_replace"

/-- What an operation has besides its path; `nil` is no value. -/
structure EditOperation (σ : Type*) where
  mode : EditMode
  value : Option (Doc σ)
  keepOrigin : Bool
  fromText : String
  toText : String

section Edits

variable {σ : Type*}

def StringLibrary.textOf (st : StringLibrary σ) : Doc σ → Option String
  | .scalar s => st.text s
  | _ => none

/-! ### The operations -/

def trimText (st : StringLibrary σ) (value : Option (Doc σ)) (isPrefix : Bool) (s : String) :
    Except String (Option String) :=
  match value with
  | none => .error "trim value is required"
  | some v =>
    .ok (some (if isPrefix then trimPrefix s (st.sprint v) else trimSuffix s (st.sprint v)))

/-- No text: the string has the affix and stays. -/
def ensureText (st : StringLibrary σ) (value : Option (Doc σ)) (isPrefix : Bool) (s : String) :
    Except String (Option String) :=
  match value with
  | none => .error "ensure value is required"
  | some v =>
    if st.sprint v = "" then .error "ensure value is required"
    else if isPrefix then
      .ok (if hasPrefix s (st.sprint v) then none else some (st.sprint v ++ s))
    else .ok (if hasSuffix s (st.sprint v) then none else some (s ++ st.sprint v))

def replacedText (old new s : String) : Except String (Option String) :=
  if old = "" then .error "replace from is required" else .ok (some (replaceText s old new))

def regexReplacedText (st : StringLibrary σ) (expr replacement s : String) :
    Except String (Option String) :=
  if expr = "" then .error "regex pattern is required"
  else
    match st.compile expr with
    | .error e => .error e
    | .ok replaceAllString => .ok (some (replaceAllString s replacement))

/-- Read a string, and write what becomes of it. -/
def updateString (lib : PathLibrary σ) (st : StringLibrary σ)
    (rewrite : String → Except String (Option String)) (data : Doc σ) (path : String) :
    Except String (Doc σ) :=
  match (lib.getBytes data path).bind st.textOf with
  | none => .error ("operation not supported for type: " ++ st.typeName (lib.getBytes data path))
  | some s =>
    match rewrite s with
    | .error e => .error e
    | .ok none => .ok data
    | .ok (some new) => lib.setBytes data path (.scalar (st.string new))

def trimStringValue (lib : PathLibrary σ) (st : StringLibrary σ) (data : Doc σ) (path : String)
    (value : Option (Doc σ)) (isPrefix : Bool) : Except String (Doc σ) :=
  updateString lib st (trimText st value isPrefix) data path

def ensureStringAffix (lib : PathLibrary σ) (st : StringLibrary σ) (data : Doc σ) (path : String)
    (value : Option (Doc σ)) (isPrefix : Bool) : Except String (Doc σ) :=
  updateString lib st (ensureText st value isPrefix) data path

def transformStringValue (lib : PathLibrary σ) (st : StringLibrary σ) (data : Doc σ)
    (path : String) (transform : String → String) : Except String (Doc σ) :=
  updateString lib st (fun s => .ok (some (transform s))) data path

def replaceStringValue (lib : PathLibrary σ) (st : StringLibrary σ) (data : Doc σ)
    (path old new : String) : Except String (Doc σ) :=
  updateString lib st (replacedText old new) data path

def regexReplaceStringValue (lib : PathLibrary σ) (st : StringLibrary σ) (data : Doc σ)
    (path expr replacement : String) : Except String (Doc σ) :=
  updateString lib st (regexReplacedText st expr replacement) data path

def setValue (lib : PathLibrary σ) (op : EditOperation σ) (data : Doc σ) (path : String) :
    Except String (Doc σ) :=
  if op.keepOrigin ∧ (lib.getBytes data path).isSome then .ok data
  else lib.setBytes data path (op.value.getD (.scalar lib.null))

/-- An operation at one path. -/
def editPath (lib : PathLibrary σ) (st : StringLibrary σ) (op : EditOperation σ) (data : Doc σ)
    (path : String) : Except String (Doc σ) :=
  match op.mode with
  | .set => setValue lib op data path
  | .trimPrefix => trimStringValue lib st data path op.value true
  | .trimSuffix => trimStringValue lib st data path op.value false
  | .ensurePrefix => ensureStringAffix lib st data path op.value true
  | .ensureSuffix => ensureStringAffix lib st data path op.value false
  | .trimSpace => transformStringValue lib st data path NewApi.trimSpace
  | .toLower => transformStringValue lib st data path st.toLower
  | .toUpper => transformStringValue lib st data path st.toUpper
  | .replace => replaceStringValue lib st data path op.fromText op.toText
  | .regexReplace => regexReplaceStringValue lib st data path op.fromText op.toText

/-- An operation, at a path whose negative indexes have been resolved. -/
def applyEdit (lib : PathLibrary σ) (st : StringLibrary σ) (op : EditOperation σ) (data : Doc σ)
    (opPath : String) : Except String (Doc σ) :=
  match (resolveOperationPaths data opPath).foldlM (editPath lib st op) data with
  | .ok result => .ok result
  | .error e => .error ("operation " ++ op.mode.name ++ " failed: " ++ e)

/-! ### What the operations are for -/

/-- What becomes of a node that is a string. -/
def onText (st : StringLibrary σ) (rewrite : String → Except String (Option String)) (x : Doc σ) :
    Except String (Doc σ) :=
  match st.textOf x with
  | none => .error ("operation not supported for type: " ++ st.typeName (some x))
  | some s => (rewrite s).map fun new => (new.map fun t => Doc.scalar (st.string t)).getD x

/-- What an operation is to make of a node. -/
def rewriteNode (lib : PathLibrary σ) (st : StringLibrary σ) (op : EditOperation σ) (x : Doc σ) :
    Except String (Doc σ) :=
  match op.mode with
  | .set => .ok (if op.keepOrigin then x else op.value.getD (.scalar lib.null))
  | .trimPrefix => onText st (trimText st op.value true) x
  | .trimSuffix => onText st (trimText st op.value false) x
  | .ensurePrefix => onText st (ensureText st op.value true) x
  | .ensureSuffix => onText st (ensureText st op.value false) x
  | .trimSpace => onText st (fun s => .ok (some (NewApi.trimSpace s))) x
  | .toLower => onText st (fun s => .ok (some (st.toLower s))) x
  | .toUpper => onText st (fun s => .ok (some (st.toUpper s))) x
  | .replace => onText st (replacedText op.fromText op.toText) x
  | .regexReplace => onText st (regexReplacedText st op.fromText op.toText) x

/-- The nodes a pattern stands for are rewritten; the other nodes at that depth are as they were,
with all that is below them, and those nearer to the root have the keys, in their order, and the
lengths that they had. -/
structure EditsMatched (pattern : List String) (rewrite : Doc σ → Except String (Doc σ))
    (data result : Doc σ) : Prop where
  matched : ∀ A x, Matches pattern data A → JsonTree.node A (some data) = some x →
    ∃ y, rewrite x = .ok y ∧ JsonTree.node A (some result) = some y
  others : ∀ A, A.length = pattern.length → ¬ Matches pattern data A →
    JsonTree.node A (some result) = JsonTree.node A (some data)
  above : ∀ A, A.length < pattern.length →
    (JsonTree.node A (some result)).map JsonTree.outline =
      (JsonTree.node A (some data)).map JsonTree.outline

/-! ### One node -/

/-- The path of a text that leads to a node. -/
def LeadsTo (lib : PathLibrary σ) (data : Doc σ) (path : String) (A : List Step) : Prop :=
  ∃ segments, lib.reads path = some segments ∧ JsonTree.site segments data = some A

theorem LeadsTo.get {lib : PathLibrary σ} {data : Doc σ} {path : String} {A : List Step}
    (h : LeadsTo lib data path A) : lib.getBytes data path = JsonTree.node A (some data) := by
  obtain ⟨segments, hreads, hsite⟩ := h
  rw [lib.get_reads _ _ _ hreads, JsonTree.get_of_site hsite]

theorem LeadsTo.set {lib : PathLibrary σ} {data x : Doc σ} {path : String} {A : List Step}
    (h : LeadsTo lib data path A) (hx : JsonTree.node A (some data) = some x) (value : Doc σ) :
    lib.setBytes data path value = .ok (JsonTree.edit (fun _ => value) A data) := by
  obtain ⟨segments, hreads, hsite⟩ := h
  exact lib.set_reads _ _ _ _ _ hreads (JsonTree.set_of_site hsite hx)

theorem LeadsTo.edit {lib : PathLibrary σ} {data : Doc σ} {path : String} {A B : List Step}
    (h : LeadsTo lib data path A) {f : Doc σ → Doc σ}
    (hB : A.length ≤ B.length ∨
      (A.length = B.length + 1 ∧ ∀ x, JsonTree.kind (f x) = JsonTree.kind x)) :
    LeadsTo lib (JsonTree.edit f B data) path A := by
  obtain ⟨segments, hreads, hsite⟩ := h
  exact ⟨segments, hreads, JsonTree.site_edit hsite hB⟩

theorem updateString_of_leadsTo {lib : PathLibrary σ} {st : StringLibrary σ} {data x : Doc σ}
    {path : String} {A : List Step} (rewrite : String → Except String (Option String))
    (h : LeadsTo lib data path A) (hx : JsonTree.node A (some data) = some x) :
    updateString lib st rewrite data path =
      (onText st rewrite x).map fun y => JsonTree.edit (fun _ => y) A data := by
  unfold updateString onText
  rw [h.get, hx, Option.bind_some]
  cases st.textOf x with
  | none => rfl
  | some s =>
    dsimp only
    cases rewrite s with
    | error e => rfl
    | ok new =>
      cases new with
      | none => exact congrArg Except.ok (JsonTree.edit_self hx).symm
      | some t => exact h.set hx _

/-- **At a text that leads to a node the operation makes of the node what it is to make of it.** -/
theorem editPath_of_leadsTo {lib : PathLibrary σ} {st : StringLibrary σ} {op : EditOperation σ}
    {data x : Doc σ} {path : String} {A : List Step} (h : LeadsTo lib data path A)
    (hx : JsonTree.node A (some data) = some x) :
    editPath lib st op data path =
      (rewriteNode lib st op x).map fun y => JsonTree.edit (fun _ => y) A data := by
  unfold editPath rewriteNode
  cases op.mode with
  | set =>
    dsimp only
    rw [setValue, h.get, hx]
    cases op.keepOrigin with
    | true => exact congrArg Except.ok (JsonTree.edit_self hx).symm
    | false => exact h.set hx _
  | trimPrefix => exact updateString_of_leadsTo _ h hx
  | trimSuffix => exact updateString_of_leadsTo _ h hx
  | ensurePrefix => exact updateString_of_leadsTo _ h hx
  | ensureSuffix => exact updateString_of_leadsTo _ h hx
  | trimSpace => exact updateString_of_leadsTo _ h hx
  | toLower => exact updateString_of_leadsTo _ h hx
  | toUpper => exact updateString_of_leadsTo _ h hx
  | replace => exact updateString_of_leadsTo _ h hx
  | regexReplace => exact updateString_of_leadsTo _ h hx

/-! ### All the nodes -/

/-- What becomes of a node, where nothing fails. -/
def rewritten (rewrite : Doc σ → Except String (Doc σ)) (x : Doc σ) : Doc σ :=
  match rewrite x with
  | .ok y => y
  | .error _ => x

/-- One operation after another at places of the same depth: all of them succeed, and the nodes are
rewritten, or one of them fails. -/
theorem foldlM_editPath {lib : PathLibrary σ} {st : StringLibrary σ} {op : EditOperation σ}
    {text : List Step → String} {L : List (List Step)} {n : ℕ} (hnodup : L.Nodup)
    (hlength : ∀ A ∈ L, A.length = n) {data : Doc σ}
    (hleads : ∀ A ∈ L, LeadsTo lib data (text A) A)
    (hthere : ∀ A ∈ L, (JsonTree.node A (some data)).isSome) :
    ((∀ A ∈ L, ∀ x, JsonTree.node A (some data) = some x → ∃ y, rewriteNode lib st op x = .ok y) ∧
        (L.map text).foldlM (editPath lib st op) data =
          .ok (JsonTree.edits (L.map fun A => (A, rewritten (rewriteNode lib st op))) data)) ∨
      ((∃ A ∈ L, ∃ x e, JsonTree.node A (some data) = some x ∧
          rewriteNode lib st op x = .error e) ∧
        ∃ e, (L.map text).foldlM (editPath lib st op) data = .error e) := by
  induction L generalizing data with
  | nil => exact .inl ⟨by simp, rfl⟩
  | cons A L ih =>
    rw [List.nodup_cons] at hnodup
    obtain ⟨x, hx⟩ := Option.isSome_iff_exists.1 (hthere A List.mem_cons_self)
    have hstep : editPath lib st op data (text A) =
        (rewriteNode lib st op x).map fun y => JsonTree.edit (fun _ => y) A data :=
      editPath_of_leadsTo (hleads A List.mem_cons_self) hx
    rw [List.map_cons, List.foldlM_cons, hstep]
    cases hrewrite : rewriteNode lib st op x with
    | error e =>
      exact .inr ⟨⟨A, List.mem_cons_self, x, e, hx, hrewrite⟩, e, rfl⟩
    | ok y =>
      have hy : rewritten (rewriteNode lib st op) x = y := by rw [rewritten, hrewrite]
      have hedit : JsonTree.edit (fun _ => y) A data =
          JsonTree.edit (rewritten (rewriteNode lib st op)) A data :=
        JsonTree.edit_congr hx hy.symm
      -- the other places are as they were
      have hnode : ∀ B ∈ L, JsonTree.node B
          (some (JsonTree.edit (rewritten (rewriteNode lib st op)) A data)) =
            JsonTree.node B (some data) := by
        intro B hB
        have hBA : B ≠ A := fun heq => hnodup.1 (heq ▸ hB)
        have heq : B.length = A.length :=
          (hlength B (List.mem_cons_of_mem _ hB)).trans (hlength A List.mem_cons_self).symm
        exact JsonTree.node_edit_of_apart _ (fun h => hBA (h.eq_of_length heq))
          (fun h => hBA (h.eq_of_length heq.symm).symm) data
      have hrest := @ih hnodup.2 (fun B hB => hlength B (List.mem_cons_of_mem _ hB))
        (JsonTree.edit (rewritten (rewriteNode lib st op)) A data)
        (fun B hB => (hleads B (List.mem_cons_of_mem _ hB)).edit <| .inl <| le_of_eq <|
          (hlength B (List.mem_cons_of_mem _ hB)).trans (hlength A List.mem_cons_self).symm)
        (fun B hB => by rw [hnode B hB]; exact hthere B (List.mem_cons_of_mem _ hB))
      simp only [Except.map, hedit]
      obtain ⟨hok, hfold⟩ | ⟨⟨B, hB, z, e, hz, hfail⟩, e', hfold⟩ := hrest
      · refine .inl ⟨?_, hfold⟩
        intro B hB z hz
        obtain rfl | hB := List.mem_cons.1 hB
        · obtain rfl := Option.some.inj (hx.symm.trans hz)
          exact ⟨y, hrewrite⟩
        · exact hok B hB z (by rw [hnode B hB, hz])
      · refine .inr ⟨⟨B, List.mem_cons_of_mem _ hB, z, e, ?_, hfail⟩, e', hfold⟩
        rw [← hnode B hB, hz]

/-- The changes at one of the places. -/
theorem filter_place {L : List (List Step)} (hnodup : L.Nodup) (f : Doc σ → Doc σ)
    (A : List Step) :
    (L.map fun B => (B, f)).filter (fun e => e.1 = A) = if A ∈ L then [(A, f)] else [] := by
  induction L with
  | nil => rfl
  | cons B L ih =>
    rw [List.nodup_cons] at hnodup
    rw [List.map_cons, List.filter_cons, ih hnodup.2]
    by_cases hBA : B = A
    · subst hBA
      simp [hnodup.1]
    · have hAB : A ≠ B := fun h => hBA h.symm
      simp [hBA, hAB]

/-- **Edits touch exactly the matched nodes**, if the text of each of them leads back to it: where
the operation succeeds, it has rewritten them and nothing else, and it succeeds if it can rewrite each
of them. -/
theorem wildcard_edit_exact {lib : PathLibrary σ} {st : StringLibrary σ} {op : EditOperation σ}
    {data : Doc σ} {path : String} (hstar : contains path "*" = true)
    (hthere : ∀ A, Matches (pathPattern path) data A → (JsonTree.node A (some data)).isSome)
    (hkeys : DistinctKeys data) (hread : Reread lib (pathPattern path) data) :
    (∀ result, applyEdit lib st op data path = .ok result →
        EditsMatched (pathPattern path) (rewriteNode lib st op) data result) ∧
      ((∀ A x, Matches (pathPattern path) data A → JsonTree.node A (some data) = some x →
          ∃ y, rewriteNode lib st op x = .ok y) →
        ∃ result, applyEdit lib st op data path = .ok result) := by
  have hmem : ∀ {A}, A ∈ places (pathPattern path) data ↔ Matches (pathPattern path) data A :=
    mem_places (pathPattern_ne_nil path)
  have hnodup := nodup_places (pathPattern path) data
  have hlength : ∀ A ∈ places (pathPattern path) data, A.length = (pathPattern path).length :=
    fun A hA => (hmem.1 hA).length
  have hfold := @foldlM_editPath _ lib st op (pathText (pathPattern path)) _ _ hnodup hlength data
    (fun A hA => hread A (hmem.1 hA)) (fun A hA => hthere A (hmem.1 hA))
  unfold applyEdit
  rw [resolveOperationPaths_eq hstar hkeys hread]
  obtain ⟨hok, hresult⟩ | ⟨⟨A, hA, x, e, hx, hfail⟩, e', hresult⟩ := hfold
  · rw [hresult]
    refine ⟨?_, fun _ => ⟨_, rfl⟩⟩
    intro result hresult'
    obtain rfl := Except.ok.inj hresult'
    have hat : ∀ A, A.length = (pathPattern path).length →
        JsonTree.node A (some (JsonTree.edits ((places (pathPattern path) data).map fun A =>
          (A, rewritten (rewriteNode lib st op))) data)) =
            if A ∈ places (pathPattern path) data then
              (JsonTree.node A (some data)).map (rewritten (rewriteNode lib st op))
            else JsonTree.node A (some data) := by
      intro A hA
      rw [JsonTree.node_edits, filter_place hnodup]
      · by_cases hmatch : A ∈ places (pathPattern path) data
        · rw [if_pos hmatch, if_pos hmatch]
          rfl
        · rw [if_neg hmatch, if_neg hmatch]
          exact Option.map_id'
      · intro e he
        obtain ⟨B, hB, rfl⟩ := List.mem_map.1 he
        rw [hlength B hB, hA]
    refine ⟨?_, ?_, ?_⟩
    · intro A x hmatch hx
      obtain ⟨y, hy⟩ := hok A (hmem.2 hmatch) x hx
      refine ⟨y, hy, ?_⟩
      rw [hat A hmatch.length, if_pos (hmem.2 hmatch), hx, Option.map_some, rewritten, hy]
    · intro A hA hnot
      rw [hat A hA, if_neg fun h => hnot (hmem.1 h)]
    · intro A hA
      apply JsonTree.outline_edits
      intro e he
      obtain ⟨B, hB, rfl⟩ := List.mem_map.1 he
      rw [hlength B hB]
      exact hA
  · rw [hresult]
    refine ⟨?_, ?_⟩
    · intro result hresult'
      cases hresult'
    · intro hall
      obtain ⟨y, hy⟩ := hall A x (hmem.1 hA) hx
      rw [hy] at hfail
      cases hfail

end Edits

/-! ### A body that is edited and one that is misread -/

/-- Scalars that are strings, or null. -/
def plainStrings : StringLibrary (Option String) where
  text := id
  string := some
  typeName
    | none => "Null"
    | some (.scalar none) => "Null"
    | some (.scalar (some _)) => "String"
    | some _ => "JSON"
  sprint
    | .scalar (some s) => s
    | _ => "<nil>"
  toLower s := String.ofList (s.toList.map Char.toLower)
  toUpper s := String.ofList (s.toList.map Char.toUpper)
  compile _ := .error "error parsing regexp"

/-- The names of all tools are set. -/
theorem wildcard_edit_exact_names :
    ∃ result, applyEdit dotted plainStrings ⟨.set, some (.scalar (some "c")), false, "", ""⟩
        twoTools "tools.*.name" = .ok result ∧
      EditsMatched (pathPattern "tools.*.name")
        (rewriteNode dotted plainStrings ⟨.set, some (.scalar (some "c")), false, "", ""⟩)
        twoTools result := by
  obtain ⟨hedits, hsucceeds⟩ := @wildcard_edit_exact _ dotted plainStrings
    ⟨.set, some (.scalar (some "c")), false, "", ""⟩ twoTools "tools.*.name" (by decide) (by
      intro A hA
      obtain rfl | rfl := eq_of_matches_twoTools hA <;> rfl)
    distinctKeys_twoTools reread_twoTools
  obtain ⟨result, hresult⟩ := hsucceeds fun A x _ _ => ⟨_, rfl⟩
  exact ⟨result, hresult, hedits result hresult⟩

/-- **A key with a dot in it is misread**: the field it names stays, and another one is made. -/
theorem dotted_key_misread :
    applyEdit dotted plainStrings ⟨.set, some (.scalar (some "c")), false, "", ""⟩
        (.obj [("metadata", .obj [("a.b", .scalar (some "old"))])]) "metadata.*" =
      .ok (.obj [("metadata", .obj [("a.b", .scalar (some "old")),
        ("a", .obj [("b", .scalar (some "c"))])])]) ∧
    (∀ A, Matches (pathPattern "metadata.*")
        (.obj [("metadata", .obj [("a.b", .scalar (some "old"))])]) A →
      (JsonTree.node A
        (some (Doc.obj [("metadata", .obj [("a.b", .scalar (some "old"))])]))).isSome) ∧
    ¬ EditsMatched (pathPattern "metadata.*")
        (rewriteNode dotted plainStrings ⟨.set, some (.scalar (some "c")), false, "", ""⟩)
        (.obj [("metadata", .obj [("a.b", .scalar (some "old"))])])
        (.obj [("metadata", .obj [("a.b", .scalar (some "old")),
          ("a", .obj [("b", .scalar (some "c"))])])]) := by
  have hplaces : places (pathPattern "metadata.*")
      (.obj [("metadata", .obj [("a.b", .scalar (some "old"))])]) =
      [[.key "metadata", .key "a.b"]] := by
    decide
  have hmem : Matches (pathPattern "metadata.*")
      (.obj [("metadata", .obj [("a.b", .scalar (some "old"))])])
      [.key "metadata", .key "a.b"] := by
    rw [← mem_places (pathPattern_ne_nil _), hplaces]
    simp
  refine ⟨?_, ?_, ?_⟩
  · rw [applyEdit, show resolveOperationPaths (.obj [("metadata", .obj [("a.b",
      .scalar (some "old"))])]) "metadata.*" = ["metadata.a.b"] by decide]
    rfl
  · intro A hA
    have hA' := (mem_places (pathPattern_ne_nil _)).2 hA
    rw [hplaces, List.mem_singleton] at hA'
    subst hA'
    rfl
  · intro h
    obtain ⟨y, hy, hnode⟩ := h.matched _ (.scalar (some "old")) hmem rfl
    obtain rfl := Except.ok.inj hy
    have hold := Option.some.inj hnode
    simp at hold

end NewApi

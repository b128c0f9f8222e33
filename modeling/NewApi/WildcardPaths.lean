/-
**The nodes a path with wildcards stands for.**

An operation of a parameter override names the nodes it is about by a path whose segments are keys,
indexes or `*`.  The nodes are found in the decoded body, and each of them is handed on as a text,
its segments joined by dots, which the library that reads and writes the body parses once more.  The
text of a node leads back to the node only if the library has no other reading for it: a key that
holds a dot, or a character with a meaning of its own, is read as something else.

Main definitions:

* `NewApi.PathLibrary` — reading, writing and deleting at a textual path, as the library has it;
* `NewApi.collectWildcardPaths`, `NewApi.resolveOperationPaths` — the texts of the nodes;
* `NewApi.Matches` — the nodes, by their addresses;
* `NewApi.Reread` — the text of each node leads back to it.

Main results:

* `NewApi.mem_places` — the addresses in the order of the texts are those of the nodes;
* `NewApi.resolveOperationPaths_eq` — **each node has one text, and no other texts are handed on**.
-/

import NewApi.ChannelUpstream
import NewApi.Lib.JsonEdit

set_option autoImplicit false

namespace NewApi

open JsonTree (Doc Step)

/-! ### The library -/

/-- Reading, writing and deleting at a textual path.  `reads` are the keys and indexes that a text is
read as when it is read as nothing else; what the library does with other texts is left open. -/
structure PathLibrary (σ : Type*) where
  null : σ
  reads : String → Option (List String)
  getBytes : Doc σ → String → Option (Doc σ)
  setBytes : Doc σ → String → Doc σ → Except String (Doc σ)
  deleteBytes : Doc σ → String → Except String (Doc σ)
  get_reads : ∀ data path segments, reads path = some segments →
    getBytes data path = JsonTree.get segments (some data)
  set_reads : ∀ data path value segments result, reads path = some segments →
    JsonTree.set null value segments (some data) = some result →
    setBytes data path value = .ok result
  delete_reads : ∀ data path segments, reads path = some segments →
    deleteBytes data path = .ok (JsonTree.delete segments data)

section Paths

variable {σ : Type*}

/-! ### Finding the nodes -/

/-- What a decoded object has at a key; of fields with the same key the last counts. -/
def entry (key : String) (fields : List (String × Doc σ)) : Option (Doc σ) :=
  fields.reverse.lookup key

def sortedKeys (fields : List (String × Doc σ)) : List String :=
  (fields.map Prod.fst).dedup.insertionSort (· ≤ ·)

def collectWildcardPaths : List String → List String → Doc σ → List String
  | [], pre, _ => [joinWith '.' pre]
  | part :: rest, pre, node =>
    let segment := trimSpace part
    if segment = "" then []
    else if segment = "*" then
      match node with
      | .obj fields =>
        (sortedKeys fields).flatMap fun key =>
          match entry key fields with
          | some c => collectWildcardPaths rest (pre ++ [key]) c
          | none => []
      | .arr items =>
        (List.range items.length).flatMap fun i =>
          match items[i]? with
          | some c => collectWildcardPaths rest (pre ++ [toString i]) c
          | none => []
      | .scalar _ => []
    else
      match node with
      | .obj fields =>
        -- the last key need not be there
        if rest = [] then [joinWith '.' (pre ++ [segment])]
        else
          match entry segment fields with
          | some next => collectWildcardPaths rest (pre ++ [segment]) next
          | none => []
      | .arr items =>
        match GoJson.parseInt segment with
        | some i =>
          if i < 0 ∨ items.length ≤ i then []
          else if rest = [] then [joinWith '.' (pre ++ [segment])]
          else
            match items[i.toNat]? with
            | some c => collectWildcardPaths rest (pre ++ [segment]) c
            | none => []
        | none => []
      | .scalar _ => []

def expandWildcardPaths (data : Doc σ) (path : String) : List String :=
  uniq (collectWildcardPaths (split path '.') [] data)

def resolveOperationPaths (data : Doc σ) (path : String) : List String :=
  if contains path "*" then expandWildcardPaths data path else [path]

/-! ### What the nodes are -/

/-- The segments of a path, without the white space around them. -/
def pathPattern (path : String) : List String := (split path '.').map trimSpace

/-- The step a segment stands for at a node: any child, the field with the key, whether or not it is
there, or the element with the index. -/
inductive Chosen : String → Doc σ → Step → Prop
  | all {d : Doc σ} {s : Step} (h : (JsonTree.follow s d).isSome) : Chosen "*" d s
  | key {segment : String} {fields : List (String × Doc σ)} (hblank : segment ≠ "")
      (hstar : segment ≠ "*") : Chosen segment (.obj fields) (.key segment)
  | elem {segment : String} {items : List (Doc σ)} {i : ℕ}
      (hindex : GoJson.parseInt segment = some (i : ℤ)) (hlt : i < items.length) :
      Chosen segment (.arr items) (.elem i)

/-- The places a pattern stands for in a document. -/
inductive Matches : List String → Doc σ → List Step → Prop
  | last {segment : String} {d : Doc σ} {s : Step} (h : Chosen segment d s) :
      Matches [segment] d [s]
  | step {segment next : String} {rest : List String} {d c : Doc σ} {s : Step} {A : List Step}
      (h : Chosen segment d s) (hc : JsonTree.follow s d = some c)
      (hrest : Matches (next :: rest) c A) : Matches (segment :: next :: rest) d (s :: A)

def stepText : Step → String
  | .key k => k
  | .elem i => toString i

/-- The segment that is written for a step. -/
def segmentText (segment : String) (s : Step) : String :=
  if segment = "*" then stepText s else segment

/-- The text that is handed on for a place. -/
def pathText (pattern : List String) (A : List Step) : String :=
  joinWith '.' (List.zipWith segmentText pattern A)

/-- The text of each place leads back to it. -/
def Reread (lib : PathLibrary σ) (pattern : List String) (data : Doc σ) : Prop :=
  ∀ A, Matches pattern data A → ∃ segments, lib.reads (pathText pattern A) = some segments ∧
    JsonTree.site segments data = some A

/-- No object of a document repeats a key. -/
def DistinctKeys (data : Doc σ) : Prop :=
  ∀ A fields, JsonTree.node A (some data) = some (.obj fields) → (fields.map Prod.fst).Nodup

/-! ### The places in their order -/

/-- The steps a segment stands for, in the order in which they are taken. -/
def choices (segment : String) : Doc σ → List Step
  | .obj fields =>
    if segment = "" then []
    else if segment = "*" then (sortedKeys fields).map .key
    else [.key segment]
  | .arr items =>
    if segment = "*" then (List.range items.length).map .elem
    else
      match GoJson.parseInt segment with
      | some i => if i < 0 ∨ items.length ≤ i then [] else [.elem i.toNat]
      | none => []
  | .scalar _ => []

/-- The places a pattern stands for, in the order of their texts. -/
def places : List String → Doc σ → List (List Step)
  | [], _ => [[]]
  | [segment], d => (choices segment d).map ([·])
  | segment :: next :: rest, d =>
    (choices segment d).flatMap fun s =>
      match JsonTree.follow s d with
      | some c => (places (next :: rest) c).map (s :: ·)
      | none => []

theorem lookup_eq_none_iff {key : String} {fields : List (String × Doc σ)} :
    fields.lookup key = none ↔ key ∉ fields.map Prod.fst := by
  induction fields with
  | nil => simp
  | cons e rest ih =>
    obtain ⟨k, x⟩ := e
    rw [List.lookup_cons]
    by_cases hk : key = k
    · simp [hk]
    · have hne : (key == k) = false := by simpa using hk
      simp [hne, ih, hk]

/-- A key that is not repeated has one field to be found from either end. -/
theorem entry_eq_lookup {key : String} {fields : List (String × Doc σ)}
    (h : (fields.map Prod.fst).Nodup) : entry key fields = fields.lookup key := by
  unfold entry
  induction fields with
  | nil => rfl
  | cons e rest ih =>
    obtain ⟨k, x⟩ := e
    simp only [List.map_cons, List.nodup_cons] at h
    rw [List.reverse_cons, List.lookup_append, ih h.2, List.lookup_cons, List.lookup_cons]
    by_cases hk : key = k
    · subst hk
      rw [lookup_eq_none_iff.2 h.1]
      simp
    · have hne : (key == k) = false := by simpa using hk
      simp [hne]

theorem mem_sortedKeys {key : String} {fields : List (String × Doc σ)} :
    key ∈ sortedKeys fields ↔ (fields.lookup key).isSome := by
  rw [sortedKeys, List.mem_insertionSort, List.mem_dedup, Option.isSome_iff_ne_none, ne_eq,
    lookup_eq_none_iff, not_not]

theorem nodup_sortedKeys (fields : List (String × Doc σ)) : (sortedKeys fields).Nodup :=
  (List.perm_insertionSort _ _).nodup_iff.2 (List.nodup_dedup _)

theorem mem_choices {segment : String} {d : Doc σ} {s : Step} :
    s ∈ choices segment d ↔ Chosen segment d s := by
  constructor
  · intro h
    cases d with
    | scalar x => cases h
    | obj fields =>
      simp only [choices] at h
      by_cases hblank : segment = ""
      · simp [hblank] at h
      rw [if_neg hblank] at h
      by_cases hstar : segment = "*"
      · subst hstar
        rw [if_pos rfl, List.mem_map] at h
        obtain ⟨k, hk, rfl⟩ := h
        exact .all (mem_sortedKeys.1 hk)
      · rw [if_neg hstar, List.mem_singleton] at h
        subst h
        exact .key hblank hstar
    | arr items =>
      simp only [choices] at h
      by_cases hstar : segment = "*"
      · subst hstar
        rw [if_pos rfl, List.mem_map] at h
        obtain ⟨i, hi, rfl⟩ := h
        exact .all (by simpa [JsonTree.follow] using hi)
      · rw [if_neg hstar] at h
        cases hindex : GoJson.parseInt segment with
        | none => simp [hindex] at h
        | some i =>
          simp only [hindex] at h
          by_cases hrange : i < 0 ∨ items.length ≤ i
          · rw [if_pos hrange] at h
            cases h
          · rw [if_neg hrange, List.mem_singleton] at h
            subst h
            have hi : (i.toNat : ℤ) = i := Int.toNat_of_nonneg (by omega)
            exact .elem (by rw [hindex, hi]) (by omega)
  · intro h
    cases h with
    | all hsome =>
      cases d with
      | scalar x => cases s <;> cases hsome
      | obj fields =>
        cases s with
        | elem i => cases hsome
        | key k =>
          have hk : k ∈ sortedKeys fields := mem_sortedKeys.2 hsome
          simpa [choices] using hk
      | arr items =>
        cases s with
        | key k => cases hsome
        | elem i =>
          have hi : i < items.length := by simpa [JsonTree.follow] using hsome
          simpa [choices] using hi
    | key hblank hstar => simp [choices, hblank, hstar]
    | @elem segment items i hindex hlt =>
      have hstar : segment ≠ "*" := by
        rintro rfl
        have hnone : GoJson.parseInt "*" = none := by decide
        rw [hnone] at hindex
        cases hindex
      simpa [choices, hstar, hindex] using hlt

theorem mem_places {pattern : List String} (hne : pattern ≠ []) {d : Doc σ} {A : List Step} :
    A ∈ places pattern d ↔ Matches pattern d A := by
  induction pattern generalizing d A with
  | nil => exact absurd rfl hne
  | cons segment rest ih =>
    cases rest with
    | nil =>
      simp only [places, List.mem_map, mem_choices]
      constructor
      · rintro ⟨s, hs, rfl⟩
        exact .last hs
      · intro h
        cases h with
        | last hs => exact ⟨_, hs, rfl⟩
    | cons next rest =>
      simp only [places, List.mem_flatMap, mem_choices]
      constructor
      · rintro ⟨s, hs, hA⟩
        cases hc : JsonTree.follow s d with
        | none => simp [hc] at hA
        | some c =>
          simp only [hc, List.mem_map] at hA
          obtain ⟨B, hB, rfl⟩ := hA
          exact .step hs hc ((ih (by simp)).1 hB)
      · intro h
        cases h with
        | @step _ _ _ _ c s B hs hc hrest =>
          refine ⟨s, hs, ?_⟩
          simp only [hc, List.mem_map]
          exact ⟨B, (ih (by simp)).2 hrest, rfl⟩

theorem Matches.length {pattern : List String} {d : Doc σ} {A : List Step}
    (h : Matches pattern d A) : A.length = pattern.length := by
  induction h with
  | last _ => rfl
  | step _ _ _ ih => rw [List.length_cons, List.length_cons, ih]

theorem nodup_choices (segment : String) (d : Doc σ) : (choices segment d).Nodup := by
  cases d with
  | scalar x => exact List.nodup_nil
  | obj fields =>
    simp only [choices]
    by_cases hblank : segment = ""
    · simp [hblank]
    rw [if_neg hblank]
    by_cases hstar : segment = "*"
    · rw [if_pos hstar]
      exact (nodup_sortedKeys fields).map fun a b h => Step.key.inj h
    · rw [if_neg hstar]
      exact List.nodup_singleton _
  | arr items =>
    simp only [choices]
    by_cases hstar : segment = "*"
    · rw [if_pos hstar]
      exact List.nodup_range.map fun a b h => Step.elem.inj h
    · rw [if_neg hstar]
      cases GoJson.parseInt segment with
      | none => exact List.nodup_nil
      | some i => by_cases hrange : i < 0 ∨ items.length ≤ i <;> simp [hrange]

/-- No place comes twice. -/
theorem nodup_places (pattern : List String) (d : Doc σ) : (places pattern d).Nodup := by
  induction pattern generalizing d with
  | nil => exact List.nodup_singleton _
  | cons segment rest ih =>
    cases rest with
    | nil => exact (nodup_choices segment d).map fun a b h => by simpa using h
    | cons next rest =>
      rw [places, List.nodup_flatMap]
      refine ⟨?_, ?_⟩
      · intro s _
        cases JsonTree.follow s d with
        | none => exact List.nodup_nil
        | some c => exact (ih c).map fun a b h => List.cons_injective h
      · refine (nodup_choices segment d).imp ?_
        intro s t hst A hs ht
        cases hfs : JsonTree.follow s d with
        | none => simp [hfs] at hs
        | some c =>
          cases hft : JsonTree.follow t d with
          | none => simp [hft] at ht
          | some c' =>
            simp only [hfs, List.mem_map] at hs
            simp only [hft, List.mem_map] at ht
            obtain ⟨B, -, rfl⟩ := hs
            obtain ⟨B', -, hB'⟩ := ht
            exact hst (List.cons.inj hB').1.symm

/-! ### The texts -/

theorem DistinctKeys.child {d c : Doc σ} (h : DistinctKeys d) {s : Step}
    (hc : JsonTree.follow s d = some c) : DistinctKeys c := by
  intro A fields hA
  refine h (s :: A) fields ?_
  simpa [JsonTree.node, hc] using hA

/-- One step of the search. -/
theorem collectWildcardPaths_cons {d : Doc σ} (hd : DistinctKeys d) (part : String)
    (rest pre : List String) :
    collectWildcardPaths (part :: rest) pre d =
      (choices (trimSpace part) d).flatMap fun s =>
        if rest = [] then [joinWith '.' (pre ++ [segmentText (trimSpace part) s])]
        else
          match JsonTree.follow s d with
          | some c =>
            collectWildcardPaths rest (pre ++ [segmentText (trimSpace part) s]) c
          | none => [] := by
  rw [collectWildcardPaths.eq_def]
  dsimp only
  generalize hsegment : trimSpace part = segment
  -- below a wildcard the step leads to something, so that it does not matter if it is the last
  have hlast : ∀ (t : String) (c : Doc σ), collectWildcardPaths rest (pre ++ [t]) c =
      if rest = [] then [joinWith '.' (pre ++ [t])]
      else collectWildcardPaths rest (pre ++ [t]) c := by
    intro t c
    cases rest with
    | nil => rfl
    | cons next rest => rfl
  by_cases hblank : segment = ""
  · rw [if_pos hblank, hblank]
    cases d with
    | scalar x => rfl
    | obj fields => simp [choices]
    | arr items =>
      have hnone : GoJson.parseInt "" = none := by decide
      simp [choices, hnone]
  rw [if_neg hblank]
  by_cases hstar : segment = "*"
  · rw [if_pos hstar]
    cases d with
    | scalar x => rfl
    | obj fields =>
      have hfields := hd [] fields rfl
      simp only [choices, if_neg hblank, if_pos hstar, List.flatMap_map]
      refine List.flatMap_congr fun key hkey => ?_
      obtain ⟨c, hc⟩ := Option.isSome_iff_exists.1 (mem_sortedKeys.1 hkey)
      simp only [entry_eq_lookup hfields, hc, JsonTree.follow, segmentText, if_pos hstar,
        stepText]
      exact hlast key c
    | arr items =>
      simp only [choices, if_pos hstar, List.flatMap_map]
      refine List.flatMap_congr fun i hi => ?_
      have hlt : i < items.length := List.mem_range.1 hi
      simp only [List.getElem?_eq_getElem hlt, JsonTree.follow, segmentText, if_pos hstar,
        stepText]
      exact hlast (toString i) _
  · rw [if_neg hstar]
    cases d with
    | scalar x => rfl
    | obj fields =>
      have hfields := hd [] fields rfl
      simp only [choices, if_neg hblank, if_neg hstar, List.flatMap_cons, List.flatMap_nil,
        List.append_nil, segmentText, JsonTree.follow, entry_eq_lookup hfields]
    | arr items =>
      simp only [choices, if_neg hstar]
      cases hindex : GoJson.parseInt segment with
      | none => rfl
      | some i =>
        dsimp only
        by_cases hrange : i < 0 ∨ items.length ≤ i
        · rw [if_pos hrange, if_pos hrange]
          rfl
        · rw [if_neg hrange, if_neg hrange]
          simp only [List.flatMap_cons, List.flatMap_nil, List.append_nil, segmentText,
            if_neg hstar, JsonTree.follow]

theorem collectWildcardPaths_eq {d : Doc σ} (hd : DistinctKeys d) (parts pre : List String) :
    collectWildcardPaths parts pre d =
      (places (parts.map trimSpace) d).map fun A =>
        joinWith '.' (pre ++ List.zipWith segmentText (parts.map trimSpace) A) := by
  induction parts generalizing pre d with
  | nil => simp [collectWildcardPaths, places]
  | cons part rest ih =>
    rw [collectWildcardPaths_cons hd]
    cases rest with
    | nil =>
      simp only [if_true, List.map_cons, List.map_nil, places, List.map_map]
      rw [List.map_eq_flatMap]
      rfl
    | cons next rest =>
      simp only [List.map_cons, places, List.map_flatMap]
      refine List.flatMap_congr fun s _ => ?_
      rw [if_neg (by simp)]
      cases hc : JsonTree.follow s d with
      | none => rfl
      | some c =>
        dsimp only
        rw [ih (hd.child hc), List.map_map]
        refine List.map_congr_left fun A _ => ?_
        simp

theorem pathPattern_ne_nil (path : String) : pathPattern path ≠ [] := by
  simp [pathPattern, split_ne_nil]

/-- Places with the same text are the same. -/
theorem Reread.text_inj {lib : PathLibrary σ} {pattern : List String} {data : Doc σ}
    (h : Reread lib pattern data) {A B : List Step} (hA : Matches pattern data A)
    (hB : Matches pattern data B) (heq : pathText pattern A = pathText pattern B) : A = B := by
  obtain ⟨p, hp, hpA⟩ := h A hA
  obtain ⟨q, hq, hqB⟩ := h B hB
  rw [heq, hq] at hp
  obtain rfl := Option.some.inj hp
  exact Option.some.inj (hpA.symm.trans hqB)

/-- **The texts of a path with wildcards** are those of the places it stands for. -/
theorem resolveOperationPaths_eq {lib : PathLibrary σ} {data : Doc σ} {path : String}
    (hstar : contains path "*" = true) (hd : DistinctKeys data)
    (hread : Reread lib (pathPattern path) data) :
    resolveOperationPaths data path =
      (places (pathPattern path) data).map (pathText (pathPattern path)) := by
  have hcollect : collectWildcardPaths (split path '.') [] data =
      (places (pathPattern path) data).map (pathText (pathPattern path)) := by
    rw [collectWildcardPaths_eq hd]
    rfl
  have hnodup : ((places (pathPattern path) data).map (pathText (pathPattern path))).Nodup := by
    refine List.Nodup.map_on ?_ (nodup_places _ _)
    intro A hA B hB heq
    exact hread.text_inj ((mem_places (pathPattern_ne_nil path)).1 hA)
      ((mem_places (pathPattern_ne_nil path)).1 hB) heq
  rw [resolveOperationPaths, if_pos hstar, expandWildcardPaths, hcollect, uniq,
    addNew_eq_append (by simpa using hnodup), List.nil_append]

/-! ### Documents without repeated keys -/

theorem distinctKeys_scalar (s : σ) : DistinctKeys (.scalar s) := by
  intro A fields hA
  cases A with
  | nil => cases hA
  | cons t A =>
    have hnone : JsonTree.follow t (.scalar s) = none := by cases t <;> rfl
    simp [JsonTree.node, hnone] at hA

theorem distinctKeys_arr {items : List (Doc σ)} (h : ∀ c ∈ items, DistinctKeys c) :
    DistinctKeys (.arr items) := by
  intro A fields hA
  cases A with
  | nil => cases hA
  | cons t A =>
    cases t with
    | key k => simp [JsonTree.node, JsonTree.follow] at hA
    | elem i =>
      simp only [JsonTree.node, JsonTree.follow, Option.bind_some] at hA
      cases hi : items[i]? with
      | none => simp [hi] at hA
      | some c =>
        rw [hi] at hA
        exact h c (List.mem_of_getElem? hi) A fields hA

theorem distinctKeys_obj {fields : List (String × Doc σ)} (hnodup : (fields.map Prod.fst).Nodup)
    (h : ∀ e ∈ fields, DistinctKeys e.2) : DistinctKeys (.obj fields) := by
  intro A fields' hA
  cases A with
  | nil =>
    obtain rfl := Doc.obj.inj (Option.some.inj hA)
    exact hnodup
  | cons t A =>
    cases t with
    | elem i => simp [JsonTree.node, JsonTree.follow] at hA
    | key k =>
      simp only [JsonTree.node, JsonTree.follow, Option.bind_some] at hA
      cases hk : fields.lookup k with
      | none => simp [hk] at hA
      | some c =>
        rw [hk] at hA
        have hmem : (k, c) ∈ fields := by
          obtain ⟨l₁, l₂, rfl, -⟩ := List.lookup_eq_some_iff.1 hk
          simp
        exact h (k, c) hmem A fields' hA

end Paths

/-! ### Paths of plain keys -/

/-- The segments of a path of letters, digits, underscores and hyphens between dots. -/
def plainSegments (path : String) : Option (List String) :=
  if path ≠ "" ∧ path.toList.all (fun c => c.isAlphanum || c ∈ ['.', '_', '-']) then
    some (split path '.')
  else none

/-- A library that reads plain paths, and nothing else. -/
def dotted : PathLibrary (Option String) where
  null := none
  reads := plainSegments
  getBytes data path := (plainSegments path).bind fun segments => JsonTree.get segments (some data)
  setBytes data path value :=
    match plainSegments path with
    | none => .error "path cannot be read"
    | some segments =>
      match JsonTree.set none value segments (some data) with
      | none => .error "cannot set array element for non-numeric key"
      | some result => .ok result
  deleteBytes data path :=
    match plainSegments path with
    | none => .ok data
    | some segments => .ok (JsonTree.delete segments data)
  get_reads data path segments h := by rw [h, Option.bind_some]
  set_reads data path value segments result h hset := by rw [h]; simp only [hset]
  delete_reads data path segments h := by rw [h]

/-- A body with two tools, one of which has no name. -/
def twoTools : Doc (Option String) :=
  .obj [("tools", .arr [.obj [("name", .scalar (some "a"))], .obj [("name", .scalar none)]])]

theorem distinctKeys_twoTools : DistinctKeys twoTools := by
  refine distinctKeys_obj (by decide) fun e he => ?_
  obtain rfl := List.mem_singleton.1 he
  refine distinctKeys_arr fun c hc => ?_
  have htool : ∀ s : Option String, DistinctKeys (.obj [("name", .scalar s)]) := by
    intro s
    refine distinctKeys_obj (by simp) fun e he => ?_
    obtain rfl := List.mem_singleton.1 he
    exact distinctKeys_scalar s
  have hc' : c = .obj [("name", .scalar (some "a"))] ∨ c = .obj [("name", .scalar none)] := by
    simpa using hc
  obtain rfl | rfl := hc'
  · exact htool (some "a")
  · exact htool none

theorem eq_of_matches_twoTools {A : List Step}
    (h : Matches (pathPattern "tools.*.name") twoTools A) :
    A = [.key "tools", .elem 0, .key "name"] ∨ A = [.key "tools", .elem 1, .key "name"] := by
  have hplaces : places (pathPattern "tools.*.name") twoTools =
      [[.key "tools", .elem 0, .key "name"], [.key "tools", .elem 1, .key "name"]] := by
    decide
  have hmem := (mem_places (pathPattern_ne_nil _)).2 h
  rw [hplaces] at hmem
  simpa using hmem

theorem reread_twoTools : Reread dotted (pathPattern "tools.*.name") twoTools := by
  intro A hA
  obtain rfl | rfl := eq_of_matches_twoTools hA
  · exact ⟨["tools", "0", "name"], by decide, by decide⟩
  · exact ⟨["tools", "1", "name"], by decide, by decide⟩

end NewApi

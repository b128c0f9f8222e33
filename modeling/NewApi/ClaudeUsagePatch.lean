/-
**The usage a client reads from a patched `message_delta`.**

Some upstreams leave counts out of the usage of the last event that they gave at the start.  Before
the event is passed on, what is missing is filled in from the usage that is billed: a count that is
not positive in the event is replaced if there is a positive one to replace it with.  The billed
usage takes each count from the event where it is positive there, the two lifetimes of a cache
creation among them.  The patch takes the two together, from the event if it has the object and
from the billed usage otherwise.

Main definitions:

* `NewApi.JsonScalar`, `NewApi.gjsonInt` — the scalars of a document, and a count read from one;
* `NewApi.decodeUsage` — the usage of an event;
* `NewApi.buildMessageDeltaPatchUsage`, `NewApi.patchClaudeMessageDeltaUsageData` — the patch;
* `NewApi.ReportsBilled` — what the patched event promises;
* `NewApi.SplitAgrees` — the condition.

Main results:

* `NewApi.patched_assignments` — what a number of replacements at different places does;
* `NewApi.patched_delta_reports_billed` — **the patched event reports the billed usage exactly under
  the condition**;
* `NewApi.empty_split_hides_billed` — an event whose client reads another split.
-/

import NewApi.Lib.JsonTree
import NewApi.ClaudeBilling

set_option autoImplicit false

namespace NewApi

/-! ### Counts in a document -/

/-- The scalars of a document. -/
inductive JsonScalar where
  | null
  | bool (b : Bool)
  | number (value : ℚ)
  | str (s : String)
deriving DecidableEq

/-- A document of an event. -/
abbrev Document := JsonTree.Doc JsonScalar

/-- A text read as an integer. -/
def gjsonParseInt (s : String) : ℤ :=
  match s.toList with
  | '-' :: digits => ((GoJson.parseDigits digits).map fun n => -(n : ℤ)).getD 0
  | digits => ((GoJson.parseDigits digits).map fun n => (n : ℤ)).getD 0

/-- What `Int` gives for a node. -/
def gjsonInt : Option Document → ℤ
  | some (.scalar (.number value)) => value.num.tdiv value.den
  | some (.scalar (.bool true)) => 1
  | some (.scalar (.str s)) => gjsonParseInt s
  | _ => 0

/-- A count as it is written. -/
def countNode (n : ℤ) : Document := .scalar (.number n)

/-- The paths of the counts that are patched, and of the one that is not. -/
def inputPath : List String := ["usage", "input_tokens"]
def cacheReadPath : List String := ["usage", "cache_read_input_tokens"]
def cacheCreationPath : List String := ["usage", "cache_creation_input_tokens"]
def splitPath : List String := ["usage", "cache_creation"]
def split5mPath : List String := ["usage", "cache_creation", "ephemeral_5m_input_tokens"]
def split1hPath : List String := ["usage", "cache_creation", "ephemeral_1h_input_tokens"]
def outputPath : List String := ["usage", "output_tokens"]

/-- The count at a path. -/
def countAt (path : List String) (data : Document) : ℤ := gjsonInt (JsonTree.get path (some data))

/-- Whether a node is there and is not `null`. -/
def present : Option Document → Bool
  | none => false
  | some (.scalar .null) => false
  | some _ => true

/-- The usage of an event, as it is decoded. -/
def decodeUsage (data : Document) : Option ClaudeMessageUsage :=
  if present (JsonTree.get ["usage"] (some data)) then
    some
      { inputTokens := countAt inputPath data
        outputTokens := countAt outputPath data
        cacheCreationInputTokens := countAt cacheCreationPath data
        cacheReadInputTokens := countAt cacheReadPath data
        cacheCreation :=
          if present (JsonTree.get splitPath (some data)) then
            some ⟨countAt split5mPath data, countAt split1hPath data⟩
          else none }
  else none

/-! ### The patch -/

/-- The usage an event is patched with: its own one, with what is missing from the billed one. -/
def buildMessageDeltaPatchUsage (claudeResponseUsage : Option ClaudeMessageUsage) (billed : Usage) :
    ClaudeMessageUsage :=
  let usage := claudeResponseUsage.getD
    { inputTokens := 0, outputTokens := 0, cacheCreationInputTokens := 0
      cacheReadInputTokens := 0, cacheCreation := none }
  let inputTokens :=
    if usage.inputTokens = 0 ∧ 0 < billed.promptTokens then billed.promptTokens
    else usage.inputTokens
  let cacheReadInputTokens :=
    if usage.cacheReadInputTokens = 0 ∧ 0 < billed.cachedTokens then billed.cachedTokens
    else usage.cacheReadInputTokens
  let cacheCreationInputTokens :=
    if usage.cacheCreationInputTokens = 0 ∧ 0 < billed.cachedCreationTokens then
      billed.cachedCreationTokens
    else usage.cacheCreationInputTokens
  let cacheCreation := usage.cacheCreation.getD
    ⟨billed.claudeCacheCreation5mTokens, billed.claudeCacheCreation1hTokens⟩
  let split := normalizeCacheCreationSplit cacheCreationInputTokens
    cacheCreation.ephemeral5mInputTokens cacheCreation.ephemeral1hInputTokens
  { usage with
    inputTokens := inputTokens
    cacheReadInputTokens := cacheReadInputTokens
    cacheCreationInputTokens := cacheCreationInputTokens
    cacheCreation :=
      if usage.cacheCreation.isSome ∨ 0 < split.1 ∨ 0 < split.2 then some ⟨split.1, split.2⟩
      else none }

/-- Write a count, unless the event has a positive one there.  A failure to write is ignored. -/
def setMessageDeltaUsageInt (data : Document) (path : List String) (localValue : ℤ) : Document :=
  if localValue ≤ 0 then data
  else if 0 < countAt path data then data
  else (JsonTree.set .null (countNode localValue) path (some data)).getD data

/-- Write what is missing in the usage of an event. -/
def patchClaudeMessageDeltaUsageData (data : Document) (usage : ClaudeMessageUsage) : Document :=
  let data := setMessageDeltaUsageInt data inputPath usage.inputTokens
  let data := setMessageDeltaUsageInt data cacheReadPath usage.cacheReadInputTokens
  let data := setMessageDeltaUsageInt data cacheCreationPath usage.cacheCreationInputTokens
  match usage.cacheCreation with
  | none => data
  | some split =>
    let data := setMessageDeltaUsageInt data split5mPath split.ephemeral5mInputTokens
    setMessageDeltaUsageInt data split1hPath split.ephemeral1hInputTokens

/-- What is billed after the start and the last event of a message. -/
def billedUsage (start : ClaudeMessageUsage) (delta : Option ClaudeMessageUsage) : Usage :=
  (formatClaudeResponseInfo
    (formatClaudeResponseInfo {} (.messageStart "" "" (some start)))
    (.messageDelta none delta)).usage

/-- The patch of an event. -/
def patchDelta (start : ClaudeMessageUsage) (data : Document) : Document :=
  patchClaudeMessageDeltaUsageData data
    (buildMessageDeltaPatchUsage (decodeUsage data) (billedUsage start (decodeUsage data)))

/-! ### Events -/

/-- A node that can be decoded as a count. -/
def IsCount : Option Document → Prop
  | none => True
  | some (.scalar .null) => True
  | some (.scalar (.number value)) => value.den = 1 ∧ 0 ≤ value.num
  | some _ => False

/-- A node that can be decoded as an object. -/
def IsObject : Option Document → Prop
  | none => True
  | some (.scalar .null) => True
  | some (.obj _) => True
  | some _ => False

/-- All counts of a usage. -/
def usagePaths : List (List String) :=
  [inputPath, cacheReadPath, cacheCreationPath, split5mPath, split1hPath, outputPath]

/-- The document of an event: every count is missing, zero or positive, and the usage and the split
are missing or objects. -/
structure IsDelta (data : Document) : Prop where
  top : ∃ fields, data = .obj fields
  usage : IsObject (JsonTree.get ["usage"] (some data))
  split : IsObject (JsonTree.get splitPath (some data))
  counts : ∀ path ∈ usagePaths, IsCount (JsonTree.get path (some data))

/-- What the patched event promises. -/
structure ReportsBilled (start : ClaudeMessageUsage) (data : Document) : Prop where
  kept : ∀ path n, 0 < n → JsonTree.get ("usage" :: path) (some data) = some (countNode n) →
    JsonTree.get ("usage" :: path) (some (patchDelta start data)) = some (countNode n)
  outside : ∀ fields, data = .obj fields → ∃ fields', patchDelta start data = .obj fields' ∧
    fields'.filter (fun f => f.1 ≠ "usage") = fields.filter fun f => f.1 ≠ "usage"
  input : countAt inputPath (patchDelta start data) =
    (billedUsage start (decodeUsage data)).promptTokens
  cacheRead : countAt cacheReadPath (patchDelta start data) =
    (billedUsage start (decodeUsage data)).cachedTokens
  cacheCreation : countAt cacheCreationPath (patchDelta start data) =
    (billedUsage start (decodeUsage data)).cachedCreationTokens
  split : (countAt split5mPath (patchDelta start data),
      countAt split1hPath (patchDelta start data)) =
    normalizeCacheCreationSplit (billedUsage start (decodeUsage data)).cachedCreationTokens
      (billedUsage start (decodeUsage data)).claudeCacheCreation5mTokens
      (billedUsage start (decodeUsage data)).claudeCacheCreation1hTokens
  again : patchClaudeMessageDeltaUsageData (patchDelta start data)
      (buildMessageDeltaPatchUsage (decodeUsage (patchDelta start data))
        (billedUsage start (decodeUsage data))) = patchDelta start data

/-- The split of an event that has one says what the billed one says: it has the hour's tokens if
the start has, and the total leaves nothing to add to what it has or has not. -/
def SplitAgrees (start : ClaudeMessageUsage) (delta : Option ClaudeMessageUsage) : Prop :=
  ∀ u, delta = some u → ∀ split, u.cacheCreation = some split →
    let total := latest u.cacheCreationInputTokens start.cacheCreationInputTokens
    (split.ephemeral1hInputTokens = 0 → start.getCacheCreation1hTokens = 0) ∧
    (0 < split.ephemeral5mInputTokens →
      total ≤ split.ephemeral5mInputTokens + split.ephemeral1hInputTokens) ∧
    (split.ephemeral5mInputTokens = 0 →
      start.getCacheCreation5mTokens ≤ max (total - split.ephemeral1hInputTokens) 0)

/-! ### Counts that are read and written -/

@[simp] theorem gjsonInt_countNode (n : ℤ) : gjsonInt (some (countNode n)) = n := by
  simp [gjsonInt, countNode]

/-- A node that can be decoded as a count is zero or positive. -/
theorem IsCount.nonneg {node : Option Document} (h : IsCount node) : 0 ≤ gjsonInt node := by
  unfold IsCount at h
  split at h
  · exact le_rfl
  · exact le_rfl
  · rename_i value
    show 0 ≤ value.num.tdiv value.den
    rw [h.1]
    simpa using h.2
  · exact h.elim

/-- Below what is not there, or `null`, no count is read. -/
theorem countAt_of_not_present {data : Document} {path rest : List String} (hrest : rest ≠ [])
    (h : present (JsonTree.get path (some data)) = false) : countAt (path ++ rest) data = 0 := by
  have hnone : JsonTree.get (path ++ rest) (some data) = none := by
    cases hget : JsonTree.get (path ++ rest) (some data) with
    | none => rfl
    | some x =>
      obtain ⟨fields, hobj⟩ | ⟨items, harr⟩ := JsonTree.get_of_below hrest hget
      · rw [hobj] at h
        cases h
      · rw [harr] at h
        cases h
  rw [countAt, hnone]
  rfl

/-- What one replacement does: the count at its path is replaced if it is not positive and there is
a positive one to replace it with, and whatever is apart from the path stays. -/
theorem setMessageDeltaUsageInt_spec {data : Document} {path : List String}
    (hwords : JsonTree.Words path) (hopen : JsonTree.Open path (some data)) (v : ℤ) :
    JsonTree.get path (some (setMessageDeltaUsageInt data path v)) =
        (if 0 < v ∧ countAt path data ≤ 0 then some (countNode v)
        else JsonTree.get path (some data)) ∧
      ∀ q, JsonTree.Diverge path q →
        JsonTree.get q (some (setMessageDeltaUsageInt data path v)) =
            JsonTree.get q (some data) ∧
          (JsonTree.Open q (some data) →
            JsonTree.Open q (some (setMessageDeltaUsageInt data path v))) := by
  unfold setMessageDeltaUsageInt
  by_cases hv : v ≤ 0
  · rw [if_pos hv, if_neg (by omega)]
    exact ⟨rfl, fun q _ => ⟨rfl, id⟩⟩
  · rw [if_neg hv]
    by_cases hpos : 0 < countAt path data
    · rw [if_pos hpos, if_neg (by omega)]
      exact ⟨rfl, fun q _ => ⟨rfl, id⟩⟩
    · obtain ⟨node', hset, hself, hother⟩ :=
        JsonTree.set_of_open JsonScalar.null (countNode v) hwords hopen
      rw [if_neg hpos, if_pos (by omega), hset]
      exact ⟨hself, hother⟩

/-- A replacement that has nothing to replace. -/
theorem setMessageDeltaUsageInt_of_not {data : Document} {path : List String} {v : ℤ}
    (h : v ≤ 0 ∨ 0 < countAt path data) : setMessageDeltaUsageInt data path v = data := by
  unfold setMessageDeltaUsageInt
  by_cases hv : v ≤ 0
  · rw [if_pos hv]
  · rw [if_neg hv, if_pos (h.resolve_left hv)]

/-- A replacement within the usage leaves the other fields of the event in their order. -/
theorem filter_setMessageDeltaUsageInt {fields : List (String × Document)} (path : List String)
    (v : ℤ) :
    ∃ fields', setMessageDeltaUsageInt (.obj fields) ("usage" :: path) v = .obj fields' ∧
      fields'.filter (fun f => f.1 ≠ "usage") = fields.filter fun f => f.1 ≠ "usage" := by
  unfold setMessageDeltaUsageInt
  split
  · exact ⟨fields, rfl, rfl⟩
  · split
    · exact ⟨fields, rfl, rfl⟩
    · cases hset : JsonTree.set JsonScalar.null (countNode v) ("usage" :: path)
          (some (.obj fields)) with
      | none => exact ⟨fields, rfl, rfl⟩
      | some node' =>
        obtain ⟨c, rfl⟩ := JsonTree.set_obj _ _ hset
        exact ⟨_, rfl, JsonTree.filter_upsert _ _ _⟩

/-! ### A number of replacements -/

/-- Replacements one after the other. -/
def replaceAll (data : Document) (assignments : List (List String × ℤ)) : Document :=
  assignments.foldl (fun d a => setMessageDeltaUsageInt d a.1 a.2) data

/-- **What a number of replacements at different places does**: each place has what its replacement
makes of it, and whatever is apart from all of them stays. -/
theorem patched_assignments {assignments : List (List String × ℤ)} {data : Document}
    (hapart : assignments.Pairwise fun a b => JsonTree.Diverge a.1 b.1)
    (hwords : ∀ a ∈ assignments, JsonTree.Words a.1)
    (hopen : ∀ a ∈ assignments, JsonTree.Open a.1 (some data)) :
    (∀ a ∈ assignments, JsonTree.get a.1 (some (replaceAll data assignments)) =
        if 0 < a.2 ∧ countAt a.1 data ≤ 0 then some (countNode a.2)
        else JsonTree.get a.1 (some data)) ∧
      ∀ q, (∀ a ∈ assignments, JsonTree.Diverge a.1 q) →
        JsonTree.get q (some (replaceAll data assignments)) = JsonTree.get q (some data) := by
  induction assignments generalizing data with
  | nil => exact ⟨by simp, fun q _ => rfl⟩
  | cons a rest ih =>
    obtain ⟨hhead, hrest⟩ := List.pairwise_cons.1 hapart
    obtain ⟨hself, hother⟩ := setMessageDeltaUsageInt_spec (hwords a List.mem_cons_self)
      (hopen a List.mem_cons_self) a.2
    obtain ⟨hplaces, happart⟩ := @ih (setMessageDeltaUsageInt data a.1 a.2) hrest
      (fun b hb => hwords b (List.mem_cons_of_mem _ hb))
      (fun b hb => (hother b.1 (hhead b hb)).2 (hopen b (List.mem_cons_of_mem _ hb)))
    refine ⟨?_, ?_⟩
    · intro b hb
      obtain rfl | hb := List.mem_cons.1 hb
      · -- the replacements that follow are apart from this one
        exact (happart b.1 fun c hc => (hhead c hc).symm).trans hself
      · have hsame := (hother b.1 (hhead b hb)).1
        refine (hplaces b hb).trans ?_
        rw [countAt, hsame]
        rfl
    · intro q hq
      exact (happart q fun b hb => hq b (List.mem_cons_of_mem _ hb)).trans
        (hother q (hq a List.mem_cons_self)).1

/-- The replacements of a patch. -/
def usageAssignments (usage : ClaudeMessageUsage) : List (List String × ℤ) :=
  [(inputPath, usage.inputTokens), (cacheReadPath, usage.cacheReadInputTokens),
    (cacheCreationPath, usage.cacheCreationInputTokens),
    (split5mPath, usage.getCacheCreation5mTokens), (split1hPath, usage.getCacheCreation1hTokens)]

/-- A patch is its replacements; a split that is missing has none. -/
theorem patch_eq_replaceAll (data : Document) (usage : ClaudeMessageUsage) :
    patchClaudeMessageDeltaUsageData data usage = replaceAll data (usageAssignments usage) := by
  cases hsplit : usage.cacheCreation with
  | none =>
    simp only [patchClaudeMessageDeltaUsageData, replaceAll, usageAssignments, List.foldl_cons,
      List.foldl_nil, ClaudeMessageUsage.getCacheCreation5mTokens,
      ClaudeMessageUsage.getCacheCreation1hTokens, hsplit, Option.map_none, Option.getD_none]
    rw [setMessageDeltaUsageInt_of_not (v := 0) (.inl le_rfl),
      setMessageDeltaUsageInt_of_not (v := 0) (.inl le_rfl)]
  | some split =>
    simp only [patchClaudeMessageDeltaUsageData, replaceAll, usageAssignments, List.foldl_cons,
      List.foldl_nil, ClaudeMessageUsage.getCacheCreation5mTokens,
      ClaudeMessageUsage.getCacheCreation1hTokens, hsplit, Option.map_some, Option.getD_some]

theorem usageAssignments_apart (usage : ClaudeMessageUsage) :
    (usageAssignments usage).Pairwise fun a b => JsonTree.Diverge a.1 b.1 := by
  simp only [usageAssignments, List.pairwise_cons, List.forall_mem_cons, List.not_mem_nil,
    false_implies, implies_true, and_true, List.Pairwise.nil]
  decide

theorem usageAssignments_words (usage : ClaudeMessageUsage) :
    ∀ a ∈ usageAssignments usage, JsonTree.Words a.1 := by
  simp only [usageAssignments, List.forall_mem_cons, List.not_mem_nil, false_implies,
    implies_true, and_true, JsonTree.Words, inputPath, cacheReadPath, cacheCreationPath,
    split5mPath, split1hPath]
  decide

/-- Nothing but objects is in the way of the counts of an event. -/
theorem IsDelta.opens {data : Document} (h : IsDelta data) (usage : ClaudeMessageUsage) :
    ∀ a ∈ usageAssignments usage, JsonTree.Open a.1 (some data) := by
  obtain ⟨⟨fields, rfl⟩, husage, hsplit, -⟩ := h
  have hbelow : ∀ key, JsonTree.Open ["usage", key] (some (.obj fields)) := by
    intro key
    have hnode : JsonTree.get ["usage"] (some (.obj fields)) = fields.lookup "usage" := rfl
    rw [hnode] at husage
    show JsonTree.Open [key] (fields.lookup "usage")
    cases hlookup : fields.lookup "usage" with
    | none => trivial
    | some node =>
      rw [hlookup] at husage
      cases node with
      | scalar s => trivial
      | arr items => cases husage
      | obj us => trivial
  have hdeep : ∀ key, JsonTree.Open ["usage", "cache_creation", key] (some (.obj fields)) := by
    intro key
    have hnode : JsonTree.get splitPath (some (.obj fields)) =
        (fields.lookup "usage").bind (JsonTree.child "cache_creation") := rfl
    have hthere : JsonTree.get ["usage"] (some (.obj fields)) = fields.lookup "usage" := rfl
    rw [hnode] at hsplit
    rw [hthere] at husage
    show JsonTree.Open ["cache_creation", key] (fields.lookup "usage")
    cases hlookup : fields.lookup "usage" with
    | none => trivial
    | some node =>
      rw [hlookup] at husage hsplit
      cases node with
      | scalar s => trivial
      | arr items => cases husage
      | obj us =>
        have hchild : IsObject (us.lookup "cache_creation") := hsplit
        show JsonTree.Open [key] (us.lookup "cache_creation")
        cases hus : us.lookup "cache_creation" with
        | none => trivial
        | some c =>
          rw [hus] at hchild
          cases c with
          | scalar s => trivial
          | arr items => cases hchild
          | obj cs => trivial
  simp only [usageAssignments, List.forall_mem_cons, List.not_mem_nil, false_implies,
    implies_true, and_true]
  exact ⟨hbelow _, hbelow _, hbelow _, hdeep _, hdeep _⟩

/-! ### The usage of an event -/

/-- The split of an event, if it has one. -/
def splitOf (data : Document) : Option ClaudeCacheCreationUsage :=
  if present (JsonTree.get splitPath (some data)) then
    some ⟨countAt split5mPath data, countAt split1hPath data⟩
  else none

/-- The usage of an event is that of its counts; or there is none, and there are no counts and no
split. -/
theorem decodeUsage_cases (data : Document) :
    decodeUsage data = some
        { inputTokens := countAt inputPath data
          outputTokens := countAt outputPath data
          cacheCreationInputTokens := countAt cacheCreationPath data
          cacheReadInputTokens := countAt cacheReadPath data
          cacheCreation := splitOf data } ∨
      decodeUsage data = none ∧ countAt inputPath data = 0 ∧ countAt cacheReadPath data = 0 ∧
        countAt cacheCreationPath data = 0 ∧ splitOf data = none := by
  by_cases husage : present (JsonTree.get ["usage"] (some data)) = true
  · exact .inl (if_pos husage)
  have h : present (JsonTree.get ["usage"] (some data)) = false := by simpa using husage
  have hbelow : ∀ rest, rest ≠ [] → countAt (["usage"] ++ rest) data = 0 :=
    fun rest hrest => countAt_of_not_present hrest h
  refine .inr ⟨if_neg husage, hbelow ["input_tokens"] (by simp),
    hbelow ["cache_read_input_tokens"] (by simp),
    hbelow ["cache_creation_input_tokens"] (by simp), ?_⟩
  unfold splitOf
  rw [if_neg]
  cases hget : JsonTree.get splitPath (some data) with
  | none => simp [present]
  | some x =>
    obtain ⟨fields, hobj⟩ | ⟨items, harr⟩ :=
      @JsonTree.get_of_below _ ["usage"] ["cache_creation"] (by simp) _ _ hget
    · rw [hobj] at h
      cases h
    · rw [harr] at h
      cases h

/-- An event without a split has no counts in it. -/
theorem counts_of_no_split {data : Document} (h : splitOf data = none) :
    countAt split5mPath data = 0 ∧ countAt split1hPath data = 0 := by
  have hpresent : present (JsonTree.get splitPath (some data)) = false := by
    unfold splitOf at h
    by_contra hno
    rw [if_pos (by simpa using hno)] at h
    cases h
  exact ⟨@countAt_of_not_present data splitPath ["ephemeral_5m_input_tokens"] (by simp) hpresent,
    @countAt_of_not_present data splitPath ["ephemeral_1h_input_tokens"] (by simp) hpresent⟩

theorem counts_of_split {data : Document} {split : ClaudeCacheCreationUsage}
    (h : splitOf data = some split) :
    split = ⟨countAt split5mPath data, countAt split1hPath data⟩ := by
  unfold splitOf at h
  split at h
  · exact (Option.some.inj h).symm
  · cases h

/-- What is billed, by the counts of the event. -/
theorem billedUsage_eq (start : ClaudeMessageUsage) (data : Document) :
    let billed := billedUsage start (decodeUsage data)
    billed.promptTokens = latest (countAt inputPath data) start.inputTokens ∧
      billed.cachedTokens = latest (countAt cacheReadPath data) start.cacheReadInputTokens ∧
      billed.cachedCreationTokens =
        latest (countAt cacheCreationPath data) start.cacheCreationInputTokens ∧
      billed.claudeCacheCreation5mTokens =
        latest (countAt split5mPath data) start.getCacheCreation5mTokens ∧
      billed.claudeCacheCreation1hTokens =
        latest (countAt split1hPath data) start.getCacheCreation1hTokens := by
  have hzero : ∀ n, latest 0 n = n := fun n => if_neg (lt_irrefl 0)
  obtain hdecode | ⟨hdecode, hinput, hread, hcreation, hsplit⟩ := decodeUsage_cases data
  · rw [hdecode]
    refine ⟨rfl, rfl, rfl, ?_, ?_⟩
    · cases hsplit : splitOf data with
      | none =>
        rw [(counts_of_no_split hsplit).1]
        rfl
      | some split =>
        rw [counts_of_split hsplit]
        rfl
    · cases hsplit : splitOf data with
      | none =>
        rw [(counts_of_no_split hsplit).2]
        rfl
      | some split =>
        rw [counts_of_split hsplit]
        rfl
  · obtain ⟨h5m, h1h⟩ := counts_of_no_split hsplit
    rw [hdecode, hinput, hread, hcreation, h5m, h1h]
    simp only [hzero]
    exact ⟨rfl, rfl, rfl, rfl, rfl⟩

/-- A count, or the one it is filled in from. -/
def filledCount (own other : ℤ) : ℤ := if own = 0 ∧ 0 < other then other else own

/-- The usage an event is patched with, by its counts: its own counts or the billed ones, and the
split of the event, or the billed one, with what it leaves of the total. -/
theorem buildMessageDeltaPatchUsage_eq (data : Document) (billed : Usage) :
    let usage := buildMessageDeltaPatchUsage (decodeUsage data) billed
    let own := (splitOf data).getD
      ⟨billed.claudeCacheCreation5mTokens, billed.claudeCacheCreation1hTokens⟩
    let split := normalizeCacheCreationSplit usage.cacheCreationInputTokens
      own.ephemeral5mInputTokens own.ephemeral1hInputTokens
    usage.inputTokens = filledCount (countAt inputPath data) billed.promptTokens ∧
      usage.cacheReadInputTokens =
        filledCount (countAt cacheReadPath data) billed.cachedTokens ∧
      usage.cacheCreationInputTokens =
        filledCount (countAt cacheCreationPath data) billed.cachedCreationTokens ∧
      usage.cacheCreation =
        if (splitOf data).isSome ∨ 0 < split.1 ∨ 0 < split.2 then some ⟨split.1, split.2⟩
        else none := by
  obtain hdecode | ⟨hdecode, hinput, hread, hcreation, hsplit⟩ := decodeUsage_cases data
  · rw [hdecode]
    exact ⟨rfl, rfl, rfl, rfl⟩
  · rw [hdecode, hinput, hread, hcreation, hsplit]
    exact ⟨rfl, rfl, rfl, rfl⟩

/-- Whether the billed split and that of an event agree, by the counts of the event. -/
theorem splitAgrees_iff (start : ClaudeMessageUsage) (data : Document) :
    SplitAgrees start (decodeUsage data) ↔ (splitOf data ≠ none →
      let total := latest (countAt cacheCreationPath data) start.cacheCreationInputTokens
      (countAt split1hPath data = 0 → start.getCacheCreation1hTokens = 0) ∧
      (0 < countAt split5mPath data →
        total ≤ countAt split5mPath data + countAt split1hPath data) ∧
      (countAt split5mPath data = 0 →
        start.getCacheCreation5mTokens ≤ max (total - countAt split1hPath data) 0)) := by
  obtain hdecode | ⟨hdecode, -, -, -, hsplit⟩ := decodeUsage_cases data
  · rw [hdecode]
    constructor
    · intro h hsplit
      obtain ⟨split, hsome⟩ := Option.ne_none_iff_exists'.1 hsplit
      have hagrees := h _ rfl split hsome
      rw [counts_of_split hsome] at hagrees
      exact hagrees
    · intro h u hu split hsplit
      obtain rfl := Option.some.inj hu
      have hsome : splitOf data = some split := hsplit
      have hagrees := h (by simp [hsome])
      rw [counts_of_split hsome]
      exact hagrees
  · rw [hdecode]
    constructor
    · intro _ hsome
      exact absurd hsplit hsome
    · intro _ u hu
      cases hu

/-! ### What the client reads -/

/-- The counts of a patched event. -/
structure PatchedCounts (data data' : Document) (usage : ClaudeMessageUsage) : Prop where
  counts : ∀ a ∈ usageAssignments usage, countAt a.1 data' =
    if 0 < a.2 ∧ countAt a.1 data ≤ 0 then a.2 else countAt a.1 data
  split : splitOf data' = none → splitOf data = none

/-- **What a patch makes of the counts** of an event. -/
theorem patchedCounts {data : Document} (h : IsDelta data) (usage : ClaudeMessageUsage) :
    PatchedCounts data (patchClaudeMessageDeltaUsageData data usage) usage := by
  have hplaces := (patched_assignments (usageAssignments_apart usage)
    (usageAssignments_words usage) (h.opens usage)).1
  have hcounts : ∀ a ∈ usageAssignments usage,
      countAt a.1 (patchClaudeMessageDeltaUsageData data usage) =
        if 0 < a.2 ∧ countAt a.1 data ≤ 0 then a.2 else countAt a.1 data := by
    intro a ha
    rw [countAt, patch_eq_replaceAll, hplaces a ha]
    split
    · exact gjsonInt_countNode _
    · rfl
  refine ⟨hcounts, ?_⟩
  intro hnone
  -- the replacements outside the split leave it alone, and one within it would show
  obtain ⟨h5m, h1h⟩ := counts_of_no_split hnone
  have h5m' := hcounts (split5mPath, usage.getCacheCreation5mTokens) (by simp [usageAssignments])
  have h1h' := hcounts (split1hPath, usage.getCacheCreation1hTokens) (by simp [usageAssignments])
  rw [h5m] at h5m'
  rw [h1h] at h1h'
  have hle5m : usage.getCacheCreation5mTokens ≤ 0 := by
    dsimp only at h5m'
    split at h5m' <;> omega
  have hle1h : usage.getCacheCreation1hTokens ≤ 0 := by
    dsimp only at h1h'
    split at h1h' <;> omega
  have hsame : patchClaudeMessageDeltaUsageData data usage = replaceAll data
      [(inputPath, usage.inputTokens), (cacheReadPath, usage.cacheReadInputTokens),
        (cacheCreationPath, usage.cacheCreationInputTokens)] := by
    rw [patch_eq_replaceAll]
    simp only [replaceAll, usageAssignments, List.foldl_cons, List.foldl_nil]
    rw [setMessageDeltaUsageInt_of_not (.inl hle5m), setMessageDeltaUsageInt_of_not (.inl hle1h)]
  have hfirst : ∀ a ∈ [(inputPath, usage.inputTokens), (cacheReadPath, usage.cacheReadInputTokens),
      (cacheCreationPath, usage.cacheCreationInputTokens)], a ∈ usageAssignments usage := by
    intro a ha
    simp only [List.mem_cons, List.not_mem_nil, or_false] at ha
    obtain rfl | rfl | rfl := ha
    · simp [usageAssignments]
    · simp [usageAssignments]
    · simp [usageAssignments]
  have hapart := (patched_assignments ((usageAssignments_apart usage).sublist
    (by simp [usageAssignments])) (fun a ha => usageAssignments_words usage a (hfirst a ha))
    (fun a ha => h.opens usage a (hfirst a ha))).2 splitPath (by
      simp only [List.forall_mem_cons, List.not_mem_nil, false_implies, implies_true, and_true]
      decide)
  unfold splitOf at hnone ⊢
  rw [hsame, hapart] at hnone
  by_contra hsome
  rw [if_pos (by by_contra hno; exact hsome (if_neg hno))] at hnone
  cases hnone

/-! ### The parts of the promise -/

/-- Replacements that have nothing to replace. -/
theorem replaceAll_of_idle {data : Document} {assignments : List (List String × ℤ)}
    (h : ∀ a ∈ assignments, a.2 ≤ 0 ∨ 0 < countAt a.1 data) :
    replaceAll data assignments = data := by
  induction assignments with
  | nil => rfl
  | cons a rest ih =>
    have hrest := ih fun b hb => h b (List.mem_cons_of_mem _ hb)
    simp only [replaceAll, List.foldl_cons]
    rw [setMessageDeltaUsageInt_of_not (h a List.mem_cons_self)]
    exact hrest

/-- Replacements within the usage leave the other fields of the event in their order. -/
theorem filter_replaceAll {fields : List (String × Document)}
    {assignments : List (List String × ℤ)}
    (h : ∀ a ∈ assignments, ∃ path, a.1 = "usage" :: path) :
    ∃ fields', replaceAll (.obj fields) assignments = .obj fields' ∧
      fields'.filter (fun f => f.1 ≠ "usage") = fields.filter fun f => f.1 ≠ "usage" := by
  induction assignments generalizing fields with
  | nil => exact ⟨fields, rfl, rfl⟩
  | cons a rest ih =>
    obtain ⟨path, hpath⟩ := h a List.mem_cons_self
    obtain ⟨fields', hset, hfilter⟩ := @filter_setMessageDeltaUsageInt fields path a.2
    obtain ⟨fields'', hrest, hfilter'⟩ := @ih fields' fun b hb => h b (List.mem_cons_of_mem _ hb)
    refine ⟨fields'', ?_, hfilter'.trans hfilter⟩
    simp only [replaceAll, List.foldl_cons]
    rw [hpath, hset]
    exact hrest

/-- The counts of an event that are patched are decoded as counts. -/
theorem IsDelta.isCount {data : Document} (h : IsDelta data) (usage : ClaudeMessageUsage) :
    ∀ a ∈ usageAssignments usage, IsCount (JsonTree.get a.1 (some data)) := by
  simp only [usageAssignments, List.forall_mem_cons, List.not_mem_nil, false_implies,
    implies_true, and_true]
  exact ⟨h.counts _ (by simp [usagePaths]), h.counts _ (by simp [usagePaths]),
    h.counts _ (by simp [usagePaths]), h.counts _ (by simp [usagePaths]),
    h.counts _ (by simp [usagePaths])⟩

theorem prefix_of_one {path rest : List String} {x : String} (hrest : rest ≠ [])
    (h : path ++ rest = [x]) : path = [] := by
  cases path with
  | nil => rfl
  | cons k path =>
    simp only [List.cons_append, List.cons.injEq, List.append_eq_nil_iff] at h
    exact absurd h.2.2 hrest

theorem prefix_of_two {path rest : List String} {x y : String} (hrest : rest ≠ [])
    (h : path ++ rest = [x, y]) : path = [] ∨ path = [x] := by
  cases path with
  | nil => exact .inl rfl
  | cons k path =>
    simp only [List.cons_append, List.cons.injEq] at h
    obtain ⟨rfl, h⟩ := h
    rw [prefix_of_one hrest h]
    exact .inr rfl

/-- A positive count of an event is where a patch writes, or apart from all such places. -/
theorem IsDelta.apart {data : Document} (h : IsDelta data) (usage : ClaudeMessageUsage)
    {path : List String} {n : ℤ}
    (hget : JsonTree.get ("usage" :: path) (some data) = some (countNode n)) :
    ∀ a ∈ usageAssignments usage, a.1 = "usage" :: path ∨
      JsonTree.Diverge a.1 ("usage" :: path) := by
  intro a ha
  obtain heq | ⟨rest, hrest, hbelow⟩ | ⟨rest, hrest, habove⟩ | hdiv :=
    JsonTree.eq_or_below_or_diverge a.1 ("usage" :: path)
  · exact .inl heq
  · -- nothing is below a count
    have hcount := h.isCount usage a ha
    rw [hbelow] at hget
    obtain ⟨fields, hobj⟩ | ⟨items, harr⟩ := JsonTree.get_of_below hrest hget
    · rw [hobj] at hcount
      cases hcount
    · rw [harr] at hcount
      cases hcount
  · -- the usage and the split are no counts
    exfalso
    have husage := h.usage
    have hsplit := h.split
    have hpath : path = [] ∨ path = ["cache_creation"] := by
      simp only [usageAssignments, List.mem_cons, List.not_mem_nil, or_false] at ha
      obtain rfl | rfl | rfl | rfl | rfl := ha
      · exact .inl (prefix_of_one hrest (List.cons.inj habove).2.symm)
      · exact .inl (prefix_of_one hrest (List.cons.inj habove).2.symm)
      · exact .inl (prefix_of_one hrest (List.cons.inj habove).2.symm)
      · exact prefix_of_two hrest (List.cons.inj habove).2.symm
      · exact prefix_of_two hrest (List.cons.inj habove).2.symm
    obtain rfl | rfl := hpath
    · rw [hget] at husage
      cases husage
    · have hnode : JsonTree.get splitPath (some data) = some (countNode n) := hget
      rw [hnode] at hsplit
      cases hsplit
  · exact .inr hdiv

/-- A count that is filled in from what is billed is what is billed. -/
theorem filled_eq_latest {own first : ℤ} (hown : 0 ≤ own) (hfirst : 0 ≤ first) :
    filledCount own (latest own first) = latest own first := by
  unfold filledCount latest
  by_cases hpos : 0 < own
  · rw [if_pos hpos, if_neg (by omega)]
  · rw [if_neg hpos]
    by_cases hsome : 0 < first
    · rw [if_pos (by omega)]
    · rw [if_neg (by omega)]
      omega

theorem patched_eq_latest {own first : ℤ} (hown : 0 ≤ own) (hfirst : 0 ≤ first) :
    (if 0 < latest own first ∧ own ≤ 0 then latest own first else own) = latest own first := by
  unfold latest
  by_cases hpos : 0 < own
  · rw [if_pos hpos, if_neg (by omega)]
  · rw [if_neg hpos]
    by_cases hsome : 0 < first
    · rw [if_pos (by omega)]
    · rw [if_neg (by omega)]
      omega

theorem filledCount_self (own : ℤ) : filledCount own own = own := ite_self own

/-- The split of a usage that an event is patched with: none is a split of nothing. -/
theorem splitCounts {usage : ClaudeMessageUsage} {total : ℤ} {has : Bool}
    {own : ClaudeCacheCreationUsage}
    (h : usage.cacheCreation =
      if has = true ∨
          0 < (normalizeCacheCreationSplit total own.ephemeral5mInputTokens
            own.ephemeral1hInputTokens).1 ∨
          0 < (normalizeCacheCreationSplit total own.ephemeral5mInputTokens
            own.ephemeral1hInputTokens).2 then
        some ⟨(normalizeCacheCreationSplit total own.ephemeral5mInputTokens
            own.ephemeral1hInputTokens).1,
          (normalizeCacheCreationSplit total own.ephemeral5mInputTokens
            own.ephemeral1hInputTokens).2⟩
      else none)
    (hnonneg : 0 ≤ own.ephemeral5mInputTokens ∧ 0 ≤ own.ephemeral1hInputTokens) :
    usage.getCacheCreation5mTokens = own.ephemeral5mInputTokens +
        max (total - own.ephemeral5mInputTokens - own.ephemeral1hInputTokens) 0 ∧
      usage.getCacheCreation1hTokens = own.ephemeral1hInputTokens := by
  unfold ClaudeMessageUsage.getCacheCreation5mTokens ClaudeMessageUsage.getCacheCreation1hTokens
  rw [h]
  unfold normalizeCacheCreationSplit
  dsimp only
  split
  · exact ⟨rfl, rfl⟩
  · simp only [Option.map_none, Option.getD_none]
    omega

theorem latest_nonneg {own first : ℤ} (hfirst : 0 ≤ first) : 0 ≤ latest own first := by
  unfold latest
  split <;> omega

section Promise

variable {start : ClaudeMessageUsage} {data : Document}

/-- A positive count keeps its value. -/
theorem kept_patchDelta (h : IsDelta data) (path : List String) (n : ℤ) (hn : 0 < n)
    (hget : JsonTree.get ("usage" :: path) (some data) = some (countNode n)) :
    JsonTree.get ("usage" :: path) (some (patchDelta start data)) = some (countNode n) := by
  rw [patchDelta, patch_eq_replaceAll]
  generalize buildMessageDeltaPatchUsage (decodeUsage data)
    (billedUsage start (decodeUsage data)) = usage
  have hplaces := patched_assignments (usageAssignments_apart usage)
    (usageAssignments_words usage) (h.opens usage)
  by_cases hplace : ∃ a ∈ usageAssignments usage, a.1 = "usage" :: path
  · obtain ⟨a, ha, hpath⟩ := hplace
    have hcount : countAt a.1 data = n := by
      rw [countAt, hpath, hget, gjsonInt_countNode]
    have hself := hplaces.1 a ha
    rw [if_neg (by omega), hpath] at hself
    exact hself.trans hget
  · refine (hplaces.2 _ fun a ha => ?_).trans hget
    exact (h.apart usage hget a ha).resolve_left fun heq => hplace ⟨a, ha, heq⟩

/-- The other fields of the event stay, in their order. -/
theorem outside_patchDelta (fields : List (String × Document)) :
    ∃ fields', patchDelta start (.obj fields) = .obj fields' ∧
      fields'.filter (fun f => f.1 ≠ "usage") = fields.filter fun f => f.1 ≠ "usage" := by
  rw [patchDelta, patch_eq_replaceAll]
  refine filter_replaceAll ?_
  simp only [usageAssignments, List.forall_mem_cons, List.not_mem_nil, false_implies,
    implies_true, and_true]
  exact ⟨⟨_, rfl⟩, ⟨_, rfl⟩, ⟨_, rfl⟩, ⟨_, rfl⟩, ⟨_, rfl⟩⟩

/-- The counts of an event are zero or positive. -/
theorem IsDelta.nonneg (h : IsDelta data) :
    0 ≤ countAt inputPath data ∧ 0 ≤ countAt cacheReadPath data ∧
      0 ≤ countAt cacheCreationPath data ∧ 0 ≤ countAt split5mPath data ∧
      0 ≤ countAt split1hPath data :=
  ⟨(h.counts _ (by simp [usagePaths])).nonneg, (h.counts _ (by simp [usagePaths])).nonneg,
    (h.counts _ (by simp [usagePaths])).nonneg, (h.counts _ (by simp [usagePaths])).nonneg,
    (h.counts _ (by simp [usagePaths])).nonneg⟩

/-- The input tokens and those read from and written to the cache are the billed ones. -/
theorem counts_patchDelta (hstart : ∀ c ∈ start.counts, 0 ≤ c) (h : IsDelta data) :
    countAt inputPath (patchDelta start data) =
        latest (countAt inputPath data) start.inputTokens ∧
      countAt cacheReadPath (patchDelta start data) =
        latest (countAt cacheReadPath data) start.cacheReadInputTokens ∧
      countAt cacheCreationPath (patchDelta start data) =
        latest (countAt cacheCreationPath data) start.cacheCreationInputTokens := by
  simp only [ClaudeMessageUsage.counts, List.forall_mem_cons, List.not_mem_nil, false_implies,
    implies_true, and_true] at hstart
  obtain ⟨hinput₀, -, hread₀, hcreation₀, -, -, -⟩ := hstart
  obtain ⟨ninput, nread, ncreation, -, -⟩ := h.nonneg
  obtain ⟨binput, bread, bcreation, -, -⟩ := billedUsage_eq start data
  obtain ⟨uinput, uread, ucreation, -⟩ :=
    buildMessageDeltaPatchUsage_eq data (billedUsage start (decodeUsage data))
  have hcounts := (patchedCounts h (buildMessageDeltaPatchUsage (decodeUsage data)
    (billedUsage start (decodeUsage data)))).counts
  simp only [usageAssignments, List.forall_mem_cons, List.not_mem_nil, false_implies,
    implies_true, and_true] at hcounts
  obtain ⟨hinput, hread, hcreation, -, -⟩ := hcounts
  rw [uinput, binput, filled_eq_latest ninput hinput₀, patched_eq_latest ninput hinput₀] at hinput
  rw [uread, bread, filled_eq_latest nread hread₀, patched_eq_latest nread hread₀] at hread
  rw [ucreation, bcreation, filled_eq_latest ncreation hcreation₀,
    patched_eq_latest ncreation hcreation₀] at hcreation
  exact ⟨hinput, hread, hcreation⟩

/-- The split a document is patched with: its own one, or the billed one. -/
def ownSplit (start : ClaudeMessageUsage) (data doc : Document) : ClaudeCacheCreationUsage :=
  (splitOf doc).getD ⟨latest (countAt split5mPath data) start.getCacheCreation5mTokens,
    latest (countAt split1hPath data) start.getCacheCreation1hTokens⟩

theorem ownSplit_nonneg (hstart : ∀ c ∈ start.counts, 0 ≤ c) {doc : Document}
    (h5m : 0 ≤ countAt split5mPath doc) (h1h : 0 ≤ countAt split1hPath doc) :
    0 ≤ (ownSplit start data doc).ephemeral5mInputTokens ∧
      0 ≤ (ownSplit start data doc).ephemeral1hInputTokens := by
  simp only [ClaudeMessageUsage.counts, List.forall_mem_cons, List.not_mem_nil, false_implies,
    implies_true, and_true] at hstart
  obtain ⟨-, -, -, -, h5m₀, h1h₀, -⟩ := hstart
  unfold ownSplit
  cases hsplit : splitOf doc with
  | none => exact ⟨latest_nonneg h5m₀, latest_nonneg h1h₀⟩
  | some split =>
    rw [counts_of_split hsplit]
    exact ⟨h5m, h1h⟩

/-- The split of the patch of a document whose total is `total`. -/
theorem split_of_build (hstart : ∀ c ∈ start.counts, 0 ≤ c) {doc : Document}
    (h5m : 0 ≤ countAt split5mPath doc) (h1h : 0 ≤ countAt split1hPath doc) {total : ℤ}
    (htotal : (buildMessageDeltaPatchUsage (decodeUsage doc)
      (billedUsage start (decodeUsage data))).cacheCreationInputTokens = total) :
    let usage := buildMessageDeltaPatchUsage (decodeUsage doc)
      (billedUsage start (decodeUsage data))
    let own := ownSplit start data doc
    usage.getCacheCreation5mTokens = own.ephemeral5mInputTokens +
        max (total - own.ephemeral5mInputTokens - own.ephemeral1hInputTokens) 0 ∧
      usage.getCacheCreation1hTokens = own.ephemeral1hInputTokens := by
  obtain ⟨-, -, -, b5m, b1h⟩ := billedUsage_eq start data
  obtain ⟨-, -, -, usplit⟩ :=
    buildMessageDeltaPatchUsage_eq doc (billedUsage start (decodeUsage data))
  rw [b5m, b1h, htotal] at usplit
  exact splitCounts usplit (ownSplit_nonneg hstart h5m h1h)

/-- The split of a patched event. -/
theorem split_patchDelta (hstart : ∀ c ∈ start.counts, 0 ≤ c) (h : IsDelta data) :
    let total := latest (countAt cacheCreationPath data) start.cacheCreationInputTokens
    let own := ownSplit start data data
    let filled := own.ephemeral5mInputTokens +
      max (total - own.ephemeral5mInputTokens - own.ephemeral1hInputTokens) 0
    countAt split5mPath (patchDelta start data) =
        (if 0 < filled ∧ countAt split5mPath data ≤ 0 then filled
        else countAt split5mPath data) ∧
      countAt split1hPath (patchDelta start data) =
        if 0 < own.ephemeral1hInputTokens ∧ countAt split1hPath data ≤ 0 then
          own.ephemeral1hInputTokens
        else countAt split1hPath data := by
  obtain ⟨-, -, ncreation, n5m, n1h⟩ := h.nonneg
  obtain ⟨-, -, bcreation, -, -⟩ := billedUsage_eq start data
  obtain ⟨-, -, ucreation, -⟩ :=
    buildMessageDeltaPatchUsage_eq data (billedUsage start (decodeUsage data))
  have hcreation₀ : 0 ≤ start.cacheCreationInputTokens :=
    hstart _ (by simp [ClaudeMessageUsage.counts])
  rw [bcreation, filled_eq_latest ncreation hcreation₀] at ucreation
  obtain ⟨hU5m, hU1h⟩ := split_of_build hstart n5m n1h ucreation
  have hcounts := (patchedCounts h (buildMessageDeltaPatchUsage (decodeUsage data)
    (billedUsage start (decodeUsage data)))).counts
  simp only [usageAssignments, List.forall_mem_cons, List.not_mem_nil, false_implies,
    implies_true, and_true] at hcounts
  obtain ⟨-, -, -, h5m, h1h⟩ := hcounts
  rw [hU5m] at h5m
  rw [hU1h] at h1h
  exact ⟨h5m, h1h⟩

/-- **Patching once more changes nothing**: every count that could be filled in has been. -/
theorem again_patchDelta (hstart : ∀ c ∈ start.counts, 0 ≤ c) (h : IsDelta data) :
    patchClaudeMessageDeltaUsageData (patchDelta start data)
      (buildMessageDeltaPatchUsage (decodeUsage (patchDelta start data))
        (billedUsage start (decodeUsage data))) = patchDelta start data := by
  have hsplitOf := (patchedCounts h (buildMessageDeltaPatchUsage (decodeUsage data)
    (billedUsage start (decodeUsage data)))).split
  obtain ⟨hinput, hread, hcreation⟩ := counts_patchDelta hstart h
  obtain ⟨h5m, h1h⟩ := split_patchDelta hstart h
  obtain ⟨-, -, -, n5m, n1h⟩ := h.nonneg
  obtain ⟨hown5m, hown1h⟩ := @ownSplit_nonneg start data hstart data n5m n1h
  obtain ⟨binput, bread, bcreation, -, -⟩ := billedUsage_eq start data
  obtain ⟨vinput, vread, vcreation, -⟩ := buildMessageDeltaPatchUsage_eq (patchDelta start data)
    (billedUsage start (decodeUsage data))
  rw [binput, hinput, filledCount_self] at vinput
  rw [bread, hread, filledCount_self] at vread
  rw [bcreation, hcreation, filledCount_self] at vcreation
  have n5m' : 0 ≤ countAt split5mPath (patchDelta start data) := by
    rw [h5m]
    split <;> omega
  have n1h' : 0 ≤ countAt split1hPath (patchDelta start data) := by
    rw [h1h]
    split <;> omega
  obtain ⟨hV5m, hV1h⟩ := split_of_build hstart n5m' n1h' vcreation
  rw [patch_eq_replaceAll]
  refine replaceAll_of_idle ?_
  simp only [usageAssignments, List.forall_mem_cons, List.not_mem_nil, false_implies,
    implies_true, and_true]
  rw [vinput, vread, vcreation, hinput, hread, hcreation, hV5m, hV1h]
  refine ⟨by omega, by omega, by omega, ?_⟩
  change splitOf (patchDelta start data) = none → splitOf data = none at hsplitOf
  cases hsplit' : splitOf (patchDelta start data) with
  | none =>
    -- without a split there is nothing to fill in, in either patch
    obtain ⟨z5m, z1h⟩ := counts_of_no_split hsplit'
    obtain ⟨o5m, o1h⟩ := counts_of_no_split (hsplitOf hsplit')
    have hsame : ownSplit start data (patchDelta start data) = ownSplit start data data := by
      unfold ownSplit
      rw [hsplit', hsplitOf hsplit']
    rw [z5m, o5m] at h5m
    rw [z1h, o1h] at h1h
    rw [hsame]
    refine ⟨.inl ?_, .inl ?_⟩
    · split at h5m <;> omega
    · split at h1h <;> omega
  | some split' =>
    have hown : ownSplit start data (patchDelta start data) =
        ⟨countAt split5mPath (patchDelta start data),
          countAt split1hPath (patchDelta start data)⟩ := by
      rw [ownSplit, hsplit', counts_of_split hsplit', Option.getD_some]
    rw [hown]
    dsimp only
    refine ⟨?_, by omega⟩
    cases hsplit : splitOf data with
    | none =>
      obtain ⟨o5m, o1h⟩ := counts_of_no_split hsplit
      rw [o5m] at h5m
      rw [o1h] at h1h
      split at h5m <;> split at h1h <;> omega
    | some split =>
      have howned : ownSplit start data data =
          ⟨countAt split5mPath data, countAt split1hPath data⟩ := by
        rw [ownSplit, hsplit, counts_of_split hsplit, Option.getD_some]
      rw [howned] at h5m h1h
      dsimp only at h5m h1h
      split at h5m <;> split at h1h <;> omega

/-- The split that is read is the billed one exactly under the condition. -/
theorem split_patchDelta_iff (hstart : ∀ c ∈ start.counts, 0 ≤ c) (h : IsDelta data) :
    (countAt split5mPath (patchDelta start data), countAt split1hPath (patchDelta start data)) =
        normalizeCacheCreationSplit
          (latest (countAt cacheCreationPath data) start.cacheCreationInputTokens)
          (latest (countAt split5mPath data) start.getCacheCreation5mTokens)
          (latest (countAt split1hPath data) start.getCacheCreation1hTokens) ↔
      SplitAgrees start (decodeUsage data) := by
  obtain ⟨h5m, h1h⟩ := split_patchDelta hstart h
  obtain ⟨-, -, -, n5m, n1h⟩ := h.nonneg
  simp only [ClaudeMessageUsage.counts, List.forall_mem_cons, List.not_mem_nil, false_implies,
    implies_true, and_true] at hstart
  obtain ⟨-, -, -, -, h5m₀, h1h₀, -⟩ := hstart
  rw [splitAgrees_iff, normalizeCacheCreationSplit, Prod.mk.injEq]
  cases hsplit : splitOf data with
  | none =>
    obtain ⟨o5m, o1h⟩ := counts_of_no_split hsplit
    have hown : ownSplit start data data =
        ⟨start.getCacheCreation5mTokens, start.getCacheCreation1hTokens⟩ := by
      rw [ownSplit, hsplit, o5m, o1h]
      rfl
    have hlatest : ∀ n, latest 0 n = n := fun n => if_neg (lt_irrefl 0)
    rw [hown, o5m] at h5m
    rw [hown, o1h] at h1h
    rw [o5m, o1h, hlatest, hlatest]
    simp only [ne_eq, not_true_eq_false, false_implies, iff_true]
    dsimp only at h5m h1h
    refine ⟨?_, ?_⟩
    · split at h5m <;> omega
    · split at h1h <;> omega
  | some split =>
    have hown : ownSplit start data data =
        ⟨countAt split5mPath data, countAt split1hPath data⟩ := by
      rw [ownSplit, hsplit, counts_of_split hsplit, Option.getD_some]
    rw [hown] at h5m h1h
    simp only [ne_eq, reduceCtorEq, not_false_eq_true, true_implies]
    dsimp only at h5m h1h
    rw [h5m, h1h]
    unfold latest
    split <;> split <;> split <;> split <;> omega

/-- **The patched event reports the billed usage** exactly if its split, where it has one, says what
the billed one says. -/
theorem patched_delta_reports_billed (hstart : ∀ c ∈ start.counts, 0 ≤ c) (h : IsDelta data) :
    ReportsBilled start data ↔ SplitAgrees start (decodeUsage data) := by
  obtain ⟨hinput, hread, hcreation⟩ := counts_patchDelta hstart h
  obtain ⟨binput, bread, bcreation, b5m, b1h⟩ := billedUsage_eq start data
  rw [← split_patchDelta_iff hstart h, ← bcreation, ← b5m, ← b1h]
  constructor
  · intro hreports
    exact hreports.split
  · intro hsplit
    refine ⟨kept_patchDelta h, ?_, hinput.trans binput.symm, hread.trans bread.symm,
      hcreation.trans bcreation.symm, hsplit, again_patchDelta hstart h⟩
    rintro fields rfl
    exact outside_patchDelta fields

end Promise

/-! ### Events with and without a split -/

/-- A start that gives ten tokens written to the cache, six of them for an hour. -/
def splitStart : ClaudeMessageUsage where
  inputTokens := 20
  outputTokens := 1
  cacheCreationInputTokens := 10
  cacheReadInputTokens := 3
  cacheCreation := some ⟨4, 6⟩

/-- An event with the output tokens and the given further fields of its usage. -/
def deltaWith (more : List (String × Document)) : Document :=
  .obj [("type", .scalar (.str "message_delta")),
    ("usage", .obj (("output_tokens", countNode 5) :: more))]

/-- An event without any of the counts reports what the start gave. -/
theorem patched_delta_reports_billed_missing : ReportsBilled splitStart (deltaWith []) := by
  refine (patched_delta_reports_billed (by decide) ?_).2 ?_
  · refine ⟨⟨_, rfl⟩, trivial, trivial, ?_⟩
    simp only [usagePaths, List.forall_mem_cons, List.not_mem_nil, false_implies, implies_true,
      and_true]
    exact ⟨trivial, trivial, trivial, trivial, trivial, rfl, by decide⟩
  · rw [splitAgrees_iff]
    intro hsplit
    exact absurd rfl hsplit

/-- **An event whose split has zeros hides the one that is billed**: the client reads ten tokens for
five minutes, and four of them and six for an hour are billed. -/
theorem empty_split_hides_billed :
    ¬ ReportsBilled splitStart (deltaWith
      [("cache_creation", .obj [("ephemeral_5m_input_tokens", countNode 0),
        ("ephemeral_1h_input_tokens", countNode 0)])]) := by
  intro h
  exact absurd h.split (by decide)

end NewApi

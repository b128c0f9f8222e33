/-
**Model mapping: from the client's model to the upstream one.**

A channel can map models to other ones, and the upstream model of an attempt is where the chain of
mappings leads to from the client's model.  `ModelMappedHelper` follows the chain and refuses one
that runs in a circle.  The record it writes is shared by all attempts of a request; each attempt
starts by resetting it to the model the record has as the client's.  In responses-compaction mode
that field itself is written: it becomes the upstream model with the suffix of that mode.

Main definitions:

* `NewApi.nextModel`, `NewApi.followMapping` — one mapping, and the loop along them;
* `NewApi.modelMappedHelper` — what an attempt makes of its channel's mapping;
* `NewApi.attemptModel`, `NewApi.afterAttempts` — an attempt from the reset on, and the record
  after a number of them;
* `NewApi.FollowsChain` — an attempt goes where its own channel's chain leads to.

Main results:

* `NewApi.modelMappedHelper_follows` — **an attempt follows its chain** from the model the record
  has as the client's, and the loop comes to an end;
* `NewApi.attempts_follow` — **every attempt starts afresh** exactly if the mode is not
  responses-compaction, or no earlier attempt has mapped the model to another;
* `NewApi.compaction_forgets` — an attempt that goes on where the one before it has ended.
-/

import NewApi.Lib.Chain
import Mathlib.Data.List.Infix

set_option autoImplicit false

namespace NewApi

/-! ### The suffix of the compaction mode -/

def compactModelSuffix : String := "-openai-compact"

def hasSuffix (s suffix : String) : Bool := suffix.toList.isSuffixOf s.toList

def trimSuffix (s suffix : String) : String :=
  if hasSuffix s suffix then
    String.ofList (s.toList.take (s.toList.length - suffix.toList.length))
  else s

def withCompactModelSuffix (modelName : String) : String :=
  if hasSuffix modelName compactModelSuffix then modelName else modelName ++ compactModelSuffix

theorem hasSuffix_append (s suffix : String) : hasSuffix (s ++ suffix) suffix = true := by
  rw [hasSuffix, List.isSuffixOf_iff_suffix, String.toList_append]
  exact List.suffix_append _ _

theorem trimSuffix_append (s suffix : String) : trimSuffix (s ++ suffix) suffix = s := by
  rw [trimSuffix, if_pos (hasSuffix_append s suffix), String.toList_append, List.length_append,
    Nat.add_sub_cancel, List.take_left, String.ofList_toList]

/-- Without the suffix, a model with the suffix is the model without it. -/
theorem trimSuffix_withCompactModelSuffix (modelName : String) :
    trimSuffix (withCompactModelSuffix modelName) compactModelSuffix =
      trimSuffix modelName compactModelSuffix := by
  unfold withCompactModelSuffix
  split
  · rfl
  · rename_i hsuffix
    rw [trimSuffix_append, trimSuffix, if_neg hsuffix]

/-! ### The loop -/

/-- The entries of a channel's mapping, in the order of its text: a later entry of a model
replaces an earlier one. -/
abbrev ModelMap := List (String × String)

/-- The model that a model is mapped to.  The empty name maps to nothing. -/
def nextModel (modelMap : ModelMap) (modelName : String) : Option String :=
  (modelMap.reverse.lookup modelName).filter (· ≠ "")

/-- How the loop ends: in a circle, with a client's model that is mapped to itself, or with the
current model, and whether it has been mapped. -/
inductive MappingEnd where
  | cycle
  | unmapped
  | last (currentModel : String) (isModelMapped : Bool)
deriving DecidableEq, Repr

/-- The loop along the mappings, with bounded fuel. -/
def followMapping (modelMap : ModelMap) (originModelName : String) :
    ℕ → List String → String → Bool → Option MappingEnd
  | 0, _, _, _ => none
  | fuel + 1, visitedModels, currentModel, isModelMapped =>
    match nextModel modelMap currentModel with
    | some mappedModel =>
      if mappedModel ∈ visitedModels then
        if mappedModel = currentModel then
          if currentModel = originModelName then some .unmapped
          else some (.last currentModel true)
        else some .cycle
      else followMapping modelMap originModelName fuel (mappedModel :: visitedModels)
        mappedModel true
    | none => some (.last currentModel isModelMapped)

/-! ### One attempt -/

/-- The part of the record of a request that mapping its model reads and writes. -/
structure ModelInfo where
  isResponsesCompact : Bool
  originModelName : String
  upstreamModelName : String
  isModelMapped : Bool
deriving DecidableEq, Repr

/-- The mapping of a channel: an empty text or object, which is not looked at, or a table. -/
inductive ModelMapping where
  | absent
  | table (modelMap : ModelMap)
deriving DecidableEq, Repr

def ModelMapping.modelMap : ModelMapping → ModelMap
  | .absent => []
  | .table modelMap => modelMap

/-- What an attempt has made of its mapping: an error or none, the record, and the model of the
request if that has one. -/
structure MappedModel where
  err : Option String
  info : ModelInfo
  request : Option String
deriving DecidableEq, Repr

def errModelMappingContainsCycle : String := "model_mapping_contains_cycle"

def errUnmarshalModelMappingFailed : String := "unmarshal_model_mapping_failed"

/-- A request keeps its model if the new one is empty. -/
def setModelName (modelName : String) (request : Option String) : Option String :=
  request.map fun model => if modelName ≠ "" then modelName else model

/-- The model the loop starts from. -/
def mappingModelName (info : ModelInfo) : String :=
  if info.isResponsesCompact then trimSuffix info.originModelName compactModelSuffix
  else info.originModelName

/-- What follows the loop. -/
def finishMapping (info : ModelInfo) (request : Option String) : MappedModel :=
  let info' :=
    if info.isResponsesCompact then
      let finalUpstreamModelName :=
        if info.isModelMapped ∧ info.upstreamModelName ≠ "" then info.upstreamModelName
        else mappingModelName info
      { info with
        upstreamModelName := finalUpstreamModelName
        originModelName := withCompactModelSuffix finalUpstreamModelName }
    else info
  ⟨none, info', setModelName info'.upstreamModelName request⟩

/-- `ModelMappedHelper`, with fuel for one step more than the mapping has entries; a mapping whose
text is not a table is `none`. -/
def modelMappedHelper (mapping : Option ModelMapping) (info : ModelInfo)
    (request : Option String) : Option MappedModel :=
  match mapping with
  | none => some ⟨some errUnmarshalModelMappingFailed, info, request⟩
  | some .absent => some (finishMapping info request)
  | some (.table modelMap) =>
    let start := mappingModelName info
    (followMapping modelMap info.originModelName (modelMap.length + 1) [start] start
        info.isModelMapped).map fun mappingEnd =>
      match mappingEnd with
      -- a circle is only found when a model has been mapped
      | .cycle => ⟨some errModelMappingContainsCycle, { info with isModelMapped := true }, request⟩
      | .unmapped => ⟨none, { info with isModelMapped := false }, request⟩
      | .last currentModel isModelMapped =>
        finishMapping
          { info with
            isModelMapped := isModelMapped
            upstreamModelName :=
              if isModelMapped then currentModel else info.upstreamModelName }
          request

/-- The reset with which an attempt starts. -/
def initChannelMeta (originalModel : String) (info : ModelInfo) (request : Option String) :
    ModelInfo × Option String :=
  ({ info with upstreamModelName := originalModel, isModelMapped := false },
    setModelName info.originModelName request)

/-- An attempt at a channel: the context is set up with the model the record has as the client's,
the record is reset, and the model is mapped. -/
def attemptModel (mapping : Option ModelMapping) (info : ModelInfo) (request : Option String) :
    Option MappedModel :=
  let reset := initChannelMeta info.originModelName info request
  modelMappedHelper mapping reset.1 reset.2

/-- The record of a request when the client asks for a model. -/
def clientInfo (isResponsesCompact : Bool) (model : String) : ModelInfo where
  isResponsesCompact := isResponsesCompact
  originModelName := model
  upstreamModelName := ""
  isModelMapped := false

/-- The record after attempts at channels with these mappings. -/
def afterAttempts (request : Option String) (info : ModelInfo) (mappings : List ModelMapping) :
    ModelInfo :=
  mappings.foldl
    (fun info mapping => ((attemptModel (some mapping) info request).map (·.info)).getD info) info

/-- An attempt follows the chain of its channel's mapping from a model: it comes to an end, it
fails exactly if the chain runs in a circle, and it finds the end of the chain otherwise. -/
def FollowsChain (mapping : ModelMapping) (model : String) (attempt : Option MappedModel) : Prop :=
  ∃ result, attempt = some result ∧
    (result.err ≠ none ↔ Chain.Cycles (nextModel mapping.modelMap) model) ∧
    (result.err = none →
      Chain.Ends (nextModel mapping.modelMap) model result.info.upstreamModelName)

variable {modelMap : ModelMap} {mapped : Bool} {info : ModelInfo}

/-! ### The loop finds the end of the chain -/

theorem nextModel_mem {a b : String} (h : nextModel modelMap a = some b) :
    b ∈ modelMap.map Prod.snd := by
  obtain ⟨hlookup, -⟩ := Option.filter_eq_some_iff.1 h
  obtain ⟨l₁, l₂, hl, -⟩ := List.lookup_eq_some_iff.1 hlookup
  have hmem : (a, b) ∈ modelMap.reverse := by
    rw [hl]
    exact List.mem_append_right _ List.mem_cons_self
  exact List.mem_map.2 ⟨(a, b), List.mem_reverse.1 hmem, rfl⟩

theorem nextModel_ne_empty {a b : String} (h : nextModel modelMap a = some b) : b ≠ "" := by
  simpa using (Option.filter_eq_some_iff.1 h).2

/-- The model the loop ends at, if it does. -/
def MappingEnd.model (originModelName : String) : MappingEnd → Option String
  | .cycle => none
  | .unmapped => some originModelName
  | .last currentModel _ => some currentModel

/-- **The loop is a walk** along the mappings. -/
theorem followMapping_eq_walk (modelMap : ModelMap) (origin : String) (fuel : ℕ)
    (visited : List String) (current : String) (mapped : Bool) (hcurrent : current ∈ visited) :
    (followMapping modelMap origin fuel visited current mapped).map (·.model origin) =
      Chain.walk (nextModel modelMap) fuel visited current := by
  induction fuel generalizing visited current mapped with
  | zero => rfl
  | succ fuel ih =>
    cases hnext : nextModel modelMap current with
    | none => simp only [followMapping, hnext, Chain.walk_of_none hnext, Option.map_some,
        MappingEnd.model]
    | some next =>
      by_cases hself : next = current
      · subst hself
        rw [Chain.walk_of_self hnext]
        simp only [followMapping, hnext, if_pos hcurrent, if_true]
        split
        · rename_i horigin
          rw [Option.map_some, MappingEnd.model, horigin]
        · rfl
      · rw [Chain.walk_of_leads ⟨hnext, hself⟩]
        simp only [followMapping, hnext, if_neg hself]
        split
        · rfl
        · exact ih (next :: visited) next true List.mem_cons_self

/-- A loop that has mapped nothing ends where it was. -/
theorem followMapping_unmoved {origin current last : String} {fuel : ℕ} {visited : List String}
    (h : followMapping modelMap origin fuel visited current mapped = some (.last last false)) :
    last = current ∧ mapped = false := by
  induction fuel generalizing visited current mapped with
  | zero => cases h
  | succ fuel ih =>
    simp only [followMapping] at h
    split at h
    · split at h
      · split at h
        · split at h <;> cases h
        · cases h
      · exact absurd (ih h).2 (by simp)
    · cases h
      exact ⟨rfl, rfl⟩

/-- A loop that has mapped something does not end at the empty name. -/
theorem followMapping_ne_empty {origin current last : String} {fuel : ℕ} {visited : List String}
    (hcurrent : mapped = true → current ≠ "")
    (h : followMapping modelMap origin fuel visited current mapped = some (.last last true)) :
    last ≠ "" := by
  induction fuel generalizing visited current mapped with
  | zero => cases h
  | succ fuel ih =>
    simp only [followMapping] at h
    split at h
    · rename_i next hnext
      have hne : next ≠ "" := nextModel_ne_empty hnext
      split at h
      · split at h
        · rename_i hself
          split at h
          · cases h
          · cases h
            exact hself ▸ hne
        · cases h
      · exact ih (fun _ => hne) h
    · cases h
      exact hcurrent rfl

/-! ### One attempt -/

theorem mappingModelName_of_not_compact (h : info.isResponsesCompact = false) :
    mappingModelName info = info.originModelName := by
  rw [mappingModelName, h, if_neg Bool.false_ne_true]

/-- A compact request keeps its mode, and has the suffix put after the model found. -/
theorem finishMapping_compact {request : Option String} (h : info.isResponsesCompact = true) :
    (finishMapping info request).info.isResponsesCompact = true ∧
      (finishMapping info request).info.originModelName =
        withCompactModelSuffix (finishMapping info request).info.upstreamModelName := by
  simp only [finishMapping, if_pos h, and_true]
  exact h

/-- What an attempt that ends at a model leaves in the record. -/
structure Reaches (info : ModelInfo) (model : String) (result : MappedModel) : Prop where
  err : result.err = none
  upstream : result.info.upstreamModelName = model
  compact : result.info.isResponsesCompact = info.isResponsesCompact
  /-- The model later attempts start from. -/
  next : mappingModelName result.info =
    if info.isResponsesCompact then trimSuffix model compactModelSuffix else info.originModelName

/-- What an attempt that runs in a circle leaves in the record. -/
structure Fails (info : ModelInfo) (result : MappedModel) : Prop where
  err : result.err ≠ none
  compact : result.info.isResponsesCompact = info.isResponsesCompact
  next : mappingModelName result.info = mappingModelName info

/-- After the loop, with a record whose upstream model is the one the loop has found. -/
theorem reaches_finishMapping {request : Option String} {model : String}
    (hmapped : mapped = true → model ≠ "")
    (hunmoved : mapped = false → model = mappingModelName info) :
    Reaches info model (finishMapping
      { info with
        isModelMapped := mapped
        upstreamModelName := if mapped then model else info.originModelName } request) := by
  obtain ⟨compact, origin, upstream, wasMapped⟩ := info
  cases compact with
  | false =>
    refine ⟨rfl, ?_, rfl, rfl⟩
    cases mapped with
    | false => exact (hunmoved rfl).symm
    | true => rfl
  | true =>
    have hfinal : (finishMapping
        { isResponsesCompact := true
          originModelName := origin
          upstreamModelName := if mapped then model else origin
          isModelMapped := mapped } request).info.upstreamModelName = model := by
      cases mapped with
      | false => exact (hunmoved rfl).symm
      | true => simp [finishMapping, hmapped rfl]
    refine ⟨rfl, hfinal, rfl, ?_⟩
    obtain ⟨hcompact, horigin⟩ := @finishMapping_compact
      ⟨true, origin, if mapped then model else origin, mapped⟩ request rfl
    rw [mappingModelName, if_pos hcompact, horigin, trimSuffix_withCompactModelSuffix, hfinal,
      if_pos rfl]

/-- **An attempt reaches the end of its chain, or fails.** -/
theorem attemptModel_cases (mapping : ModelMapping) (info : ModelInfo) (request : Option String) :
    ∃ result, attemptModel (some mapping) info request = some result ∧
      ((∃ model, Chain.Ends (nextModel mapping.modelMap) (mappingModelName info) model ∧
        Reaches info model result) ∨
      Chain.Cycles (nextModel mapping.modelMap) (mappingModelName info) ∧ Fails info result) := by
  cases mapping with
  | absent =>
    refine ⟨_, rfl, .inl ⟨mappingModelName info, ⟨.refl, ?_⟩, ?_⟩⟩
    · intro b hb
      cases hb.1
    · exact reaches_finishMapping nofun fun _ : false = false => rfl
  | table modelMap =>
    let start := mappingModelName info
    have hnames : ∀ a b, nextModel modelMap a = some b → b ∈ modelMap.map Prod.snd :=
      fun a b h => nextModel_mem h
    have hfuel : (modelMap.map Prod.snd).length < modelMap.length + 1 := by simp
    have hwalk := followMapping_eq_walk modelMap info.originModelName (modelMap.length + 1)
      [start] start false List.mem_cons_self
    have hattempt : attemptModel (some (.table modelMap)) info request =
        modelMappedHelper (some (.table modelMap))
          { info with upstreamModelName := info.originModelName, isModelMapped := false }
          (setModelName info.originModelName request) := rfl
    have hstart : mappingModelName
        { info with upstreamModelName := info.originModelName, isModelMapped := false } =
        start := rfl
    rw [hattempt]
    simp only [modelMappedHelper, hstart]
    rcases Chain.walk_start (a := start) hnames hfuel with ⟨model, hfound, hends⟩ | ⟨hfound, hcycles⟩
    · rw [hfound] at hwalk
      obtain ⟨mappingEnd, hend, hmodel⟩ := Option.map_eq_some_iff.1 hwalk
      rw [hend]
      refine ⟨_, rfl, .inl ⟨model, hends, ?_⟩⟩
      cases mappingEnd with
      | cycle => cases hmodel
      | unmapped =>
        obtain rfl : info.originModelName = model := Option.some.inj hmodel
        exact ⟨rfl, rfl, rfl, rfl⟩
      | last last mapped =>
        obtain rfl : last = model := Option.some.inj hmodel
        refine reaches_finishMapping ?_ ?_
        · rintro rfl
          exact followMapping_ne_empty (fun h => by cases h) hend
        · rintro rfl
          exact (followMapping_unmoved hend).1
    · rw [hfound] at hwalk
      obtain ⟨mappingEnd, hend, hmodel⟩ := Option.map_eq_some_iff.1 hwalk
      rw [hend]
      refine ⟨_, rfl, .inr ⟨hcycles, ?_⟩⟩
      cases mappingEnd with
      | cycle => exact ⟨nofun, rfl, rfl⟩
      | unmapped => cases hmodel
      | last last mapped => cases hmodel

/-- **An attempt follows its chain** from the model the record has as the client's. -/
theorem modelMappedHelper_follows (mapping : ModelMapping) (info : ModelInfo)
    (request : Option String) :
    FollowsChain mapping (mappingModelName info) (attemptModel (some mapping) info request) := by
  obtain ⟨result, hresult, ⟨model, hends, hreaches⟩ | ⟨hcycles, hfails⟩⟩ :=
    attemptModel_cases mapping info request
  · refine ⟨result, hresult, ⟨?_, ?_⟩, ?_⟩
    · intro herr
      exact absurd hreaches.err herr
    · intro hcycles
      exact absurd hcycles hends.not_cycles
    · intro _
      rwa [hreaches.upstream]
  · refine ⟨result, hresult, ⟨fun _ => hcycles, fun _ => hfails.err⟩, ?_⟩
    intro herr
    exact absurd herr hfails.err

/-! ### Several attempts -/

/-- An attempt follows the chains from a model exactly if it starts from that model. -/
theorem follows_iff (info : ModelInfo) (request : Option String) (model : String) :
    (∀ mapping, FollowsChain mapping model (attemptModel (some mapping) info request)) ↔
      mappingModelName info = model := by
  constructor
  · intro h
    -- without a mapping, an attempt reaches the model it starts from
    have hstuck : ∀ a, Chain.Ends (nextModel ModelMapping.absent.modelMap) a a := by
      intro a
      refine ⟨.refl, fun b hb => ?_⟩
      cases hb.1
    obtain ⟨result, hresult, hcycles, hends⟩ := h .absent
    obtain ⟨result', hresult', -, hends'⟩ := modelMappedHelper_follows .absent info request
    rw [hresult] at hresult'
    cases hresult'
    have herr : result.err = none := by
      by_contra herr
      exact (hstuck model).not_cycles (hcycles.1 herr)
    exact ((hstuck _).unique (hends' herr)).trans ((hends herr).unique (hstuck _))
  · rintro rfl mapping
    exact modelMappedHelper_follows mapping info request

/-- No mapping of a list leads from a model to another one, but for the suffix of the compaction
mode. -/
def KeepModel (model : String) (mappings : List ModelMapping) : Prop :=
  ∀ mapping ∈ mappings, ∀ e, Chain.Ends (nextModel mapping.modelMap) model e →
    trimSuffix e compactModelSuffix = model

theorem afterAttempts_keep (info : ModelInfo) (request : Option String)
    (mappings : List ModelMapping) :
    (∀ n, mappingModelName (afterAttempts request info (mappings.take n)) =
        mappingModelName info) ↔
      info.isResponsesCompact = false ∨ KeepModel (mappingModelName info) mappings := by
  induction mappings generalizing info with
  | nil => simp [afterAttempts, KeepModel]
  | cons mapping mappings ih =>
    obtain ⟨result, hresult, hcases⟩ := attemptModel_cases mapping info request
    have hfirst : ∀ n, afterAttempts request info ((mapping :: mappings).take (n + 1)) =
        afterAttempts request result.info (mappings.take n) := by
      intro n
      simp only [afterAttempts, List.take_succ_cons, List.foldl_cons, hresult, Option.map_some,
        Option.getD_some]
    have hcompact : result.info.isResponsesCompact = info.isResponsesCompact := by
      rcases hcases with ⟨model, -, h⟩ | ⟨-, h⟩
      · exact h.compact
      · exact h.compact
    -- the first attempt keeps the model exactly if its mapping does
    have hkeep : mappingModelName result.info = mappingModelName info ↔
        info.isResponsesCompact = false ∨ KeepModel (mappingModelName info) [mapping] := by
      rcases hcases with ⟨model, hends, h⟩ | ⟨hcycles, h⟩
      · rw [h.next]
        cases hmode : info.isResponsesCompact with
        | false =>
          simp [mappingModelName_of_not_compact hmode]
        | true =>
          simp only [if_true, Bool.true_eq_false, false_or, KeepModel, List.mem_singleton,
            forall_eq]
          constructor
          · intro heq e he
            rwa [he.unique hends]
          · intro hall
            exact hall model hends
      · rw [h.next]
        refine iff_of_true rfl (.inr ?_)
        intro mapping' hmem e he
        rw [List.mem_singleton.1 hmem] at he
        exact absurd hcycles he.not_cycles
    have hcons : KeepModel (mappingModelName info) (mapping :: mappings) ↔
        KeepModel (mappingModelName info) [mapping] ∧
          KeepModel (mappingModelName info) mappings := by
      simp [KeepModel]
    constructor
    · intro h
      have hone : mappingModelName result.info = mappingModelName info := by
        have := h 1
        rwa [hfirst 0] at this
      have hrest := (ih result.info).1 fun n => by
        have := h (n + 1)
        rw [hfirst n] at this
        rw [this, hone]
      rw [hcompact, hone] at hrest
      rw [hcons]
      rcases hkeep.1 hone with hmode | hkept
      · exact .inl hmode
      · rcases hrest with hmode | hrest
        · exact .inl hmode
        · exact .inr ⟨hkept, hrest⟩
    · intro h n
      rw [hcons] at h
      cases n with
      | zero => rfl
      | succ n =>
        have hone : mappingModelName result.info = mappingModelName info :=
          hkeep.2 (h.imp id And.left)
        rw [hfirst n, ← hone]
        refine (ih result.info).2 ?_ n
        rw [hcompact, hone]
        exact h.imp id And.right

/-- **Every attempt starts afresh** exactly if the mode is not responses-compaction, or no earlier
attempt has mapped the model to another one: the attempts before `n` have been at channels with
the first mappings, and whatever mapping the next one has, it follows that mapping's chain from
the client's model. -/
theorem attempts_follow (isResponsesCompact : Bool) (client : String) (request : Option String)
    (mappings : List ModelMapping) :
    (∀ n mapping, FollowsChain mapping (mappingModelName (clientInfo isResponsesCompact client))
      (attemptModel (some mapping)
        (afterAttempts request (clientInfo isResponsesCompact client) (mappings.take n))
        request)) ↔
      isResponsesCompact = false ∨
        KeepModel (mappingModelName (clientInfo isResponsesCompact client)) mappings := by
  have hmodels := afterAttempts_keep (clientInfo isResponsesCompact client) request mappings
  rw [← show (clientInfo isResponsesCompact client).isResponsesCompact = isResponsesCompact from rfl]
  refine Iff.trans (forall_congr' fun n => ?_) hmodels
  exact follows_iff _ request _

/-- **A mapping is not forgotten** in responses-compaction mode: a channel that maps nothing is
asked for the model the channel before it has mapped the client's to. -/
theorem compaction_forgets :
    let client := clientInfo true "gpt-5-openai-compact"
    let mappings := [ModelMapping.table [("gpt-5", "gpt-5-mini")]]
    (attemptModel (some .absent) client none).map (·.info.upstreamModelName) = some "gpt-5" ∧
      (attemptModel (some .absent) (afterAttempts none client mappings) none).map
        (·.info.upstreamModelName) = some "gpt-5-mini" := by
  decide

end NewApi

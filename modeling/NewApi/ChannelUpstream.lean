/-
**Keeping the models of a channel in step with its upstream.**

`src/controller/channel_upstream_update.go`: a detection compares the models of a channel with those
its upstream offers, and keeps what could be added and what could be removed as pending; with
automatic synchronisation it adds the new models at once.  An administrator applies some of the
pending changes and has others ignored.  The models of a channel are one text with commas between
the names.

An upstream may offer a name with a comma in it; once joined with the others, it comes back as two.
And an ignored name that starts with `regex:` is read as a pattern, which need not match the name.
The books are kept in every run in which no accepted name has a comma and every name that is
ignored is matched by itself as an entry.

Main definitions:

* `NewApi.normalizeModelNames`, `NewApi.mergeModelNames`, `NewApi.subtractModelNames`,
  `NewApi.intersectModelNames` — lists of names as sets;
* `NewApi.collectPendingUpstreamModelChangesFromModels`,
  `NewApi.checkAndPersistChannelUpstreamModelUpdates`,
  `NewApi.applyChannelUpstreamModelUpdates` — a detection and an application;
* `NewApi.UpstreamBooks` — a channel, and the names that have been ignored.

Main results:

* `NewApi.getModels_joinModels` — the models of a channel are the names they were joined from;
* `NewApi.UpstreamBooks.Tidy.step` — one step keeps the books;
* `NewApi.upstream_books_kept` — **the books are kept along a run**.
-/

import NewApi.Lib.Transition
import NewApi.SeparatedText

set_option autoImplicit false

namespace NewApi

/-! ### Lists of names -/

/-- Append the names that are not there yet, one by one. -/
def addNew (base appended : List String) : List String :=
  appended.foldl (fun seen model => if model ∈ seen then seen else seen ++ [model]) base

/-- `lo.Uniq`: the first of equal names is kept. -/
def uniq (models : List String) : List String := addNew [] models

def normalizeModelNames (models : List String) : List String :=
  uniq (models.filterMap fun model =>
    let trimmed := trimSpace model
    if trimmed ≠ "" then some trimmed else none)

def mergeModelNames (base appended : List String) : List String :=
  addNew (normalizeModelNames base) (normalizeModelNames appended)

def subtractModelNames (base removed : List String) : List String :=
  (normalizeModelNames base).filter fun model => model ∉ normalizeModelNames removed

def intersectModelNames (base allowed : List String) : List String :=
  (normalizeModelNames base).filter fun model => model ∈ normalizeModelNames allowed

/-- Add wins when the same model appears in both selected lists. -/
def applySelectedModelChanges (originModels addModels removeModels : List String) : List String :=
  let normalizedAdd := normalizeModelNames addModels
  let normalizedRemove := subtractModelNames (normalizeModelNames removeModels) normalizedAdd
  subtractModelNames (mergeModelNames originModels normalizedAdd) normalizedRemove

/-- `channel.GetModels()`. -/
def getModels (models : String) : List String :=
  if models = "" then [] else splitTrimmed ',' models

/-- `strings.Join(models, ",")`. -/
def joinModels (models : List String) : String := joinWith ',' models

/-! ### The channel -/

/-- The entries of `ChannelOtherSettings` about the upstream models. -/
structure UpstreamSettings where
  autoSyncEnabled : Bool
  lastCheckTime : ℤ
  lastDetectedModels : List String
  lastRemovedModels : List String
  ignoredModels : List String
deriving DecidableEq

/-- A channel as far as its upstream models are concerned, and how often its abilities have been
rewritten. -/
structure UpstreamChannel where
  models : String
  modelMapping : Option String
  settings : UpstreamSettings
  abilityUpdates : ℕ
deriving DecidableEq

/-- A write to a map of texts. -/
def putEntry (entry : String × String) (entries : List (String × String)) :
    List (String × String) :=
  entries.filter (fun e => e.1 ≠ entry.1) ++ [entry]

/-- `normalizeChannelModelMapping`, where `unmarshal` gives the entries of a JSON object in the
order in which they are visited. -/
def normalizeChannelModelMapping (unmarshal : String → Option (List (String × String)))
    (modelMapping : Option String) : List (String × String) :=
  match modelMapping with
  | none => []
  | some text =>
    let rawMapping := trimSpace text
    if rawMapping = "" ∨ rawMapping = "\x7b\x7d" then []
    else
      match unmarshal rawMapping with
      | none => []
      | some parsed =>
        parsed.foldl (fun normalized entry =>
          let source := trimSpace entry.1
          let target := trimSpace entry.2
          if source = "" ∨ target = "" then normalized
          else putEntry (source, target) normalized) []

/-- Whether an entry of the list of ignored models matches a name.  `matchString` is
`regexp.MatchString`, without a value for a pattern that is none. -/
def ignores (matchString : String → String → Option Bool) (ignoredModel modelName : String) :
    Bool :=
  if hasPrefix ignoredModel "regex:" then
    matchString (trimSpace (String.ofList (ignoredModel.toList.drop 6))) modelName = some true
  else ignoredModel = modelName

/-- What could be added and what could be removed. -/
def collectPendingUpstreamModelChangesFromModels
    (matchString : String → String → Option Bool)
    (localModels upstreamModels ignoredModels : List String)
    (modelMapping : List (String × String)) : List String × List String :=
  let localModels := normalizeModelNames localModels
  let upstreamModels := normalizeModelNames upstreamModels
  let normalizedIgnoredModels := normalizeModelNames ignoredModels
  let redirectSources := modelMapping.map Prod.fst
  let redirectTargets := modelMapping.map Prod.snd
  let pendingAdd := upstreamModels.filter fun modelName =>
    ¬(modelName ∈ localModels ∨ modelName ∈ redirectTargets) ∧
      ¬normalizedIgnoredModels.any fun ignored => ignores matchString ignored modelName
  let pendingRemove := localModels.filter fun modelName =>
    modelName ∉ redirectSources ∧ modelName ∉ upstreamModels
  (normalizeModelNames pendingAdd, normalizeModelNames pendingRemove)

/-- What the detection of a channel depends on besides the channel. -/
structure UpstreamEnv where
  matchString : String → String → Option Bool
  unmarshal : String → Option (List (String × String))
  minCheckInterval : ℤ

/-- `checkAndPersistChannelUpstreamModelUpdates`: `upstreamModels` is what the upstream offers,
unless it cannot be asked. -/
def checkAndPersistChannelUpstreamModelUpdates (env : UpstreamEnv) (channel : UpstreamChannel)
    (upstreamModels : Option (List String)) (force allowAutoApply : Bool) (now : ℤ) :
    UpstreamChannel :=
  let settings := channel.settings
  if force = false ∧ 0 < settings.lastCheckTime ∧
      now - settings.lastCheckTime < env.minCheckInterval then channel
  else
    match upstreamModels with
    | none => { channel with settings := { settings with lastCheckTime := now } }
    | some upstreamModels =>
      let (pendingAddModels, pendingRemoveModels) :=
        collectPendingUpstreamModelChangesFromModels env.matchString
          (getModels channel.models) (normalizeModelNames upstreamModels) settings.ignoredModels
          (normalizeChannelModelMapping env.unmarshal channel.modelMapping)
      if allowAutoApply ∧ settings.autoSyncEnabled ∧ 0 < pendingAddModels.length then
        let originModels := normalizeModelNames (getModels channel.models)
        let mergedModels := mergeModelNames originModels pendingAddModels
        let settings := { settings with
          lastCheckTime := now
          lastDetectedModels := []
          lastRemovedModels := pendingRemoveModels }
        if originModels.length < mergedModels.length then
          { channel with
            models := joinModels mergedModels
            settings := settings
            abilityUpdates := channel.abilityUpdates + 1 }
        else { channel with settings := settings }
      else
        { channel with settings := { settings with
            lastCheckTime := now
            lastDetectedModels := pendingAddModels
            lastRemovedModels := pendingRemoveModels } }

/-- The changes of an application that are accepted: those requested and pending. -/
structure AcceptedChanges where
  addModels : List String
  ignoreModels : List String
  removeModels : List String

/-- The selection at the beginning of `applyChannelUpstreamModelUpdates`. -/
def acceptChanges (settings : UpstreamSettings) (addModelsInput ignoreModelsInput
    removeModelsInput : List String) : AcceptedChanges :=
  let pendingAddModels := normalizeModelNames settings.lastDetectedModels
  let pendingRemoveModels := normalizeModelNames settings.lastRemovedModels
  let addModels := intersectModelNames addModelsInput pendingAddModels
  { addModels := addModels
    ignoreModels := intersectModelNames ignoreModelsInput pendingAddModels
    removeModels := subtractModelNames
      (intersectModelNames removeModelsInput pendingRemoveModels) addModels }

def applyChannelUpstreamModelUpdates (channel : UpstreamChannel) (addModelsInput
    ignoreModelsInput removeModelsInput : List String) (now : ℤ) : UpstreamChannel :=
  let settings := channel.settings
  let pendingAddModels := normalizeModelNames settings.lastDetectedModels
  let pendingRemoveModels := normalizeModelNames settings.lastRemovedModels
  let accepted := acceptChanges settings addModelsInput ignoreModelsInput removeModelsInput
  let originModels := normalizeModelNames (getModels channel.models)
  let nextModels :=
    applySelectedModelChanges originModels accepted.addModels accepted.removeModels
  let merged := mergeModelNames settings.ignoredModels accepted.ignoreModels
  let settings := { settings with
    ignoredModels :=
      if 0 < accepted.addModels.length then subtractModelNames merged accepted.addModels
      else merged
    lastDetectedModels :=
      subtractModelNames pendingAddModels (accepted.addModels ++ accepted.ignoreModels)
    lastRemovedModels := subtractModelNames pendingRemoveModels accepted.removeModels
    lastCheckTime := now }
  if originModels ≠ nextModels then
    { channel with
      models := joinModels nextModels
      settings := settings
      abilityUpdates := channel.abilityUpdates + 1 }
  else { channel with settings := settings }

/-! ### Names without repetition -/

theorem mem_addNew {base appended : List String} {m : String} :
    m ∈ addNew base appended ↔ m ∈ base ∨ m ∈ appended := by
  induction appended generalizing base with
  | nil => simp [addNew]
  | cons a appended ih =>
    have hstep : addNew base (a :: appended) =
        addNew (if a ∈ base then base else base ++ [a]) appended := rfl
    rw [hstep, ih, List.mem_cons]
    by_cases ha : a ∈ base
    · rw [if_pos ha]
      constructor
      · rintro (hm | hm)
        · exact Or.inl hm
        · exact Or.inr (Or.inr hm)
      · rintro (hm | rfl | hm)
        · exact Or.inl hm
        · exact Or.inl ha
        · exact Or.inr hm
    · rw [if_neg ha, List.mem_append, List.mem_singleton, or_assoc]

theorem nodup_addNew {base : List String} (h : base.Nodup) (appended : List String) :
    (addNew base appended).Nodup := by
  induction appended generalizing base with
  | nil => exact h
  | cons a appended ih =>
    refine ih ?_
    dsimp only
    split
    · exact h
    · rename_i ha
      refine List.nodup_append.2 ⟨h, List.nodup_singleton a, ?_⟩
      intro x hx y hy
      rw [List.mem_singleton.1 hy]
      rintro rfl
      exact ha hx

/-- New names are all appended, in their order. -/
theorem addNew_eq_append {base appended : List String} (h : (base ++ appended).Nodup) :
    addNew base appended = base ++ appended := by
  induction appended generalizing base with
  | nil => simp [addNew]
  | cons a appended ih =>
    have ha : a ∉ base := by
      intro hmem
      exact (List.nodup_append.1 h).2.2 a hmem a List.mem_cons_self rfl
    have hstep : addNew base (a :: appended) = addNew (base ++ [a]) appended := by
      simp [addNew, ha]
    rw [hstep, ih (by simpa using h)]
    simp

/-- A list of names that is a set: trimmed, none empty and none twice. -/
structure NormalNames (models : List String) : Prop where
  nodup : models.Nodup
  nonempty : ∀ m ∈ models, m ≠ ""
  trimmed : ∀ m ∈ models, trimSpace m = m

theorem normalNames_nil : NormalNames [] := ⟨List.nodup_nil, nofun, nofun⟩

theorem NormalNames.filter {models : List String} (h : NormalNames models) (p : String → Bool) :
    NormalNames (models.filter p) where
  nodup := h.nodup.filter p
  nonempty := fun m hm => h.nonempty m (List.mem_filter.1 hm).1
  trimmed := fun m hm => h.trimmed m (List.mem_filter.1 hm).1

theorem NormalNames.addNew {base appended : List String} (hbase : NormalNames base)
    (happended : NormalNames appended) : NormalNames (addNew base appended) where
  nodup := nodup_addNew hbase.nodup appended
  nonempty := by
    intro m hm
    rcases mem_addNew.1 hm with hm | hm
    · exact hbase.nonempty m hm
    · exact happended.nonempty m hm
  trimmed := by
    intro m hm
    rcases mem_addNew.1 hm with hm | hm
    · exact hbase.trimmed m hm
    · exact happended.trimmed m hm

theorem mem_normalizeModelNames {models : List String} {m : String} :
    m ∈ normalizeModelNames models ↔ m ≠ "" ∧ ∃ x ∈ models, trimSpace x = m := by
  simp only [normalizeModelNames, uniq, mem_addNew, List.not_mem_nil, false_or,
    List.mem_filterMap]
  constructor
  · rintro ⟨x, hx, heq⟩
    split at heq
    · rename_i hne
      obtain rfl := Option.some.inj heq
      exact ⟨hne, x, hx, rfl⟩
    · cases heq
  · rintro ⟨hne, x, hx, rfl⟩
    exact ⟨x, hx, by simp [hne]⟩

/-- **What `normalizeModelNames` gives is a set.** -/
theorem normalNames_normalizeModelNames (models : List String) :
    NormalNames (normalizeModelNames models) where
  nodup := nodup_addNew List.nodup_nil _
  nonempty := fun _ hm => (mem_normalizeModelNames.1 hm).1
  trimmed := by
    intro m hm
    obtain ⟨-, x, -, rfl⟩ := mem_normalizeModelNames.1 hm
    exact trimSpace_trimSpace x

/-- A set is left as it is. -/
theorem NormalNames.normalize {models : List String} (h : NormalNames models) :
    normalizeModelNames models = models := by
  have hfilter : models.filterMap (fun model =>
      if trimSpace model ≠ "" then some (trimSpace model) else none) = models := by
    conv_rhs => rw [← List.filterMap_some (l := models)]
    apply List.filterMap_congr
    intro m hm
    rw [h.trimmed m hm, if_pos (h.nonempty m hm)]
  have huniq : uniq models = models := by
    unfold uniq
    rw [addNew_eq_append (by simpa using h.nodup), List.nil_append]
  unfold normalizeModelNames
  dsimp only
  rw [hfilter, huniq]

theorem mem_mergeModelNames {base appended : List String} {m : String} :
    m ∈ mergeModelNames base appended ↔
      m ∈ normalizeModelNames base ∨ m ∈ normalizeModelNames appended := mem_addNew

theorem mem_subtractModelNames {base removed : List String} {m : String} :
    m ∈ subtractModelNames base removed ↔
      m ∈ normalizeModelNames base ∧ m ∉ normalizeModelNames removed := by
  simp [subtractModelNames]

theorem mem_intersectModelNames {base allowed : List String} {m : String} :
    m ∈ intersectModelNames base allowed ↔
      m ∈ normalizeModelNames base ∧ m ∈ normalizeModelNames allowed := by
  simp [intersectModelNames]

theorem normalNames_mergeModelNames (base appended : List String) :
    NormalNames (mergeModelNames base appended) :=
  (normalNames_normalizeModelNames base).addNew (normalNames_normalizeModelNames appended)

theorem normalNames_subtractModelNames (base removed : List String) :
    NormalNames (subtractModelNames base removed) :=
  (normalNames_normalizeModelNames base).filter _

theorem normalNames_intersectModelNames (base allowed : List String) :
    NormalNames (intersectModelNames base allowed) :=
  (normalNames_normalizeModelNames base).filter _

/-- **The selected changes of a set**: what is added is appended, unless it is there, and what is
removed and not added goes; the others keep their order. -/
theorem applySelectedModelChanges_eq {origin add remove : List String}
    (horigin : NormalNames origin) (hadd : NormalNames add) (hremove : NormalNames remove) :
    applySelectedModelChanges origin add remove =
      (addNew origin add).filter fun m => ¬(m ∈ remove ∧ m ∉ add) := by
  have hmerged := horigin.addNew hadd
  have hminus := hremove.filter (fun m => m ∉ add)
  simp only [applySelectedModelChanges, subtractModelNames, mergeModelNames, horigin.normalize,
    hadd.normalize, hremove.normalize, hmerged.normalize, hminus.normalize]
  apply List.filter_congr
  intro m _
  simp

/-! ### The text of the models -/

/-- A name that can be joined with others. -/
def CommaFree (model : String) : Prop := ',' ∉ model.toList

instance instDecidableCommaFree (model : String) : Decidable (CommaFree model) := by
  unfold CommaFree; infer_instance

/-- The local models of a channel have no commas. -/
theorem commaFree_localModels {models m : String}
    (h : m ∈ normalizeModelNames (getModels models)) : CommaFree m := by
  obtain ⟨-, x, hx, rfl⟩ := mem_normalizeModelNames.1 h
  intro hcomma
  have hmem : ',' ∈ x.toList := mem_of_mem_trimList (by simpa [trimSpace] using hcomma)
  unfold getModels at hx
  split at hx
  · cases hx
  · exact notMem_of_mem_splitTrimmed hx hmem

/-- **The models of a channel are the names they were joined from**, if none has a comma. -/
theorem getModels_joinModels {models : List String} (hnonempty : ∀ m ∈ models, m ≠ "")
    (hcomma : ∀ m ∈ models, CommaFree m) : getModels (joinModels models) = models := by
  cases models with
  | nil => rfl
  | cons first models =>
    rw [getModels, joinModels, if_neg (joinWith_ne_empty (hnonempty first List.mem_cons_self))]
    refine split_trim_join (List.cons_ne_nil _ _) ?_ ?_ hcomma
    · exact fun m hm => hnonempty m (List.mem_of_mem_head? hm)
    · exact fun m hm => hnonempty m (List.mem_of_getLast? hm)

/-- The local models after a set of names was written. -/
theorem localModels_joinModels {models : List String} (h : NormalNames models)
    (hcomma : ∀ m ∈ models, CommaFree m) :
    normalizeModelNames (getModels (joinModels models)) = models := by
  rw [getModels_joinModels h.nonempty hcomma, h.normalize]

/-! ### Detections and applications -/

/-- A channel, and the pending names that were ignored by name and not added since. -/
structure UpstreamBooks where
  channel : UpstreamChannel
  ignoredByName : List String

/-- A detection, with automatic synchronisation where `allowAutoApply` is set, or an application
of changes that an administrator selects. -/
inductive UpstreamAction where
  | check (upstreamModels : Option (List String)) (force allowAutoApply : Bool) (now : ℤ)
  | apply (addModels ignoreModels removeModels : List String) (now : ℤ)

namespace UpstreamBooks

def localModels (s : UpstreamBooks) : List String :=
  normalizeModelNames (getModels s.channel.models)

/-- The pending additions. -/
def pendingAdd (s : UpstreamBooks) : List String :=
  normalizeModelNames s.channel.settings.lastDetectedModels

/-- The pending removals. -/
def pendingRemove (s : UpstreamBooks) : List String :=
  normalizeModelNames s.channel.settings.lastRemovedModels

def step (env : UpstreamEnv) (s : UpstreamBooks) : UpstreamAction → UpstreamBooks
  | .check upstreamModels force allowAutoApply now =>
    { s with
      channel := checkAndPersistChannelUpstreamModelUpdates env s.channel upstreamModels force
        allowAutoApply now }
  | .apply addModels ignoreModels removeModels now =>
    let accepted := acceptChanges s.channel.settings addModels ignoreModels removeModels
    { channel := applyChannelUpstreamModelUpdates s.channel addModels ignoreModels removeModels
        now
      ignoredByName :=
        (s.ignoredByName ++ accepted.ignoreModels).filter (· ∉ accepted.addModels) }

/-- The condition: a name that is about to be added has no comma, and a pending name that is
ignored and not added is matched by itself as an entry of the list of ignored models. -/
def Plain (env : UpstreamEnv) (s : UpstreamBooks) : UpstreamAction → Prop
  | .check upstreamModels _ allowAutoApply _ =>
    allowAutoApply = true → s.channel.settings.autoSyncEnabled = true →
      ∀ m ∈ normalizeModelNames (upstreamModels.getD []),
        m ∉ (normalizeChannelModelMapping env.unmarshal s.channel.modelMapping).map Prod.snd →
        (∀ e ∈ normalizeModelNames s.channel.settings.ignoredModels,
          ignores env.matchString e m = false) → CommaFree m
  | .apply addModels ignoreModels _ _ =>
    (∀ m ∈ normalizeModelNames addModels, m ∈ s.pendingAdd → CommaFree m) ∧
      ∀ m ∈ normalizeModelNames ignoreModels, m ∈ s.pendingAdd →
        m ∈ normalizeModelNames addModels ∨ ignores env.matchString m m = true

instance instDecidablePlain (env : UpstreamEnv) (s : UpstreamBooks) (a : UpstreamAction) :
    Decidable (s.Plain env a) := by
  cases a <;> unfold Plain <;> infer_instance

/-- **The books are in order**: what is pending is new or local as it should be, and the names
ignored by name are entries that match themselves, and not pending. -/
structure Tidy (env : UpstreamEnv) (s : UpstreamBooks) : Prop where
  pendingAdd_new : ∀ m ∈ s.pendingAdd, m ∉ s.localModels
  pendingRemove_local : ∀ m ∈ s.pendingRemove, m ∈ s.localModels
  ignored_entry : ∀ m ∈ s.ignoredByName,
    m ∈ normalizeModelNames s.channel.settings.ignoredModels ∧ ignores env.matchString m m = true
  ignored_not_pending : ∀ m ∈ s.ignoredByName, m ∉ s.pendingAdd

/-- What a step `a` that leads from `s` to `s'` does right. -/
structure Right (s : UpstreamBooks) (a : UpstreamAction) (s' : UpstreamBooks) : Prop where
  /-- no pending addition is a local model, -/
  pendingAdd_new : ∀ m ∈ s'.pendingAdd, m ∉ s'.localModels
  /-- or pending removal, -/
  pendingAdd_not_removed : ∀ m ∈ s'.pendingAdd, m ∉ s'.pendingRemove
  /-- and every pending removal is a local model; -/
  pendingRemove_local : ∀ m ∈ s'.pendingRemove, m ∈ s'.localModels
  /-- a name that was ignored by name is not pending and has not been added; -/
  ignored : ∀ m ∈ s'.ignoredByName,
    m ∉ s'.pendingAdd ∧ (m ∈ s'.localModels → m ∈ s.localModels)
  /-- an application changes the local models to what was accepted, -/
  applied : ∀ add ignore remove now, a = .apply add ignore remove now →
    let accAdd := intersectModelNames add s.pendingAdd
    let accRemove := intersectModelNames remove s.pendingRemove
    s'.localModels =
      (s.localModels ++ accAdd).filter fun m => ¬(m ∈ accRemove ∧ m ∉ accAdd)
  /-- and changes neither the models nor the abilities if nothing was. -/
  nothing : ∀ add ignore remove now, a = .apply add ignore remove now →
    intersectModelNames add s.pendingAdd = [] →
    intersectModelNames remove s.pendingRemove = [] →
    s'.channel.models = s.channel.models ∧ s'.channel.abilityUpdates = s.channel.abilityUpdates

variable {env : UpstreamEnv} {s : UpstreamBooks}

theorem normalNames_localModels (s : UpstreamBooks) : NormalNames s.localModels :=
  normalNames_normalizeModelNames _

theorem normalNames_pendingAdd (s : UpstreamBooks) : NormalNames s.pendingAdd :=
  normalNames_normalizeModelNames _

/-! ### A detection -/

/-- **What could be added**: the upstream offers it, it is new, and no entry matches it. -/
theorem mem_collectPending_add {matchString : String → String → Option Bool}
    {localModels upstreamModels ignoredModels : List String}
    {modelMapping : List (String × String)} {m : String} :
    m ∈ (collectPendingUpstreamModelChangesFromModels matchString localModels upstreamModels
        ignoredModels modelMapping).1 ↔
      m ∈ normalizeModelNames upstreamModels ∧ m ∉ normalizeModelNames localModels ∧
        m ∉ modelMapping.map Prod.snd ∧
        ∀ e ∈ normalizeModelNames ignoredModels, ignores matchString e m = false := by
  have hnormal : ∀ p : String → Bool,
      normalizeModelNames ((normalizeModelNames upstreamModels).filter p) =
        (normalizeModelNames upstreamModels).filter p := fun p =>
    ((normalNames_normalizeModelNames upstreamModels).filter p).normalize
  simp only [collectPendingUpstreamModelChangesFromModels, hnormal, List.mem_filter,
    decide_eq_true_eq, not_or, List.any_eq_true, not_exists, not_and, Bool.not_eq_true, and_assoc]

/-- **What could be removed** is local. -/
theorem mem_collectPending_remove {matchString : String → String → Option Bool}
    {localModels upstreamModels ignoredModels : List String}
    {modelMapping : List (String × String)} {m : String}
    (h : m ∈ (collectPendingUpstreamModelChangesFromModels matchString localModels
      upstreamModels ignoredModels modelMapping).2) : m ∈ normalizeModelNames localModels := by
  have hnormal : ∀ p : String → Bool,
      normalizeModelNames ((normalizeModelNames localModels).filter p) =
        (normalizeModelNames localModels).filter p := fun p =>
    ((normalNames_normalizeModelNames localModels).filter p).normalize
  simp only [collectPendingUpstreamModelChangesFromModels, hnormal] at h
  exact (List.mem_filter.1 h).1

theorem normalNames_collectPending (matchString : String → String → Option Bool)
    (localModels upstreamModels ignoredModels : List String)
    (modelMapping : List (String × String)) :
    NormalNames (collectPendingUpstreamModelChangesFromModels matchString localModels
        upstreamModels ignoredModels modelMapping).1 ∧
      NormalNames (collectPendingUpstreamModelChangesFromModels matchString localModels
        upstreamModels ignoredModels modelMapping).2 :=
  ⟨normalNames_normalizeModelNames _, normalNames_normalizeModelNames _⟩

/-- The pending changes that a detection finds. -/
def detected (env : UpstreamEnv) (s : UpstreamBooks) (upstreamModels : List String) :
    List String × List String :=
  collectPendingUpstreamModelChangesFromModels env.matchString (getModels s.channel.models)
    (normalizeModelNames upstreamModels) s.channel.settings.ignoredModels
    (normalizeChannelModelMapping env.unmarshal s.channel.modelMapping)

theorem mem_detected_add {upstreamModels : List String} {m : String} :
    m ∈ (s.detected env upstreamModels).1 ↔
      m ∈ normalizeModelNames upstreamModels ∧ m ∉ s.localModels ∧
        m ∉ (normalizeChannelModelMapping env.unmarshal s.channel.modelMapping).map Prod.snd ∧
        ∀ e ∈ normalizeModelNames s.channel.settings.ignoredModels,
          ignores env.matchString e m = false := by
  rw [detected, mem_collectPending_add, (normalNames_normalizeModelNames upstreamModels).normalize]
  rfl

theorem normalNames_detected (env : UpstreamEnv) (s : UpstreamBooks)
    (upstreamModels : List String) :
    NormalNames (s.detected env upstreamModels).1 ∧ NormalNames (s.detected env upstreamModels).2 :=
  normalNames_collectPending ..

/-- The names that are new to a channel are added to its models. -/
theorem mergeModelNames_detected (env : UpstreamEnv) (s : UpstreamBooks)
    (upstreamModels : List String) :
    mergeModelNames s.localModels (s.detected env upstreamModels).1 =
      s.localModels ++ (s.detected env upstreamModels).1 := by
  rw [mergeModelNames, s.normalNames_localModels.normalize,
    (s.normalNames_detected env upstreamModels).1.normalize]
  refine addNew_eq_append (List.nodup_append.2 ⟨s.normalNames_localModels.nodup,
    (s.normalNames_detected env upstreamModels).1.nodup, fun x hx y hy => ?_⟩)
  rintro rfl
  exact (mem_detected_add.1 hy).2.1 hx

/-- **What a detection does**, unless it comes too early: the pending lists are what it finds, or
what could be added is added at once. -/
theorem lists_check {upstreamModels : List String} {force allowAutoApply : Bool} {now : ℤ}
    (hearly : ¬(force = false ∧ 0 < s.channel.settings.lastCheckTime ∧
      now - s.channel.settings.lastCheckTime < env.minCheckInterval))
    (hplain : s.Plain env (.check (some upstreamModels) force allowAutoApply now)) :
    let s' := s.step env (.check (some upstreamModels) force allowAutoApply now)
    let found := s.detected env upstreamModels
    s'.channel.settings.ignoredModels = s.channel.settings.ignoredModels ∧
      s'.pendingRemove = found.2 ∧
      (s'.pendingAdd = found.1 ∧ s'.localModels = s.localModels ∨
        s'.pendingAdd = [] ∧ s'.localModels = s.localModels ++ found.1) := by
  have hnormal := s.normalNames_detected env upstreamModels
  have hmerged := s.mergeModelNames_detected env upstreamModels
  intro s' found
  have hs' : s'.channel = checkAndPersistChannelUpstreamModelUpdates env s.channel
    (some upstreamModels) force allowAutoApply now := rfl
  unfold pendingRemove pendingAdd localModels
  rw [hs']
  simp only [checkAndPersistChannelUpstreamModelUpdates, if_neg hearly]
  have hfound : collectPendingUpstreamModelChangesFromModels env.matchString
      (getModels s.channel.models) (normalizeModelNames upstreamModels)
      s.channel.settings.ignoredModels
      (normalizeChannelModelMapping env.unmarshal s.channel.modelMapping) = found := rfl
  have hlocal : normalizeModelNames (getModels s.channel.models) = s.localModels := rfl
  rw [hfound, hlocal]
  by_cases hauto : allowAutoApply = true ∧ s.channel.settings.autoSyncEnabled = true ∧
      0 < found.1.length
  · have hlonger : s.localModels.length < (mergeModelNames s.localModels found.1).length := by
      rw [hmerged, List.length_append]
      exact Nat.lt_add_of_pos_right hauto.2.2
    have hcomma : ∀ m ∈ mergeModelNames s.localModels found.1, CommaFree m := by
      intro m hm
      rw [hmerged] at hm
      rcases List.mem_append.1 hm with hm | hm
      · exact commaFree_localModels hm
      · obtain ⟨hup, -, htarget, hfree⟩ := mem_detected_add.1 hm
        exact hplain hauto.1 hauto.2.1 m hup htarget hfree
    rw [if_pos hauto, if_pos hlonger]
    refine ⟨rfl, hnormal.2.normalize, Or.inr ⟨rfl, ?_⟩⟩
    rw [localModels_joinModels (normalNames_mergeModelNames _ _) hcomma, hmerged]
  · rw [if_neg hauto]
    exact ⟨rfl, hnormal.2.normalize, Or.inl ⟨hnormal.1.normalize, rfl⟩⟩

/-- A channel whose lists and models are as before is in order as before. -/
theorem Tidy.of_same {s' : UpstreamBooks} (h : s.Tidy env)
    (hmodels : s'.channel.models = s.channel.models)
    (hdetected : s'.channel.settings.lastDetectedModels = s.channel.settings.lastDetectedModels)
    (hremoved : s'.channel.settings.lastRemovedModels = s.channel.settings.lastRemovedModels)
    (hignored : s'.channel.settings.ignoredModels = s.channel.settings.ignoredModels)
    (hghost : s'.ignoredByName = s.ignoredByName) : s'.Tidy env where
  pendingAdd_new := by
    rw [pendingAdd, localModels, hmodels, hdetected]
    exact h.pendingAdd_new
  pendingRemove_local := by
    rw [pendingRemove, localModels, hmodels, hremoved]
    exact h.pendingRemove_local
  ignored_entry := by
    rw [hghost, hignored]
    exact h.ignored_entry
  ignored_not_pending := by
    rw [hghost, pendingAdd, hdetected]
    exact h.ignored_not_pending

/-- **A detection keeps the books.** -/
theorem Tidy.check (h : s.Tidy env) {upstreamModels : Option (List String)}
    {force allowAutoApply : Bool} {now : ℤ}
    (hplain : s.Plain env (.check upstreamModels force allowAutoApply now)) :
    let s' := s.step env (.check upstreamModels force allowAutoApply now)
    s'.Tidy env ∧ ∀ m ∈ s'.ignoredByName, m ∈ s'.localModels → m ∈ s.localModels := by
  intro s'
  have hs' : s'.channel = checkAndPersistChannelUpstreamModelUpdates env s.channel upstreamModels
    force allowAutoApply now := rfl
  have hghost : s'.ignoredByName = s.ignoredByName := rfl
  by_cases hearly : force = false ∧ 0 < s.channel.settings.lastCheckTime ∧
      now - s.channel.settings.lastCheckTime < env.minCheckInterval
  · have hsame : s'.channel = s.channel := by
      rw [hs']
      simp only [checkAndPersistChannelUpstreamModelUpdates, if_pos hearly]
    refine ⟨h.of_same ?_ ?_ ?_ ?_ hghost, fun m _ hm => ?_⟩
    · rw [hsame]
    · rw [hsame]
    · rw [hsame]
    · rw [hsame]
    · rwa [localModels, hsame] at hm
  · cases upstreamModels with
    | none =>
      have hsame : s'.channel = { s.channel with
          settings := { s.channel.settings with lastCheckTime := now } } := by
        rw [hs']
        simp only [checkAndPersistChannelUpstreamModelUpdates, if_neg hearly]
      refine ⟨h.of_same ?_ ?_ ?_ ?_ hghost, fun m _ hm => ?_⟩
      · rw [hsame]
      · rw [hsame]
      · rw [hsame]
      · rw [hsame]
      · rwa [localModels, hsame] at hm
    | some upstream =>
      obtain ⟨hentries, hremove, hcases⟩ := lists_check hearly hplain
      have hremoved : ∀ m ∈ (s.detected env upstream).2, m ∈ s.localModels :=
        fun m hm => mem_collectPending_remove hm
      -- a name ignored by name is matched by its own entry
      have hignored : ∀ m ∈ s.ignoredByName, m ∉ (s.detected env upstream).1 := by
        intro m hm hfound
        obtain ⟨hentry, hself⟩ := h.ignored_entry m hm
        rw [(mem_detected_add.1 hfound).2.2.2 m hentry] at hself
        cases hself
      rcases hcases with ⟨hadd, hlocal⟩ | ⟨hadd, hlocal⟩
      · refine ⟨⟨?_, ?_, ?_, ?_⟩, ?_⟩
        · rw [hadd, hlocal]
          exact fun m hm => (mem_detected_add.1 hm).2.1
        · rw [hremove, hlocal]
          exact hremoved
        · rw [hentries]
          exact h.ignored_entry
        · rw [hadd]
          exact hignored
        · rw [hlocal]
          exact fun _ _ hm => hm
      · refine ⟨⟨?_, ?_, ?_, ?_⟩, ?_⟩
        · rw [hadd]
          exact fun _ hm => absurd hm List.not_mem_nil
        · rw [hremove, hlocal]
          exact fun m hm => List.mem_append_left _ (hremoved m hm)
        · rw [hentries]
          exact h.ignored_entry
        · rw [hadd]
          exact fun _ _ => List.not_mem_nil
        · rw [hlocal]
          exact fun m hm hl => (List.mem_append.1 hl).resolve_right (hignored m hm)

/-! ### An application -/

/-- **The local models after an application** are what was accepted. -/
theorem localModels_apply (h : s.Tidy env) {add ignore remove : List String} {now : ℤ}
    (hplain : s.Plain env (.apply add ignore remove now)) :
    let accAdd := intersectModelNames add s.pendingAdd
    let accRemove := intersectModelNames remove s.pendingRemove
    let s' := s.step env (.apply add ignore remove now)
    s'.localModels =
        ((s.localModels ++ accAdd).filter fun m => ¬(m ∈ accRemove ∧ m ∉ accAdd)) ∧
      (accAdd = [] → accRemove = [] → s'.channel.models = s.channel.models ∧
        s'.channel.abilityUpdates = s.channel.abilityUpdates) := by
  intro accAdd accRemove s'
  have haccAdd : NormalNames accAdd := normalNames_intersectModelNames _ _
  have haccRemove : NormalNames accRemove := normalNames_intersectModelNames _ _
  -- what is pending is not local, so that it is appended
  have hnew : (s.localModels ++ accAdd).Nodup := by
    refine List.nodup_append.2 ⟨s.normalNames_localModels.nodup, haccAdd.nodup,
      fun x hx y hy => ?_⟩
    rintro rfl
    have hpending := (mem_intersectModelNames.1 hy).2
    rw [s.normalNames_pendingAdd.normalize] at hpending
    exact h.pendingAdd_new x hpending hx
  have hselected : applySelectedModelChanges s.localModels accAdd
      (subtractModelNames accRemove accAdd) =
      (s.localModels ++ accAdd).filter fun m => ¬(m ∈ accRemove ∧ m ∉ accAdd) := by
    rw [applySelectedModelChanges_eq s.normalNames_localModels haccAdd
      (normalNames_subtractModelNames _ _), addNew_eq_append hnew]
    apply List.filter_congr
    intro m _
    rw [decide_eq_decide, not_iff_not, mem_subtractModelNames, haccAdd.normalize,
      haccRemove.normalize]
    tauto
  have hnext : NormalNames ((s.localModels ++ accAdd).filter fun m =>
      ¬(m ∈ accRemove ∧ m ∉ accAdd)) := by
    rw [← addNew_eq_append hnew]
    exact (s.normalNames_localModels.addNew haccAdd).filter _
  have hcomma : ∀ m ∈ (s.localModels ++ accAdd).filter fun m =>
      ¬(m ∈ accRemove ∧ m ∉ accAdd), CommaFree m := by
    intro m hm
    rcases List.mem_append.1 (List.mem_filter.1 hm).1 with hm | hm
    · exact commaFree_localModels hm
    · obtain ⟨hrequested, hpending⟩ := mem_intersectModelNames.1 hm
      rw [s.normalNames_pendingAdd.normalize] at hpending
      exact hplain.1 m hrequested hpending
  have hs' : s'.channel = applyChannelUpstreamModelUpdates s.channel add ignore remove now := rfl
  have hlocal : normalizeModelNames (getModels s.channel.models) = s.localModels := rfl
  have haccepted : applySelectedModelChanges s.localModels
      (acceptChanges s.channel.settings add ignore remove).addModels
      (acceptChanges s.channel.settings add ignore remove).removeModels =
      (s.localModels ++ accAdd).filter fun m => ¬(m ∈ accRemove ∧ m ∉ accAdd) := hselected
  by_cases hsame : s.localModels = (s.localModels ++ accAdd).filter fun m =>
      ¬(m ∈ accRemove ∧ m ∉ accAdd)
  · have hmodels : s'.channel.models = s.channel.models ∧
        s'.channel.abilityUpdates = s.channel.abilityUpdates := by
      rw [hs']
      simp only [applyChannelUpstreamModelUpdates, hlocal, haccepted]
      rw [if_neg (not_not.2 hsame)]
      exact ⟨rfl, rfl⟩
    refine ⟨?_, fun _ _ => hmodels⟩
    have hunchanged : s'.localModels = s.localModels := by
      rw [localModels, hmodels.1]
      rfl
    rw [hunchanged]
    exact hsame
  · have hmodels : s'.channel.models = joinModels ((s.localModels ++ accAdd).filter fun m =>
        ¬(m ∈ accRemove ∧ m ∉ accAdd)) := by
      rw [hs']
      simp only [applyChannelUpstreamModelUpdates, hlocal, haccepted]
      rw [if_pos hsame]
    constructor
    · rw [localModels, hmodels, localModels_joinModels hnext hcomma]
    · intro hnoAdd hnoRemove
      refine absurd ?_ hsame
      rw [hnoAdd, hnoRemove]
      simp

/-- The lists after an application. -/
theorem settings_apply (add ignore remove : List String) (now : ℤ) :
    let accepted := acceptChanges s.channel.settings add ignore remove
    let s' := s.step env (.apply add ignore remove now)
    let merged := mergeModelNames s.channel.settings.ignoredModels accepted.ignoreModels
    s'.channel.settings.lastDetectedModels =
        subtractModelNames s.pendingAdd (accepted.addModels ++ accepted.ignoreModels) ∧
      s'.channel.settings.lastRemovedModels =
        subtractModelNames s.pendingRemove accepted.removeModels ∧
      s'.channel.settings.ignoredModels =
        if 0 < accepted.addModels.length then subtractModelNames merged accepted.addModels
        else merged := by
  intro accepted s' merged
  have hs' : s'.channel = applyChannelUpstreamModelUpdates s.channel add ignore remove now := rfl
  rw [hs']
  simp only [applyChannelUpstreamModelUpdates]
  split <;> exact ⟨rfl, rfl, rfl⟩

/-- A name of one of two sets. -/
theorem mem_normalize_append {l₁ l₂ : List String} (h₁ : NormalNames l₁) (h₂ : NormalNames l₂)
    {m : String} : m ∈ normalizeModelNames (l₁ ++ l₂) ↔ m ∈ l₁ ∨ m ∈ l₂ := by
  rw [mem_normalizeModelNames]
  constructor
  · rintro ⟨-, x, hx, rfl⟩
    rcases List.mem_append.1 hx with hx | hx
    · rw [h₁.trimmed x hx]
      exact Or.inl hx
    · rw [h₂.trimmed x hx]
      exact Or.inr hx
  · rintro (hm | hm)
    · exact ⟨h₁.nonempty m hm, m, List.mem_append_left _ hm, h₁.trimmed m hm⟩
    · exact ⟨h₂.nonempty m hm, m, List.mem_append_right _ hm, h₂.trimmed m hm⟩

/-- **An application keeps the books.** -/
theorem Tidy.apply (h : s.Tidy env) {add ignore remove : List String} {now : ℤ}
    (hplain : s.Plain env (.apply add ignore remove now)) :
    let s' := s.step env (.apply add ignore remove now)
    s'.Tidy env ∧ ∀ m ∈ s'.ignoredByName, m ∈ s'.localModels → m ∈ s.localModels := by
  obtain ⟨hlocal, -⟩ := localModels_apply h hplain
  obtain ⟨hdetected, hremoved, hignored⟩ := @settings_apply env s add ignore remove now
  intro s'
  generalize haccepted : acceptChanges s.channel.settings add ignore remove = accepted
    at hdetected hremoved hignored
  have hadd : accepted.addModels = intersectModelNames add s.pendingAdd := by
    rw [← haccepted]
    rfl
  have hign : accepted.ignoreModels = intersectModelNames ignore s.pendingAdd := by
    rw [← haccepted]
    rfl
  have hrem : accepted.removeModels = subtractModelNames
      (intersectModelNames remove s.pendingRemove) accepted.addModels := by
    rw [← haccepted]
    rfl
  have haddNormal : NormalNames accepted.addModels := by
    rw [hadd]
    exact normalNames_intersectModelNames _ _
  have hignNormal : NormalNames accepted.ignoreModels := by
    rw [hign]
    exact normalNames_intersectModelNames _ _
  have hghost : s'.ignoredByName =
      (s.ignoredByName ++ accepted.ignoreModels).filter (· ∉ accepted.addModels) := by
    rw [← haccepted]
    rfl
  rw [← hadd] at hlocal
  have hpending : ∀ m, m ∈ s'.pendingAdd ↔ m ∈ s.pendingAdd ∧
      ¬(m ∈ accepted.addModels ∨ m ∈ accepted.ignoreModels) := by
    intro m
    rw [pendingAdd, hdetected, (normalNames_subtractModelNames _ _).normalize,
      mem_subtractModelNames, s.normalNames_pendingAdd.normalize,
      mem_normalize_append haddNormal hignNormal]
  refine ⟨⟨?_, ?_, ?_, ?_⟩, ?_⟩
  · intro m hm hl
    obtain ⟨hbefore, hneither⟩ := (hpending m).1 hm
    rw [hlocal] at hl
    rcases List.mem_append.1 (List.mem_filter.1 hl).1 with hl | hl
    · exact h.pendingAdd_new m hbefore hl
    · exact hneither (Or.inl hl)
  · intro m hm
    have hnormalRemove : NormalNames s.pendingRemove := normalNames_normalizeModelNames _
    rw [pendingRemove, hremoved, (normalNames_subtractModelNames _ _).normalize,
      mem_subtractModelNames, hnormalRemove.normalize] at hm
    rw [hlocal]
    refine List.mem_filter.2 ⟨List.mem_append_left _ (h.pendingRemove_local m hm.1), ?_⟩
    -- what is removed and not added is not pending any more
    have hkeep : ¬(m ∈ intersectModelNames remove s.pendingRemove ∧
        m ∉ accepted.addModels) := by
      rintro ⟨hselected, hnotAdded⟩
      refine hm.2 ?_
      rw [hrem, (normalNames_subtractModelNames _ _).normalize, mem_subtractModelNames,
        (normalNames_intersectModelNames _ _).normalize, haddNormal.normalize]
      exact ⟨hselected, hnotAdded⟩
    exact decide_eq_true hkeep
  · intro m hm
    rw [hghost, List.mem_filter, List.mem_append] at hm
    obtain ⟨hm, hnotAdded⟩ := hm
    have hnotAdded' : m ∉ accepted.addModels := by simpa using hnotAdded
    have hmerged : m ∈ mergeModelNames s.channel.settings.ignoredModels accepted.ignoreModels := by
      rw [mem_mergeModelNames, hignNormal.normalize]
      rcases hm with hm | hm
      · exact Or.inl (h.ignored_entry m hm).1
      · exact Or.inr hm
    constructor
    · rw [hignored]
      split
      · rw [(normalNames_subtractModelNames _ _).normalize, mem_subtractModelNames,
          (normalNames_mergeModelNames _ _).normalize, haddNormal.normalize]
        exact ⟨hmerged, hnotAdded'⟩
      · rwa [(normalNames_mergeModelNames _ _).normalize]
    · rcases hm with hm | hm
      · exact (h.ignored_entry m hm).2
      · rw [hign] at hm
        obtain ⟨hrequested, hpend⟩ := mem_intersectModelNames.1 hm
        have hpend' : m ∈ s.pendingAdd := by
          rwa [s.normalNames_pendingAdd.normalize] at hpend
        refine (hplain.2 m hrequested hpend').resolve_left fun hadded => hnotAdded' ?_
        rw [hadd]
        exact mem_intersectModelNames.2 ⟨hadded, hpend⟩
  · intro m hm hpend
    rw [hghost, List.mem_filter, List.mem_append] at hm
    obtain ⟨hbefore, hneither⟩ := (hpending m).1 hpend
    rcases hm.1 with hm | hm
    · exact h.ignored_not_pending m hm hbefore
    · exact hneither (Or.inr hm)
  · intro m hm hl
    rw [hghost, List.mem_filter] at hm
    have hnotAdded : m ∉ accepted.addModels := by simpa using hm.2
    rw [hlocal] at hl
    exact (List.mem_append.1 (List.mem_filter.1 hl).1).resolve_right hnotAdded

/-! ### Runs -/

/-- **One step keeps the books.** -/
theorem Tidy.step (h : s.Tidy env) {a : UpstreamAction} (hplain : s.Plain env a) :
    (s.step env a).Tidy env ∧ Right s a (s.step env a) := by
  have hboth : (s.step env a).Tidy env ∧
      ∀ m ∈ (s.step env a).ignoredByName, m ∈ (s.step env a).localModels → m ∈ s.localModels := by
    cases a with
    | check upstreamModels force allowAutoApply now => exact h.check hplain
    | apply add ignore remove now => exact h.apply hplain
  obtain ⟨htidy, hignored⟩ := hboth
  refine ⟨htidy, htidy.pendingAdd_new, ?_, htidy.pendingRemove_local, ?_, ?_, ?_⟩
  · intro m hadd hremove
    exact htidy.pendingAdd_new m hadd (htidy.pendingRemove_local m hremove)
  · intro m hm
    exact ⟨htidy.ignored_not_pending m hm, hignored m hm⟩
  · rintro add ignore remove now rfl
    exact (localModels_apply h hplain).1
  · rintro add ignore remove now rfl
    exact (localModels_apply h hplain).2

end UpstreamBooks

open UpstreamBooks in
/-- **The books are kept along every run** of detections, automatic synchronisations and
applications, from any channel whose pending lists are in order, in which no name that is added has
a comma and every name that is ignored is matched by itself: each step does all that
`UpstreamBooks.Right` says. -/
theorem upstream_books_kept (env : UpstreamEnv) (s : UpstreamBooks) (hs : s.Tidy env)
    (as : List UpstreamAction) (hplain : Transition.Along (step env) (Plain env) s as) :
    Transition.Along (step env) (fun s a => Right s a (s.step env a)) s as :=
  Transition.along_of_invariant (fun _ _ h hok => (h.step hok).1) (fun _ _ h hok => (h.step hok).2)
    hs hplain

/-- A channel without models that has never been compared with its upstream. -/
def newUpstreamBooks (autoSyncEnabled : Bool) : UpstreamBooks where
  channel := ⟨"", none, ⟨autoSyncEnabled, 0, [], [], []⟩, 0⟩
  ignoredByName := []

/-- No patterns and no mapping, and a check is never too early. -/
def plainUpstreamEnv : UpstreamEnv where
  matchString := fun _ _ => none
  unmarshal := fun _ => none
  minCheckInterval := 0

theorem tidy_newUpstreamBooks (env : UpstreamEnv) (autoSyncEnabled : Bool) :
    (newUpstreamBooks autoSyncEnabled).Tidy env := ⟨nofun, nofun, nofun, nofun⟩

/-- Two names are found; one is added and the other ignored. -/
theorem upstream_books_kept_two :
    Transition.Along (UpstreamBooks.step plainUpstreamEnv)
      (fun s a => UpstreamBooks.Right s a (s.step plainUpstreamEnv a)) (newUpstreamBooks false)
      [.check (some ["gpt-4o", "o3"]) true false 1, .apply ["gpt-4o"] ["o3"] [] 2] :=
  upstream_books_kept plainUpstreamEnv _ (tidy_newUpstreamBooks _ _) _ (by decide)

/-- **A name with a comma comes back as two**: it is applied, and the other pending name, which is
one of the two, is a local model then. -/
theorem upstream_comma_name :
    let s := Transition.run (UpstreamBooks.step plainUpstreamEnv) (newUpstreamBooks false)
      [.check (some ["a,b", "b"]) true false 1, .apply ["a,b"] [] [] 2]
    s.localModels = ["a", "b"] ∧ s.pendingAdd = ["b"] := by
  decide

end NewApi

/-
**The cache of channels.**

`InitChannelCache` reads the channels and lists, for each group and model, the enabled channels that
serve it, in the order of their priorities.  `GetRandomSatisfiedChannel` chooses from such a list,
and `CacheUpdateChannelStatus` takes a channel that is no longer enabled out of the lists.  It takes
out one entry of each list, so a channel that has been listed twice stays.

Main definitions:

* `NewApi.ChannelCache`, `NewApi.initChannelCache` — the cache, and how it is built;
* `NewApi.getRandomSatisfiedChannel` — the choice of a channel;
* `NewApi.cacheUpdateChannelStatus` — a change of the status of a channel;
* `NewApi.Channel.Repeats` — a group or a model is named twice by a channel.

Main results:

* `NewApi.disabled_not_selectable_iff` — **a channel that is disabled can no longer be chosen
  exactly if it does not name a group or a model twice**;
* `NewApi.disabled_still_selectable` — a channel that does is still chosen.
-/

import NewApi.Channel
import NewApi.Lib.Transition

set_option autoImplicit false

namespace NewApi

/-! ### The cache -/

/-- `group2model2channels` are the enabled channels of each group and model, and `channelsIDM` all
channels.  A group that is not in the first map has no inner map to write to. -/
structure ChannelCache where
  group2model2channels : String → Option (String → List ℤ)
  channelsIDM : ℤ → Option Channel

/-- The list for a group and a model. -/
def listedIn (lists : String → Option (String → List ℤ)) (group model : String) : List ℤ :=
  match lists group with
  | none => []
  | some model2channels => model2channels model

/-- The channels that are listed for a group and a model. -/
def ChannelCache.listed (cache : ChannelCache) (group model : String) : List ℤ :=
  listedIn cache.group2model2channels group model

/-- The rows of the table of channels.  The id is the primary key. -/
structure ChannelTable where
  rows : List Channel
  unique : (rows.map (·.id)).Nodup

/-- What `sort.Slice` does to a list: it brings it into an order, and promises nothing about
elements that are equal in it. -/
structure SortSlice where
  sort : (ℤ → ℤ → Bool) → List ℤ → List ℤ
  perm : ∀ less l, (sort less l).Perm l

/-- Append a channel to the list of a group and a model.  Writing to a map that does not exist stops
the program. -/
def appendChannel (lists : String → Option (String → List ℤ)) (entry : String × String × ℤ) :
    Option (String → Option (String → List ℤ)) :=
  match lists entry.1 with
  | none => none
  | some model2channels =>
    some (Function.update lists entry.1 (some
      (Function.update model2channels entry.2.1
        (model2channels entry.2.1 ++ [entry.2.2]))))

/-- The entries a channel makes: one for each of its groups and each of its models. -/
def Channel.entries (channel : Channel) : List (String × String × ℤ) :=
  if channel.status ≠ channelStatusEnabled then []
  else
    (split channel.group ',').flatMap fun group =>
      (split channel.models ',').map fun model => (group, model, channel.id)

/-- The channel as the cache holds it: with its keys, and with the position its polling had come to
in the cache before. -/
def cachedChannel (unmarshal : String → Option (List String)) (old : ℤ → Option Channel)
    (channel : Channel) : Channel :=
  if channel.channelInfo.isMultiKey = false then channel
  else
    let withKeys := { channel with keys := channel.getKeys unmarshal }
    if channel.channelInfo.multiKeyMode ≠ .polling then withKeys
    else
      match old channel.id with
      | none => withKeys
      | some oldChannel =>
        if oldChannel.channelInfo.isMultiKey ∧ oldChannel.channelInfo.multiKeyMode = .polling then
          { withKeys with channelInfo := { channel.channelInfo with
              multiKeyPollingIndex := oldChannel.channelInfo.multiKeyPollingIndex } }
        else withKeys

/-- The last of the channels with an id. -/
def channelById (channels : List Channel) (id : ℤ) : Option Channel :=
  channels.reverse.find? (·.id = id)

/-- Build the cache from the table of channels and the groups of the table of abilities.  There is
none if the program stops. -/
def initChannelCache (unmarshal : String → Option (List String)) (sorting : SortSlice)
    (table : ChannelTable) (abilityGroups : List String) (old : ℤ → Option Channel) :
    Option ChannelCache :=
  let newChannelId2channel := channelById table.rows
  let priority := fun id => ((newChannelId2channel id).map Channel.getPriority).getD 0
  let empty : String → Option (String → List ℤ) := fun group =>
    if group ∈ abilityGroups then some fun _ => [] else none
  match (table.rows.flatMap Channel.entries).foldlM appendChannel empty with
  | none => none
  | some lists =>
    some {
      group2model2channels := fun group => (lists group).map fun model2channels model =>
        sorting.sort (fun i j => priority j < priority i) (model2channels model)
      channelsIDM := fun id =>
        (newChannelId2channel id).map (cachedChannel unmarshal old) }

/-! ### Choosing a channel -/

def handleThinkingBudgetModel (name pre wildcard : String) : String :=
  if hasPrefix name pre ∧ contains name "-thinking-" then wildcard else name

/-- The name a model is also listed under. -/
def formatMatchingModelName (name : String) : String :=
  let name :=
    if hasPrefix name "gemini-2.5-flash-lite" then
      handleThinkingBudgetModel name "gemini-2.5-flash-lite" "gemini-2.5-flash-lite-thinking-*"
    else if hasPrefix name "gemini-2.5-flash" then
      handleThinkingBudgetModel name "gemini-2.5-flash" "gemini-2.5-flash-thinking-*"
    else if hasPrefix name "gemini-2.5-pro" then
      handleThinkingBudgetModel name "gemini-2.5-pro" "gemini-2.5-pro-thinking-*"
    else name
  let name := if hasPrefix name "gpt-4-gizmo" then "gpt-4-gizmo-*" else name
  if hasPrefix name "gpt-4o-gizmo" then "gpt-4o-gizmo-*" else name

/-- The first channel at which the running sum of the weights goes beyond the random number. -/
def pickByWeight (weight : Channel → ℤ) : ℤ → List Channel → Except String (Option Channel)
  | _, [] => .error "channel not found"
  | randomWeight, channel :: rest =>
    let randomWeight := randomWeight - weight channel
    if randomWeight < 0 then .ok (some channel) else pickByWeight weight randomWeight rest

/-- The channels with the ids of a list, or the first id that no channel has. -/
def channelsOf (channelsIDM : ℤ → Option Channel) : List ℤ → Except ℤ (List Channel)
  | [] => .ok []
  | id :: ids =>
    match channelsIDM id with
    | none => .error id
    | some channel =>
      match channelsOf channelsIDM ids with
      | .error missing => .error missing
      | .ok channels => .ok (channel :: channels)

def errChannelMissing (id : ℤ) : String :=
  "数据库一致性错误，渠道# " ++ toString id ++ " 不存在，请联系管理员修复"

/-- The priority that is next after `retry` others, or the last. -/
def targetPriority (retry : ℕ) (channels : List Channel) : ℤ :=
  let sortedUniquePriorities :=
    ((channels.map Channel.getPriority).dedup).insertionSort fun a b => b ≤ a
  let retry :=
    if sortedUniquePriorities.length ≤ retry then sortedUniquePriorities.length - 1 else retry
  sortedUniquePriorities.getD retry 0

/-- Choose among channels: those of the priority that is next, at random by their weights.  `intn`
is the random number below a bound. -/
def chooseChannel (group model : String) (retry : ℕ) (intn : ℤ → ℤ) (channels : List Channel) :
    Except String (Option Channel) :=
  let priority := targetPriority retry channels
  let targetChannels := channels.filter (·.getPriority = priority)
  if targetChannels = [] then
    .error ("no channel found, group: " ++ group ++ ", model: " ++ model ++ ", priority: " ++
      toString priority)
  else
    let sumWeight := (targetChannels.map Channel.getWeight).sum
    let count : ℤ := targetChannels.length
    if sumWeight = 0 then
      pickByWeight (fun channel => channel.getWeight + 100) (intn (count * 100)) targetChannels
    else if Int.tdiv sumWeight count < 10 then
      pickByWeight (fun channel => channel.getWeight * 100) (intn (sumWeight * 100)) targetChannels
    else pickByWeight Channel.getWeight (intn sumWeight) targetChannels

def getRandomSatisfiedChannel (cache : ChannelCache) (group model : String) (retry : ℕ)
    (intn : ℤ → ℤ) : Except String (Option Channel) :=
  let exact := cache.listed group model
  let channels :=
    if exact = [] then cache.listed group (formatMatchingModelName model) else exact
  match channels with
  | [] => .ok none
  | [id] =>
    match cache.channelsIDM id with
    | some channel => .ok (some channel)
    | none => .error (errChannelMissing id)
  | ids =>
    match channelsOf cache.channelsIDM ids with
    | .error id => .error (errChannelMissing id)
    | .ok channels => chooseChannel group model retry intn channels

/-! ### Changing the status of a channel -/

/-- A call of `CacheUpdateChannelStatus`. -/
structure ChannelStatusUpdate where
  id : ℤ
  status : ℤ
deriving DecidableEq, Repr

/-- The first entry of the channel is taken out of each list unless it is enabled. -/
def cacheUpdateChannelStatus (cache : ChannelCache) (u : ChannelStatusUpdate) : ChannelCache where
  group2model2channels group :=
    if u.status ≠ channelStatusEnabled then
      (cache.group2model2channels group).map fun model2channels model =>
        (model2channels model).erase u.id
    else cache.group2model2channels group
  channelsIDM := Function.update cache.channelsIDM u.id
    ((cache.channelsIDM u.id).map fun channel => { channel with status := u.status })

/-! ### What is listed -/

theorem listedIn_appendChannel {lists lists' : String → Option (String → List ℤ)}
    {entry : String × String × ℤ} (h : appendChannel lists entry = some lists')
    (group model : String) : listedIn lists' group model =
      listedIn lists group model ++
        if entry.1 = group ∧ entry.2.1 = model then [entry.2.2] else [] := by
  unfold appendChannel at h
  cases hgroup : lists entry.1 with
  | none =>
    rw [hgroup] at h
    cases h
  | some model2channels =>
    rw [hgroup] at h
    obtain rfl := Option.some.inj h
    by_cases heq : entry.1 = group
    · subst heq
      by_cases hmodel : entry.2.1 = model
      · subst hmodel
        simp [listedIn, hgroup]
      · simp [listedIn, hgroup, hmodel, Ne.symm hmodel]
    · simp [listedIn, heq, Ne.symm heq]

/-- The entries that have been appended are listed, in their order. -/
theorem listedIn_foldlM {entries : List (String × String × ℤ)}
    {lists lists' : String → Option (String → List ℤ)}
    (h : entries.foldlM appendChannel lists = some lists') (group model : String) :
    listedIn lists' group model = listedIn lists group model ++
      (entries.filter fun e => e.1 = group ∧ e.2.1 = model).map (·.2.2) := by
  induction entries generalizing lists with
  | nil =>
    obtain rfl := Option.some.inj h
    simp
  | cons entry entries ih =>
    rw [List.foldlM_cons] at h
    cases happend : appendChannel lists entry with
    | none =>
      rw [happend] at h
      cases h
    | some next =>
      rw [happend] at h
      rw [ih h, listedIn_appendChannel happend, List.append_assoc]
      congr 1
      by_cases heq : entry.1 = group ∧ entry.2.1 = model
      · simp [heq]
      · simp [heq]

/-- A change of every list is a change of the list for each group and model. -/
theorem listedIn_map (lists : String → Option (String → List ℤ)) (change : List ℤ → List ℤ)
    (hnil : change [] = []) (group model : String) :
    listedIn (fun g => (lists g).map fun model2channels m => change (model2channels m)) group
      model = change (listedIn lists group model) := by
  cases hgroup : lists group with
  | none => simp [listedIn, hgroup, hnil]
  | some model2channels => simp [listedIn, hgroup]

/-- The entries for a group and a model count an id as often as all entries count the three. -/
theorem count_map_filter (entries : List (String × String × ℤ)) (group model : String) (id : ℤ) :
    ((entries.filter fun e => e.1 = group ∧ e.2.1 = model).map (·.2.2)).count id =
      entries.count (group, model, id) := by
  rw [List.count_eq_countP, List.countP_map, List.countP_filter, List.count_eq_countP]
  refine List.countP_congr fun e _ => ?_
  obtain ⟨g, m, i⟩ := e
  simp only [Function.comp_apply, Bool.and_eq_true, beq_iff_eq, decide_eq_true_eq, Prod.mk.injEq]
  tauto

variable {cache : ChannelCache} {channel : Channel} {channels : List Channel}

/-- An id is listed as often as the channels make entries with it. -/
theorem count_listed {unmarshal : String → Option (List String)} {sorting : SortSlice}
    {table : ChannelTable} {abilityGroups : List String} {old : ℤ → Option Channel}
    (h : initChannelCache unmarshal sorting table abilityGroups old = some cache)
    (group model : String) (id : ℤ) : (cache.listed group model).count id =
      (table.rows.flatMap Channel.entries).count (group, model, id) := by
  unfold initChannelCache at h
  simp only at h
  split at h
  · cases h
  · rename_i lists hlists
    obtain rfl := Option.some.inj h
    have hempty : listedIn (fun g => if g ∈ abilityGroups then some fun _ => [] else none)
        group model = [] := by
      by_cases hgroup : group ∈ abilityGroups
      · simp [listedIn, hgroup]
      · simp [listedIn, hgroup]
    have hlisted := listedIn_foldlM hlists group model
    rw [hempty, List.nil_append] at hlisted
    rw [← count_map_filter, ← hlisted, ChannelCache.listed,
      listedIn_map lists _ (List.perm_nil.1 (sorting.perm _ _))]
    exact (sorting.perm _ _).count_eq id

/-! ### Channels that name a group or a model twice -/

/-- An enabled channel with the id names one of its groups or one of its models twice. -/
def ChannelTable.Repeats (table : ChannelTable) (id : ℤ) : Prop :=
  ∃ channel ∈ table.rows, channel.id = id ∧ channel.status = channelStatusEnabled ∧
    ¬ ((split channel.group ',').Nodup ∧ (split channel.models ',').Nodup)

/-- A channel makes an entry for each pair of one of its groups and one of its models. -/
theorem count_entries (channel : Channel) (group model : String) (id : ℤ) :
    channel.entries.count (group, model, id) =
      if channel.status = channelStatusEnabled ∧ channel.id = id then
        (split channel.group ',').count group * (split channel.models ',').count model
      else 0 := by
  have hmodels : ∀ g, ((split channel.models ',').map fun m => (g, m, channel.id)).count
      (group, model, id) =
        if g = group ∧ channel.id = id then (split channel.models ',').count model else 0 := by
    intro g
    rw [List.count_eq_countP, List.countP_map, List.count_eq_countP]
    split
    · rename_i heq
      refine List.countP_congr fun m _ => ?_
      simp [heq]
    · rename_i hne
      rw [List.countP_eq_zero]
      intro m _ heq
      simp only [Function.comp_apply, beq_iff_eq, Prod.mk.injEq] at heq
      exact hne ⟨heq.1, heq.2.2⟩
  unfold Channel.entries
  by_cases henabled : channel.status = channelStatusEnabled
  · simp only [henabled, ne_eq, not_true_eq_false, if_false, true_and]
    induction split channel.group ',' with
    | nil => simp
    | cons g groups ih =>
      rw [List.flatMap_cons, List.count_append, hmodels, ih]
      by_cases hid : channel.id = id
      · by_cases hg : g = group
        · simp only [hg, hid, true_and, if_true, List.count_cons_self]
          ring
        · simp [hg, hid]
      · simp [hid]
  · simp [henabled]

/-- Only the row with an id makes entries with it. -/
theorem count_flatMap_entries {rows : List Channel} (hunique : (rows.map (·.id)).Nodup)
    (hmem : channel ∈ rows) (group model : String) :
    (rows.flatMap Channel.entries).count (group, model, channel.id) =
      channel.entries.count (group, model, channel.id) := by
  have hother : ∀ c : Channel, c.id ≠ channel.id →
      c.entries.count (group, model, channel.id) = 0 := by
    intro c hne
    rw [count_entries, if_neg fun h => hne h.2]
  induction rows with
  | nil => cases hmem
  | cons row rows ih =>
    rw [List.map_cons, List.nodup_cons] at hunique
    obtain ⟨hnew, hunique⟩ := hunique
    rw [List.flatMap_cons, List.count_append]
    rcases List.mem_cons.1 hmem with rfl | hmem
    · have hrest : (rows.flatMap Channel.entries).count (group, model, channel.id) = 0 := by
        rw [List.count_flatMap, List.sum_eq_zero]
        intro n hn
        obtain ⟨c, hc, rfl⟩ := List.mem_map.1 hn
        exact hother c fun heq => hnew (heq ▸ List.mem_map_of_mem hc)
      rw [hrest, add_zero]
    · have hne : row.id ≠ channel.id := fun heq => hnew (heq ▸ List.mem_map_of_mem hmem)
      rw [hother row hne, zero_add]
      exact ih hunique hmem

/-- Pairs of entries of two lists that have entries occur once exactly if the entries do. -/
theorem count_mul_le_one_iff {l₁ l₂ : List String} (h₁ : l₁ ≠ []) (h₂ : l₂ ≠ []) :
    (∀ a b, l₁.count a * l₂.count b ≤ 1) ↔ l₁.Nodup ∧ l₂.Nodup := by
  obtain ⟨a₀, ha₀⟩ := List.exists_mem_of_ne_nil l₁ h₁
  obtain ⟨b₀, hb₀⟩ := List.exists_mem_of_ne_nil l₂ h₂
  constructor
  · intro hle
    constructor
    · refine List.nodup_iff_count_le_one.2 fun a => ?_
      exact (Nat.le_mul_of_pos_right _ (List.count_pos_iff.2 hb₀)).trans (hle a b₀)
    · refine List.nodup_iff_count_le_one.2 fun b => ?_
      exact (Nat.le_mul_of_pos_left _ (List.count_pos_iff.2 ha₀)).trans (hle a₀ b)
  · rintro ⟨hnodup₁, hnodup₂⟩ a b
    exact Nat.mul_le_mul (List.nodup_iff_count_le_one.1 hnodup₁ a)
      (List.nodup_iff_count_le_one.1 hnodup₂ b)

/-- An id is listed at most once everywhere exactly if its channel names nothing twice. -/
theorem count_le_one_iff (table : ChannelTable) (id : ℤ) :
    (∀ group model, (table.rows.flatMap Channel.entries).count (group, model, id) ≤ 1) ↔
      ¬ table.Repeats id := by
  constructor
  · rintro hle ⟨channel, hmem, rfl, henabled, hrepeats⟩
    refine hrepeats ((count_mul_le_one_iff (split_ne_nil _ _) (split_ne_nil _ _)).1 fun g m => ?_)
    have hgm := hle g m
    rwa [count_flatMap_entries table.unique hmem, count_entries, if_pos ⟨henabled, rfl⟩] at hgm
  · intro hno group model
    by_cases hrow : ∃ channel ∈ table.rows, channel.id = id
    · obtain ⟨channel, hmem, rfl⟩ := hrow
      rw [count_flatMap_entries table.unique hmem, count_entries]
      split
      · rename_i henabled
        have hnodup : (split channel.group ',').Nodup ∧ (split channel.models ',').Nodup := by
          by_contra hrepeats
          exact hno ⟨channel, hmem, rfl, henabled.1, hrepeats⟩
        exact (count_mul_le_one_iff (split_ne_nil _ _) (split_ne_nil _ _)).2 hnodup group model
      · exact Nat.zero_le 1
    · have hzero : (table.rows.flatMap Channel.entries).count (group, model, id) = 0 := by
        rw [List.count_flatMap, List.sum_eq_zero]
        intro n hn
        obtain ⟨channel, hmem, rfl⟩ := List.mem_map.1 hn
        rw [Function.comp_apply, count_entries, if_neg]
        rintro ⟨_, hid⟩
        exact hrow ⟨channel, hmem, hid⟩
      rw [hzero]
      exact Nat.zero_le 1

/-! ### Calls of `CacheUpdateChannelStatus` -/

theorem listed_cacheUpdateChannelStatus (cache : ChannelCache) (u : ChannelStatusUpdate)
    (group model : String) : (cacheUpdateChannelStatus cache u).listed group model =
      if u.status ≠ channelStatusEnabled then (cache.listed group model).erase u.id
      else cache.listed group model := by
  unfold cacheUpdateChannelStatus ChannelCache.listed
  split
  · exact listedIn_map cache.group2model2channels (·.erase u.id) rfl group model
  · rfl

/-- A call leaves the other channels in every list, in their order. -/
theorem filter_cacheUpdateChannelStatus (cache : ChannelCache) (u : ChannelStatusUpdate)
    (group model : String) :
    ((cacheUpdateChannelStatus cache u).listed group model).filter (· ≠ u.id) =
      (cache.listed group model).filter (· ≠ u.id) := by
  rw [listed_cacheUpdateChannelStatus]
  split
  · rw [← List.erase_filter, List.erase_of_not_mem]
    simp
  · rfl

/-- How often an id is listed after a call. -/
theorem count_cacheUpdateChannelStatus (cache : ChannelCache) (u : ChannelStatusUpdate)
    (group model : String) (id : ℤ) :
    ((cacheUpdateChannelStatus cache u).listed group model).count id =
      (cache.listed group model).count id -
        if u.status ≠ channelStatusEnabled ∧ u.id = id then 1 else 0 := by
  rw [listed_cacheUpdateChannelStatus]
  by_cases hstatus : u.status = channelStatusEnabled
  · simp [hstatus]
  · by_cases hid : u.id = id
    · subst hid
      simp [hstatus, List.count_erase_self]
    · simp [hstatus, hid, List.count_erase_of_ne (Ne.symm hid)]

/-- Calls list nothing again. -/
theorem count_run_le (cache : ChannelCache) (us : List ChannelStatusUpdate)
    (group model : String) (id : ℤ) :
    ((Transition.run cacheUpdateChannelStatus cache us).listed group model).count id ≤
      (cache.listed group model).count id := by
  have hstep : ∀ c u, (c.listed group model).count id ≤ (cache.listed group model).count id →
      ((cacheUpdateChannelStatus c u).listed group model).count id ≤
        (cache.listed group model).count id := by
    intro c u hc
    rw [count_cacheUpdateChannelStatus]
    exact (Nat.sub_le _ _).trans hc
  exact Transition.run_invariant_always hstep le_rfl us

/-! ### What is chosen -/

theorem mem_channelsOf {channelsIDM : ℤ → Option Channel} {ids : List ℤ}
    (h : channelsOf channelsIDM ids = .ok channels) :
    ∀ channel ∈ channels, ∃ id ∈ ids, channelsIDM id = some channel := by
  induction ids generalizing channels with
  | nil =>
    cases h
    intro channel hmem
    cases hmem
  | cons id ids ih =>
    unfold channelsOf at h
    cases hid : channelsIDM id with
    | none =>
      rw [hid] at h
      cases h
    | some first =>
      cases hrest : channelsOf channelsIDM ids with
      | error missing =>
        simp only [hid, hrest] at h
        cases h
      | ok rest =>
        simp only [hid, hrest] at h
        cases h
        intro channel hmem
        rcases List.mem_cons.1 hmem with rfl | hmem
        · exact ⟨id, List.mem_cons_self, hid⟩
        · obtain ⟨id', hid', hchannel⟩ := ih hrest channel hmem
          exact ⟨id', List.mem_cons_of_mem id hid', hchannel⟩

theorem mem_of_pickByWeight {weight : Channel → ℤ} {randomWeight : ℤ}
    (h : pickByWeight weight randomWeight channels = .ok (some channel)) :
    channel ∈ channels := by
  induction channels generalizing randomWeight with
  | nil => cases h
  | cons first rest ih =>
    unfold pickByWeight at h
    simp only at h
    split at h
    · cases h
      exact List.mem_cons_self
    · exact List.mem_cons_of_mem first (ih h)

theorem mem_of_chooseChannel {group model : String} {retry : ℕ} {intn : ℤ → ℤ}
    (h : chooseChannel group model retry intn channels = .ok (some channel)) :
    channel ∈ channels := by
  unfold chooseChannel at h
  simp only at h
  split at h
  · cases h
  · split at h
    · exact List.mem_of_mem_filter (mem_of_pickByWeight h)
    · split at h
      · exact List.mem_of_mem_filter (mem_of_pickByWeight h)
      · exact List.mem_of_mem_filter (mem_of_pickByWeight h)

/-- **A channel that is chosen is listed.** -/
theorem listed_of_getRandomSatisfiedChannel {group model : String} {retry : ℕ} {intn : ℤ → ℤ}
    (h : getRandomSatisfiedChannel cache group model retry intn = .ok (some channel)) :
    ∃ model' id, id ∈ cache.listed group model' ∧ cache.channelsIDM id = some channel := by
  unfold getRandomSatisfiedChannel at h
  obtain ⟨model', hmodel⟩ : ∃ model', (if cache.listed group model = [] then
      cache.listed group (formatMatchingModelName model) else cache.listed group model) =
        cache.listed group model' := by
    split
    · exact ⟨_, rfl⟩
    · exact ⟨_, rfl⟩
  simp only [hmodel] at h
  refine ⟨model', ?_⟩
  split at h
  · cases h
  · rename_i id hlisted
    split at h
    · rename_i first hfirst
      cases h
      exact ⟨id, by rw [hlisted]; exact List.mem_singleton_self id, hfirst⟩
    · cases h
  · split at h
    · cases h
    · rename_i channels hchannels
      exact mem_channelsOf hchannels channel (mem_of_chooseChannel h)

/-- Each channel in the cache is found by its own id. -/
def ChannelCache.ById (cache : ChannelCache) : Prop :=
  ∀ id channel, cache.channelsIDM id = some channel → channel.id = id

theorem cachedChannel_id (unmarshal : String → Option (List String)) (old : ℤ → Option Channel)
    (channel : Channel) : (cachedChannel unmarshal old channel).id = channel.id := by
  unfold cachedChannel
  split
  · rfl
  · simp only
    split
    · rfl
    · split
      · rfl
      · split <;> rfl

theorem byId_initChannelCache {unmarshal : String → Option (List String)} {sorting : SortSlice}
    {table : ChannelTable} {abilityGroups : List String} {old : ℤ → Option Channel}
    (h : initChannelCache unmarshal sorting table abilityGroups old = some cache) :
    cache.ById := by
  unfold initChannelCache at h
  simp only at h
  split at h
  · cases h
  · obtain rfl := Option.some.inj h
    intro id channel hchannel
    obtain ⟨row, hrow, rfl⟩ := Option.map_eq_some_iff.1 hchannel
    rw [cachedChannel_id]
    simpa using List.find?_some hrow

theorem ChannelCache.ById.update (h : cache.ById) (u : ChannelStatusUpdate) :
    (cacheUpdateChannelStatus cache u).ById := by
  intro id channel hchannel
  by_cases hid : id = u.id
  · subst hid
    simp only [cacheUpdateChannelStatus, Function.update_self] at hchannel
    obtain ⟨before, hbefore, rfl⟩ := Option.map_eq_some_iff.1 hchannel
    exact h _ before hbefore
  · simp only [cacheUpdateChannelStatus, Function.update_of_ne hid] at hchannel
    exact h id channel hchannel

/-! ### A disabled channel -/

/-- After a call that does not enable the channel, whatever calls come before and after it, the
channel is in no list and is never chosen; and no call moves another channel. -/
def DisabledNotSelectable (cache : ChannelCache) (id : ℤ) : Prop :=
  ∀ (before after : List ChannelStatusUpdate) (status : ℤ), status ≠ channelStatusEnabled →
    let earlier := Transition.run cacheUpdateChannelStatus cache before
    let disabled := cacheUpdateChannelStatus earlier ⟨id, status⟩
    let later := Transition.run cacheUpdateChannelStatus disabled after
    (∀ group model, id ∉ later.listed group model) ∧
      (∀ group model, (disabled.listed group model).filter (· ≠ id) =
        (earlier.listed group model).filter (· ≠ id)) ∧
      ∀ group model retry intn channel,
        getRandomSatisfiedChannel later group model retry intn = .ok (some channel) →
          channel.id ≠ id

/-- **A channel that is disabled is out of the cache exactly if it does not name a group or a model
twice.** -/
theorem disabled_not_selectable_iff (unmarshal : String → Option (List String))
    (sorting : SortSlice) (table : ChannelTable) (abilityGroups : List String)
    (old : ℤ → Option Channel) (cache : ChannelCache)
    (hcache : initChannelCache unmarshal sorting table abilityGroups old = some cache) (id : ℤ) :
    DisabledNotSelectable cache id ↔ ¬ table.Repeats id := by
  rw [← count_le_one_iff]
  constructor
  · intro hout group model
    -- one call takes out one entry, and then there is none left
    have hzero := List.count_eq_zero.2 ((hout [] [] 0 (by decide)).1 group model)
    have hone : ((0 : ℤ) ≠ channelStatusEnabled ∧ id = id) := ⟨by decide, rfl⟩
    rw [Transition.run_nil, Transition.run_nil, count_cacheUpdateChannelStatus, if_pos hone,
      count_listed hcache] at hzero
    omega
  · intro hle before after status hstatus earlier disabled later
    have hlisted : ∀ group model, id ∉ later.listed group model := by
      intro group model
      have hbefore : (earlier.listed group model).count id ≤ 1 := by
        refine (count_run_le cache before group model id).trans ?_
        rw [count_listed hcache]
        exact hle group model
      have hdisabled : (disabled.listed group model).count id = 0 := by
        rw [count_cacheUpdateChannelStatus, if_pos ⟨hstatus, rfl⟩]
        omega
      refine List.count_eq_zero.1 (Nat.le_zero.1 ?_)
      exact (count_run_le disabled after group model id).trans hdisabled.le
    refine ⟨hlisted, filter_cacheUpdateChannelStatus earlier ⟨id, status⟩, ?_⟩
    intro group model retry intn channel hchosen
    have hbyId : later.ById := by
      have hstep : ∀ (c : ChannelCache) u, c.ById → (cacheUpdateChannelStatus c u).ById :=
        fun c u hc => hc.update u
      have hearlier : earlier.ById :=
        Transition.run_invariant_always hstep (byId_initChannelCache hcache) before
      exact Transition.run_invariant_always hstep (hearlier.update _) after
    obtain ⟨model', id', hmem, hchannel⟩ := listed_of_getRandomSatisfiedChannel hchosen
    rintro rfl
    rw [← hbyId id' channel hchannel] at hmem
    exact hlisted group model' hmem

/-- The sorting that leaves equal elements in their order. -/
def stableSort : SortSlice where
  sort less l := l.insertionSort fun i j => less j i = false
  perm _ l := List.perm_insertionSort _ l

/-- A table with one enabled channel that serves the models `models` to one group. -/
def oneChannel (models : String) : ChannelTable where
  rows := [{
    id := 1, key := "k", status := channelStatusEnabled, weight := none, models := models
    group := "default", priority := none, otherInfo := ⟨none, none⟩
    channelInfo := ⟨false, ∅, ∅, ∅, 0, .unknown⟩, keys := [] }]
  unique := List.nodup_singleton _

def oneChannelCache (models : String) : Option ChannelCache :=
  initChannelCache (fun _ => none) stableSort (oneChannel models) ["default"] fun _ => none

/-- A channel that names two models can no longer be chosen once it is disabled. -/
theorem disabled_not_selectable_two_models : ∃ cache,
    oneChannelCache "gpt-4o,gpt-4o-mini" = some cache ∧ DisabledNotSelectable cache 1 := by
  have hcache : (oneChannelCache "gpt-4o,gpt-4o-mini").isSome := by decide
  obtain ⟨cache, hcache⟩ := Option.isSome_iff_exists.1 hcache
  refine ⟨cache, hcache, (disabled_not_selectable_iff _ _ _ _ _ cache hcache 1).2 ?_⟩
  rintro ⟨channel, hmem, _, _, hrepeats⟩
  rw [oneChannel, List.mem_singleton] at hmem
  subst hmem
  exact hrepeats (by decide)

/-- The id and the status of the channel that is chosen after channel 1 has been disabled. -/
def chosenAfterDisabling (cache : ChannelCache) : Option (Option (ℤ × ℤ)) :=
  (getRandomSatisfiedChannel (cacheUpdateChannelStatus cache ⟨1, 3⟩) "default" "gpt-4o" 0
    fun _ => 0).toOption.map (·.map fun channel => (channel.id, channel.status))

/-- A channel that names a model twice is still listed, and chosen, once it is disabled. -/
theorem disabled_still_selectable : ∃ cache, oneChannelCache "gpt-4o,gpt-4o" = some cache ∧
    chosenAfterDisabling cache = some (some (1, 3)) ∧ ¬ DisabledNotSelectable cache 1 := by
  have hchosen : (oneChannelCache "gpt-4o,gpt-4o").map chosenAfterDisabling =
      some (some (some (1, 3))) := by decide
  have hlisted : (oneChannelCache "gpt-4o,gpt-4o").map (fun cache =>
      (cacheUpdateChannelStatus cache ⟨1, 3⟩).listed "default" "gpt-4o") = some [1] := by
    decide
  obtain ⟨cache, hcache, hchosen⟩ := Option.map_eq_some_iff.1 hchosen
  rw [hcache, Option.map_some, Option.some.injEq] at hlisted
  refine ⟨cache, hcache, hchosen, fun hout => (hout [] [] 3 (by decide)).1 "default" "gpt-4o" ?_⟩
  rw [Transition.run_nil, Transition.run_nil, hlisted]
  exact List.mem_singleton_self 1

end NewApi

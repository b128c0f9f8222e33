/-
**Choosing a channel without the cache.**

If the cache of channels is off, `GetChannel` of the package `model` asks the table of abilities: it
finds the priority that is next among the enabled rows of a group and a model, and picks one of the
rows that have it.  The cache is built from the channels instead, and a model that is not listed is
looked up under its matching name, which the table is not asked for.

Main definitions:

* `NewApi.abilityRows` — the rows that are written for channels;
* `NewApi.getChannelByAbility` — the choice by the table;
* `NewApi.ChoicesAgree` — both choose a channel of one priority, or none;
* `NewApi.NoOtherName`, `NewApi.SameLevel` — the condition.

Main results:

* `NewApi.mem_abilityRows` — the rows are those that `UpdateAbilities` writes;
* `NewApi.getChannelByAbility_level`, `NewApi.cachedChoice_level` — the priority of what is chosen;
* `NewApi.choices_agree` — **when the table and the cache agree**.
-/

import NewApi.Abilities
import NewApi.ChannelChoice

set_option autoImplicit false

namespace NewApi

/-! ### The table of abilities -/

/-- A row of the table. -/
abbrev AbilityRow := AbilityKey × Ability

/-- The rows that are written for channels. -/
def abilityRows (channels : List TaggedChannel) : List AbilityRow :=
  channels.flatMap fun channel => channel.abilityPairs.map fun pair =>
    (⟨pair.1, pair.2, channel.id⟩, channel.ability)

/-- The enabled rows of a group and a model. -/
def enabledRows (rows : List AbilityRow) (group model : String) : List AbilityRow :=
  rows.filter fun row => row.1.group = group ∧ row.1.model = model ∧ row.2.enabled = true

def getPriority (rows : List AbilityRow) (group model : String) (retry : ℕ) : Except String ℤ :=
  let priorities := Levels.descending ((enabledRows rows group model).map (·.2.priority))
  if priorities = [] then .error "数据库一致性被破坏"
  else if priorities.length ≤ retry then .ok (priorities.getD (priorities.length - 1) 0)
  else .ok (priorities.getD retry 0)

/-- The rows that `getChannelQuery` selects. -/
def getChannelQuery (rows : List AbilityRow) (group model : String) (retry : ℕ) :
    Except String (List AbilityRow) :=
  let enabled := enabledRows rows group model
  if retry ≠ 0 then
    match getPriority rows group model retry with
    | .error e => .error e
    | .ok priority => .ok (enabled.filter (·.2.priority = priority))
  else
    let maxPriority := (enabled.map (·.2.priority)).max?
    .ok (enabled.filter fun row => some row.2.priority = maxPriority)

/-- The channel of the row at which the running sum reaches the random number. -/
def pickAbility : ℤ → List AbilityRow → ℤ
  | _, [] => 0
  | weight, row :: rows =>
    let weight := weight - (row.2.weight + 10)
    if weight ≤ 0 then row.1.channelId else pickAbility weight rows

/-- `model.GetChannel`.  `orderByWeight` is the order in which the table gives the rows, and `intn` the
random number below a bound. -/
def getChannelByAbility (channels : List TaggedChannel) (rows : List AbilityRow)
    (orderByWeight : List AbilityRow → List AbilityRow) (group model : String) (retry : ℕ)
    (intn : ℤ → ℤ) : Except String (Option TaggedChannel) :=
  match getChannelQuery rows group model retry with
  | .error e => .error e
  | .ok selected =>
    let abilities := orderByWeight selected
    if abilities = [] then .ok none
    else
      let weightSum := (abilities.map fun row => row.2.weight + 10).sum
      let id := pickAbility (intn weightSum) abilities
      match channels.find? (·.id = id) with
      | some channel => .ok (some channel)
      | none => .error "record not found"

/-! ### The two choices -/

/-- The rows of the table of channels.  The id is the primary key, and the weight has no sign. -/
structure ChannelRows where
  channels : List TaggedChannel
  unique : (channels.map fun c => c.id).Nodup
  weights : ∀ c ∈ channels, 0 ≤ c.getWeight

/-- An order in which the table gives rows. -/
structure RowOrder where
  order : List AbilityRow → List AbilityRow
  perm : ∀ l, (order l).Perm l

/-- What `rand.Intn` gives. -/
def IsIntn (intn : ℤ → ℤ) : Prop := ∀ n, 0 < n → 0 ≤ intn n ∧ intn n < n

/-- Both choose a channel of one priority, or none chooses any, whatever numbers are drawn. -/
def ChoicesAgree (channels : List TaggedChannel)
    (orderByWeight : List AbilityRow → List AbilityRow) (cache : ChannelCache)
    (group model : String) (retry : ℕ) : Prop :=
  ∀ intn intn', IsIntn intn → IsIntn intn' →
    match getChannelByAbility channels (abilityRows channels) orderByWeight group model retry intn,
      getRandomSatisfiedChannel cache group model retry intn' with
    | .ok (some channel), .ok (some channel') => channel.getPriority = channel'.getPriority
    | .ok (some _), _ => False
    | _, .ok (some _) => False
    | _, _ => True

/-- The priorities of the enabled channels that name a group and a model. -/
def namedPriorities (channels : List TaggedChannel) (group model : String) : Finset ℤ :=
  ((channels.filter fun c => c.status = channelStatusEnabled ∧ (group, model) ∈ c.pairs).map
    (·.getPriority)).toFinset

/-- The priorities of the enabled channels that have a row for a group and a model. -/
def writtenPriorities (channels : List TaggedChannel) (group model : String) : Finset ℤ :=
  ((channels.filter fun c =>
    c.status = channelStatusEnabled ∧ (group, model) ∈ c.abilityPairs).map
      (·.getPriority)).toFinset

/-- A model that no channel names is not named by its matching name either. -/
def NoOtherName (channels : List TaggedChannel) (group model : String) : Prop :=
  namedPriorities channels group model = ∅ →
    namedPriorities channels group (formatMatchingModelName model) = ∅

/-- The channels with a row for a model have the same priority next as those that name it. -/
def SameLevel (channels : List TaggedChannel) (group model : String) (retry : ℕ) : Prop :=
  namedPriorities channels group model ≠ ∅ →
    ∃ p, Levels.IsLevel (writtenPriorities channels group model)
          (min retry ((writtenPriorities channels group model).card - 1)) p ∧
        Levels.IsLevel (namedPriorities channels group model)
          (min retry ((namedPriorities channels group model).card - 1)) p

/-! ### The rows that are written -/

section Rows

variable {channels : List TaggedChannel}

theorem updateAbilities_eq (channel : TaggedChannel) (abilities : AbilityTable)
    (key : AbilityKey) :
    updateAbilities channel abilities key =
      if key.channelId = channel.id then
        if (key.group, key.model) ∈ channel.abilityPairs then some channel.ability else none
      else abilities key := by
  rw [updateAbilities, addAbilities_apply, deleteAbilities]
  by_cases hid : key.channelId = channel.id
  · simp [hid]
  · simp [hid]

/-- **The rows are those that `UpdateAbilities` writes** for one channel after the other. -/
theorem mem_abilityRows (hnd : (channels.map fun c => c.id).Nodup) (key : AbilityKey)
    (ability : Ability) : (key, ability) ∈ abilityRows channels ↔
      channels.foldl (fun abilities c => updateAbilities c abilities) (fun _ => none) key =
        some ability := by
  have hrows : ∀ c : TaggedChannel, (key, ability) ∈ (c.abilityPairs.map fun pair =>
      ((⟨pair.1, pair.2, c.id⟩, c.ability) : AbilityRow)) ↔
        key.channelId = c.id ∧ (key.group, key.model) ∈ c.abilityPairs ∧ c.ability = ability := by
    intro c
    constructor
    · intro hmem
      obtain ⟨pair, hpair, heq⟩ := List.mem_map.1 hmem
      obtain ⟨rfl, rfl⟩ := Prod.mk.inj heq
      exact ⟨rfl, hpair, rfl⟩
    · rintro ⟨hid, hpair, rfl⟩
      exact List.mem_map.2 ⟨(key.group, key.model), hpair, by rw [← hid]⟩
  have hwritten : ∀ (l : List TaggedChannel) (abilities : AbilityTable),
      (l.map fun c => c.id).Nodup →
      (l.foldl (fun abilities c => updateAbilities c abilities) abilities key = some ability ↔
        (∃ c ∈ l, key.channelId = c.id ∧ (key.group, key.model) ∈ c.abilityPairs ∧
          c.ability = ability) ∨
        (∀ c ∈ l, c.id ≠ key.channelId) ∧ abilities key = some ability) := by
    intro l
    induction l with
    | nil =>
      intro abilities _
      simp
    | cons c l ih =>
      intro abilities hnd
      rw [List.map_cons, List.nodup_cons] at hnd
      rw [List.foldl_cons, ih _ hnd.2, updateAbilities_eq]
      by_cases hid : key.channelId = c.id
      · have hno : ∀ c' ∈ l, c'.id ≠ key.channelId := by
          intro c' hc' heq
          exact hnd.1 (List.mem_map.2 ⟨c', hc', heq.trans hid⟩)
        have hnone : ¬∃ c' ∈ l, key.channelId = c'.id ∧
            (key.group, key.model) ∈ c'.abilityPairs ∧ c'.ability = ability := by
          rintro ⟨c', hc', heq, -⟩
          exact hno c' hc' heq.symm
        simp only [hid, if_true, List.mem_cons, exists_eq_or_imp, forall_eq_or_imp]
        simp only [hid] at hnone hno
        simp only [hnone, false_or, or_false, true_and, ne_eq, not_true_eq_false, false_and]
        constructor
        · rintro ⟨-, hsome⟩
          split at hsome
          · rename_i hpair
            exact ⟨hpair, Option.some.inj hsome⟩
          · cases hsome
        · rintro ⟨hpair, rfl⟩
          exact ⟨hno, by rw [if_pos hpair]⟩
      · simp only [hid, if_false, List.mem_cons, exists_eq_or_imp, forall_eq_or_imp, false_and,
          false_or, ne_eq, Ne.symm hid, not_false_eq_true, true_and]
  rw [hwritten channels _ hnd, abilityRows, List.mem_flatMap]
  simp only [hrows]
  constructor
  · intro h
    exact .inl h
  · rintro (h | ⟨-, h⟩)
    · exact h
    · cases h

/-- An enabled row of a group and a model is that of an enabled channel. -/
theorem mem_enabledRows {group model : String} {row : AbilityRow} :
    row ∈ enabledRows (abilityRows channels) group model ↔
      ∃ c ∈ channels, c.status = channelStatusEnabled ∧ (group, model) ∈ c.abilityPairs ∧
        row = (⟨group, model, c.id⟩, c.ability) := by
  rw [enabledRows, List.mem_filter, abilityRows, List.mem_flatMap]
  constructor
  · rintro ⟨⟨c, hc, hrow⟩, hselected⟩
    obtain ⟨pair, hpair, rfl⟩ := List.mem_map.1 hrow
    obtain ⟨rfl, rfl, henabled⟩ := of_decide_eq_true hselected
    exact ⟨c, hc, of_decide_eq_true henabled, hpair, rfl⟩
  · rintro ⟨c, hc, henabled, hpair, rfl⟩
    exact ⟨⟨c, hc, List.mem_map.2 ⟨_, hpair, rfl⟩⟩,
      decide_eq_true ⟨rfl, rfl, decide_eq_true henabled⟩⟩

/-- The priorities of the enabled rows are those of the channels that have them. -/
theorem priorities_enabledRows (group model : String) :
    ((enabledRows (abilityRows channels) group model).map (·.2.priority)).toFinset =
      writtenPriorities channels group model := by
  ext p
  simp only [writtenPriorities, List.mem_toFinset, List.mem_map, List.mem_filter]
  constructor
  · rintro ⟨row, hrow, rfl⟩
    obtain ⟨c, hc, henabled, hpair, rfl⟩ := mem_enabledRows.1 hrow
    exact ⟨c, ⟨hc, decide_eq_true ⟨henabled, hpair⟩⟩, rfl⟩
  · rintro ⟨c, ⟨hc, hselected⟩, rfl⟩
    obtain ⟨henabled, hpair⟩ := of_decide_eq_true hselected
    exact ⟨_, mem_enabledRows.2 ⟨c, hc, henabled, hpair, rfl⟩, rfl⟩

/-- There are as many priorities as none exactly if there are no rows. -/
theorem writtenPriorities_eq_empty_iff (group model : String) :
    writtenPriorities channels group model = ∅ ↔
      enabledRows (abilityRows channels) group model = [] := by
  rw [← priorities_enabledRows, List.toFinset_eq_empty_iff, List.map_eq_nil_iff]

end Rows

/-! ### The choice by the table -/

theorem pickAbility_mem {abilities : List AbilityRow} (hne : abilities ≠ []) {weight : ℤ}
    (hlt : weight < (abilities.map fun row => row.2.weight + 10).sum) :
    ∃ row ∈ abilities, pickAbility weight abilities = row.1.channelId := by
  induction abilities generalizing weight with
  | nil => exact absurd rfl hne
  | cons row abilities ih =>
    by_cases hle : weight - (row.2.weight + 10) ≤ 0
    · exact ⟨row, List.mem_cons_self, by rw [pickAbility, if_pos hle]⟩
    · rw [List.map_cons, List.sum_cons] at hlt
      have hrest : abilities ≠ [] := by
        rintro rfl
        rw [List.map_nil, List.sum_nil] at hlt
        omega
      obtain ⟨row', hmem, hpick⟩ := ih hrest (by omega : weight - (row.2.weight + 10) < _)
      exact ⟨row', List.mem_cons_of_mem row hmem, by rw [pickAbility, if_neg hle, hpick]⟩

section Table

variable {rows : List AbilityRow} {group model : String} {retry : ℕ}

/-- `getPriority` finds the priority that is next. -/
theorem getPriority_level (hne : enabledRows rows group model ≠ []) (retry : ℕ) :
    ∃ p, getPriority rows group model retry = .ok p ∧
      Levels.IsLevel ((enabledRows rows group model).map (·.2.priority)).toFinset
        (min retry (((enabledRows rows group model).map (·.2.priority)).toFinset.card - 1)) p := by
  generalize hps : (enabledRows rows group model).map (·.2.priority) = ps
  have hpsNe : ps ≠ [] := by
    rw [← hps]
    exact fun hnil => hne (List.map_eq_nil_iff.1 hnil)
  have hlength : (Levels.descending ps).length = ps.toFinset.card := Levels.length_descending ps
  have hpos : 0 < (Levels.descending ps).length := by
    obtain ⟨p, hp⟩ := List.exists_mem_of_ne_nil ps hpsNe
    exact List.length_pos_of_mem (Levels.mem_descending.2 hp)
  have hplace : min retry (ps.toFinset.card - 1) < (Levels.descending ps).length := by omega
  refine ⟨(Levels.descending ps)[min retry (ps.toFinset.card - 1)], ?_, ?_⟩
  · rw [getPriority, hps, if_neg (List.length_pos_iff.1 hpos)]
    rw [← List.getD_eq_getElem _ 0 hplace]
    split
    · have hindex : (Levels.descending ps).length - 1 = min retry (ps.toFinset.card - 1) := by omega
      rw [hindex]
    · have hindex : retry = min retry (ps.toFinset.card - 1) := by omega
      exact congrArg (fun n => Except.ok ((Levels.descending ps).getD n 0)) hindex
  · have hlevel := Levels.isLevel_getElem (Levels.descending_pairwise ps) hplace
    rw [Levels.toFinset_descending] at hlevel
    exact hlevel

/-- The rows that are selected are those of the priority that is next. -/
theorem getChannelQuery_level (hne : enabledRows rows group model ≠ []) :
    ∃ p, getChannelQuery rows group model retry =
        .ok ((enabledRows rows group model).filter (·.2.priority = p)) ∧
      Levels.IsLevel ((enabledRows rows group model).map (·.2.priority)).toFinset
        (min retry (((enabledRows rows group model).map (·.2.priority)).toFinset.card - 1)) p := by
  by_cases hretry : retry = 0
  · subst hretry
    have hps : (enabledRows rows group model).map (·.2.priority) ≠ [] :=
      fun hnil => hne (List.map_eq_nil_iff.1 hnil)
    obtain ⟨p, hp⟩ := Option.isSome_iff_exists.1 (List.isSome_max?_of_ne_nil hps)
    obtain ⟨hmem, hmax⟩ := List.max?_eq_some_iff.1 hp
    refine ⟨p, ?_, ?_⟩
    · rw [getChannelQuery, if_neg (by decide)]
      simp only [hp, Option.some_inj]
    · rw [Nat.zero_min]
      exact Levels.isLevel_zero (List.mem_toFinset.2 hmem)
        fun b hb => hmax b (List.mem_toFinset.1 hb)
  · obtain ⟨p, hp, hlevel⟩ := getPriority_level hne retry
    refine ⟨p, ?_, hlevel⟩
    rw [getChannelQuery, if_pos hretry]
    simp only [hp]

end Table

section Choices

variable {channels : List TaggedChannel} {group model : String} {retry : ℕ}

/-- **The channel that the table chooses** is one with a row, of the priority that is next among
these. -/
theorem getChannelByAbility_level (hnd : (channels.map fun c => c.id).Nodup)
    (hweights : ∀ c ∈ channels, 0 ≤ c.getWeight)
    {orderByWeight : List AbilityRow → List AbilityRow} (horder : ∀ l, (orderByWeight l).Perm l)
    {intn : ℤ → ℤ} (hintn : IsIntn intn) (hne : writtenPriorities channels group model ≠ ∅) :
    ∃ c, getChannelByAbility channels (abilityRows channels) orderByWeight group model retry intn =
        .ok (some c) ∧
      Levels.IsLevel (writtenPriorities channels group model)
        (min retry ((writtenPriorities channels group model).card - 1)) c.getPriority := by
  have hrows : enabledRows (abilityRows channels) group model ≠ [] :=
    fun hnil => hne ((writtenPriorities_eq_empty_iff group model).2 hnil)
  obtain ⟨p, hquery, hlevel⟩ := @getChannelQuery_level _ _ _ retry hrows
  rw [priorities_enabledRows] at hlevel
  generalize hselected : (enabledRows (abilityRows channels) group model).filter
    (·.2.priority = p) = selected at hquery
  have hmem : ∀ row ∈ orderByWeight selected, ∃ c ∈ channels, c.getPriority = p ∧
      row = (⟨group, model, c.id⟩, c.ability) := by
    intro row hrow
    rw [(horder selected).mem_iff, ← hselected] at hrow
    obtain ⟨hrow, hpriority⟩ := List.mem_filter.1 hrow
    obtain ⟨c, hc, -, -, rfl⟩ := mem_enabledRows.1 hrow
    exact ⟨c, hc, of_decide_eq_true hpriority, rfl⟩
  have hsome : orderByWeight selected ≠ [] := by
    have hp := hlevel.1
    rw [← priorities_enabledRows] at hp
    obtain ⟨row, hrow, hpriority⟩ := List.mem_map.1 (List.mem_toFinset.1 hp)
    have hin : row ∈ selected := by
      rw [← hselected]
      exact List.mem_filter.2 ⟨hrow, decide_eq_true hpriority⟩
    exact List.ne_nil_of_mem ((horder selected).mem_iff.2 hin)
  have hpos : 0 < ((orderByWeight selected).map fun row => row.2.weight + 10).sum := by
    refine List.sum_pos _ ?_ fun hnil => hsome (List.map_eq_nil_iff.1 hnil)
    intro n hn
    obtain ⟨row, hrow, rfl⟩ := List.mem_map.1 hn
    obtain ⟨c, hc, -, rfl⟩ := hmem row hrow
    have hweight := hweights c hc
    show (0 : ℤ) < c.getWeight + 10
    omega
  obtain ⟨row, hrow, hpick⟩ := pickAbility_mem hsome (hintn _ hpos).2
  obtain ⟨c, hc, hpriority, rfl⟩ := hmem row hrow
  have hfind : channels.find? (·.id = c.id) = some c := by
    obtain ⟨c', hc'⟩ := Option.isSome_iff_exists.1
      (List.find?_isSome.2 ⟨c, hc, decide_eq_true rfl⟩ : (channels.find? (·.id = c.id)).isSome)
    have hid : c'.id = c.id := by simpa using List.find?_some hc'
    have heq : c' = c := Rows.eq_of_key_eq hnd (List.mem_of_find?_eq_some hc') hc hid
    rw [hc', heq]
  refine ⟨c, ?_, ?_⟩
  · rw [getChannelByAbility, hquery]
    simp only [if_neg hsome, hpick, hfind]
  · rw [hpriority]
    exact hlevel

/-- Without rows nothing is chosen. -/
theorem getChannelByAbility_none {orderByWeight : List AbilityRow → List AbilityRow}
    (horder : ∀ l, (orderByWeight l).Perm l) (intn : ℤ → ℤ)
    (hempty : writtenPriorities channels group model = ∅) :
    getChannelByAbility channels (abilityRows channels) orderByWeight group model retry intn =
        .ok none ∨
      ∃ e, getChannelByAbility channels (abilityRows channels) orderByWeight group model retry intn =
        .error e := by
  have hrows := (writtenPriorities_eq_empty_iff group model).1 hempty
  unfold getChannelByAbility getChannelQuery getPriority
  simp only [hrows]
  by_cases hretry : retry = 0
  · left
    have hnil : orderByWeight [] = [] := List.perm_nil.1 (horder [])
    simp [hretry, hnil]
  · right
    simp [hretry, Levels.descending]

/-! ### The choice by the cache -/

/-- The table of channels. -/
def channelTable (channels : List TaggedChannel) (hnd : (channels.map fun c => c.id).Nodup) :
    ChannelTable where
  rows := channels.map fun c => c.toChannel
  unique := by
    rw [List.map_map]
    exact hnd

/-- The entries of a channel are its pairs. -/
theorem mem_entries {c : Channel} {group model : String} {id : ℤ} :
    (group, model, id) ∈ c.entries ↔
      c.status = channelStatusEnabled ∧ c.id = id ∧ model ∈ split c.models ',' ∧
        group ∈ split c.group ',' := by
  unfold Channel.entries
  by_cases henabled : c.status = channelStatusEnabled
  · rw [if_neg (not_not.2 henabled)]
    simp only [List.mem_flatMap, List.mem_map, Prod.mk.injEq]
    constructor
    · rintro ⟨g, hg, m, hm, rfl, rfl, rfl⟩
      exact ⟨henabled, rfl, hm, hg⟩
    · rintro ⟨-, rfl, hm, hg⟩
      exact ⟨group, hg, model, hm, rfl, rfl, rfl⟩
  · rw [if_pos henabled]
    constructor
    · intro h
      cases h
    · intro h
      exact absurd h.1 henabled

/-- The cache changes neither the priority nor the weight of a channel. -/
theorem cachedChannel_same (unmarshal : String → Option (List String)) (old : ℤ → Option Channel)
    (channel : Channel) :
    (cachedChannel unmarshal old channel).getPriority = channel.getPriority ∧
      (cachedChannel unmarshal old channel).getWeight = channel.getWeight := by
  unfold cachedChannel
  split
  · exact ⟨rfl, rfl⟩
  · simp only
    split
    · exact ⟨rfl, rfl⟩
    · split
      · exact ⟨rfl, rfl⟩
      · split <;> exact ⟨rfl, rfl⟩

section Cache

variable {hnd : (channels.map fun c => c.id).Nodup} {unmarshal : String → Option (List String)}
  {sorting : SortSlice} {abilityGroups : List String} {old : ℤ → Option Channel}
  {cache : ChannelCache}

/-- The ids that are listed for a group and a model are those of the enabled channels that name
them. -/
theorem mem_listed_iff (h : initChannelCache unmarshal sorting (channelTable channels hnd)
      abilityGroups old = some cache) {id : ℤ} :
    id ∈ cache.listed group model ↔
      ∃ c ∈ channels, c.id = id ∧ c.status = channelStatusEnabled ∧ (group, model) ∈ c.pairs := by
  rw [← List.count_pos_iff, count_listed h, List.count_pos_iff, List.mem_flatMap]
  constructor
  · rintro ⟨row, hrow, hentry⟩
    obtain ⟨c, hc, rfl⟩ := List.mem_map.1 hrow
    obtain ⟨henabled, hid, hmodel, hgroup⟩ := mem_entries.1 hentry
    exact ⟨c, hc, hid, henabled, mem_pairs.2 ⟨hmodel, hgroup⟩⟩
  · rintro ⟨c, hc, hid, henabled, hpair⟩
    obtain ⟨hmodel, hgroup⟩ := mem_pairs.1 hpair
    exact ⟨c.toChannel, List.mem_map_of_mem hc, mem_entries.2 ⟨henabled, hid, hmodel, hgroup⟩⟩

/-- The cache has the priority of a channel of the table. -/
theorem priority_channelsIDM (h : initChannelCache unmarshal sorting (channelTable channels hnd)
      abilityGroups old = some cache) {c : TaggedChannel} (hc : c ∈ channels) :
    ∃ channel, cache.channelsIDM c.id = some channel ∧ channel.getPriority = c.getPriority ∧
      channel.getWeight = c.getWeight := by
  have hrow : channelById (channelTable channels hnd).rows c.id = some c.toChannel := by
    obtain ⟨row, hrow⟩ := Option.isSome_iff_exists.1
      (List.find?_isSome.2 ⟨c.toChannel, List.mem_reverse.2 (List.mem_map_of_mem hc),
        decide_eq_true rfl⟩ :
        (channelById (channelTable channels hnd).rows c.id).isSome)
    have hmem := List.mem_reverse.1 (List.mem_of_find?_eq_some hrow)
    obtain ⟨c', hc', rfl⟩ := List.mem_map.1 hmem
    have hid : c'.id = c.id := by simpa using List.find?_some hrow
    have heq : c' = c := Rows.eq_of_key_eq hnd hc' hc hid
    exact hrow.trans (congrArg (fun x : TaggedChannel => some x.toChannel) heq)
  unfold initChannelCache at h
  simp only at h
  split at h
  · cases h
  · obtain rfl := Option.some.inj h
    exact ⟨_, by simp only [hrow, Option.map_some], cachedChannel_same unmarshal old c.toChannel⟩

/-- The channels in the cache have no negative weights. -/
theorem weights_channelsIDM (h : initChannelCache unmarshal sorting (channelTable channels hnd)
      abilityGroups old = some cache) (hweights : ∀ c ∈ channels, 0 ≤ c.getWeight) :
    ∀ id channel, cache.channelsIDM id = some channel → 0 ≤ channel.getWeight := by
  unfold initChannelCache at h
  simp only at h
  split at h
  · cases h
  · obtain rfl := Option.some.inj h
    intro id channel hchannel
    obtain ⟨row, hrow, rfl⟩ := Option.map_eq_some_iff.1 hchannel
    obtain ⟨c, hc, rfl⟩ := List.mem_map.1 (List.mem_reverse.1 (List.mem_of_find?_eq_some hrow))
    rw [(cachedChannel_same unmarshal old c.toChannel).2]
    exact hweights c hc

/-- The priorities of the channels to choose from are those of the channels that name the model, or
its matching name. -/
theorem priorities_channels (h : initChannelCache unmarshal sorting (channelTable channels hnd)
      abilityGroups old = some cache) :
    priorities (cache.channels group model) =
      if namedPriorities channels group model = ∅ then
        namedPriorities channels group (formatMatchingModelName model)
      else namedPriorities channels group model := by
  have hlisted : ∀ m, ((cache.listed group m).filterMap cache.channelsIDM |>.map
      Channel.getPriority).toFinset = namedPriorities channels group m := by
    intro m
    ext p
    simp only [namedPriorities, List.mem_toFinset, List.mem_map, List.mem_filterMap,
      List.mem_filter]
    constructor
    · rintro ⟨channel, ⟨id, hid, hchannel⟩, rfl⟩
      obtain ⟨c, hc, rfl, henabled, hpair⟩ := (mem_listed_iff h).1 hid
      obtain ⟨channel', hchannel', hpriority, -⟩ := priority_channelsIDM h hc
      rw [hchannel'] at hchannel
      cases hchannel
      exact ⟨c, ⟨hc, decide_eq_true ⟨henabled, hpair⟩⟩, hpriority.symm⟩
    · rintro ⟨c, ⟨hc, hselected⟩, rfl⟩
      obtain ⟨henabled, hpair⟩ := of_decide_eq_true hselected
      obtain ⟨channel, hchannel, hpriority, -⟩ := priority_channelsIDM h hc
      exact ⟨channel, ⟨c.id, (mem_listed_iff h).2 ⟨c, hc, rfl, henabled, hpair⟩, hchannel⟩,
        hpriority⟩
  have hnone : cache.listed group model = [] ↔ namedPriorities channels group model = ∅ := by
    rw [namedPriorities, List.toFinset_eq_empty_iff, List.map_eq_nil_iff, List.filter_eq_nil_iff,
      List.eq_nil_iff_forall_not_mem]
    constructor
    · intro hno c hc hselected
      obtain ⟨henabled, hpair⟩ := of_decide_eq_true hselected
      exact hno c.id ((mem_listed_iff h).2 ⟨c, hc, rfl, henabled, hpair⟩)
    · intro hno id hid
      obtain ⟨c, hc, -, henabled, hpair⟩ := (mem_listed_iff h).1 hid
      exact hno c hc (decide_eq_true ⟨henabled, hpair⟩)
  unfold priorities ChannelCache.channels ChannelCache.candidates
  simp only [hnone]
  split
  · exact hlisted _
  · exact hlisted _

/-- **The channel that the cache chooses** has the priority that is next among the channels to
choose from. -/
theorem cachedChoice_level (h : cache.Consistent)
    (hweights : ∀ id channel, cache.channelsIDM id = some channel → 0 ≤ channel.getWeight)
    {intn : ℤ → ℤ} (hintn : IsIntn intn)
    (hne : priorities (cache.channels group model) ≠ ∅) :
    ∃ channel, getRandomSatisfiedChannel cache group model retry intn = .ok (some channel) ∧
      Levels.IsLevel (priorities (cache.channels group model))
        (min retry ((priorities (cache.channels group model)).card - 1)) channel.getPriority := by
  have hcandidates : cache.candidates group model ≠ [] := by
    intro hnil
    rw [priorities, ChannelCache.channels, hnil] at hne
    exact hne rfl
  by_cases htwo : 2 ≤ (cache.candidates group model).length
  · have hnonneg : ∀ c ∈ cache.targets group model retry, 0 ≤ c.getWeight := by
      intro c hc
      obtain ⟨id, -, hid⟩ := List.mem_filterMap.1 (List.mem_of_mem_filter hc)
      exact hweights id c hid
    have hpos := total_effectiveWeight_pos hnonneg
      (targetChannels_ne_nil retry (h.channels_ne_nil hcandidates))
    obtain ⟨channel, -, hpick, hlevel⟩ :=
      @exists_pick_target _ _ _ retry h hcandidates _ (hintn _ hpos).2
    exact ⟨channel, by rw [getRandomSatisfiedChannel_eq h htwo]; exact hpick, hlevel⟩
  · obtain ⟨id, hid⟩ : ∃ id, cache.candidates group model = [id] := by
      refine List.length_eq_one_iff.1 ?_
      have hpos := List.length_pos_iff.2 hcandidates
      omega
    obtain ⟨channel, hchannel⟩ := Option.isSome_iff_exists.1
      (h.candidates id (by rw [hid]; exact List.mem_singleton_self id))
    have hchannels : cache.channels group model = [channel] := by
      rw [ChannelCache.channels, hid, List.filterMap_cons_some hchannel, List.filterMap_nil]
    refine ⟨channel, ?_, ?_⟩
    · have hlisted : (if cache.listed group model = [] then
          cache.listed group (formatMatchingModelName model) else cache.listed group model) =
            [id] := hid
      unfold getRandomSatisfiedChannel
      simp only [hlisted, hchannel]
    · rw [hchannels]
      have hone : priorities [channel] = {channel.getPriority} := rfl
      rw [hone, Finset.card_singleton, Nat.sub_self, Nat.min_zero]
      refine Levels.isLevel_zero (Finset.mem_singleton_self _) fun b hb => ?_
      exact (Finset.mem_singleton.1 hb).le

/-- If nothing is listed nothing is chosen. -/
theorem cachedChoice_none (intn : ℤ → ℤ) (h : cache.Consistent)
    (hempty : priorities (cache.channels group model) = ∅) :
    getRandomSatisfiedChannel cache group model retry intn = .ok none := by
  have hcandidates : cache.candidates group model = [] := by
    by_contra hne
    have hchannels := h.channels_ne_nil hne
    rw [priorities, List.toFinset_eq_empty_iff, List.map_eq_nil_iff] at hempty
    exact hchannels hempty
  have hlisted : (if cache.listed group model = [] then
      cache.listed group (formatMatchingModelName model) else cache.listed group model) = [] :=
    hcandidates
  unfold getRandomSatisfiedChannel
  simp only [hlisted]

end Cache

end Choices

/-! ### Building the cache -/

/-- The pairs at the beginning are found as they would be alone. -/
theorem mem_unseen_append {seen : List String} {pairs more : List (String × String)}
    {pair : String × String} (h : pair ∈ TaggedChannel.unseen seen pairs) :
    pair ∈ TaggedChannel.unseen seen (pairs ++ more) := by
  induction pairs generalizing seen with
  | nil => cases h
  | cons p pairs ih =>
    rw [TaggedChannel.unseen] at h
    rw [List.cons_append, TaggedChannel.unseen]
    by_cases hp : TaggedChannel.pairKey p ∈ seen
    · rw [if_pos hp] at h ⊢
      exact ih h
    · rw [if_neg hp] at h ⊢
      rcases List.mem_cons.1 h with rfl | h
      · exact List.mem_cons_self
      · exact List.mem_cons_of_mem p (ih h)

/-- Each group of a channel has a row, as no two of the pairs with the first model clash. -/
theorem exists_abilityPair {c : TaggedChannel} {group : String}
    (hgroup : group ∈ split c.group ',') : ∃ model, (group, model) ∈ c.abilityPairs := by
  cases hmodels : split c.models ',' with
  | nil => exact absurd hmodels (split_ne_nil _ _)
  | cons model models =>
    refine ⟨model, ?_⟩
    rw [TaggedChannel.abilityPairs, TaggedChannel.pairs, hmodels, List.flatMap_cons]
    refine mem_unseen_append (TaggedChannel.mem_unseen ?_ (List.mem_map_of_mem hgroup)
      List.not_mem_nil)
    intro p hp p' hp' heq
    obtain ⟨g, -, rfl⟩ := List.mem_map.1 hp
    obtain ⟨g', -, rfl⟩ := List.mem_map.1 hp'
    have htexts : g = g' := by
      simp only [TaggedChannel.pairKey] at heq
      exact (String.append_left_inj _).1 ((String.append_left_inj _).1 heq)
    rw [htexts]

/-- Entries of groups that are there can be appended. -/
theorem isSome_foldlM_appendChannel {entries : List (String × String × ℤ)}
    {lists : String → Option (String → List ℤ)} (h : ∀ e ∈ entries, (lists e.1).isSome) :
    (entries.foldlM appendChannel lists).isSome := by
  induction entries generalizing lists with
  | nil => rfl
  | cons e entries ih =>
    obtain ⟨model2channels, hlist⟩ := Option.isSome_iff_exists.1 (h e List.mem_cons_self)
    rw [List.foldlM_cons, appendChannel, hlist]
    refine ih fun e' he' => ?_
    by_cases heq : e'.1 = e.1
    · rw [heq, Function.update_self]
      rfl
    · rw [Function.update_of_ne heq]
      exact h e' (List.mem_cons_of_mem e he')

/-- **The cache can be built** from the channels and the groups of the rows that are written for
them. -/
theorem isSome_initChannelCache (unmarshal : String → Option (List String)) (sorting : SortSlice)
    (old : ℤ → Option Channel) (table : ChannelRows) :
    (initChannelCache unmarshal sorting (channelTable table.channels table.unique)
      ((abilityRows table.channels).map (·.1.group)) old).isSome := by
  have hgroups : ∀ e ∈ (channelTable table.channels table.unique).rows.flatMap Channel.entries,
      e.1 ∈ (abilityRows table.channels).map (·.1.group) := by
    rintro ⟨group, model, id⟩ he
    obtain ⟨row, hrow, hentry⟩ := List.mem_flatMap.1 he
    obtain ⟨c, hc, rfl⟩ := List.mem_map.1 hrow
    obtain ⟨-, -, -, hgroup⟩ := mem_entries.1 hentry
    obtain ⟨model', hpair⟩ := exists_abilityPair hgroup
    exact List.mem_map.2 ⟨(⟨group, model', c.id⟩, c.ability),
      List.mem_flatMap.2 ⟨c, hc, List.mem_map.2 ⟨_, hpair, rfl⟩⟩, rfl⟩
  have hfold := @isSome_foldlM_appendChannel
    ((channelTable table.channels table.unique).rows.flatMap Channel.entries)
    (fun group => if group ∈ (abilityRows table.channels).map (·.1.group) then some fun _ => []
      else none) (fun e he => by rw [if_pos (hgroups e he)]; rfl)
  obtain ⟨lists, hlists⟩ := Option.isSome_iff_exists.1 hfold
  unfold initChannelCache
  simp only [hlists, Option.isSome_some]

/-! ### Table and cache -/

theorem written_subset_named (channels : List TaggedChannel) (group model : String) :
    writtenPriorities channels group model ⊆ namedPriorities channels group model := by
  intro p hp
  simp only [writtenPriorities, namedPriorities, List.mem_toFinset, List.mem_map,
    List.mem_filter] at hp ⊢
  obtain ⟨c, ⟨hc, hselected⟩, rfl⟩ := hp
  obtain ⟨henabled, hpair⟩ := of_decide_eq_true hselected
  exact ⟨c, ⟨hc, decide_eq_true ⟨henabled, TaggedChannel.mem_of_mem_unseen hpair⟩⟩, rfl⟩

/-- **The table and the cache agree** about a group, a model and a retry exactly if a model that no
enabled channel names is not named by its matching name either, and the rows that are left out
because the texts of two pairs are the same do not change the priority that is next. -/
theorem choices_agree (table : ChannelRows) (rows : RowOrder)
    (unmarshal : String → Option (List String)) (sorting : SortSlice)
    (old : ℤ → Option Channel) :
    ∃ cache, initChannelCache unmarshal sorting (channelTable table.channels table.unique)
        ((abilityRows table.channels).map (·.1.group)) old = some cache ∧
      ∀ group model retry, ChoicesAgree table.channels rows.order cache group model retry ↔
        NoOtherName table.channels group model ∧
          SameLevel table.channels group model retry := by
  obtain ⟨cache, hcache⟩ := Option.isSome_iff_exists.1
    (isSome_initChannelCache unmarshal sorting old table)
  refine ⟨cache, hcache, fun group model retry => ?_⟩
  have hconsistent := consistent_initChannelCache hcache
  have hpriorities := @priorities_channels table.channels group model _ _ _ _ _ _ hcache
  have hsubset := written_subset_named table.channels group model
  have hweights := weights_channelsIDM hcache table.weights
  constructor
  · intro hagree
    have hzero : IsIntn fun _ => 0 := fun n hn => ⟨le_rfl, hn⟩
    have hrun := hagree _ _ hzero hzero
    constructor
    · intro hempty
      by_contra hother
      have hwritten : writtenPriorities table.channels group model = ∅ :=
        Finset.subset_empty.1 (hempty ▸ hsubset)
      rw [if_pos hempty] at hpriorities
      obtain ⟨channel, hchoice, -⟩ := @cachedChoice_level _ _ retry _ hconsistent hweights _ hzero
        (hpriorities ▸ hother)
      rw [hchoice] at hrun
      rcases @getChannelByAbility_none _ _ _ retry _ rows.perm (fun _ => 0) hwritten with
        hnone | ⟨e, herr⟩
      · rw [hnone] at hrun
        exact hrun
      · rw [herr] at hrun
        exact hrun
    · intro hne
      rw [if_neg hne] at hpriorities
      obtain ⟨channel', hchoice', hlevel'⟩ := @cachedChoice_level _ _ retry _ hconsistent hweights
        _ hzero (hpriorities ▸ hne)
      rw [hpriorities] at hlevel'
      rw [hchoice'] at hrun
      have hwritten : writtenPriorities table.channels group model ≠ ∅ := by
        intro hempty
        rcases @getChannelByAbility_none _ _ _ retry _ rows.perm (fun _ => 0) hempty with
          hnone | ⟨e, herr⟩
        · rw [hnone] at hrun
          exact hrun
        · rw [herr] at hrun
          exact hrun
      obtain ⟨channel, hchoice, hlevel⟩ := @getChannelByAbility_level _ _ _ retry table.unique
        table.weights _ rows.perm _ hzero hwritten
      rw [hchoice] at hrun
      exact ⟨channel.getPriority, hlevel, hrun ▸ hlevel'⟩
  · rintro ⟨hother, hlevel⟩ intn intn' hintn hintn'
    by_cases hempty : namedPriorities table.channels group model = ∅
    · have hwritten : writtenPriorities table.channels group model = ∅ :=
        Finset.subset_empty.1 (hempty ▸ hsubset)
      rw [if_pos hempty, hother hempty] at hpriorities
      rw [cachedChoice_none intn' hconsistent hpriorities]
      rcases @getChannelByAbility_none _ _ _ retry _ rows.perm intn hwritten with hnone | ⟨e, herr⟩
      · rw [hnone]
        trivial
      · rw [herr]
        trivial
    · obtain ⟨p, hwrittenLevel, hnamedLevel⟩ := hlevel hempty
      have hwritten : writtenPriorities table.channels group model ≠ ∅ :=
        Finset.ne_empty_of_mem hwrittenLevel.1
      rw [if_neg hempty] at hpriorities
      obtain ⟨channel, hchoice, hchannel⟩ := @getChannelByAbility_level _ _ _ retry table.unique
        table.weights _ rows.perm _ hintn hwritten
      obtain ⟨channel', hchoice', hchannel'⟩ := @cachedChoice_level _ _ retry _ hconsistent hweights
        _ hintn' (hpriorities ▸ hempty)
      rw [hpriorities] at hchannel'
      rw [hchoice, hchoice']
      exact (hchannel.unique hwrittenLevel).trans (hchannel'.unique hnamedLevel).symm

/-- A channel that serves every thinking budget of a model. -/
def budgetChannel : TaggedChannel where
  id := 1
  key := "k"
  status := channelStatusEnabled
  weight := none
  models := "gemini-2.5-pro-thinking-*"
  group := "default"
  priority := none
  otherInfo := ⟨none, none⟩
  channelInfo := ⟨false, ∅, ∅, ∅, 0, .unknown⟩
  keys := []
  tag := none

/-- The rows in the order of their weights. -/
def heaviestFirst : RowOrder where
  order l := l.insertionSort fun row row' => row'.2.weight ≤ row.2.weight
  perm l := List.perm_insertionSort _ l

/-- **A model with a thinking budget** is served if the cache is on, and not if it is off. -/
theorem matching_name_not_in_table : ∃ cache,
    initChannelCache (fun _ => none) stableSort (channelTable [budgetChannel] (by decide))
        ((abilityRows [budgetChannel]).map (·.1.group)) (fun _ => none) = some cache ∧
      ¬ChoicesAgree [budgetChannel] heaviestFirst.order cache "default" "gemini-2.5-pro-thinking-128"
        0 := by
  have hchosen : (initChannelCache (fun _ => none) stableSort
      (channelTable [budgetChannel] (by decide)) ((abilityRows [budgetChannel]).map (·.1.group))
      fun _ => none).map (fun cache => (getRandomSatisfiedChannel cache "default"
        "gemini-2.5-pro-thinking-128" 0 fun _ => 0).toOption.map (·.map (·.id))) =
          some (some (some 1)) := by decide +kernel
  have htable : getChannelByAbility [budgetChannel] (abilityRows [budgetChannel])
      heaviestFirst.order "default" "gemini-2.5-pro-thinking-128" 0 (fun _ => 0) = .ok none := by
    rfl
  obtain ⟨cache, hcache, hchosen⟩ := Option.map_eq_some_iff.1 hchosen
  refine ⟨cache, hcache, fun hagree => ?_⟩
  have hzero : IsIntn fun _ => 0 := fun n hn => ⟨le_rfl, hn⟩
  have hrun := hagree _ _ hzero hzero
  rw [htable] at hrun
  cases hchoice : getRandomSatisfiedChannel cache "default" "gemini-2.5-pro-thinking-128" 0
      fun _ => 0 with
  | error e =>
    rw [hchoice] at hchosen
    cases hchosen
  | ok channel =>
    cases channel with
    | none =>
      rw [hchoice] at hchosen
      cases hchosen
    | some channel =>
      rw [hchoice] at hrun
      exact hrun

end NewApi

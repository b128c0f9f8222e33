/-
**The abilities of the channels.**

The table `abilities` says which channel serves which model to which group.  It is derived from the
channels: every operation of `src/model/channel.go` and `src/model/ability.go` that changes a
channel changes the rows of it as well, by deleting and writing them again, by the tag, or by the
number of the channel.  Statements may fail, and only some operations are transactions.

The enabled rows are those of the enabled channels in every run in which no statement fails after
another one has changed a channel for good, no tag is given the weight 0 or enabled while a deleted
channel has left rows with it, and the texts of groups and models do not clash.

Main definitions:

* `NewApi.AbilityStore`, `NewApi.AbilityStore.step` — the two tables, and the operations;
* `NewApi.AbilityStore.Projected` — the enabled rows are those of the enabled channels;
* `NewApi.AbilityStore.Keeps` — the condition.

Main results:

* `NewApi.updateAbilities_apply` — rows that are written again;
* `NewApi.AbilityStore.Mirrored.step` — one operation;
* `NewApi.abilities_are_projection` — **the table is derived from the channels** along a run.
-/

import NewApi.Lib.Rows
import NewApi.Lib.Transition
import NewApi.ChannelStatus
import NewApi.MultiKey

set_option autoImplicit false

namespace NewApi

/-! ### Channels and their abilities -/

/-- A channel with its tag. -/
structure TaggedChannel extends Channel where
  tag : Option String

/-- The columns of a row of `abilities` besides its key. -/
structure Ability where
  enabled : Bool
  priority : ℤ
  weight : ℤ
  tag : Option String
deriving DecidableEq

structure AbilityKey where
  group : String
  model : String
  channelId : ℤ
deriving DecidableEq

abbrev AbilityTable := AbilityKey → Option Ability

namespace TaggedChannel

/-- The groups and models of a channel, each group with each model. -/
def pairs (channel : TaggedChannel) : List (String × String) :=
  (split channel.models ',').flatMap fun model =>
    (split channel.group ',').map fun group => (group, model)

/-- The columns of a row of a channel. -/
def ability (channel : TaggedChannel) : Ability :=
  ⟨channel.status = channelStatusEnabled, channel.getPriority, channel.getWeight, channel.tag⟩

/-- The text by which repeated pairs are found. -/
def pairKey (pair : String × String) : String := pair.1 ++ "|" ++ pair.2

/-- The pairs whose text has not been seen. -/
def unseen : List String → List (String × String) → List (String × String)
  | _, [] => []
  | seen, pair :: pairs =>
    if pairKey pair ∈ seen then unseen seen pairs
    else pair :: unseen (pairKey pair :: seen) pairs

/-- The pairs for which a channel gets rows, in the order in which they are written. -/
def abilityPairs (channel : TaggedChannel) : List (String × String) := unseen [] channel.pairs

/-- A channel as `DB.Create` writes it, with the defaults of its columns. -/
def created (channel : TaggedChannel) : TaggedChannel :=
  { channel with
    status := if channel.status = 0 then channelStatusEnabled else channel.status
    group := if channel.group = "" then "default" else channel.group
    weight := some channel.getWeight
    priority := some channel.getPriority }

end TaggedChannel

/-- A row is written unless there is one with its key. -/
def createAbility (key : AbilityKey) (ability : Ability) (abilities : AbilityTable) :
    AbilityTable :=
  fun k => if k = key ∧ abilities k = none then some ability else abilities k

/-- Rows of a channel are written. -/
def addAbilities (channel : TaggedChannel) (pairs : List (String × String))
    (abilities : AbilityTable) : AbilityTable :=
  pairs.foldl
    (fun abilities pair => createAbility ⟨pair.1, pair.2, channel.id⟩ channel.ability abilities)
    abilities

/-- The rows of a channel are deleted. -/
def deleteAbilities (channelId : ℤ) (abilities : AbilityTable) : AbilityTable :=
  fun k => if k.channelId = channelId then none else abilities k

/-- `UpdateAbilities`, as a transaction that succeeds. -/
def updateAbilities (channel : TaggedChannel) (abilities : AbilityTable) : AbilityTable :=
  addAbilities channel channel.abilityPairs (deleteAbilities channel.id abilities)

/-- The rows that `p` selects are changed. -/
def updateRows (p : AbilityKey → Ability → Bool) (f : Ability → Ability)
    (abilities : AbilityTable) : AbilityTable :=
  fun k => (abilities k).map fun ability => if p k ability then f ability else ability

def updateAbilityStatus (channelId : ℤ) (status : Bool) (abilities : AbilityTable) :
    AbilityTable :=
  updateRows (fun k _ => k.channelId = channelId) (fun a => { a with enabled := status }) abilities

def updateAbilityStatusByTag (tag : String) (status : Bool) (abilities : AbilityTable) :
    AbilityTable :=
  updateRows (fun _ a => a.tag = some tag) (fun a => { a with enabled := status }) abilities

/-- `UpdateAbilityByTag`.  The weight is no pointer, so 0 is not written. -/
def updateAbilityByTag (tag : String) (newTag : Option String) (priority weight : Option ℤ)
    (abilities : AbilityTable) : AbilityTable :=
  updateRows (fun _ a => a.tag = some tag)
    (fun a =>
      { a with
        tag := newTag.or a.tag
        priority := priority.getD a.priority
        weight := if weight.getD 0 ≠ 0 then weight.getD 0 else a.weight })
    abilities

/-! ### The operations -/

/-- What a call of `Channel.Update` writes: an empty text, a status 0 and a missing value are not
written. -/
structure ChannelUpdate where
  id : ℤ
  key : String
  status : ℤ
  weight : Option ℤ
  models : String
  group : String
  priority : Option ℤ
  otherInfo : Option OtherInfo
  channelInfo : Option ChannelInfo
  tag : Option String

namespace ChannelUpdate

/-- The call's own channel, with nothing for what it does not write. -/
def record (u : ChannelUpdate) : TaggedChannel :=
  { id := u.id
    key := u.key
    status := u.status
    weight := u.weight
    models := u.models
    group := u.group
    priority := u.priority
    otherInfo := u.otherInfo.getD ⟨none, none⟩
    channelInfo := u.channelInfo.getD ⟨false, ∅, ∅, ∅, 0, .unknown⟩
    keys := []
    tag := u.tag }

/-- What is known of several keys, without the positions from their number on. -/
def countedInfo (unmarshal : String → Option (List String)) (key : String) (info : ChannelInfo) :
    ChannelInfo :=
  if info.isMultiKey then
    { info with
      multiKeyStatusList :=
        keepBelow (countedKeys unmarshal key).length info.multiKeyStatusList }
  else info

/-- The row after the call.  `oldKey` is the key of the row as the call has read it. -/
def apply (unmarshal : String → Option (List String)) (oldKey : String) (u : ChannelUpdate)
    (row : TaggedChannel) : TaggedChannel :=
  { row with
    key := if u.key ≠ "" then u.key else row.key
    status := if u.status ≠ 0 then u.status else row.status
    weight := u.weight.or row.weight
    models := if u.models ≠ "" then u.models else row.models
    group := if u.group ≠ "" then u.group else row.group
    priority := u.priority.or row.priority
    otherInfo := u.otherInfo.getD row.otherInfo
    channelInfo := (u.channelInfo.map
      (countedInfo unmarshal (if u.key ≠ "" then u.key else oldKey))).getD row.channelInfo
    tag := u.tag.or row.tag }

end ChannelUpdate

/-- What `EditChannelByTag` is to change. -/
structure TagEdit where
  newTag : Option String
  models : Option String
  group : Option String
  priority : Option ℤ
  weight : Option ℤ

namespace TagEdit

/-- The text that is given, if it is not empty. -/
def text (given : Option String) : Option String := given.filter fun text => text ≠ ""

/-- The tag of the channels after the edit. -/
def updatedTag (edit : TagEdit) (tag : String) : String := edit.newTag.getD tag

def shouldReCreateAbilities (edit : TagEdit) : Bool :=
  (text edit.models).isSome || (text edit.group).isSome

/-- A channel with the tag after the edit. -/
def apply (edit : TagEdit) (row : TaggedChannel) : TaggedChannel :=
  { row with
    tag := edit.newTag.or row.tag
    models := (text edit.models).getD row.models
    group := (text edit.group).getD row.group
    priority := edit.priority.or row.priority
    weight := edit.weight.or row.weight }

end TagEdit

/-- The tables `channels` and `abilities`. -/
structure AbilityStore where
  channels : List TaggedChannel
  abilities : AbilityTable

namespace AbilityStore

def empty : AbilityStore := ⟨[], fun _ => none⟩

/-- The channel with a number. -/
def channel (s : AbilityStore) (id : ℤ) : Option TaggedChannel :=
  Rows.first (fun channel : TaggedChannel => channel.id) id s.channels

/-- A channel and its rows are written, unless there is a channel with its number. -/
def create (s : AbilityStore) (channel : TaggedChannel) : Option AbilityStore :=
  if s.channel channel.id = none then
    some
      { channels := s.channels ++ [channel.created]
        abilities := addAbilities channel.created channel.created.abilityPairs s.abilities }
  else none

/-- `Channel.Insert`.  The statement 0 writes the channel, and each of the next ones fifty rows. -/
def insert (s : AbilityStore) (channel : TaggedChannel) (fails : Option ℕ) : AbilityStore :=
  match fails with
  | none => (s.create channel).getD s
  | some 0 => s
  | some (chunk + 1) =>
    if s.channel channel.id = none then
      { channels := s.channels ++ [channel.created]
        abilities := addAbilities channel.created
          (channel.created.abilityPairs.take (50 * chunk)) s.abilities }
    else s

/-- `BatchInsertChannels`, a transaction. -/
def batchInsertChannels (s : AbilityStore) (channels : List TaggedChannel) (fails : Bool) :
    AbilityStore :=
  if fails then s else (channels.foldlM create s).getD s

/-- `Channel.Update`.  The statement 0 reads the old key, 1 writes the row, 2 reads it again, and
the others are those of the transaction that writes the rows again. -/
def update (unmarshal : String → Option (List String)) (s : AbilityStore) (u : ChannelUpdate)
    (fails : Option ℕ) : AbilityStore :=
  if fails = some 1 then s
  else
    let oldKey :=
      if fails = some 0 then "" else ((s.channel u.id).map fun row => row.key).getD ""
    let channels :=
      Rows.update (fun row => row.id = u.id) (u.apply unmarshal oldKey) s.channels
    let row := (s.channel u.id).map (u.apply unmarshal oldKey)
    let channel := if fails = some 2 then u.record else row.getD u.record
    match fails with
    | some (_ + 3) => { s with channels := channels }
    | _ => { channels := channels, abilities := updateAbilities channel s.abilities }

/-- The channel of which the status, or that of a key, has been changed. -/
def changed (unmarshal : String → Option (List String)) (channel : TaggedChannel)
    (usingKey : String) (status : ℤ) (reason : String) (now : ℤ) : TaggedChannel :=
  if channel.channelInfo.isMultiKey then
    { channel with
      toChannel := handlerMultiKeyUpdate unmarshal channel.toChannel usingKey status reason now }
  else { channel with toChannel := channel.toChannel.setStatus status reason now }

/-- `UpdateChannelStatus`, as far as the database is concerned.  The statement 0 reads the channel,
1 saves it, and 2 updates its rows, also when it was not saved. -/
def updateChannelStatus (unmarshal : String → Option (List String)) (s : AbilityStore) (id : ℤ)
    (usingKey : String) (status : ℤ) (reason : String) (now : ℤ) (fails : Option ℕ) :
    AbilityStore :=
  match s.channel id with
  | none => s
  | some channel =>
    if fails = some 0 ∨ channel.status = status then s
    else
      let changed := changed unmarshal channel usingKey status reason now
      let shouldUpdateAbilities :=
        !channel.channelInfo.isMultiKey || channel.status ≠ changed.status
      { channels :=
          if fails = some 1 ∨ id = 0 then s.channels
          else Rows.update (fun row => row.id = id) (fun _ => changed) s.channels
        abilities :=
          if shouldUpdateAbilities ∧ fails ≠ some 2 then
            updateAbilityStatus id (status = channelStatusEnabled) s.abilities
          else s.abilities }

/-- The channels with a tag get a status, and their rows become enabled or not.  The statement 0
is about the channels, 1 about the rows. -/
def setStatusByTag (s : AbilityStore) (tag : String) (status : ℤ) (fails : Option ℕ) :
    AbilityStore :=
  if fails = some 0 then s
  else
    { channels := Rows.update (fun row => row.tag = some tag)
        (fun row => { row with status := status }) s.channels
      abilities :=
        if fails = some 1 then s.abilities
        else updateAbilityStatusByTag tag (status = channelStatusEnabled) s.abilities }

def enableChannelByTag (s : AbilityStore) (tag : String) (fails : Option ℕ) : AbilityStore :=
  s.setStatusByTag tag channelStatusEnabled fails

def disableChannelByTag (s : AbilityStore) (tag : String) (fails : Option ℕ) : AbilityStore :=
  s.setStatusByTag tag channelStatusManuallyDisabled fails

/-- The channels with the tag after the edit of which the rows are written again: those but the one
whose transaction fails. -/
def recreated (channels : List TaggedChannel) (tag : String) (fails : Option ℕ) :
    List TaggedChannel :=
  let tagged := channels.filter fun row => row.tag = some tag
  match fails with
  | some (j + 2) => tagged.eraseIdx j
  | _ => tagged

/-- `EditChannelByTag`.  The statement 0 is about the channels, 1 reads those with the tag after the
edit or is about the rows, and the others are the transactions in which the rows of a channel are
written again. -/
def editChannelByTag (s : AbilityStore) (tag : String) (edit : TagEdit) (fails : Option ℕ) :
    AbilityStore :=
  if fails = some 0 then s
  else
    let channels := Rows.update (fun row => row.tag = some tag) edit.apply s.channels
    if fails = some 1 then { s with channels := channels }
    else if edit.shouldReCreateAbilities then
      { channels := channels
        abilities := (recreated channels (edit.updatedTag tag) fails).foldl
          (fun abilities channel => updateAbilities channel abilities) s.abilities }
    else
      { channels := channels
        abilities := updateAbilityByTag tag edit.newTag edit.priority edit.weight s.abilities }

/-- `Channel.Delete`.  The statement 0 deletes the channel, 1 its rows. -/
def delete (s : AbilityStore) (id : ℤ) (fails : Option ℕ) : AbilityStore :=
  if fails = some 0 then s
  else
    { channels := s.channels.filter fun row => row.id ≠ id
      abilities := if fails = some 1 then s.abilities else deleteAbilities id s.abilities }

/-- `BatchDeleteChannels`, a transaction. -/
def batchDeleteChannels (s : AbilityStore) (ids : List ℤ) (fails : Bool) : AbilityStore :=
  if fails then s
  else
    { channels := s.channels.filter fun row => row.id ∉ ids
      abilities := fun k => if k.channelId ∈ ids then none else s.abilities k }

/-- `DeleteChannelByStatus`: the rows stay. -/
def deleteChannelByStatus (s : AbilityStore) (status : ℤ) (fails : Bool) : AbilityStore :=
  if fails then s else { s with channels := s.channels.filter fun row => row.status ≠ status }

/-- `DeleteDisabledChannel`: the rows stay. -/
def deleteDisabledChannel (s : AbilityStore) (fails : Bool) : AbilityStore :=
  if fails then s
  else
    { s with
      channels := s.channels.filter fun row =>
        ¬(row.status = channelStatusAutoDisabled ∨ row.status = channelStatusManuallyDisabled) }

end AbilityStore

/-- An operation, and the statement of it that fails, if one does. -/
inductive AbilityAction where
  | insert (channel : TaggedChannel) (fails : Option ℕ)
  | batchInsertChannels (channels : List TaggedChannel) (fails : Bool)
  | update (u : ChannelUpdate) (fails : Option ℕ)
  | updateChannelStatus (id : ℤ) (usingKey : String) (status : ℤ) (reason : String) (now : ℤ)
      (fails : Option ℕ)
  | enableChannelByTag (tag : String) (fails : Option ℕ)
  | disableChannelByTag (tag : String) (fails : Option ℕ)
  | editChannelByTag (tag : String) (edit : TagEdit) (fails : Option ℕ)
  | delete (id : ℤ) (fails : Option ℕ)
  | batchDeleteChannels (ids : List ℤ) (fails : Bool)
  | deleteChannelByStatus (status : ℤ) (fails : Bool)
  | deleteDisabledChannel (fails : Bool)

namespace AbilityStore

def step (unmarshal : String → Option (List String)) (s : AbilityStore) :
    AbilityAction → AbilityStore
  | .insert channel fails => s.insert channel fails
  | .batchInsertChannels channels fails => s.batchInsertChannels channels fails
  | .update u fails => s.update unmarshal u fails
  | .updateChannelStatus id usingKey status reason now fails =>
    s.updateChannelStatus unmarshal id usingKey status reason now fails
  | .enableChannelByTag tag fails => s.enableChannelByTag tag fails
  | .disableChannelByTag tag fails => s.disableChannelByTag tag fails
  | .editChannelByTag tag edit fails => s.editChannelByTag tag edit fails
  | .delete id fails => s.delete id fails
  | .batchDeleteChannels ids fails => s.batchDeleteChannels ids fails
  | .deleteChannelByStatus status fails => s.deleteChannelByStatus status fails
  | .deleteDisabledChannel fails => s.deleteDisabledChannel fails

/-! ### The condition -/

/-- **The enabled rows are those of the enabled channels**, and say of them what the channels
say. -/
def Projected (s : AbilityStore) : Prop :=
  ∀ group model id,
    ((∃ a, s.abilities ⟨group, model, id⟩ = some a ∧ a.enabled = true) ↔
      ∃ c, s.channel id = some c ∧ c.status = channelStatusEnabled ∧
        model ∈ split c.models ',' ∧ group ∈ split c.group ',') ∧
    ∀ a c, s.abilities ⟨group, model, id⟩ = some a → a.enabled = true → s.channel id = some c →
      a.priority = c.getPriority ∧ a.weight = c.getWeight ∧ a.tag = c.tag

end AbilityStore

/-- Different pairs have different texts. -/
def TaggedChannel.NoClash (channel : TaggedChannel) : Prop :=
  ∀ pair ∈ channel.pairs, ∀ pair' ∈ channel.pairs,
    TaggedChannel.pairKey pair = TaggedChannel.pairKey pair' → pair = pair'

instance decidableNoClash (channel : TaggedChannel) : Decidable channel.NoClash :=
  inferInstanceAs (Decidable (∀ pair ∈ channel.pairs, ∀ pair' ∈ channel.pairs, _ → _))

/-- Two channels have the same rows. -/
def TaggedChannel.SameAbilities (channel channel' : TaggedChannel) : Prop :=
  (∀ pair, pair ∈ channel.pairs ↔ pair ∈ channel'.pairs) ∧ channel.ability = channel'.ability

namespace AbilityStore

/-- A deleted channel has not left rows behind. -/
def NothingLeft (s : AbilityStore) (id : ℤ) : Prop :=
  ∀ group model, s.abilities ⟨group, model, id⟩ = none

/-- The condition: no statement fails after another one has changed a channel for good, unless the
missing change would have changed nothing; groups and models do not clash; a new channel does not
have the number of a deleted one that has left rows behind; and no tag is given the weight 0, or
enabled while deleted channels have left rows with it. -/
def Keeps (unmarshal : String → Option (List String)) (s : AbilityStore) : AbilityAction → Prop
  | .insert channel fails =>
    fails = some 0 ∨
      (s.channel channel.id = none → channel.created.NoClash ∧ s.NothingLeft channel.id ∧
        ∀ chunk, fails = some (chunk + 1) → channel.created.abilityPairs.length ≤ 50 * chunk)
  | .batchInsertChannels channels fails =>
    fails = true ∨ ∀ channel ∈ channels, s.channel channel.id = none →
      channel.created.NoClash ∧ s.NothingLeft channel.id
  | .update u fails =>
    fails = some 1 ∨
      match s.channel u.id with
      | none => u.status ≠ channelStatusEnabled ∨ ∃ k, fails = some (k + 3)
      | some row =>
        match fails with
        | some (_ + 3) => row.SameAbilities (u.apply unmarshal row.key row)
        | some 2 =>
          u.record.NoClash ∧ u.record.SameAbilities (u.apply unmarshal row.key row)
        | _ => (u.apply unmarshal row.key row).NoClash
  | .updateChannelStatus id usingKey status reason now fails =>
    fails = some 1 ∨ fails = some 2 ∨ id = 0 → ∀ row, s.channel id = some row →
      (row.status = channelStatusEnabled ↔ status = channelStatusEnabled) ∨
        row.channelInfo.isMultiKey = true ∧
          (changed unmarshal row usingKey status reason now).status = row.status
  | .enableChannelByTag tag fails =>
    fails = some 0 ∨
      if fails = some 1 then
        ∀ row ∈ s.channels, row.tag = some tag → row.status = channelStatusEnabled
      else
        ∀ key a, s.abilities key = some a → a.tag = some tag → s.channel key.channelId ≠ none
  | .disableChannelByTag tag fails =>
    fails = some 1 → ∀ row ∈ s.channels, row.tag = some tag → row.status ≠ channelStatusEnabled
  | .editChannelByTag tag edit fails =>
    fails = some 0 ∨ ∀ row ∈ s.channels, row.tag = some tag →
      if fails = some 1 then row.SameAbilities (edit.apply row)
      else if edit.shouldReCreateAbilities then
        (edit.apply row).NoClash ∧
          ∀ j, fails = some (j + 2) →
            ((Rows.update (fun row => row.tag = some tag) edit.apply s.channels).filter
              fun row => row.tag = some (edit.updatedTag tag))[j]? = some (edit.apply row) →
            row.SameAbilities (edit.apply row)
      else edit.weight = some 0 → row.getWeight = 0
  | .delete id fails =>
    fails = some 1 → ∀ row, s.channel id = some row → row.status ≠ channelStatusEnabled
  | .deleteChannelByStatus status fails =>
    fails = true ∨ ∀ row ∈ s.channels, row.status = status → row.status ≠ channelStatusEnabled
  | .batchDeleteChannels _ _ | .deleteDisabledChannel _ => True

/-- **The rows of every channel are there**, whether it is enabled or not; rows that a deleted
channel has left behind are not enabled. -/
structure Mirrored (s : AbilityStore) : Prop where
  ids : (s.channels.map fun channel => channel.id).Nodup
  noClash : ∀ c ∈ s.channels, c.NoClash
  rows : ∀ c ∈ s.channels, ∀ group model,
    s.abilities ⟨group, model, c.id⟩ = if (group, model) ∈ c.pairs then some c.ability else none
  left : ∀ key, (∀ c ∈ s.channels, c.id ≠ key.channelId) → ∀ a, s.abilities key = some a →
    a.enabled = false

end AbilityStore

/-! ### Writing rows -/

theorem mem_pairs {channel : TaggedChannel} {group model : String} :
    (group, model) ∈ channel.pairs ↔
      model ∈ split channel.models ',' ∧ group ∈ split channel.group ',' := by
  simp only [TaggedChannel.pairs, List.mem_flatMap, List.mem_map, Prod.mk.injEq]
  constructor
  · rintro ⟨m, hm, g, hg, rfl, rfl⟩
    exact ⟨hm, hg⟩
  · rintro ⟨hm, hg⟩
    exact ⟨model, hm, group, hg, rfl, rfl⟩

namespace TaggedChannel

theorem mem_of_mem_unseen {seen : List String} {pairs : List (String × String)}
    {pair : String × String} (h : pair ∈ unseen seen pairs) : pair ∈ pairs := by
  induction pairs generalizing seen with
  | nil => exact h
  | cons p pairs ih =>
    rw [unseen] at h
    split at h
    · exact List.mem_cons_of_mem p (ih h)
    · rcases List.mem_cons.1 h with rfl | h
      · exact List.mem_cons_self
      · exact List.mem_cons_of_mem p (ih h)

/-- No pair is left out if different pairs have different texts. -/
theorem mem_unseen {seen : List String} {pairs : List (String × String)}
    (hclash : ∀ p ∈ pairs, ∀ p' ∈ pairs, pairKey p = pairKey p' → p = p')
    {pair : String × String} (hmem : pair ∈ pairs) (hseen : pairKey pair ∉ seen) :
    pair ∈ unseen seen pairs := by
  induction pairs generalizing seen with
  | nil => exact absurd hmem List.not_mem_nil
  | cons p pairs ih =>
    have hrest : ∀ q ∈ pairs, ∀ q' ∈ pairs, pairKey q = pairKey q' → q = q' :=
      fun q hq q' hq' => hclash q (List.mem_cons_of_mem p hq) q' (List.mem_cons_of_mem p hq')
    rw [unseen]
    by_cases hp : pairKey p = pairKey pair
    · have hsame : p = pair := hclash p List.mem_cons_self pair hmem hp
      subst hsame
      rw [if_neg hseen]
      exact List.mem_cons_self
    · have hpair : pair ∈ pairs := by
        rcases List.mem_cons.1 hmem with rfl | h
        · exact absurd rfl hp
        · exact h
      split
      · exact ih hrest hpair hseen
      · refine List.mem_cons_of_mem p (ih hrest hpair ?_)
        intro h
        rcases List.mem_cons.1 h with h | h
        · exact hp h.symm
        · exact hseen h

theorem mem_abilityPairs {channel : TaggedChannel} (h : channel.NoClash)
    {pair : String × String} : pair ∈ channel.abilityPairs ↔ pair ∈ channel.pairs :=
  ⟨mem_of_mem_unseen, fun hpair => mem_unseen h hpair List.not_mem_nil⟩

end TaggedChannel

/-- The rows after rows of a channel have been written. -/
theorem addAbilities_apply (channel : TaggedChannel) (pairs : List (String × String))
    (abilities : AbilityTable) (key : AbilityKey) :
    addAbilities channel pairs abilities key =
      if key.channelId = channel.id ∧ (key.group, key.model) ∈ pairs ∧ abilities key = none then
        some channel.ability
      else abilities key := by
  induction pairs generalizing abilities with
  | nil => simp [addAbilities]
  | cons pair pairs ih =>
    have hcons : addAbilities channel (pair :: pairs) abilities =
        addAbilities channel pairs
          (createAbility ⟨pair.1, pair.2, channel.id⟩ channel.ability abilities) := rfl
    rw [hcons, ih, createAbility]
    obtain ⟨group, model, channelId⟩ := key
    obtain ⟨group', model'⟩ := pair
    by_cases hid : channelId = channel.id
    · by_cases hnone : abilities ⟨group, model, channelId⟩ = none
      · by_cases hpair : group = group' ∧ model = model'
        · obtain ⟨rfl, rfl⟩ := hpair
          simp [hid] at hnone ⊢
          simp [hnone]
        · simp [hid] at hnone ⊢
          simp [hnone, hpair]
      · simp [hnone]
    · simp [hid]

/-- **Rows that are written again** are those of the channel. -/
theorem updateAbilities_apply {channel : TaggedChannel} (h : channel.NoClash)
    (abilities : AbilityTable) (key : AbilityKey) :
    updateAbilities channel abilities key =
      if key.channelId = channel.id then
        if (key.group, key.model) ∈ channel.pairs then some channel.ability else none
      else abilities key := by
  rw [updateAbilities, addAbilities_apply, deleteAbilities]
  by_cases hid : key.channelId = channel.id
  · simp [hid, TaggedChannel.mem_abilityPairs h]
  · simp [hid]

/-- Writing the rows of a channel again changes those of no other. -/
theorem updateAbilities_of_ne {channel : TaggedChannel} {key : AbilityKey}
    (h : key.channelId ≠ channel.id) (abilities : AbilityTable) :
    updateAbilities channel abilities key = abilities key := by
  rw [updateAbilities, addAbilities_apply, deleteAbilities]
  simp [h]

namespace AbilityStore

variable {s : AbilityStore}

/-! ### Channels -/

theorem channel_of_mem (h : s.Mirrored) {c : TaggedChannel} (hc : c ∈ s.channels) :
    s.channel c.id = some c :=
  Rows.first_of_mem h.ids hc

theorem mem_of_channel {id : ℤ} {c : TaggedChannel} (h : s.channel id = some c) :
    c ∈ s.channels ∧ c.id = id := by
  have hkey := Rows.key_of_first h
  exact ⟨Rows.mem_of_first h, hkey⟩

theorem channel_eq_none {id : ℤ} :
    s.channel id = none ↔ ∀ c ∈ s.channels, c.id ≠ id := Rows.first_eq_none

/-- **Where the rows of every channel are there**, the enabled ones are those of the enabled
channels. -/
theorem Mirrored.projected (h : s.Mirrored) : s.Projected := by
  intro group model id
  cases hchannel : s.channel id with
  | none =>
    have hleft := h.left ⟨group, model, id⟩ (channel_eq_none.1 hchannel)
    refine ⟨⟨?_, fun ⟨_, hc, _⟩ => absurd hc nofun⟩, fun _ _ _ _ hc => absurd hc nofun⟩
    rintro ⟨a, ha, henabled⟩
    rw [hleft a ha] at henabled
    exact absurd henabled nofun
  | some c =>
    obtain ⟨hmem, rfl⟩ := mem_of_channel hchannel
    have hrow := h.rows c hmem group model
    constructor
    · constructor
      · rintro ⟨a, ha, henabled⟩
        rw [hrow] at ha
        split at ha
        · rename_i hpair
          obtain rfl := Option.some.inj ha
          exact ⟨c, rfl, of_decide_eq_true henabled, mem_pairs.1 hpair⟩
        · exact absurd ha nofun
      · rintro ⟨c', hc', hstatus, hlists⟩
        obtain rfl := Option.some.inj hc'
        refine ⟨c.ability, ?_, decide_eq_true hstatus⟩
        rw [hrow, if_pos (mem_pairs.2 hlists)]
    · intro a c' ha _ hc'
      obtain rfl := Option.some.inj hc'
      rw [hrow] at ha
      split at ha
      · obtain rfl := Option.some.inj ha
        exact ⟨rfl, rfl, rfl⟩
      · exact absurd ha nofun

/-! ### Steps -/

/-- Channels change in their places, and their rows with them. -/
theorem Mirrored.map (h : s.Mirrored) {g : TaggedChannel → TaggedChannel}
    (hid : ∀ c, (g c).id = c.id) {abilities : AbilityTable}
    (hclash : ∀ c ∈ s.channels, (g c).NoClash)
    (hrows : ∀ c ∈ s.channels, ∀ group model, abilities ⟨group, model, c.id⟩ =
      if (group, model) ∈ (g c).pairs then some (g c).ability else none)
    (hleft : ∀ key, (∀ c ∈ s.channels, c.id ≠ key.channelId) → ∀ a, abilities key = some a →
      a.enabled = false) :
    Mirrored ⟨s.channels.map g, abilities⟩ := by
  constructor
  · have hsame : ((s.channels.map g).map fun channel => channel.id) =
        s.channels.map fun channel => channel.id := by
      rw [List.map_map]
      exact List.map_congr_left fun c _ => hid c
    rw [hsame]
    exact h.ids
  · intro c' hc'
    obtain ⟨c, hc, rfl⟩ := List.mem_map.1 hc'
    exact hclash c hc
  · intro c' hc' group model
    obtain ⟨c, hc, rfl⟩ := List.mem_map.1 hc'
    rw [hid]
    exact hrows c hc group model
  · intro key hkey
    refine hleft key fun c hc => ?_
    have hne := hkey (g c) (List.mem_map_of_mem hc)
    rwa [hid] at hne

/-- Channels are deleted, and their rows are deleted or were not enabled. -/
theorem Mirrored.filter (h : s.Mirrored) (p : TaggedChannel → Bool) {abilities : AbilityTable}
    (hrows : ∀ c ∈ s.channels, p c = true → ∀ group model,
      abilities ⟨group, model, c.id⟩ = s.abilities ⟨group, model, c.id⟩)
    (hleft : ∀ key, (∀ c ∈ s.channels, p c = true → c.id ≠ key.channelId) → ∀ a,
      abilities key = some a → a.enabled = false) :
    Mirrored ⟨s.channels.filter p, abilities⟩ := by
  constructor
  · exact h.ids.sublist (List.filter_sublist.map _)
  · intro c hc
    exact h.noClash c (List.mem_filter.1 hc).1
  · intro c hc group model
    obtain ⟨hmem, hp⟩ := List.mem_filter.1 hc
    exact (hrows c hmem hp group model).trans (h.rows c hmem group model)
  · intro key hkey
    exact hleft key fun c hc hp => hkey c (List.mem_filter.2 ⟨hc, hp⟩)

/-- The rows of a channel that is not enabled are not enabled either. -/
theorem Mirrored.row_disabled (h : s.Mirrored) {c : TaggedChannel} (hc : c ∈ s.channels)
    (hstatus : c.status ≠ channelStatusEnabled) {key : AbilityKey} (hkey : c.id = key.channelId)
    {a : Ability} (ha : s.abilities key = some a) : a.enabled = false := by
  have hrow := h.rows c hc key.group key.model
  rw [hkey, ha] at hrow
  split at hrow
  · obtain rfl := Option.some.inj hrow
    exact decide_eq_false hstatus
  · exact absurd hrow nofun

/-- Deleted channels that leave their rows behind were not enabled. -/
theorem Mirrored.filter_disabled (h : s.Mirrored) (p : TaggedChannel → Bool)
    (hp : ∀ c ∈ s.channels, p c = false → c.status ≠ channelStatusEnabled) :
    Mirrored ⟨s.channels.filter p, s.abilities⟩ := by
  refine h.filter p (fun _ _ _ _ _ => rfl) ?_
  intro key hkey a ha
  by_cases hsome : ∃ c ∈ s.channels, c.id = key.channelId
  · obtain ⟨c, hc, hid⟩ := hsome
    have hpc : p c = false := by
      by_contra hne
      exact hkey c hc (by simpa using hne) hid
    exact h.row_disabled hc (hp c hc hpc) hid ha
  · push Not at hsome
    exact h.left key hsome a ha

/-- A new channel. -/
theorem Mirrored.append (h : s.Mirrored) {c : TaggedChannel} (hnew : s.channel c.id = none)
    (hclash : c.NoClash) (hnothing : s.NothingLeft c.id) :
    Mirrored ⟨s.channels ++ [c], addAbilities c c.abilityPairs s.abilities⟩ := by
  have hne := channel_eq_none.1 hnew
  constructor
  · rw [List.map_append, List.nodup_append]
    refine ⟨h.ids, List.nodup_singleton _, ?_⟩
    intro id hid id' hid'
    obtain ⟨c', hc', rfl⟩ := List.mem_map.1 hid
    rw [List.map_singleton, List.mem_singleton] at hid'
    rw [hid']
    exact hne c' hc'
  · intro c' hc'
    rcases List.mem_append.1 hc' with hc' | hc'
    · exact h.noClash c' hc'
    · rw [List.mem_singleton.1 hc']
      exact hclash
  · intro c' hc' group model
    refine (addAbilities_apply _ _ _ _).trans ?_
    rcases List.mem_append.1 hc' with hc' | hc'
    · rw [if_neg fun hid => hne c' hc' hid.1]
      exact h.rows c' hc' group model
    · rw [List.mem_singleton.1 hc']
      have hnone := hnothing group model
      simp only [hnone, TaggedChannel.mem_abilityPairs hclash, true_and, and_true]
  · intro key hkey a ha
    have hid : key.channelId ≠ c.id := by
      intro he
      exact hkey c (List.mem_append_right _ (List.mem_singleton_self c)) he.symm
    have hsame := addAbilities_apply c c.abilityPairs s.abilities key
    rw [if_neg fun hid' => hid hid'.1] at hsame
    exact h.left key (fun c' hc' => hkey c' (List.mem_append_left _ hc')) a (hsame.symm.trans ha)

/-! ### The operations -/

/-- A channel that is written with its rows. -/
theorem Mirrored.create_eq_some (h : s.Mirrored) {c : TaggedChannel} {s' : AbilityStore}
    (hs' : s.create c = some s')
    (hnew : s.channel c.id = none → c.created.NoClash ∧ s.NothingLeft c.id) :
    s.channel c.id = none ∧ s'.Mirrored := by
  rw [AbilityStore.create] at hs'
  split at hs'
  · rename_i hnone
    obtain rfl := Option.some.inj hs'
    exact ⟨hnone, Mirrored.append h (c := c.created) hnone (hnew hnone).1 (hnew hnone).2⟩
  · exact absurd hs' nofun

theorem Mirrored.insert (h : s.Mirrored) {c : TaggedChannel} {fails : Option ℕ}
    (hkeeps : fails = some 0 ∨
      (s.channel c.id = none → c.created.NoClash ∧ s.NothingLeft c.id ∧
        ∀ chunk, fails = some (chunk + 1) → c.created.abilityPairs.length ≤ 50 * chunk)) :
    (s.insert c fails).Mirrored := by
  match fails, hkeeps with
  | none, hkeeps =>
    have hnew := hkeeps.resolve_left nofun
    simp only [AbilityStore.insert]
    cases hs' : s.create c with
    | none => exact h
    | some s' => exact (h.create_eq_some hs' fun hn => ⟨(hnew hn).1, (hnew hn).2.1⟩).2
  | some 0, _ => exact h
  | some (chunk + 1), hkeeps =>
    have hnew := hkeeps.resolve_left nofun
    simp only [AbilityStore.insert]
    split
    · rename_i hnone
      obtain ⟨hclash, hnothing, hlength⟩ := hnew hnone
      rw [List.take_of_length_le (hlength chunk rfl)]
      exact Mirrored.append h (c := c.created) hnone hclash hnothing
    · exact h

theorem Mirrored.foldlM_create (h : s.Mirrored) {channels : List TaggedChannel}
    {s' : AbilityStore} (hs' : channels.foldlM AbilityStore.create s = some s')
    (hkeeps : ∀ c ∈ channels, s.channel c.id = none → c.created.NoClash ∧ s.NothingLeft c.id) :
    s'.Mirrored := by
  induction channels generalizing s with
  | nil =>
    obtain rfl := Option.some.inj hs'
    exact h
  | cons c channels ih =>
    rw [List.foldlM_cons] at hs'
    obtain ⟨s₁, hs₁, hrest⟩ := Option.bind_eq_some_iff.1 hs'
    obtain ⟨hnone, hmirrored⟩ := h.create_eq_some hs₁ (hkeeps c List.mem_cons_self)
    refine ih hmirrored hrest ?_
    have hs₁' : s₁ = ⟨s.channels ++ [c.created],
        addAbilities c.created c.created.abilityPairs s.abilities⟩ := by
      rw [AbilityStore.create, if_pos hnone] at hs₁
      exact (Option.some.inj hs₁).symm
    intro c' hc' hnone'
    have hne : ∀ c'' ∈ s₁.channels, c''.id ≠ c'.id := channel_eq_none.1 hnone'
    rw [hs₁'] at hne
    have hold : s.channel c'.id = none :=
      channel_eq_none.2 fun c'' hc'' => hne c'' (List.mem_append_left _ hc'')
    have hid : c.id ≠ c'.id :=
      hne c.created (List.mem_append_right _ (List.mem_singleton_self _))
    obtain ⟨hclash, hnothing⟩ := hkeeps c' (List.mem_cons_of_mem c hc') hold
    refine ⟨hclash, fun group model => ?_⟩
    rw [hs₁']
    refine (addAbilities_apply _ _ _ _).trans ?_
    rw [if_neg fun he => hid he.1.symm]
    exact hnothing group model

theorem Mirrored.batchInsertChannels (h : s.Mirrored) {channels : List TaggedChannel}
    {fails : Bool} (hkeeps : fails = true ∨ ∀ c ∈ channels, s.channel c.id = none →
      c.created.NoClash ∧ s.NothingLeft c.id) :
    (s.batchInsertChannels channels fails).Mirrored := by
  rw [AbilityStore.batchInsertChannels]
  split
  · exact h
  · rename_i hfails
    cases hs' : channels.foldlM AbilityStore.create s with
    | none => exact h
    | some s' => exact h.foldlM_create hs' (hkeeps.resolve_left hfails)

/-- Deleting a channel, with its rows or not. -/
theorem Mirrored.delete (h : s.Mirrored) {id : ℤ} {fails : Option ℕ}
    (hkeeps : fails = some 1 → ∀ row, s.channel id = some row →
      row.status ≠ channelStatusEnabled) : (s.delete id fails).Mirrored := by
  rw [AbilityStore.delete]
  split
  · exact h
  · by_cases hfails : fails = some 1
    · rw [if_pos hfails]
      refine h.filter_disabled _ ?_
      intro c hc hid
      have hid' : c.id = id := by simpa using hid
      rw [← hid'] at hkeeps
      exact hkeeps hfails c (channel_of_mem h hc)
    · rw [if_neg hfails]
      refine h.filter _ ?_ ?_
      · intro c hc hid group model
        have hid' : c.id ≠ id := by simpa using hid
        exact if_neg hid'
      · intro key hkey a ha
        rw [deleteAbilities] at ha
        split at ha
        · exact absurd ha nofun
        · rename_i hid
          refine h.left key (fun c hc he => ?_) a ha
          refine hkey c hc ?_ he
          rw [he]
          simpa using hid

theorem Mirrored.batchDeleteChannels (h : s.Mirrored) (ids : List ℤ) (fails : Bool) :
    (s.batchDeleteChannels ids fails).Mirrored := by
  rw [AbilityStore.batchDeleteChannels]
  split
  · exact h
  · refine h.filter _ ?_ ?_
    · intro c hc hid group model
      have hid' : c.id ∉ ids := by simpa using hid
      exact if_neg hid'
    · intro key hkey a ha
      split at ha
      · exact absurd ha nofun
      · rename_i hid
        refine h.left key (fun c hc he => ?_) a ha
        refine hkey c hc ?_ he
        rw [he]
        simpa using hid

theorem Mirrored.deleteChannelByStatus (h : s.Mirrored) {status : ℤ} {fails : Bool}
    (hkeeps : fails = true ∨ ∀ row ∈ s.channels, row.status = status →
      row.status ≠ channelStatusEnabled) : (s.deleteChannelByStatus status fails).Mirrored := by
  rw [AbilityStore.deleteChannelByStatus]
  split
  · exact h
  · rename_i hfails
    refine h.filter_disabled _ ?_
    intro c hc hp
    exact hkeeps.resolve_left hfails c hc (by simpa using hp)

theorem Mirrored.deleteDisabledChannel (h : s.Mirrored) (fails : Bool) :
    (s.deleteDisabledChannel fails).Mirrored := by
  rw [AbilityStore.deleteDisabledChannel]
  split
  · exact h
  · refine h.filter_disabled _ ?_
    intro c hc hp henabled
    rw [henabled] at hp
    exact absurd hp (by decide)

/-- Channels change, and their rows are updated. -/
theorem Mirrored.updateRows (h : s.Mirrored) {g : TaggedChannel → TaggedChannel}
    {q : AbilityKey → Ability → Bool} {f : Ability → Ability} (hid : ∀ c, (g c).id = c.id)
    (hpairs : ∀ c ∈ s.channels, ∀ pair, pair ∈ (g c).pairs ↔ pair ∈ c.pairs)
    (hrow : ∀ c ∈ s.channels, ∀ key, key.channelId = c.id →
      (if q key c.ability then f c.ability else c.ability) = (g c).ability)
    (hleft : ∀ key a, s.abilities key = some a → (∀ c ∈ s.channels, c.id ≠ key.channelId) →
      (if q key a then f a else a).enabled = false) :
    Mirrored ⟨s.channels.map g, NewApi.updateRows q f s.abilities⟩ := by
  refine h.map hid ?_ ?_ ?_
  · intro c hc pair hpair pair' hpair'
    exact h.noClash c hc pair ((hpairs c hc pair).1 hpair) pair' ((hpairs c hc pair').1 hpair')
  · intro c hc group model
    rw [NewApi.updateRows, h.rows c hc]
    by_cases hpair : (group, model) ∈ c.pairs
    · rw [if_pos hpair, if_pos ((hpairs c hc _).2 hpair), Option.map_some, hrow c hc _ rfl]
    · rw [if_neg hpair, if_neg fun hnew => hpair ((hpairs c hc _).1 hnew)]
      rfl
  · intro key hkey a ha
    obtain ⟨b, hb, rfl⟩ := Option.map_eq_some_iff.1 ha
    exact hleft key b hb hkey

/-- Channels change, but not what their rows say. -/
theorem Mirrored.map_same (h : s.Mirrored) {g : TaggedChannel → TaggedChannel}
    (hid : ∀ c, (g c).id = c.id) (hsame : ∀ c ∈ s.channels, c.SameAbilities (g c)) :
    Mirrored ⟨s.channels.map g, s.abilities⟩ := by
  refine h.map hid ?_ ?_ ?_
  · intro c hc pair hpair pair' hpair'
    exact h.noClash c hc pair (((hsame c hc).1 pair).2 hpair) pair'
      (((hsame c hc).1 pair').2 hpair')
  · intro c hc group model
    rw [h.rows c hc, (hsame c hc).2]
    by_cases hpair : (group, model) ∈ c.pairs
    · rw [if_pos hpair, if_pos (((hsame c hc).1 _).1 hpair)]
    · rw [if_neg hpair, if_neg fun hnew => hpair (((hsame c hc).1 _).2 hnew)]
  · exact fun key hkey a ha => h.left key hkey a ha

theorem sameAbilities_refl (c : TaggedChannel) : c.SameAbilities c := ⟨fun _ => Iff.rfl, rfl⟩

/-- A change of selected channels. -/
theorem ite_id {p : TaggedChannel → Bool} {g : TaggedChannel → TaggedChannel}
    (hid : ∀ c, p c = true → (g c).id = c.id) (c : TaggedChannel) :
    (if p c then g c else c).id = c.id := by
  split
  · rename_i hp
    exact hid c hp
  · rfl

theorem Mirrored.setStatusByTag (h : s.Mirrored) {tag : String} {status : ℤ} {fails : Option ℕ}
    (hfails : fails = some 1 → ∀ row ∈ s.channels, row.tag = some tag →
      (row.status = channelStatusEnabled ↔ status = channelStatusEnabled))
    (hleft : status = channelStatusEnabled → fails ≠ some 0 → fails ≠ some 1 →
      ∀ key a, s.abilities key = some a → a.tag = some tag → s.channel key.channelId ≠ none) :
    (s.setStatusByTag tag status fails).Mirrored := by
  rw [AbilityStore.setStatusByTag]
  by_cases hzero : fails = some 0
  · rw [if_pos hzero]
    exact h
  rw [if_neg hzero]
  by_cases hone : fails = some 1
  · rw [if_pos hone]
    refine h.map_same (ite_id fun _ _ => rfl) ?_
    intro c hc
    by_cases htag : c.tag = some tag
    · have hiff := hfails hone c hc htag
      refine ⟨fun pair => ?_, ?_⟩
      · simp [htag, TaggedChannel.pairs]
      · simp [htag, TaggedChannel.ability, Channel.getPriority, Channel.getWeight, hiff]
    · simp only [htag, decide_false, Bool.false_eq_true, if_false]
      exact sameAbilities_refl c
  · rw [if_neg hone]
    refine h.updateRows (ite_id fun _ _ => rfl) ?_ ?_ ?_
    · intro c _ pair
      split <;> rfl
    · intro c hc key _
      by_cases htag : c.tag = some tag
      · simp [htag, TaggedChannel.ability, Channel.getPriority, Channel.getWeight]
      · simp [htag, TaggedChannel.ability, Channel.getPriority, Channel.getWeight]
    · intro key a ha hkey
      split
      · rename_i htag
        refine decide_eq_false fun hstatus => ?_
        exact hleft hstatus hzero hone key a ha (of_decide_eq_true htag) (channel_eq_none.2 hkey)
      · exact h.left key hkey a ha

variable (unmarshal : String → Option (List String))

/-- A change of the status of a channel, or of a key, changes nothing else that its rows say. -/
theorem changed_fields (c : TaggedChannel) (usingKey : String) (status : ℤ) (reason : String)
    (now : ℤ) :
    let c' := changed unmarshal c usingKey status reason now
    c'.id = c.id ∧ c'.pairs = c.pairs ∧ c'.getPriority = c.getPriority ∧
      c'.getWeight = c.getWeight ∧ c'.tag = c.tag := by
  have hhandler : ∀ info st other,
      let c' : TaggedChannel :=
        { c with channelInfo := info, status := st, otherInfo := other }
      c'.id = c.id ∧ c'.pairs = c.pairs ∧ c'.getPriority = c.getPriority ∧
        c'.getWeight = c.getWeight ∧ c'.tag = c.tag := by
    intro info st other
    exact ⟨rfl, rfl, rfl, rfl, rfl⟩
  simp only [changed, handlerMultiKeyUpdate]
  split
  · split
    · exact hhandler _ _ _
    · split
      · split
        · exact hhandler _ _ _
        · exact hhandler _ _ _
      · split
        · exact hhandler _ _ _
        · split
          · exact hhandler _ _ _
          · exact hhandler _ _ _
  · exact hhandler _ _ _

/-- A key that was enabled is enabled. -/
theorem hasEnabledMultiKey_setKeyStatus {keys : List String} {i : ℕ} (hi : i < keys.length)
    (info : ChannelInfo) (reason : String) (now : ℤ) :
    hasEnabledMultiKey keys
      (info.setKeyStatus i channelStatusEnabled reason now).multiKeyStatusList = true := by
  rw [hasEnabledMultiKey, List.any_eq_true]
  refine ⟨i, List.mem_range.2 hi, ?_⟩
  rw [getKeyStatus_setKeyStatus, if_pos rfl]
  rfl

/-- **A channel that gets another status** is enabled if the status asked for is that. -/
theorem status_changed {unmarshal : String → Option (List String)} {c : TaggedChannel}
    {usingKey : String} {status : ℤ} {reason : String} {now : ℤ}
    (h : c.channelInfo.isMultiKey = true →
      (changed unmarshal c usingKey status reason now).status ≠ c.status) :
    (changed unmarshal c usingKey status reason now).status = channelStatusEnabled ↔
      status = channelStatusEnabled := by
  by_cases hmulti : c.channelInfo.isMultiKey = true
  · have hne := h hmulti
    clear h
    simp only [changed, if_pos hmulti, status_handlerMultiKeyUpdate] at hne ⊢
    by_cases hkeys : c.getKeys unmarshal = []
    · rw [if_pos hkeys]
    · rw [if_neg hkeys] at hne ⊢
      cases hindex : c.keyIndex unmarshal usingKey with
      | none =>
        simp only [hindex] at hne ⊢
        by_cases hkey : usingKey ≠ ""
        · rw [if_pos hkey] at hne
          exact absurd rfl hne
        · rw [if_neg hkey]
      | some i =>
        have hi : i < (c.getKeys unmarshal).length := by
          rw [Channel.keyIndex] at hindex
          exact (List.idxOf?_eq_some_iff.1 hindex).1
        simp only [hindex] at hne ⊢
        split
        · rename_i hdisabled
          constructor
          · intro habsurd
            exact absurd habsurd (by decide)
          · rintro rfl
            rw [hasEnabledMultiKey_setKeyStatus hi] at hdisabled
            cases hdisabled
        · rename_i hsome
          rw [if_neg hsome] at hne
          by_cases hstatus : status = channelStatusEnabled
          · rw [if_pos hstatus]
            exact ⟨fun _ => hstatus, fun _ => rfl⟩
          · rw [if_neg hstatus] at hne
            exact absurd rfl hne
  · rw [changed, if_neg hmulti]
    exact Iff.rfl

/-- Channels that differ in nothing their rows say but the status. -/
theorem sameAbilities_of_status {c c' : TaggedChannel} (hpairs : c'.pairs = c.pairs)
    (hpriority : c'.getPriority = c.getPriority) (hweight : c'.getWeight = c.getWeight)
    (htag : c'.tag = c.tag)
    (hstatus : c.status = channelStatusEnabled ↔ c'.status = channelStatusEnabled) :
    c.SameAbilities c' := by
  refine ⟨fun pair => by rw [hpairs], ?_⟩
  rw [TaggedChannel.ability, TaggedChannel.ability, hpriority, hweight, htag]
  congr 1
  exact decide_eq_decide.2 hstatus

/-- Only one channel changes. -/
theorem Mirrored.map_one (h : s.Mirrored) {c c' : TaggedChannel} (hc : c ∈ s.channels)
    (hid : c'.id = c.id) (hsame : c.SameAbilities c') :
    Mirrored ⟨Rows.update (fun row => row.id = c.id) (fun _ => c') s.channels, s.abilities⟩ := by
  refine h.map_same (ite_id fun row hrow => ?_) ?_
  · rw [hid]
    exact (of_decide_eq_true hrow).symm
  · intro row hrow
    by_cases hrowid : row.id = c.id
    · have hrow' : row = c := Rows.eq_of_key_eq h.ids hrow hc hrowid
      simp only [hrow', decide_true, if_true]
      exact hsame
    · simp only [hrowid, decide_false, Bool.false_eq_true, if_false]
      exact sameAbilities_refl row

/-- The rows of a channel become enabled or not, as the channel is already. -/
theorem Mirrored.updateAbilityStatus (h : s.Mirrored) {c : TaggedChannel} (hc : c ∈ s.channels)
    {enabled : Bool} (henabled : decide (c.status = channelStatusEnabled) = enabled) :
    Mirrored ⟨s.channels, NewApi.updateAbilityStatus c.id enabled s.abilities⟩ := by
  have hmap : s.channels.map (fun row => row) = s.channels := List.map_id' _
  have hupdated := h.updateRows (g := fun row => row) (q := fun k _ => k.channelId = c.id)
    (f := fun a => { a with enabled := enabled }) (fun _ => rfl) (fun _ _ _ => Iff.rfl) ?_ ?_
  · rw [hmap] at hupdated
    exact hupdated
  · intro row hrow key hkey
    by_cases hq : key.channelId = c.id
    · have hrow' : row = c := Rows.eq_of_key_eq h.ids hrow hc (hkey.symm.trans hq)
      simp only [hq, decide_true, if_true, hrow', TaggedChannel.ability, henabled]
    · simp only [hq, decide_false, Bool.false_eq_true, if_false]
  · intro key a ha hkey
    have hq : key.channelId ≠ c.id := fun he => hkey c hc he.symm
    simp only [hq, decide_false, Bool.false_eq_true, if_false]
    exact h.left key hkey a ha

/-- A channel gets another status, and its rows become enabled or not. -/
theorem Mirrored.set_status (h : s.Mirrored) {c c' : TaggedChannel} (hc : c ∈ s.channels)
    (hid : c'.id = c.id) (hpairs : c'.pairs = c.pairs)
    (hpriority : c'.getPriority = c.getPriority) (hweight : c'.getWeight = c.getWeight)
    (htag : c'.tag = c.tag) {enabled : Bool}
    (henabled : decide (c'.status = channelStatusEnabled) = enabled) :
    Mirrored ⟨Rows.update (fun row => row.id = c.id) (fun _ => c') s.channels,
      NewApi.updateAbilityStatus c.id enabled s.abilities⟩ := by
  refine h.updateRows (ite_id fun row hrow => ?_) ?_ ?_ ?_
  · rw [hid]
    exact (of_decide_eq_true hrow).symm
  · intro row hrow pair
    by_cases hrowid : row.id = c.id
    · have hrow' : row = c := Rows.eq_of_key_eq h.ids hrow hc hrowid
      simp only [hrow', decide_true, if_true, hpairs]
    · simp only [hrowid, decide_false, Bool.false_eq_true, if_false]
  · intro row hrow key hkey
    by_cases hrowid : row.id = c.id
    · have hrow' : row = c := Rows.eq_of_key_eq h.ids hrow hc hrowid
      subst hrow'
      simp only [hkey, decide_true, if_true, TaggedChannel.ability, hpriority, hweight, htag,
        henabled]
    · have hkeyid : key.channelId ≠ c.id := hkey ▸ hrowid
      simp only [hrowid, hkeyid, decide_false, Bool.false_eq_true, if_false]
  · intro key a ha hkey
    have hq : key.channelId ≠ c.id := fun he => hkey c hc he.symm
    simp only [hq, decide_false, Bool.false_eq_true, if_false]
    exact h.left key hkey a ha

/-- A change of the status of a channel, whether the channel and its rows are saved or not. -/
theorem Mirrored.updateChannelStatus (h : s.Mirrored) {id : ℤ} {usingKey : String} {status : ℤ}
    {reason : String} {now : ℤ} {fails : Option ℕ}
    (hkeeps : fails = some 1 ∨ fails = some 2 ∨ id = 0 → ∀ row, s.channel id = some row →
      (row.status = channelStatusEnabled ↔ status = channelStatusEnabled) ∨
        row.channelInfo.isMultiKey = true ∧
          (changed unmarshal row usingKey status reason now).status = row.status) :
    (s.updateChannelStatus unmarshal id usingKey status reason now fails).Mirrored := by
  rw [AbilityStore.updateChannelStatus]
  cases hchannel : s.channel id with
  | none => exact h
  | some c =>
    obtain ⟨hmem, rfl⟩ := mem_of_channel hchannel
    dsimp only
    split
    · exact h
    obtain ⟨hid, hpairs, hpriority, hweight, htag⟩ :=
      changed_fields unmarshal c usingKey status reason now
    have hiff := @status_changed unmarshal c usingKey status reason now
    have hkeep := fun hcase => hkeeps hcase c hchannel
    clear hkeeps
    generalize changed unmarshal c usingKey status reason now = c' at *
    by_cases hshould : (!c.channelInfo.isMultiKey || decide (c.status ≠ c'.status)) = true
    · have hmulti : c.channelInfo.isMultiKey = true → c'.status ≠ c.status := by
        intro hmulti he
        rw [hmulti, he] at hshould
        simp at hshould
      have hnew := hiff hmulti
      have hold : fails = some 1 ∨ fails = some 2 ∨ c.id = 0 →
          (c.status = channelStatusEnabled ↔ status = channelStatusEnabled) := by
        intro hcase
        rcases hkeep hcase with hsame | ⟨hm, he⟩
        · exact hsame
        · exact absurd he (hmulti hm)
      by_cases hrows : fails = some 2
      · -- The rows are not updated.
        have hsame := sameAbilities_of_status hpairs hpriority hweight htag
          ((hold (.inr (.inl hrows))).trans hnew.symm)
        simp only [hrows, ne_eq, not_true_eq_false, and_false, if_false]
        split
        · exact h
        · exact h.map_one hmem hid hsame
      · simp only [hshould, hrows, ne_eq, not_false_eq_true, and_self, if_true]
        split
        · rename_i hnot
          have hcase : fails = some 1 ∨ fails = some 2 ∨ c.id = 0 :=
            hnot.elim .inl fun hzero => .inr (.inr hzero)
          exact h.updateAbilityStatus hmem (decide_eq_decide.2 (hold hcase))
        · exact h.set_status hmem hid hpairs hpriority hweight htag (decide_eq_decide.2 hnew)
    · -- The status of the channel stays.
      have hstatus : c.status = c'.status := by
        by_contra hne
        exact hshould (by simp [hne])
      have hsame := sameAbilities_of_status hpairs hpriority hweight htag
        (by rw [hstatus])
      simp only [hshould, false_and, if_false, Bool.false_eq_true]
      split
      · exact h
      · exact h.map_one hmem hid hsame

/-- A channel changes, and its rows are written again. -/
theorem Mirrored.rewrite (h : s.Mirrored) {c : TaggedChannel} (hc : c ∈ s.channels)
    {g : TaggedChannel → TaggedChannel} (hid : ∀ row, (g row).id = row.id)
    {written : TaggedChannel} (hwritten : written.id = c.id) (hclash : written.NoClash)
    (hsame : written.SameAbilities (g c)) :
    Mirrored ⟨Rows.update (fun row => row.id = c.id) g s.channels,
      updateAbilities written s.abilities⟩ := by
  refine h.map (ite_id fun row _ => hid row) ?_ ?_ ?_
  · intro row hrow
    by_cases hrowid : row.id = c.id
    · have hrow' : row = c := Rows.eq_of_key_eq h.ids hrow hc hrowid
      simp only [hrow', decide_true, if_true]
      intro pair hpair pair' hpair'
      exact hclash pair ((hsame.1 pair).2 hpair) pair' ((hsame.1 pair').2 hpair')
    · simp only [hrowid, decide_false, Bool.false_eq_true, if_false]
      exact h.noClash row hrow
  · intro row hrow group model
    rw [updateAbilities_apply hclash, hwritten]
    by_cases hrowid : row.id = c.id
    · have hrow' : row = c := Rows.eq_of_key_eq h.ids hrow hc hrowid
      simp only [hrow', decide_true, if_true, hsame.2, hsame.1]
    · simp only [hrowid, decide_false, Bool.false_eq_true, if_false]
      exact h.rows row hrow group model
  · intro key hkey a ha
    have hne : key.channelId ≠ written.id := by
      rw [hwritten]
      exact fun he => hkey c hc he.symm
    rw [updateAbilities_of_ne hne] at ha
    exact h.left key hkey a ha

/-- The key that a call has read is of no matter to the rows. -/
theorem pairs_apply_key (u : ChannelUpdate) (row : TaggedChannel) (oldKey oldKey' : String) :
    (u.apply unmarshal oldKey row).pairs = (u.apply unmarshal oldKey' row).pairs := by
  simp only [TaggedChannel.pairs, ChannelUpdate.apply]

theorem ability_apply_key (u : ChannelUpdate) (row : TaggedChannel) (oldKey oldKey' : String) :
    (u.apply unmarshal oldKey row).ability = (u.apply unmarshal oldKey' row).ability := by
  have hstatus : (u.apply unmarshal oldKey row).status = (u.apply unmarshal oldKey' row).status := by
    simp only [ChannelUpdate.apply]
  have hpriority : (u.apply unmarshal oldKey row).getPriority =
      (u.apply unmarshal oldKey' row).getPriority := by
    simp only [Channel.getPriority, ChannelUpdate.apply]
  have hweight : (u.apply unmarshal oldKey row).getWeight =
      (u.apply unmarshal oldKey' row).getWeight := by
    simp only [Channel.getWeight, ChannelUpdate.apply]
  have htag : (u.apply unmarshal oldKey row).tag = (u.apply unmarshal oldKey' row).tag := by
    simp only [ChannelUpdate.apply]
  rw [TaggedChannel.ability, TaggedChannel.ability, hstatus, hpriority, hweight, htag]

theorem noClash_apply_key {unmarshal : String → Option (List String)} {u : ChannelUpdate}
    {row : TaggedChannel} {oldKey : String} (h : (u.apply unmarshal oldKey row).NoClash)
    (oldKey' : String) : (u.apply unmarshal oldKey' row).NoClash := by
  rw [TaggedChannel.NoClash, pairs_apply_key unmarshal u row oldKey' oldKey]
  exact h

theorem sameAbilities_apply_key {unmarshal : String → Option (List String)} {u : ChannelUpdate}
    {channel row : TaggedChannel} {oldKey : String}
    (h : channel.SameAbilities (u.apply unmarshal oldKey row)) (oldKey' : String) :
    channel.SameAbilities (u.apply unmarshal oldKey' row) := by
  rw [TaggedChannel.SameAbilities, pairs_apply_key unmarshal u row oldKey' oldKey,
    ability_apply_key unmarshal u row oldKey' oldKey]
  exact h

theorem Mirrored.update (h : s.Mirrored) {u : ChannelUpdate} {fails : Option ℕ}
    (hkeeps : s.Keeps unmarshal (.update u fails)) :
    (s.update unmarshal u fails).Mirrored := by
  rw [AbilityStore.update]
  split
  · exact h
  rename_i hone
  have hkeep := hkeeps.resolve_left hone
  cases hchannel : s.channel u.id with
  | none =>
    -- There is no such channel: its rows may be written, but are not enabled.
    have hne := channel_eq_none.1 hchannel
    have hchannels : ∀ g, Rows.update (fun row : TaggedChannel => row.id = u.id) g s.channels =
        s.channels := by
      intro g
      refine (List.map_congr_left fun row hrow => ?_).trans (List.map_id s.channels)
      rw [if_neg (by simpa using hne row hrow)]
      rfl
    simp only [hchannel] at hkeep
    have hrecord : (if fails = some 2 then u.record else u.record) = u.record := ite_self _
    simp only [hchannels, Option.map_none, Option.getD_none, hrecord]
    split
    · exact h
    · rename_i hfails
      have hstatus : u.status ≠ channelStatusEnabled :=
        hkeep.resolve_right fun ⟨k, hk⟩ => hfails k hk
      refine ⟨h.ids, h.noClash, fun c hc group model => ?_, fun key hkey a ha => ?_⟩
      · exact (updateAbilities_of_ne (hne c hc) _).trans (h.rows c hc group model)
      · have hrow := addAbilities_apply u.record u.record.abilityPairs
          (deleteAbilities u.record.id s.abilities) key
        replace ha := hrow.symm.trans ha
        split at ha
        · obtain rfl := Option.some.inj ha
          exact decide_eq_false hstatus
        · rw [deleteAbilities] at ha
          split at ha
          · exact absurd ha nofun
          · exact h.left key hkey a ha
  | some row =>
    obtain ⟨hmem, hid⟩ := mem_of_channel hchannel
    simp only [hchannel, Option.map_some, Option.getD_some] at hkeep ⊢
    rw [← hid]
    generalize (if fails = some 0 then "" else row.key) = oldKey
    match fails with
    | some (k + 3) =>
      refine h.map_same (ite_id fun _ _ => rfl) ?_
      intro row' hrow'
      by_cases hrowid : row'.id = row.id
      · have heq : row' = row := Rows.eq_of_key_eq h.ids hrow' hmem hrowid
        simp only [heq, decide_true, if_true]
        exact sameAbilities_apply_key hkeep oldKey
      · simp only [hrowid, decide_false, Bool.false_eq_true, if_false]
        exact sameAbilities_refl row'
    | some 2 =>
      exact h.rewrite (g := u.apply unmarshal oldKey) hmem (fun _ => rfl) hid.symm hkeep.1
        (sameAbilities_apply_key hkeep.2 oldKey)
    | some 1 => exact absurd rfl hone
    | some 0 | none =>
      exact h.rewrite (g := u.apply unmarshal oldKey) hmem (fun _ => rfl) rfl
        (noClash_apply_key hkeep oldKey) (sameAbilities_refl _)

/-- Rows of channels that are not written again stay. -/
theorem foldl_updateAbilities_of_notMem {channels : List TaggedChannel} {key : AbilityKey}
    (hkey : ∀ c ∈ channels, c.id ≠ key.channelId) (abilities : AbilityTable) :
    channels.foldl (fun abilities c => updateAbilities c abilities) abilities key =
      abilities key := by
  induction channels generalizing abilities with
  | nil => rfl
  | cons c channels ih =>
    rw [List.foldl_cons, ih fun c' hc' => hkey c' (List.mem_cons_of_mem c hc')]
    exact updateAbilities_of_ne (hkey c List.mem_cons_self).symm abilities

/-- Rows of several channels that are written again. -/
theorem foldl_updateAbilities_of_mem {channels : List TaggedChannel}
    (hnd : (channels.map fun c => c.id).Nodup) (hclash : ∀ c ∈ channels, c.NoClash)
    {c : TaggedChannel} (hc : c ∈ channels) (group model : String) (abilities : AbilityTable) :
    channels.foldl (fun abilities c => updateAbilities c abilities) abilities
        ⟨group, model, c.id⟩ = if (group, model) ∈ c.pairs then some c.ability else none := by
  induction channels generalizing abilities with
  | nil => exact absurd hc List.not_mem_nil
  | cons c' channels ih =>
    rw [List.map_cons, List.nodup_cons] at hnd
    rw [List.foldl_cons]
    rcases List.mem_cons.1 hc with rfl | hc
    · have hnotMem : ∀ x ∈ channels, x.id ≠ c.id := by
        intro x hx he
        exact hnd.1 (List.mem_map.2 ⟨x, hx, he⟩)
      rw [foldl_updateAbilities_of_notMem hnotMem,
        updateAbilities_apply (hclash c List.mem_cons_self), if_pos rfl]
    · exact ih hnd.2 (fun x hx => hclash x (List.mem_cons_of_mem c' hx)) hc _

/-- The tag of a channel after the edit. -/
theorem tag_apply {edit : TagEdit} {tag : String} {c : TaggedChannel} (htag : c.tag = some tag) :
    (edit.apply c).tag = some (edit.updatedTag tag) := by
  simp only [TagEdit.apply, TagEdit.updatedTag, htag]
  cases edit.newTag <;> rfl

/-- An edit of the tag, the priority and the weight changes what the rows say of a channel as it
changes the rows, unless it sets the weight to 0. -/
theorem ability_apply {edit : TagEdit} {c : TaggedChannel}
    (hweight : edit.weight = some 0 → c.getWeight = 0) :
    (edit.apply c).ability =
      { c.ability with
        tag := edit.newTag.or c.tag
        priority := edit.priority.getD c.getPriority
        weight := if edit.weight.getD 0 ≠ 0 then edit.weight.getD 0 else c.getWeight } := by
  have hpriority : (edit.apply c).getPriority = edit.priority.getD c.getPriority := by
    simp only [Channel.getPriority, TagEdit.apply]
    cases edit.priority <;> rfl
  have hnew : (edit.apply c).getWeight =
      if edit.weight.getD 0 ≠ 0 then edit.weight.getD 0 else c.getWeight := by
    cases hw : edit.weight with
    | none => simp [Channel.getWeight, TagEdit.apply, hw]
    | some w =>
      by_cases hzero : w = 0
      · subst hzero
        rw [hweight hw]
        simp [Channel.getWeight, TagEdit.apply, hw]
      · simp [Channel.getWeight, TagEdit.apply, hw, hzero]
  rw [TaggedChannel.ability, hpriority, hnew]
  rfl

/-- A channel with the tag after the edit has its rows written again, unless its transaction is the
one that fails. -/
theorem mem_recreated {channels : List TaggedChannel} {tag : String} {fails : Option ℕ}
    {c : TaggedChannel} (hc : c ∈ channels) (htag : c.tag = some tag) :
    c ∈ recreated channels tag fails ∨ ∃ j, fails = some (j + 2) ∧
      (channels.filter fun row => row.tag = some tag)[j]? = some c := by
  have hmem : c ∈ channels.filter fun row => row.tag = some tag :=
    List.mem_filter.2 ⟨hc, decide_eq_true htag⟩
  match fails with
  | none | some 0 | some 1 => exact .inl hmem
  | some (j + 2) =>
    obtain ⟨i, hi⟩ := List.mem_iff_getElem?.1 hmem
    by_cases hij : i = j
    · exact .inr ⟨j, rfl, hij ▸ hi⟩
    · exact .inl (List.mem_eraseIdx_iff_getElem?.2 ⟨i, hij, hi⟩)

theorem recreated_sublist (channels : List TaggedChannel) (tag : String) (fails : Option ℕ) :
    (recreated channels tag fails).Sublist channels := by
  match fails with
  | none | some 0 | some 1 => exact List.filter_sublist
  | some (j + 2) => exact (List.eraseIdx_sublist _ j).trans List.filter_sublist

/-- **The rows of the channels with the tag are written again**, all but those of one channel. -/
theorem Mirrored.recreate (h : s.Mirrored) {tag : String} {edit : TagEdit} {fails : Option ℕ}
    (hid : ∀ c : TaggedChannel,
      (if decide (c.tag = some tag) = true then edit.apply c else c).id = c.id)
    (hkeep : ∀ row ∈ s.channels, row.tag = some tag → (edit.apply row).NoClash ∧
      ∀ j, fails = some (j + 2) →
        ((Rows.update (fun row => row.tag = some tag) edit.apply s.channels).filter
          fun row => row.tag = some (edit.updatedTag tag))[j]? = some (edit.apply row) →
        row.SameAbilities (edit.apply row)) :
    Mirrored
      ⟨Rows.update (fun row => row.tag = some tag) edit.apply s.channels,
        (recreated (Rows.update (fun row => row.tag = some tag) edit.apply s.channels)
          (edit.updatedTag tag) fails).foldl
            (fun abilities c => updateAbilities c abilities) s.abilities⟩ := by
  have hsub := recreated_sublist
    (Rows.update (fun row : TaggedChannel => row.tag = some tag) edit.apply s.channels)
    (edit.updatedTag tag) fails
  have hstays := fun c hc => @mem_recreated
    (Rows.update (fun row : TaggedChannel => row.tag = some tag) edit.apply s.channels)
    (edit.updatedTag tag) fails (edit.apply c) hc
  generalize recreated (Rows.update (fun row : TaggedChannel => row.tag = some tag) edit.apply
    s.channels) (edit.updatedTag tag) fails = again at hsub hstays ⊢
  have hclash : ∀ c ∈ s.channels,
      (if decide (c.tag = some tag) = true then edit.apply c else c).NoClash := by
    intro c hc
    by_cases htag : c.tag = some tag
    · simp only [htag, decide_true, if_true]
      exact (hkeep c hc htag).1
    · simp only [htag, decide_false, Bool.false_eq_true, if_false]
      exact h.noClash c hc
  have hsame : (Rows.update (fun row : TaggedChannel => row.tag = some tag) edit.apply
      s.channels).map (fun row => row.id) = s.channels.map fun row => row.id := by
    rw [Rows.update, List.map_map]
    exact List.map_congr_left fun c _ => hid c
  have hids : ((Rows.update (fun row : TaggedChannel => row.tag = some tag) edit.apply
      s.channels).map fun row => row.id).Nodup := hsame ▸ h.ids
  have hagain : ∀ x ∈ again, x.NoClash := by
    intro x hx
    obtain ⟨c, hc, rfl⟩ := List.mem_map.1 (hsub.subset hx)
    exact hclash c hc
  refine h.map hid hclash ?_ ?_
  · intro c hc group model
    have hc' := List.mem_map_of_mem (f := fun c : TaggedChannel =>
      if decide (c.tag = some tag) = true then edit.apply c else c) hc
    by_cases hmem : (if decide (c.tag = some tag) = true then edit.apply c else c) ∈ again
    · have hrow := foldl_updateAbilities_of_mem (hids.sublist (hsub.map _)) hagain hmem group model
        s.abilities
      rw [hid c] at hrow
      exact hrow
    · -- The rows of the channel stay.
      have hnone : ∀ x ∈ again, x.id ≠ c.id := by
        intro x hx he
        have hxc := Rows.eq_of_key_eq hids (hsub.subset hx) hc' (he.trans (hid c).symm)
        exact hmem (hxc ▸ hx)
      rw [foldl_updateAbilities_of_notMem hnone, h.rows c hc]
      by_cases htag : c.tag = some tag
      · simp only [htag, decide_true, if_true] at hc' hmem ⊢
        obtain ⟨j, hj, hget⟩ := (hstays c hc' (tag_apply htag)).resolve_left hmem
        have hsameAbilities := (hkeep c hc htag).2 j hj hget
        simp only [hsameAbilities.1, hsameAbilities.2]
      · simp only [htag, decide_false, Bool.false_eq_true, if_false]
  · intro key hkey a ha
    have hnone : ∀ x ∈ again, x.id ≠ key.channelId := by
      intro x hx
      obtain ⟨c, hc, rfl⟩ := List.mem_map.1 (hsub.subset hx)
      rw [hid c]
      exact hkey c hc
    rw [foldl_updateAbilities_of_notMem hnone] at ha
    exact h.left key hkey a ha

theorem Mirrored.editChannelByTag (h : s.Mirrored) {tag : String} {edit : TagEdit}
    {fails : Option ℕ} (hkeeps : s.Keeps unmarshal (.editChannelByTag tag edit fails)) :
    (s.editChannelByTag tag edit fails).Mirrored := by
  rw [AbilityStore.editChannelByTag]
  split
  · exact h
  rename_i hzero
  have hkeep := hkeeps.resolve_left hzero
  have hid : ∀ c : TaggedChannel, (if decide (c.tag = some tag) = true then edit.apply c else
      c).id = c.id := ite_id (p := fun c => decide (c.tag = some tag)) fun _ _ => rfl
  by_cases hone : fails = some 1
  · simp only [hone, if_true] at hkeep ⊢
    refine h.map_same hid ?_
    intro c hc
    by_cases htag : c.tag = some tag
    · simp only [htag, decide_true, if_true]
      exact hkeep c hc htag
    · simp only [htag, decide_false, Bool.false_eq_true, if_false]
      exact sameAbilities_refl c
  · simp only [hone, if_false] at hkeep ⊢
    by_cases hre : edit.shouldReCreateAbilities = true
    · simp only [hre, if_true] at hkeep ⊢
      exact h.recreate hid hkeep
    · -- Neither the models nor the groups change.
      simp only [hre, Bool.false_eq_true, if_false] at hkeep ⊢
      have hnone : TagEdit.text edit.models = none ∧ TagEdit.text edit.group = none := by
        simpa [TagEdit.shouldReCreateAbilities] using hre
      refine h.updateRows hid ?_ ?_ ?_
      · intro c _ pair
        split
        · simp only [TaggedChannel.pairs, TagEdit.apply, hnone, Option.getD_none]
        · exact Iff.rfl
      · intro c hc key _
        by_cases htag : c.tag = some tag
        · have hability := ability_apply (hkeep c hc htag)
          have hrow : c.ability.tag = some tag := htag
          simp only [hrow, htag, decide_true, if_true, hability]
          rfl
        · have hrow : c.ability.tag ≠ some tag := htag
          simp only [hrow, htag, decide_false, Bool.false_eq_true, if_false]
      · intro key a ha hkey
        have hdisabled := h.left key hkey a ha
        split
        · exact hdisabled
        · exact hdisabled

/-- **One operation** under the condition. -/
theorem Mirrored.step (h : s.Mirrored) {a : AbilityAction} (hkeeps : s.Keeps unmarshal a) :
    (s.step unmarshal a).Mirrored := by
  cases a with
  | insert channel fails => exact h.insert hkeeps
  | batchInsertChannels channels fails => exact h.batchInsertChannels hkeeps
  | update u fails => exact h.update unmarshal hkeeps
  | updateChannelStatus id usingKey status reason now fails =>
    exact h.updateChannelStatus unmarshal hkeeps
  | enableChannelByTag tag fails =>
    refine h.setStatusByTag ?_ ?_
    · intro hone row hrow htag
      rcases hkeeps with hzero | hkeep
      · exact absurd (hzero.symm.trans hone) (by decide)
      · rw [if_pos hone] at hkeep
        exact iff_of_true (hkeep row hrow htag) rfl
    · intro _ hzero hone
      have hkeep := hkeeps.resolve_left hzero
      rw [if_neg hone] at hkeep
      exact hkeep
  | disableChannelByTag tag fails =>
    have hdisabled : channelStatusManuallyDisabled ≠ channelStatusEnabled := by decide
    refine h.setStatusByTag ?_ fun he => absurd he hdisabled
    intro hone row hrow htag
    exact iff_of_false (hkeeps hone row hrow htag) hdisabled
  | editChannelByTag tag edit fails => exact h.editChannelByTag unmarshal hkeeps
  | delete id fails => exact h.delete hkeeps
  | batchDeleteChannels ids fails => exact h.batchDeleteChannels ids fails
  | deleteChannelByStatus status fails => exact h.deleteChannelByStatus hkeeps
  | deleteDisabledChannel fails => exact h.deleteDisabledChannel fails

theorem mirrored_empty : AbilityStore.empty.Mirrored := by
  refine ⟨List.nodup_nil, ?_, ?_, ?_⟩
  · intro c hc
    exact absurd hc List.not_mem_nil
  · intro c hc
    exact absurd hc List.not_mem_nil
  · intro key _ a ha
    have hnone : (none : Option Ability) = some a := ha
    exact absurd hnone nofun

end AbilityStore

/-! ### Runs -/

/-- **The enabled abilities are those of the enabled channels**, in every state of a run whose
operations all meet the condition. -/
theorem abilities_are_projection (unmarshal : String → Option (List String))
    (as : List AbilityAction)
    (hkeeps : Transition.Along (AbilityStore.step unmarshal) (AbilityStore.Keeps unmarshal)
      .empty as) :
    ∀ n, (Transition.run (AbilityStore.step unmarshal) .empty (as.take n)).Projected := by
  intro n
  have hprefix : Transition.Along (AbilityStore.step unmarshal) (AbilityStore.Keeps unmarshal)
      .empty (as.take n) := by
    rw [← List.take_append_drop n as] at hkeeps
    exact (Transition.along_append.1 hkeeps).1
  have hstep : ∀ (s : AbilityStore) a, s.Mirrored → s.Keeps unmarshal a →
      (s.step unmarshal a).Mirrored := fun s a hs ha => hs.step unmarshal ha
  exact (Transition.run_invariant hstep AbilityStore.mirrored_empty hprefix).projected

/-- A channel for one model and one group, with the tag `paid` and the weight 5. -/
def paidChannel : TaggedChannel :=
  { id := 1
    key := "sk-1"
    status := 1
    weight := some 5
    models := "gpt-4o"
    group := "default"
    priority := none
    otherInfo := ⟨none, none⟩
    channelInfo := ⟨false, ∅, ∅, ∅, 0, .unknown⟩
    keys := []
    tag := some "paid" }

/-- The channel is added, disabled by its tag, edited by it and enabled by its number. -/
def paidRun : List AbilityAction :=
  [.insert paidChannel none, .disableChannelByTag "paid" none,
    .editChannelByTag "paid" ⟨some "free", none, none, some 3, some 2⟩ none,
    .updateChannelStatus 1 "" channelStatusEnabled "" 100 none]

theorem abilities_are_projection_four :
    (Transition.run (AbilityStore.step fun _ => none) .empty (paidRun.take 4)).Projected := by
  refine abilities_are_projection (fun _ => none) paidRun ?_ 4
  simp only [paidRun, Transition.along_cons, Transition.along_nil, and_true]
  refine ⟨.inr fun _ => ⟨by decide, ?_, ?_⟩, ?_, .inr fun row _ _ => ?_, ?_⟩
  · exact fun _ _ => rfl
  · intro _ hfails
    cases hfails
  · intro hfails
    cases hfails
  · exact fun hweight => absurd hweight (by decide)
  · exact fun hcase => absurd hcase (by decide)

/-- **The weight 0 of a tag is not written to the rows**: the channel has it, its enabled row still
has 5. -/
theorem tag_weight_zero_is_lost :
    ¬(Transition.run (AbilityStore.step fun _ => none) .empty
      [.insert paidChannel none,
        .editChannelByTag "paid" ⟨none, none, none, none, some 0⟩ none]).Projected := by
  intro h
  have hrow := (h "default" "gpt-4o" 1).2 ⟨true, 0, 5, some "paid"⟩
    ({ paidChannel with weight := some 0, priority := some 0 } : TaggedChannel) (by decide)
    rfl (by rfl)
  exact absurd hrow.2.1 (by decide)

end NewApi

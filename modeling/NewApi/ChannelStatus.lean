/-
**The status of a key in the cache and in the table.**

`UpdateChannelStatus` (`src/model/channel.go`), with the cache of channels on, changes the status of
a key twice: in the cached channel, and in a fresh copy of its row, which it then saves.  The change
of the row is preceded by a test that the one of the cache lacks: if the channel has the status the
key is to get, the call returns.  So the cache and the row stay alike in exactly the runs in which
the test never stops a change.

Main definitions:

* `NewApi.ChannelStatusSystem`, `NewApi.ChannelStatusSystem.step` — the cache and the row of a
  channel, and a call of `UpdateChannelStatus`;
* `NewApi.Channel.CopyOf` — a cached channel says of the keys what the row says;
* `NewApi.Channel.Hears` — the test does not stop a change of a key.

Main results:

* `NewApi.Channel.CopyOf.handlerMultiKeyUpdate` — the same change keeps copies alike;
* `NewApi.key_status_in_cache_and_table` — **when the cache and the row stay alike**.
-/

import NewApi.Lib.Transition
import NewApi.ChannelCache
import NewApi.ChannelPolling

set_option autoImplicit false

namespace NewApi

/-! ### The change of a status -/

/-- A call of `UpdateChannelStatus` for the channel: the times are those at which the cached channel
and the row are changed.  Keys are enabled or disabled automatically. -/
structure StatusCall where
  usingKey : String
  status : ℤ
  reason : String
  cacheTime : ℤ
  rowTime : ℤ
  offered : status = channelStatusEnabled ∨ status = channelStatusAutoDisabled

/-- The cache of channels, and the row of one of them. -/
structure ChannelStatusSystem where
  cache : ChannelCache
  row : Channel

namespace ChannelStatusSystem

/-- The part of `UpdateChannelStatus` that changes the row.  The row is saved without its key, which
is not changed. -/
def updateRow (unmarshal : String → Option (List String)) (s : ChannelStatusSystem)
    (c : StatusCall) : ChannelStatusSystem × Bool :=
  if s.row.status = c.status then (s, false)
  else if s.row.channelInfo.isMultiKey then
    ({ s with
        row := handlerMultiKeyUpdate unmarshal s.row c.usingKey c.status c.reason c.rowTime },
      true)
  else ({ s with row := s.row.setStatus c.status c.reason c.rowTime }, true)

/-- The part of `UpdateChannelStatus` for several keys that changes the cached channel. -/
def updateCached (unmarshal : String → Option (List String)) (cache : ChannelCache)
    (channel : Channel) (id : ℤ) (c : StatusCall) : ChannelCache :=
  let changed := handlerMultiKeyUpdate unmarshal channel c.usingKey c.status c.reason c.cacheTime
  let cache := { cache with channelsIDM := Function.update cache.channelsIDM id (some changed) }
  if channel.status ≠ changed.status then cacheUpdateChannelStatus cache ⟨id, changed.status⟩
  else cache

/-- `UpdateChannelStatus`, with the cache on and the statements of the database succeeding. -/
def updateChannelStatus (unmarshal : String → Option (List String)) (s : ChannelStatusSystem)
    (c : StatusCall) : ChannelStatusSystem × Bool :=
  match s.cache.channelsIDM s.row.id with
  | none => (s, false)
  | some channel =>
    if channel.channelInfo.isMultiKey then
      updateRow unmarshal
        { s with cache := updateCached unmarshal s.cache channel s.row.id c } c
    else if channel.status = c.status then (s, false)
    else
      updateRow unmarshal
        { s with cache := cacheUpdateChannelStatus s.cache ⟨s.row.id, c.status⟩ } c

/-- A call, whatever it returns. -/
def step (unmarshal : String → Option (List String)) (s : ChannelStatusSystem) (c : StatusCall) :
    ChannelStatusSystem := (s.updateChannelStatus unmarshal c).1

end ChannelStatusSystem

/-! ### Copies -/

/-- A cached channel with several keys is a copy of its row: it has the same keys, the same statuses
of them, and the same status. -/
structure Channel.CopyOf (unmarshal : String → Option (List String)) (row cached : Channel) :
    Prop where
  keys : cached.getKeys unmarshal = row.getKeys unmarshal
  list : ∀ i, cached.channelInfo.multiKeyStatusList.lookup i =
    row.channelInfo.multiKeyStatusList.lookup i
  status : cached.status = row.status

/-- The entry of the status list that a change writes. -/
def entryOf (status : ℤ) : Option ℤ := if status = channelStatusEnabled then none else some status

/-- **The test does not stop a change**: the channel does not have the status the key is to get, or
the key has it already. -/
def Channel.Hears (unmarshal : String → Option (List String)) (row : Channel) (c : StatusCall) :
    Prop :=
  row.status ≠ c.status ∨
    ∀ i, row.keyIndex unmarshal c.usingKey = some i →
      row.channelInfo.multiKeyStatusList.lookup i = entryOf c.status

theorem lookup_setKeyStatus (info : ChannelInfo) (keyIndex : ℕ) (status : ℤ) (reason : String)
    (now : ℤ) (i : ℕ) :
    (info.setKeyStatus keyIndex status reason now).multiKeyStatusList.lookup i =
      if i = keyIndex then entryOf status else info.multiKeyStatusList.lookup i := by
  by_cases hi : i = keyIndex
  · subst hi
    by_cases hstatus : status = channelStatusEnabled
    · simp [ChannelInfo.setKeyStatus, entryOf, hstatus]
    · simp [ChannelInfo.setKeyStatus, entryOf, hstatus]
  · by_cases hstatus : status = channelStatusEnabled
    · simp [ChannelInfo.setKeyStatus, hstatus, hi, AList.lookup_erase_ne hi]
    · simp [ChannelInfo.setKeyStatus, hstatus, hi, AList.lookup_insert_ne hi]

section Copies

variable {unmarshal : String → Option (List String)}

theorem hasEnabledMultiKey_congr {keys : List String} {list list' : KeyMap ℤ}
    (h : ∀ i, list.lookup i = list'.lookup i) :
    hasEnabledMultiKey keys list = hasEnabledMultiKey keys list' := by
  unfold hasEnabledMultiKey getKeyStatus
  simp only [h]

variable (channel : Channel) (usingKey : String) (status : ℤ) (reason : String) (now : ℤ)

@[simp] theorem getKeys_handlerMultiKeyUpdate :
    (handlerMultiKeyUpdate unmarshal channel usingKey status reason now).getKeys unmarshal =
      channel.getKeys unmarshal := by
  have hsame : ∀ info st other,
      ({ channel with channelInfo := info, status := st, otherInfo := other } : Channel).getKeys
        unmarshal = channel.getKeys unmarshal := fun _ _ _ => rfl
  simp only [handlerMultiKeyUpdate]
  split
  · exact hsame _ _ _
  · split
    · split
      · rfl
      · exact hsame _ _ _
    · split
      · exact hsame _ _ _
      · split <;> exact hsame _ _ _

/-- **What a channel keeps about its keys after a change** of the status of a key. -/
theorem channelInfo_handlerMultiKeyUpdate :
    (handlerMultiKeyUpdate unmarshal channel usingKey status reason now).channelInfo =
      match channel.keyIndex unmarshal usingKey with
      | none => channel.channelInfo
      | some i => channel.channelInfo.setKeyStatus i status reason now := by
  simp only [handlerMultiKeyUpdate, Channel.keyIndex]
  by_cases hkeys : channel.getKeys unmarshal = []
  · simp only [hkeys, if_true]
    rfl
  · simp only [hkeys, if_false]
    cases (channel.getKeys unmarshal).idxOf? usingKey with
    | none => dsimp only; split <;> rfl
    | some keyIndex =>
      dsimp only
      split
      · rfl
      · split <;> rfl

@[simp] theorem isMultiKey_setKeyStatus (info : ChannelInfo) (i : ℕ) (status : ℤ)
    (reason : String) (now : ℤ) :
    (info.setKeyStatus i status reason now).isMultiKey = info.isMultiKey := by
  unfold ChannelInfo.setKeyStatus
  split <;> rfl

@[simp] theorem isMultiKey_handlerMultiKeyUpdate :
    (handlerMultiKeyUpdate unmarshal channel usingKey status reason
      now).channelInfo.isMultiKey = channel.channelInfo.isMultiKey := by
  rw [channelInfo_handlerMultiKeyUpdate]
  split
  · rfl
  · exact isMultiKey_setKeyStatus ..

/-- **The status of a channel after a change** of the status of a key. -/
theorem status_handlerMultiKeyUpdate :
    (handlerMultiKeyUpdate unmarshal channel usingKey status reason now).status =
      if channel.getKeys unmarshal = [] then status
      else
        match channel.keyIndex unmarshal usingKey with
        | none => if usingKey ≠ "" then channel.status else status
        | some i =>
          if hasEnabledMultiKey (channel.getKeys unmarshal) (channel.channelInfo.setKeyStatus i
              status reason now).multiKeyStatusList = false then channelStatusAutoDisabled
          else if status = channelStatusEnabled then channelStatusEnabled
          else channel.status := by
  simp only [handlerMultiKeyUpdate, Channel.keyIndex]
  by_cases hkeys : channel.getKeys unmarshal = []
  · simp only [hkeys, if_true]
  · simp only [hkeys, if_false]
    cases (channel.getKeys unmarshal).idxOf? usingKey with
    | none => dsimp only; split <;> rfl
    | some keyIndex =>
      dsimp only
      split
      · rfl
      · split <;> rfl

/-- **The status list after a change** of the status of a key. -/
theorem lookup_handlerMultiKeyUpdate (i : ℕ) :
    (handlerMultiKeyUpdate unmarshal channel usingKey status reason
        now).channelInfo.multiKeyStatusList.lookup i =
      if channel.keyIndex unmarshal usingKey = some i then entryOf status
      else channel.channelInfo.multiKeyStatusList.lookup i := by
  rw [channelInfo_handlerMultiKeyUpdate]
  cases channel.keyIndex unmarshal usingKey with
  | none => simp
  | some keyIndex =>
    dsimp only
    rw [lookup_setKeyStatus]
    simp only [Option.some.injEq, eq_comm]

variable {row cached : Channel}

/-- **The same change keeps copies alike.** -/
theorem Channel.CopyOf.handlerMultiKeyUpdate (h : row.CopyOf unmarshal cached) (usingKey : String)
    (status : ℤ) (reason : String) (cacheTime rowTime : ℤ) :
    (NewApi.handlerMultiKeyUpdate unmarshal row usingKey status reason rowTime).CopyOf unmarshal
      (NewApi.handlerMultiKeyUpdate unmarshal cached usingKey status reason cacheTime) := by
  have hindex : cached.keyIndex unmarshal usingKey = row.keyIndex unmarshal usingKey := by
    unfold Channel.keyIndex
    rw [h.keys]
  refine ⟨by simpa using h.keys, fun i => ?_, ?_⟩
  · rw [lookup_handlerMultiKeyUpdate, lookup_handlerMultiKeyUpdate, hindex, h.list]
  · have henabled : ∀ i, hasEnabledMultiKey (row.getKeys unmarshal)
        (cached.channelInfo.setKeyStatus i status reason cacheTime).multiKeyStatusList =
        hasEnabledMultiKey (row.getKeys unmarshal)
          (row.channelInfo.setKeyStatus i status reason rowTime).multiKeyStatusList := by
      intro i
      apply hasEnabledMultiKey_congr
      intro j
      rw [lookup_setKeyStatus, lookup_setKeyStatus, h.list]
    rw [status_handlerMultiKeyUpdate, status_handlerMultiKeyUpdate, hindex, h.keys, h.status]
    simp only [henabled]

/-- **When a change leaves a channel as it is** that has the status the key is to get. -/
theorem copyOf_handlerMultiKeyUpdate_iff (row : Channel) (c : StatusCall)
    (hstatus : row.status = c.status) (now : ℤ) :
    row.CopyOf unmarshal
        (handlerMultiKeyUpdate unmarshal row c.usingKey c.status c.reason now) ↔
      ∀ i, row.keyIndex unmarshal c.usingKey = some i →
        row.channelInfo.multiKeyStatusList.lookup i = entryOf c.status := by
  constructor
  · intro h i hi
    have hlist := h.list i
    rw [lookup_handlerMultiKeyUpdate, if_pos hi] at hlist
    exact hlist.symm
  · intro h
    have hlist : ∀ i, (handlerMultiKeyUpdate unmarshal row c.usingKey c.status c.reason
        now).channelInfo.multiKeyStatusList.lookup i =
        row.channelInfo.multiKeyStatusList.lookup i := by
      intro i
      rw [lookup_handlerMultiKeyUpdate]
      split
      · rename_i hi
        exact (h i hi).symm
      · rfl
    refine ⟨by simp, hlist, ?_⟩
    rw [status_handlerMultiKeyUpdate, hstatus]
    split
    · rfl
    · cases hindex : row.keyIndex unmarshal c.usingKey with
      | none => simp
      | some i =>
        dsimp only
        rcases c.offered with henabled | hdisabled
        · -- an enabled key is an enabled key of the channel
          have hi : i < (row.getKeys unmarshal).length := by
            unfold Channel.keyIndex at hindex
            exact (List.idxOf?_eq_some_iff.1 hindex).1
          have hany : hasEnabledMultiKey (row.getKeys unmarshal) (row.channelInfo.setKeyStatus i
              c.status c.reason now).multiKeyStatusList = true := by
            unfold hasEnabledMultiKey
            refine List.any_eq_true.2 ⟨i, List.mem_range.2 hi, ?_⟩
            rw [getKeyStatus_setKeyStatus, if_pos rfl, henabled]
            decide
          rw [hany]
          simp [henabled]
        · have hne : c.status ≠ channelStatusEnabled := by
            rw [hdisabled]
            decide
          rw [if_neg hne, hdisabled, ite_self]

theorem Channel.CopyOf.symm (h : row.CopyOf unmarshal cached) : cached.CopyOf unmarshal row :=
  ⟨h.keys.symm, fun i => (h.list i).symm, h.status.symm⟩

theorem Channel.CopyOf.trans {other : Channel} (h : row.CopyOf unmarshal cached)
    (h' : cached.CopyOf unmarshal other) : row.CopyOf unmarshal other :=
  ⟨h'.keys.trans h.keys, fun i => (h'.list i).trans (h.list i), h'.status.trans h.status⟩

end Copies

/-! ### Runs -/

namespace ChannelStatusSystem

variable {unmarshal : String → Option (List String)}

/-- The channel has several keys, and is in the cache with the same ones. -/
def Cached (unmarshal : String → Option (List String)) (s : ChannelStatusSystem) : Prop :=
  s.row.channelInfo.isMultiKey = true ∧
    ∃ channel, s.cache.channelsIDM s.row.id = some channel ∧
      channel.channelInfo.isMultiKey = true ∧ channel.getKeys unmarshal = s.row.getKeys unmarshal

/-- **The cached channel says of the keys what the row says.** -/
def InSync (unmarshal : String → Option (List String)) (s : ChannelStatusSystem) : Prop :=
  ∃ channel, s.cache.channelsIDM s.row.id = some channel ∧ s.row.CopyOf unmarshal channel

/-- The cached channel after a call. -/
theorem channelsIDM_updateCached (cache : ChannelCache) (channel : Channel) (id : ℤ)
    (c : StatusCall) :
    (updateCached unmarshal cache channel id c).channelsIDM id =
      some (handlerMultiKeyUpdate unmarshal channel c.usingKey c.status c.reason c.cacheTime) := by
  unfold updateCached
  dsimp only
  split
  · simp [cacheUpdateChannelStatus]
  · simp

/-- **What a call does**: the cached channel is changed, and the row as well unless it has the
status. -/
theorem step_eq {s : ChannelStatusSystem} {channel : Channel}
    (hchannel : s.cache.channelsIDM s.row.id = some channel)
    (hcached : channel.channelInfo.isMultiKey = true)
    (hrow : s.row.channelInfo.isMultiKey = true) (c : StatusCall) :
    s.step unmarshal c =
      { cache := updateCached unmarshal s.cache channel s.row.id c
        row := if s.row.status = c.status then s.row
          else handlerMultiKeyUpdate unmarshal s.row c.usingKey c.status c.reason c.rowTime } := by
  simp only [step, updateChannelStatus, hchannel, hcached, if_true, updateRow, hrow]
  split <;> rfl

theorem Cached.step {s : ChannelStatusSystem} (h : s.Cached unmarshal) (c : StatusCall) :
    (s.step unmarshal c).Cached unmarshal := by
  obtain ⟨hrow, channel, hchannel, hmulti, hkeys⟩ := h
  rw [step_eq hchannel hmulti hrow]
  by_cases hstatus : s.row.status = c.status
  · simp only [hstatus, if_true]
    exact ⟨hrow, _, channelsIDM_updateCached .., by simpa using hmulti, by simpa using hkeys⟩
  · simp only [hstatus, if_false]
    refine ⟨by simpa using hrow, handlerMultiKeyUpdate unmarshal channel c.usingKey c.status
      c.reason c.cacheTime, ?_, by simpa using hmulti, by simpa using hkeys⟩
    rw [id_handlerMultiKeyUpdate]
    exact channelsIDM_updateCached ..

/-- **One call** keeps the cache and the row alike exactly if the test does not stop it. -/
theorem inSync_step {s : ChannelStatusSystem} (h : s.Cached unmarshal) (hsync : s.InSync unmarshal)
    (c : StatusCall) : (s.step unmarshal c).InSync unmarshal ↔ s.row.Hears unmarshal c := by
  obtain ⟨hrow, channel, hchannel, hmulti, -⟩ := h
  obtain ⟨channel', hchannel', hcopy⟩ := hsync
  obtain rfl : channel = channel' := by
    rw [hchannel] at hchannel'
    exact Option.some.inj hchannel'
  rw [step_eq hchannel hmulti hrow]
  have hchanged := fun rowTime => hcopy.handlerMultiKeyUpdate c.usingKey c.status c.reason
    c.cacheTime rowTime
  by_cases hstatus : s.row.status = c.status
  · -- only the cached channel is changed
    simp only [hstatus, if_true, Channel.Hears, ne_eq, not_true_eq_false, false_or]
    rw [← copyOf_handlerMultiKeyUpdate_iff s.row c hstatus c.rowTime]
    constructor
    · rintro ⟨cached, hcached, hsame⟩
      rw [channelsIDM_updateCached] at hcached
      obtain rfl := Option.some.inj hcached
      exact hsame.trans (hchanged c.rowTime).symm
    · intro hsame
      exact ⟨_, channelsIDM_updateCached .., hsame.trans (hchanged c.rowTime)⟩
  · simp only [hstatus, if_false]
    refine iff_of_true ⟨_, ?_, hchanged c.rowTime⟩ (Or.inl hstatus)
    rw [id_handlerMultiKeyUpdate]
    exact channelsIDM_updateCached ..

end ChannelStatusSystem

open ChannelStatusSystem in
/-- **The cache and the table stay alike in exactly the runs whose calls are all heard**: for every
channel with several keys whose cached copy equals its row, and every sequence of calls of
`UpdateChannelStatus` about it. -/
theorem key_status_in_cache_and_table (unmarshal : String → Option (List String))
    (s : ChannelStatusSystem) (hcached : s.Cached unmarshal) (hsync : s.InSync unmarshal)
    (calls : List StatusCall) :
    (∀ n, (Transition.run (step unmarshal) s (calls.take n)).InSync unmarshal) ↔
      Transition.Along (step unmarshal) (fun s c => s.row.Hears unmarshal c) s calls :=
  @Transition.forall_take_iff_along _ _ (step unmarshal) _ (Cached unmarshal) (InSync unmarshal)
    (fun _ c h => h.step c) (fun _ c h hs => inSync_step h hs c) s calls hcached hsync

/-- A channel with the keys `a` and `b`, of which the status list is given. -/
def twoKeys (list : KeyMap ℤ) : Channel where
  id := 1
  key := "a\nb"
  status := channelStatusEnabled
  weight := none
  models := "gpt-4o"
  group := "default"
  priority := none
  otherInfo := ⟨none, none⟩
  channelInfo := ⟨true, list, ∅, ∅, 0, .random⟩
  keys := []

/-- The channel in the table and in the cache. -/
def twoKeysSystem : ChannelStatusSystem where
  cache := ⟨fun _ => none, fun id => if id = 1 then some (twoKeys ∅) else none⟩
  row := twoKeys ∅

def banKey (key : String) : StatusCall where
  usingKey := key
  status := channelStatusAutoDisabled
  reason := "status 401"
  cacheTime := 0
  rowTime := 0
  offered := Or.inr rfl

def enableKey (key : String) : StatusCall where
  usingKey := key
  status := channelStatusEnabled
  reason := ""
  cacheTime := 0
  rowTime := 0
  offered := Or.inl rfl

/-- Both keys are disabled one after the other. -/
theorem key_status_in_cache_and_table_bans :
    (Transition.run (ChannelStatusSystem.step fun _ => none) twoKeysSystem
      ([banKey "a", banKey "b"].take 2)).InSync fun _ => none :=
  (key_status_in_cache_and_table (fun _ => none) twoKeysSystem
    ⟨rfl, twoKeys ∅, rfl, rfl, rfl⟩ ⟨twoKeys ∅, rfl, rfl, fun _ => rfl, rfl⟩
    [banKey "a", banKey "b"]).2
    ⟨Or.inl (by decide), Or.inl (by decide), trivial⟩ 2

/-- **A key that is disabled and enabled again stays disabled in the table**, as the channel was
enabled all along. -/
theorem enabled_key_stays_disabled :
    let s := Transition.run (ChannelStatusSystem.step fun _ => none) twoKeysSystem
      [banKey "a", enableKey "a"]
    (s.cache.channelsIDM 1).map (fun channel =>
        channel.channelInfo.multiKeyStatusList.lookup 0) = some none ∧
      s.row.channelInfo.multiKeyStatusList.lookup 0 = some channelStatusAutoDisabled ∧
      ¬s.InSync fun _ => none := by
  have hcache : ((Transition.run (ChannelStatusSystem.step fun _ => none) twoKeysSystem
      [banKey "a", enableKey "a"]).cache.channelsIDM 1).map (fun channel =>
        channel.channelInfo.multiKeyStatusList.lookup 0) = some none := by decide
  have hrow : (Transition.run (ChannelStatusSystem.step fun _ => none) twoKeysSystem
      [banKey "a", enableKey "a"]).row.channelInfo.multiKeyStatusList.lookup 0 =
        some channelStatusAutoDisabled := by decide
  have hid : (Transition.run (ChannelStatusSystem.step fun _ => none) twoKeysSystem
      [banKey "a", enableKey "a"]).row.id = 1 := by decide
  refine ⟨hcache, hrow, ?_⟩
  rintro ⟨channel, hchannel, hcopy⟩
  rw [hid] at hchannel
  have hlist := hcopy.list 0
  rw [hrow] at hlist
  rw [hchannel, Option.map_some, hlist] at hcache
  cases hcache

end NewApi

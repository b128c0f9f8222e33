/-
**Polling the keys of a channel while keys are banned.**

Without the cache, a request reads the row of its channel and later takes the next enabled key of
the copy it has, and a change of the status of a key reads the row, changes the copy and writes it
back.  The lock of the channel is taken in between: the request writes what the copy keeps about the
keys while it has the lock, the change of a status writes the whole copy after it has given the lock
up, and both have read the row before.  Each access to the row or to the lock is a step of its own
here, and the calls interleave as they like.

Main definitions:

* `NewApi.ChannelCall`, `NewApi.PollingState` — the calls, and how far one has come;
* `NewApi.PollingSystem`, `NewApi.pollingStep` — the row, the lock and the calls, and one step;
* `NewApi.PollingSystem.BansKept` — the keys that have been banned are disabled in the row;
* `NewApi.PollingAction.Current` — a copy is written only if it was read after the bans.

Main results:

* `NewApi.key_bans_kept` — **no ban of a key is undone in exactly the runs in which every copy that
  is written was read after the bans of the other keys**;
* `NewApi.polling_undoes_ban` — a run in which a request undoes a ban.
-/

import Mathlib.Data.Finset.Basic
import NewApi.Lib.Transition
import NewApi.Channel

set_option autoImplicit false

namespace NewApi

/-! ### The next enabled key -/

/-- An error of a channel that has no key to offer. -/
def noAvailableKey (message : String) : RelayError :=
  ⟨message, "channel:no_available_key", 500, false⟩

/-- The positions of the enabled keys. -/
def enabledIdx (keys : List String) (statusList : KeyMap ℤ) : List ℕ :=
  (List.range keys.length).filter fun i => getKeyStatus statusList i = channelStatusEnabled

/-- The next position for the polling of the keys. -/
def ChannelInfo.setPollingIndex (info : ChannelInfo) (index : ℤ) : ChannelInfo :=
  { info with multiKeyPollingIndex := index }

/-- The position of the first enabled key from the saved one on, and the channel with the position
to go on from.  A saved position that is out of range is the first one. -/
def Channel.pollKey (unmarshal : String → Option (List String)) (channel : Channel)
    (pollingIndex : ℤ) : Channel × ℕ :=
  let keys := channel.getKeys unmarshal
  let statusList := channel.channelInfo.multiKeyStatusList
  let start := if pollingIndex < 0 ∨ keys.length ≤ pollingIndex then 0 else pollingIndex.toNat
  let order := (List.range keys.length).map fun i => (start + i) % keys.length
  match order.find? fun idx => getKeyStatus statusList idx = channelStatusEnabled with
  | some idx =>
    let next : ℕ := (idx + 1) % keys.length
    ({ channel with channelInfo := channel.channelInfo.setPollingIndex next }, idx)
  | none => (channel, (enabledIdx keys statusList).headD 0)

/-- The key that a change of a status is about, if the channel has several. -/
def Channel.bannedIdx (unmarshal : String → Option (List String)) (channel : Channel)
    (usingKey : String) : Option ℕ :=
  if channel.channelInfo.isMultiKey then channel.keyIndex unmarshal usingKey else none

/-- The channel with one key whose status is changed. -/
def Channel.setStatus (channel : Channel) (status : ℤ) (reason : String) (now : ℤ) : Channel :=
  { channel with status := status, otherInfo := ⟨some reason, some now⟩ }

/-- All keys of a set are disabled. -/
def ChannelInfo.Disables (info : ChannelInfo) (keys : Finset ℕ) : Prop :=
  ∀ k ∈ keys, getKeyStatus info.multiKeyStatusList k ≠ channelStatusEnabled

instance (info : ChannelInfo) (keys : Finset ℕ) : Decidable (info.Disables keys) :=
  inferInstanceAs (Decidable (∀ k ∈ keys, _))

/-! ### Calls and steps -/

/-- The calls about a channel: of a request that takes a key of it, and of `UpdateChannelStatus`. -/
inductive ChannelCall where
  | getNextEnabledKey
  | updateChannelStatus (usingKey : String) (status : ℤ) (reason : String)
deriving DecidableEq, Repr

inductive PollingResult where
  | notLoaded
  | key (key : String) (index : ℕ)
  | error (err : RelayError)
  | updated (ok : Bool)
deriving DecidableEq, Repr

/-- How far a call has come.  A call that changes a status has the copy it has read and, from
`changed` on, also the changed one.  A request that is `leaving` has its result and still has the
lock. -/
inductive PollingState where
  | start
  | loaded (channel : Channel)
  | locked (channel : Channel)
  | indexed (channel : Channel) (pollingIndex : ℤ)
  | changed (loaded channel : Channel)
  | released (loaded channel : Channel)
  | leaving (result : PollingResult)
  | done (result : PollingResult)
deriving DecidableEq

/-- The row of the channel, its lock and the calls.  `banned` are the positions of the keys that
were last written as disabled by a change of their status. -/
structure PollingSystem (ι : Type*) where
  row : Channel
  lock : Option ι
  state : ι → PollingState
  banned : Finset ℕ

/-- The next step of a call: the time, a random number, and the error of the database if the step
fails. -/
structure PollingAction (ι : Type*) where
  caller : ι
  now : ℤ
  rand : ℕ
  dbErr : Option String
deriving DecidableEq, Repr

section Step

variable {ι : Type*} [DecidableEq ι]

namespace PollingSystem

def goTo (i : ι) (state : PollingState) (s : PollingSystem ι) : PollingSystem ι :=
  { s with state := Function.update s.state i state }

/-- A call takes the lock, or waits for it. -/
def acquire (i : ι) (state : PollingState) (s : PollingSystem ι) : PollingSystem ι :=
  if s.lock = none then { s with lock := some i, state := Function.update s.state i state } else s

def release (i : ι) (state : PollingState) (s : PollingSystem ι) : PollingSystem ι :=
  { s with lock := none, state := Function.update s.state i state }

/-- What a copy keeps about the keys is written. -/
def saveChannelInfo (i : ι) (channel : Channel) (state : PollingState) (s : PollingSystem ι) :
    PollingSystem ι :=
  { s with
    row := { s.row with channelInfo := channel.channelInfo }
    state := Function.update s.state i state }

/-- A copy is written but for its key, and with it the status of the key at `index`. -/
def saveWithoutKey (i : ι) (channel : Channel) (index : Option ℕ) (status : ℤ)
    (s : PollingSystem ι) : PollingSystem ι :=
  { s with
    row := { channel with key := s.row.key }
    state := Function.update s.state i (.done (.updated true))
    banned :=
      match index with
      | none => s.banned
      | some k => if status = channelStatusEnabled then s.banned.erase k else insert k s.banned }

end PollingSystem

/-- A request that has the lock chooses an enabled key of its copy.  To poll, it reads the saved
position from the row. -/
def chooseKey (unmarshal : String → Option (List String)) (channel : Channel)
    (s : PollingSystem ι) (a : PollingAction ι) : PollingSystem ι :=
  let keys := channel.getKeys unmarshal
  let enabled := enabledIdx keys channel.channelInfo.multiKeyStatusList
  let first := enabled.headD 0
  let random := enabled.getD (a.rand % enabled.length) 0
  if enabled = [] then s.goTo a.caller (.leaving (.error (noAvailableKey "no enabled keys")))
  else
    match channel.channelInfo.multiKeyMode with
    | .random => s.goTo a.caller (.leaving (.key (keys.getD random "") random))
    | .polling =>
      match a.dbErr with
      | some err => s.goTo a.caller (.leaving (.error (getChannelFailed err)))
      | none => s.goTo a.caller (.indexed channel s.row.channelInfo.multiKeyPollingIndex)
    | .unknown => s.goTo a.caller (.leaving (.key (keys.getD first "") first))

/-- The next step of a request.  That the saved position could not be written is ignored. -/
def getNextEnabledKey (unmarshal : String → Option (List String)) (s : PollingSystem ι)
    (a : PollingAction ι) : PollingSystem ι :=
  match s.state a.caller with
  | .start =>
    if a.dbErr.isSome then s.goTo a.caller (.done .notLoaded)
    else s.goTo a.caller (.loaded s.row)
  | .loaded channel =>
    if channel.channelInfo.isMultiKey = false then
      s.goTo a.caller (.done (.key channel.key 0))
    else if channel.getKeys unmarshal = [] then
      s.goTo a.caller (.done (.error (noAvailableKey "no keys available")))
    else s.acquire a.caller (.locked channel)
  | .locked channel => chooseKey unmarshal channel s a
  | .indexed channel pollingIndex =>
    let (polled, idx) := channel.pollKey unmarshal pollingIndex
    let result := PollingResult.key ((channel.getKeys unmarshal).getD idx "") idx
    if a.dbErr.isSome then s.goTo a.caller (.leaving result)
    else s.saveChannelInfo a.caller polled (.leaving result)
  | .leaving result => s.release a.caller (.done result)
  | _ => s

/-- The next step of a change of a status. -/
def updateChannelStatus (unmarshal : String → Option (List String)) (usingKey : String)
    (status : ℤ) (reason : String) (s : PollingSystem ι) (a : PollingAction ι) :
    PollingSystem ι :=
  match s.state a.caller with
  | .start =>
    if a.dbErr.isSome ∨ s.row.status = status then s.goTo a.caller (.done (.updated false))
    else s.goTo a.caller (.loaded s.row)
  | .loaded channel =>
    if channel.channelInfo.isMultiKey then s.acquire a.caller (.locked channel)
    else s.goTo a.caller (.released channel (channel.setStatus status reason a.now))
  | .locked channel =>
    s.goTo a.caller
      (.changed channel (handlerMultiKeyUpdate unmarshal channel usingKey status reason a.now))
  | .changed loaded channel => s.release a.caller (.released loaded channel)
  | .released loaded channel =>
    if channel.id = 0 ∨ a.dbErr.isSome then s.goTo a.caller (.done (.updated false))
    else s.saveWithoutKey a.caller channel (loaded.bannedIdx unmarshal usingKey) status
  | _ => s

def pollingStep (unmarshal : String → Option (List String)) (calls : ι → ChannelCall)
    (s : PollingSystem ι) (a : PollingAction ι) : PollingSystem ι :=
  match calls a.caller with
  | .getNextEnabledKey => getNextEnabledKey unmarshal s a
  | .updateChannelStatus usingKey status reason =>
    updateChannelStatus unmarshal usingKey status reason s a

/-- The row before any call. -/
def PollingSystem.start (row : Channel) : PollingSystem ι where
  row := row
  lock := none
  state _ := .start
  banned := ∅

/-- Every key that has been banned is disabled in the row. -/
def PollingSystem.BansKept (s : PollingSystem ι) : Prop := s.row.channelInfo.Disables s.banned

instance (s : PollingSystem ι) : Decidable s.BansKept :=
  inferInstanceAs (Decidable (ChannelInfo.Disables _ _))

/-- A copy that is written was read after the bans: every key that has been banned by now, other
than the one a change of a status is about, is disabled in the copy that was read. -/
def PollingAction.Current (unmarshal : String → Option (List String)) (calls : ι → ChannelCall)
    (s : PollingSystem ι) (a : PollingAction ι) : Prop :=
  match calls a.caller, s.state a.caller with
  | .getNextEnabledKey, .indexed channel _ =>
    a.dbErr = none → channel.channelInfo.Disables s.banned
  | .updateChannelStatus usingKey _ _, .released loaded _ =>
    a.dbErr = none → loaded.id ≠ 0 → loaded.channelInfo.Disables
      (s.banned.filter fun k => loaded.bannedIdx unmarshal usingKey ≠ some k)
  | _, _ => True

instance PollingAction.decidableCurrent (unmarshal : String → Option (List String))
    (calls : ι → ChannelCall) (s : PollingSystem ι) (a : PollingAction ι) :
    Decidable (a.Current unmarshal calls s) := by
  unfold PollingAction.Current
  split <;> infer_instance

end Step

/-! ### Copies -/

section Copies

variable {unmarshal : String → Option (List String)}

/-- The channel after a change of the status of a key, as far as a ban is concerned: it is the same
channel, and the other keys have the status they had. -/
structure StatusChanged (unmarshal : String → Option (List String)) (usingKey : String) (status : ℤ)
    (loaded channel : Channel) : Prop where
  id : channel.id = loaded.id
  keyStatus : ∀ idx, getKeyStatus channel.channelInfo.multiKeyStatusList idx =
    if loaded.bannedIdx unmarshal usingKey = some idx then status
    else getKeyStatus loaded.channelInfo.multiKeyStatusList idx

theorem statusChanged_setStatus {channel : Channel} (usingKey : String) (status : ℤ)
    (reason : String) (now : ℤ) (hsingle : channel.channelInfo.isMultiKey = false) :
    StatusChanged unmarshal usingKey status channel (channel.setStatus status reason now) where
  id := rfl
  keyStatus idx := by simp [Channel.bannedIdx, hsingle, Channel.setStatus]

theorem id_handlerMultiKeyUpdate (channel : Channel) (usingKey : String) (status : ℤ)
    (reason : String) (now : ℤ) :
    (handlerMultiKeyUpdate unmarshal channel usingKey status reason now).id = channel.id := by
  simp only [handlerMultiKeyUpdate]
  split
  · rfl
  · split
    · split <;> rfl
    · split
      · rfl
      · split <;> rfl

theorem statusChanged_handlerMultiKeyUpdate {channel : Channel} (usingKey : String) (status : ℤ)
    (reason : String) (now : ℤ) (hmulti : channel.channelInfo.isMultiKey = true) :
    StatusChanged unmarshal usingKey status channel
      (handlerMultiKeyUpdate unmarshal channel usingKey status reason now) where
  id := id_handlerMultiKeyUpdate channel usingKey status reason now
  keyStatus idx := by
    rw [getKeyStatus_handlerMultiKeyUpdate, Channel.bannedIdx, if_pos hmulti]

/-- Polling leaves the statuses of the keys alone. -/
theorem multiKeyStatusList_pollKey (channel : Channel) (pollingIndex : ℤ) :
    (channel.pollKey unmarshal pollingIndex).1.channelInfo.multiKeyStatusList =
      channel.channelInfo.multiKeyStatusList := by
  simp only [Channel.pollKey]
  split <;> rfl

/-- What the copy of a call has to do with the one it has read. -/
def PollingState.Matches (unmarshal : String → Option (List String)) (call : ChannelCall) :
    PollingState → Prop
  | .locked channel => channel.channelInfo.isMultiKey = true
  | .changed copy channel | .released copy channel =>
    ∀ usingKey status reason, call = .updateChannelStatus usingKey status reason →
      StatusChanged unmarshal usingKey status copy channel
  | _ => True

end Copies

/-! ### What a step does -/

section Moves

variable {ι : Type*} [DecidableEq ι] {unmarshal : String → Option (List String)}
  {calls : ι → ChannelCall} {s : PollingSystem ι} {a : PollingAction ι}

/-- A call goes on without a write of the row. -/
def PollingSystem.moveTo (i : ι) (lock : Option ι) (state : PollingState) (s : PollingSystem ι) :
    PollingSystem ι :=
  { s with lock := lock, state := Function.update s.state i state }

/-- What a step can do: nothing, go on without a write, or write the row from a copy. -/
inductive PollingMove (unmarshal : String → Option (List String)) (calls : ι → ChannelCall)
    (s : PollingSystem ι) (a : PollingAction ι) : PollingSystem ι → Prop
  | stay (hcurrent : a.Current unmarshal calls s) : PollingMove unmarshal calls s a s
  | move (lock : Option ι) (state : PollingState) (hcurrent : a.Current unmarshal calls s)
      (hmatches : state.Matches unmarshal (calls a.caller)) :
      PollingMove unmarshal calls s a (s.moveTo a.caller lock state)
  | saveInfo (channel : Channel) (pollingIndex : ℤ) (result : PollingResult)
      (hcurrent : a.Current unmarshal calls s ↔ channel.channelInfo.Disables s.banned) :
      PollingMove unmarshal calls s a
        (s.saveChannelInfo a.caller (channel.pollKey unmarshal pollingIndex).1 (.leaving result))
  | saveRow (usingKey : String) (status : ℤ) (loaded channel : Channel)
      (hcurrent : a.Current unmarshal calls s ↔ loaded.channelInfo.Disables
        (s.banned.filter fun k => loaded.bannedIdx unmarshal usingKey ≠ some k))
      (hchanged : StatusChanged unmarshal usingKey status loaded channel) :
      PollingMove unmarshal calls s a
        (s.saveWithoutKey a.caller channel (loaded.bannedIdx unmarshal usingKey) status)

theorem PollingMove.goTo {state : PollingState} (hcurrent : a.Current unmarshal calls s)
    (hmatches : state.Matches unmarshal (calls a.caller)) :
    PollingMove unmarshal calls s a (s.goTo a.caller state) :=
  .move s.lock state hcurrent hmatches

theorem PollingMove.release {state : PollingState} (hcurrent : a.Current unmarshal calls s)
    (hmatches : state.Matches unmarshal (calls a.caller)) :
    PollingMove unmarshal calls s a (s.release a.caller state) :=
  .move none state hcurrent hmatches

/-- A call waits for the lock or takes it. -/
theorem PollingMove.acquire {state : PollingState} (hcurrent : a.Current unmarshal calls s)
    (hmatches : state.Matches unmarshal (calls a.caller)) :
    PollingMove unmarshal calls s a (s.acquire a.caller state) := by
  unfold PollingSystem.acquire
  split
  · exact .move (some a.caller) state hcurrent hmatches
  · exact .stay hcurrent

theorem chooseKey_cases {channel : Channel} (hcurrent : a.Current unmarshal calls s) :
    PollingMove unmarshal calls s a (chooseKey unmarshal channel s a) := by
  simp only [chooseKey]
  split
  · exact .goTo hcurrent trivial
  · split
    · exact .goTo hcurrent trivial
    · split
      · exact .goTo hcurrent trivial
      · exact .goTo hcurrent trivial
    · exact .goTo hcurrent trivial

theorem getNextEnabledKey_cases (hcall : calls a.caller = .getNextEnabledKey) :
    PollingMove unmarshal calls s a (getNextEnabledKey unmarshal s a) := by
  unfold getNextEnabledKey
  cases hstate : s.state a.caller with
  | start =>
    have hcurrent : a.Current unmarshal calls s := by simp [PollingAction.Current, hcall, hstate]
    simp only
    split
    · exact .goTo hcurrent trivial
    · exact .goTo hcurrent trivial
  | loaded channel =>
    have hcurrent : a.Current unmarshal calls s := by simp [PollingAction.Current, hcall, hstate]
    simp only
    split
    · exact .goTo hcurrent trivial
    · split
      · exact .goTo hcurrent trivial
      · rename_i hmulti _
        exact .acquire hcurrent (Bool.eq_true_of_not_eq_false hmulti)
  | locked channel => exact chooseKey_cases (by simp [PollingAction.Current, hcall, hstate])
  | indexed channel pollingIndex =>
    simp only
    split
    · rename_i herr
      refine .goTo ?_ trivial
      simp [PollingAction.Current, hcall, hstate, Option.isSome_iff_ne_none.1 herr]
    · rename_i herr
      refine .saveInfo channel pollingIndex _ ?_
      have hnone : a.dbErr = none := by simpa using herr
      simp [PollingAction.Current, hcall, hstate, hnone]
  | leaving result =>
    exact .release (by simp [PollingAction.Current, hcall, hstate]) trivial
  | changed loaded channel => exact .stay (by simp [PollingAction.Current, hcall, hstate])
  | released loaded channel => exact .stay (by simp [PollingAction.Current, hcall, hstate])
  | done result => exact .stay (by simp [PollingAction.Current, hcall, hstate])

theorem updateChannelStatus_cases {usingKey : String} {status : ℤ} {reason : String}
    (hcall : calls a.caller = .updateChannelStatus usingKey status reason)
    (hmatches : (s.state a.caller).Matches unmarshal (calls a.caller)) :
    PollingMove unmarshal calls s a (updateChannelStatus unmarshal usingKey status reason s a) := by
  unfold updateChannelStatus
  cases hstate : s.state a.caller with
  | start =>
    have hcurrent : a.Current unmarshal calls s := by simp [PollingAction.Current, hcall, hstate]
    simp only
    split
    · exact .goTo hcurrent trivial
    · exact .goTo hcurrent trivial
  | loaded channel =>
    have hcurrent : a.Current unmarshal calls s := by simp [PollingAction.Current, hcall, hstate]
    simp only
    split
    · rename_i hmulti
      exact .acquire hcurrent hmulti
    · rename_i hsingle
      refine .goTo hcurrent fun usingKey' status' reason' hcall' => ?_
      rw [hcall] at hcall'
      cases hcall'
      exact statusChanged_setStatus usingKey status reason a.now
        (Bool.eq_false_of_not_eq_true hsingle)
  | locked channel =>
    rw [hstate] at hmatches
    refine .goTo (by simp [PollingAction.Current, hcall, hstate]) ?_
    intro usingKey' status' reason' hcall'
    rw [hcall] at hcall'
    cases hcall'
    exact statusChanged_handlerMultiKeyUpdate usingKey status reason a.now hmatches
  | changed loaded channel =>
    rw [hstate] at hmatches
    exact .release (by simp [PollingAction.Current, hcall, hstate]) hmatches
  | released loaded channel =>
    rw [hstate] at hmatches
    have hchanged := hmatches usingKey status reason hcall
    simp only
    split
    · rename_i hfail
      refine .goTo ?_ trivial
      rw [hchanged.id] at hfail
      simp only [PollingAction.Current, hcall, hstate]
      intro hnone hid
      rw [hnone] at hfail
      exact absurd hfail (by simpa using hid)
    · rename_i hok
      refine .saveRow usingKey status loaded channel ?_ hchanged
      rw [hchanged.id] at hok
      have hnone : a.dbErr = none := by simpa using (not_or.1 hok).2
      simp [PollingAction.Current, hcall, hstate, hnone, (not_or.1 hok).1]
  | indexed channel pollingIndex => exact .stay (by simp [PollingAction.Current, hcall, hstate])
  | leaving result => exact .stay (by simp [PollingAction.Current, hcall, hstate])
  | done result => exact .stay (by simp [PollingAction.Current, hcall, hstate])

theorem pollingStep_cases (hmatches : (s.state a.caller).Matches unmarshal (calls a.caller)) :
    PollingMove unmarshal calls s a (pollingStep unmarshal calls s a) := by
  unfold pollingStep
  cases hcall : calls a.caller with
  | getNextEnabledKey => exact getNextEnabledKey_cases hcall
  | updateChannelStatus usingKey status reason => exact updateChannelStatus_cases hcall hmatches

/-- The copies of all calls match. -/
def PollingSystem.CopiesMatch (unmarshal : String → Option (List String)) (calls : ι → ChannelCall)
    (s : PollingSystem ι) : Prop :=
  ∀ i, (s.state i).Matches unmarshal (calls i)

theorem PollingSystem.CopiesMatch.update {i : ι} {state : PollingState}
    (h : s.CopiesMatch unmarshal calls) (hmatches : state.Matches unmarshal (calls i)) (j : ι) :
    (Function.update s.state i state j).Matches unmarshal (calls j) := by
  by_cases hj : j = i
  · subst hj
    rw [Function.update_self]
    exact hmatches
  · rw [Function.update_of_ne hj]
    exact h j

theorem PollingSystem.CopiesMatch.step (h : s.CopiesMatch unmarshal calls) :
    (pollingStep unmarshal calls s a).CopiesMatch unmarshal calls := by
  have hmove := pollingStep_cases (h a.caller)
  generalize pollingStep unmarshal calls s a = s' at hmove ⊢
  cases hmove with
  | stay _ => exact h
  | move lock state _ hmatches => exact h.update hmatches
  | saveInfo channel pollingIndex result _ => exact h.update trivial
  | saveRow usingKey status loaded channel _ _ => exact h.update trivial

/-- A row that is written from a copy keeps the bans, and makes its own, exactly if the copy was
read after the bans of the other keys. -/
theorem bansKept_saveWithoutKey {usingKey : String} {status : ℤ} {loaded channel : Channel} (i : ι)
    (hchanged : StatusChanged unmarshal usingKey status loaded channel) :
    (s.saveWithoutKey i channel (loaded.bannedIdx unmarshal usingKey) status).BansKept ↔
      loaded.channelInfo.Disables
        (s.banned.filter fun k => loaded.bannedIdx unmarshal usingKey ≠ some k) := by
  have hstatus := hchanged.keyStatus
  unfold PollingSystem.BansKept ChannelInfo.Disables
  simp only [PollingSystem.saveWithoutKey, hstatus, Finset.mem_filter]
  cases hindex : loaded.bannedIdx unmarshal usingKey with
  | none => simp
  | some idx =>
    simp only [Option.some.injEq, ne_eq]
    constructor
    · rintro h k ⟨hk, hne⟩
      have hkept := h k ?_
      · rwa [if_neg hne] at hkept
      · split
        · exact Finset.mem_erase_of_ne_of_mem (Ne.symm hne) hk
        · exact Finset.mem_insert_of_mem hk
    · intro h k hk
      by_cases hstat : status = channelStatusEnabled
      · rw [if_pos hstat] at hk
        obtain ⟨hne, hk⟩ := Finset.mem_erase.1 hk
        rw [if_neg (Ne.symm hne)]
        exact h k ⟨hk, Ne.symm hne⟩
      · rw [if_neg hstat] at hk
        by_cases hne : idx = k
        · rwa [if_pos hne]
        · rw [if_neg hne]
          exact h k ⟨(Finset.mem_insert.1 hk).resolve_left (Ne.symm hne), hne⟩

/-- **A step keeps the bans exactly if the copy it writes, if it writes one, is current.** -/
theorem bansKept_pollingStep (hmatch : s.CopiesMatch unmarshal calls) (hkept : s.BansKept) :
    (pollingStep unmarshal calls s a).BansKept ↔ a.Current unmarshal calls s := by
  have hmove := pollingStep_cases (hmatch a.caller)
  generalize pollingStep unmarshal calls s a = s' at hmove ⊢
  cases hmove with
  | stay hcurrent => exact iff_of_true hkept hcurrent
  | move lock state hcurrent _ => exact iff_of_true hkept hcurrent
  | saveInfo channel pollingIndex result hcurrent =>
    rw [hcurrent]
    unfold PollingSystem.BansKept ChannelInfo.Disables
    simp only [PollingSystem.saveChannelInfo, multiKeyStatusList_pollKey]
  | saveRow usingKey status loaded channel hcurrent hchanged =>
    rw [hcurrent]
    exact bansKept_saveWithoutKey a.caller hchanged

end Moves

/-! ### Runs -/

/-- **No ban of a key is undone in exactly the runs in which every copy that is written was read
after the bans of the other keys**: for any channel, any calls and any order of their steps, the
keys that have been banned are disabled in the row in every state of the run if and only if every
copy was current when it was written. -/
theorem key_bans_kept {ι : Type*} [DecidableEq ι] (unmarshal : String → Option (List String))
    (calls : ι → ChannelCall) (row : Channel) (actions : List (PollingAction ι)) :
    (∀ n, (Transition.run (pollingStep unmarshal calls) (.start row) (actions.take n)).BansKept) ↔
      Transition.Along (pollingStep unmarshal calls) (fun s a => a.Current unmarshal calls s)
        (.start row) actions := by
  refine Transition.forall_take_iff_along
    (fun s a (h : s.CopiesMatch unmarshal calls) => h.step)
    (fun s a hmatch hkept => bansKept_pollingStep hmatch hkept) (fun i => trivial) ?_
  intro k hk
  exact absurd hk (Finset.notMem_empty k)

/-! ### A ban that is undone -/

/-- A channel with two keys that are polled. -/
def polledChannel : Channel where
  id := 1
  key := "a\nb"
  status := channelStatusEnabled
  weight := none
  models := "m"
  group := "default"
  priority := none
  otherInfo := ⟨none, none⟩
  channelInfo := ⟨true, ∅, ∅, ∅, 0, .polling⟩
  keys := []

/-- A request takes a key while the key `a` is banned. -/
def banWhilePolling : Bool → ChannelCall
  | false => .getNextEnabledKey
  | true => .updateChannelStatus "a" channelStatusAutoDisabled "invalid key"

/-- The next step of a call that does not fail. -/
def pollingNext (caller : Bool) : PollingAction Bool := ⟨caller, 0, 0, none⟩

/-- The request reads the row, the key is banned, and the request goes on with what it has read. -/
def polledAfterBan : List (PollingAction Bool) :=
  [false, true, true, true, true, true, false, false, false, false].map pollingNext

/-- **A request that has read the row before a key was banned enables the key again.** -/
theorem polling_undoes_ban :
    ¬ ∀ (calls : Bool → ChannelCall) (row : Channel) (actions : List (PollingAction Bool)) (n : ℕ),
      row.channelInfo.isMultiKey = true → row.channelInfo.multiKeyMode = .polling →
        (Transition.run (pollingStep (fun _ => none) calls) (.start row)
          (actions.take n)).BansKept := by
  intro h
  have hkept := h banWhilePolling polledChannel polledAfterBan 9 rfl rfl
  revert hkept
  decide

end NewApi

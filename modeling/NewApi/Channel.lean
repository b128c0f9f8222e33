/-
**Channels and their keys.**

A channel serves the models of one list to the groups of another, both kept as texts with commas
between the entries, and has one key or several.  Which of several keys are disabled is kept by the
position of the key, and a key that is not mentioned is enabled.  A map that is missing is read
like an empty one, so both are the empty map here.

Main definitions:

* `NewApi.Channel`, `NewApi.ChannelInfo` — a channel, and what it keeps about several keys;
* `NewApi.Channel.getKeys`, `NewApi.getKeyStatus` — its keys, and the status of one of them;
* `NewApi.handlerMultiKeyUpdate` — the channel after the status of a key has been changed.

Main results:

* `NewApi.getKeyStatus_handlerMultiKeyUpdate` — a change of the status of a key is a change of that
  key and of no other.
-/

import Mathlib.Data.List.AList
import NewApi.Common

set_option autoImplicit false

namespace NewApi

/-! ### The record -/

def channelStatusEnabled : ℤ := 1

def channelStatusAutoDisabled : ℤ := 3

/-- How one of several keys is chosen.  Any other text in the table is unknown. -/
inductive MultiKeyMode where
  | random
  | polling
  | unknown
deriving DecidableEq, Repr

/-- A map from the positions of keys. -/
abbrev KeyMap (α : Type*) := AList fun _ : ℕ => α

structure ChannelInfo where
  isMultiKey : Bool
  multiKeyStatusList : KeyMap ℤ
  multiKeyDisabledReason : KeyMap String
  multiKeyDisabledTime : KeyMap ℤ
  multiKeyPollingIndex : ℤ
  multiKeyMode : MultiKeyMode
deriving DecidableEq

/-- The entries of the JSON text `other_info` that a change of status writes. -/
structure OtherInfo where
  statusReason : Option String
  statusTime : Option ℤ
deriving DecidableEq, Repr

/-- A channel.  `keys` is only set in the cache. -/
structure Channel where
  id : ℤ
  key : String
  status : ℤ
  weight : Option ℤ
  models : String
  group : String
  priority : Option ℤ
  otherInfo : OtherInfo
  channelInfo : ChannelInfo
  keys : List String
deriving DecidableEq

def Channel.getPriority (channel : Channel) : ℤ := channel.priority.getD 0

def Channel.getWeight (channel : Channel) : ℤ := channel.weight.getD 0

/-- An error of a request to a channel. -/
structure RelayError where
  message : String
  errorCode : String
  statusCode : ℤ
  skipRetry : Bool
deriving DecidableEq, Repr

/-- A failure to get a channel, which is not retried. -/
def getChannelFailed (message : String) : RelayError :=
  ⟨message, "get_channel_failed", 500, true⟩

/-! ### Texts with separators -/

/-- The parts of a text between the separators. -/
def split (s : String) (sep : Char) : List String :=
  (s.toList.splitOn sep).map String.ofList

theorem split_ne_nil (s : String) (sep : Char) : split s sep ≠ [] := by
  simp [split]

/-! ### Keys -/

/-- The keys of a channel: the entries of a JSON array, if `unmarshal` finds the text to be one, and
the lines of the text otherwise. -/
def Channel.getKeys (unmarshal : String → Option (List String)) (channel : Channel) :
    List String :=
  if channel.key = "" then []
  else if channel.keys ≠ [] then channel.keys
  else
    let trimmed := trimSpace channel.key
    let lines := split (String.ofList (trimList (· == '\n') channel.key.toList)) '\n'
    if hasPrefix trimmed "[" then (unmarshal trimmed).getD lines else lines

/-- The status of the key at a position. -/
def getKeyStatus (statusList : KeyMap ℤ) (idx : ℕ) : ℤ :=
  (statusList.lookup idx).getD channelStatusEnabled

def hasEnabledMultiKey (keys : List String) (statusList : KeyMap ℤ) : Bool :=
  (List.range keys.length).any fun i => getKeyStatus statusList i = channelStatusEnabled

/-- The status of the key at a position is changed. -/
def ChannelInfo.setKeyStatus (info : ChannelInfo) (keyIndex : ℕ) (status : ℤ) (reason : String)
    (now : ℤ) : ChannelInfo :=
  if status = channelStatusEnabled then
    { info with multiKeyStatusList := info.multiKeyStatusList.erase keyIndex }
  else
    { info with
      multiKeyStatusList := info.multiKeyStatusList.insert keyIndex status
      multiKeyDisabledReason := info.multiKeyDisabledReason.insert keyIndex reason
      multiKeyDisabledTime := info.multiKeyDisabledTime.insert keyIndex now }

/-- The status of the key `usingKey` is changed, and with it that of the channel if no key is
enabled any more or one is again. -/
def handlerMultiKeyUpdate (unmarshal : String → Option (List String)) (channel : Channel)
    (usingKey : String) (status : ℤ) (reason : String) (now : ℤ) : Channel :=
  let keys := channel.getKeys unmarshal
  if keys = [] then { channel with status := status }
  else
    match keys.idxOf? usingKey with
    | none =>
      if usingKey ≠ "" then channel
      else { channel with status := status, otherInfo := ⟨some reason, some now⟩ }
    | some keyIndex =>
      let info := channel.channelInfo.setKeyStatus keyIndex status reason now
      if hasEnabledMultiKey keys info.multiKeyStatusList = false then
        { channel with
          channelInfo := info
          status := channelStatusAutoDisabled
          otherInfo := ⟨some "All keys are disabled", some now⟩ }
      else if status = channelStatusEnabled then
        { channel with channelInfo := info, status := channelStatusEnabled }
      else { channel with channelInfo := info }

/-- The position of the key whose status a change is about. -/
def Channel.keyIndex (unmarshal : String → Option (List String)) (channel : Channel)
    (usingKey : String) : Option ℕ :=
  (channel.getKeys unmarshal).idxOf? usingKey

theorem getKeyStatus_setKeyStatus (info : ChannelInfo) (keyIndex : ℕ) (status : ℤ)
    (reason : String) (now : ℤ) (idx : ℕ) :
    getKeyStatus (info.setKeyStatus keyIndex status reason now).multiKeyStatusList idx =
      if idx = keyIndex then status else getKeyStatus info.multiKeyStatusList idx := by
  by_cases hidx : idx = keyIndex
  · subst hidx
    by_cases hstatus : status = channelStatusEnabled
    · simp [ChannelInfo.setKeyStatus, getKeyStatus, hstatus]
    · simp [ChannelInfo.setKeyStatus, getKeyStatus, hstatus]
  · by_cases hstatus : status = channelStatusEnabled
    · simp [ChannelInfo.setKeyStatus, getKeyStatus, hstatus, hidx, AList.lookup_erase_ne hidx]
    · simp [ChannelInfo.setKeyStatus, getKeyStatus, hstatus, hidx, AList.lookup_insert_ne hidx]

/-- A change of the status of a key changes the status of the key at its position and of no
other. -/
theorem getKeyStatus_handlerMultiKeyUpdate (unmarshal : String → Option (List String))
    (channel : Channel) (usingKey : String) (status : ℤ) (reason : String) (now : ℤ) (idx : ℕ) :
    getKeyStatus (handlerMultiKeyUpdate unmarshal channel usingKey status
        reason now).channelInfo.multiKeyStatusList idx =
      if channel.keyIndex unmarshal usingKey = some idx then status
      else getKeyStatus channel.channelInfo.multiKeyStatusList idx := by
  unfold handlerMultiKeyUpdate Channel.keyIndex
  by_cases hkeys : channel.getKeys unmarshal = []
  · simp [hkeys]
  · simp only [hkeys, if_false]
    cases hindex : (channel.getKeys unmarshal).idxOf? usingKey with
    | none =>
      by_cases husing : usingKey = ""
      · simp [husing]
      · simp [husing]
    | some keyIndex =>
      have hset := getKeyStatus_setKeyStatus channel.channelInfo keyIndex status reason now idx
      simp only [Option.some.injEq, eq_comm (a := keyIndex)]
      rw [← hset]
      split
      · rfl
      · split <;> rfl

end NewApi

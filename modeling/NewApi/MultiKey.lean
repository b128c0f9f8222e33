/-
**Managing the keys of a channel.**

`ManageMultiKeys` and `UpdateChannel` (`src/controller/channel.go`) disable, enable, delete, append
and replace the keys of a channel with several, and save it through `Channel.Update`
(`src/model/channel.go`).  The keys are one text, a JSON array or lines; what is known of a key is
kept by its position.  Whatever the text was, keys that remain are joined by new lines, and the
text is read again.  An empty text is not saved, as `Updates` skips zero values, and the number of
keys is then that of the old one.

The books are right in every run in which the texts are read back as the keys they were made of, a
deletion leaves a key, and a replacement comes to positions without a status.

Main definitions:

* `NewApi.ManagedChannel`, `NewApi.ManagedChannel.update` — a channel with several keys, and
  `Channel.Update`;
* `NewApi.ManagedChannel.manage` — the actions;
* `NewApi.ManagedChannel.entries`, `NewApi.KeyAction.spec` — the keys with their statuses, and what
  an action is to do to them;
* `NewApi.ManagedChannel.Readable` — the condition.

Main results:

* `NewApi.keyEntries_keepKeys` — a key that is kept takes its status to its new
  position;
* `NewApi.ManagedChannel.WellFormed.manage` — one action;
* `NewApi.keys_keep_their_status` — **every key keeps its status** along a run.
-/

import NewApi.Lib.Transition
import NewApi.SeparatedText

set_option autoImplicit false

namespace NewApi

/-! ### The channel -/

def channelStatusManuallyDisabled : ℤ := 2

/-- A channel with several keys: the text of the keys, what it keeps about them and their number. -/
structure ManagedChannel where
  key : String
  channelInfo : ChannelInfo
  multiKeySize : ℕ

/-- The lines of a text of keys. -/
def keyLines (key : String) : List String := splitTrimmed '\n' key

/-- `channel.GetKeys()`, of a channel read from the table. -/
def keysOf (unmarshal : String → Option (List String)) (key : String) : List String :=
  if key = "" then []
  else if hasPrefix (trimSpace key) "[" then (unmarshal (trimSpace key)).getD (keyLines key)
  else keyLines key

/-- The keys `Channel.Update` counts.  An empty JSON array is read as a line. -/
def countedKeys (unmarshal : String → Option (List String)) (key : String) : List String :=
  if key = "" then []
  else
    let parsed := if hasPrefix (trimSpace key) "[" then (unmarshal (trimSpace key)).getD [] else []
    if parsed = [] then keyLines key else parsed

/-- The entries of a status list below a position. -/
def keepBelow (size : ℕ) (list : KeyMap ℤ) : KeyMap ℤ :=
  list.keys.foldl (fun list idx => if size ≤ idx then list.erase idx else list) list

namespace ManagedChannel

/-- `Channel.Update`: `channel` is saved over `row`.  An empty key is not saved. -/
def update (unmarshal : String → Option (List String)) (row channel : ManagedChannel) :
    ManagedChannel :=
  let key := if channel.key ≠ "" then channel.key else row.key
  let size := (countedKeys unmarshal key).length
  { key := key
    channelInfo := { channel.channelInfo with
      multiKeyStatusList := keepBelow size channel.channelInfo.multiKeyStatusList }
    multiKeySize := size }

end ManagedChannel

/-! ### The actions -/

/-- The keys that remain, with what is known of them at their new positions. -/
structure KeptKeys where
  keys : List String
  multiKeyStatusList : KeyMap ℤ
  multiKeyDisabledReason : KeyMap String
  multiKeyDisabledTime : KeyMap ℤ

def KeptKeys.none : KeptKeys := ⟨[], ∅, ∅, ∅⟩

/-- Copy an entry to a new position. -/
def copyEntry {α : Type*} (source : KeyMap α) (i newIndex : ℕ) (target : KeyMap α) : KeyMap α :=
  match source.lookup i with
  | some v => target.insert newIndex v
  | none => target

/-- A key is kept.  Its status is copied if it is not enabled, and time and reason if `copies`. -/
def KeptKeys.add (info : ChannelInfo) (copies : Bool) (i : ℕ) (key : String) (kept : KeptKeys) :
    KeptKeys :=
  let newIndex := kept.keys.length
  { keys := kept.keys ++ [key]
    multiKeyStatusList :=
      if getKeyStatus info.multiKeyStatusList i ≠ channelStatusEnabled then
        copyEntry info.multiKeyStatusList i newIndex kept.multiKeyStatusList
      else kept.multiKeyStatusList
    multiKeyDisabledReason :=
      if copies then copyEntry info.multiKeyDisabledReason i newIndex kept.multiKeyDisabledReason
      else kept.multiKeyDisabledReason
    multiKeyDisabledTime :=
      if copies then copyEntry info.multiKeyDisabledTime i newIndex kept.multiKeyDisabledTime
      else kept.multiKeyDisabledTime }

/-- The loop over the keys from the position `i` on. -/
def keepKeys (info : ChannelInfo) (keep copies : ℕ → Bool) : ℕ → List String → KeptKeys → KeptKeys
  | _, [], kept => kept
  | i, key :: keys, kept =>
    keepKeys info keep copies (i + 1) keys
      (if keep i then kept.add info (copies i) i key else kept)

/-- The loop of `disable_all_keys`: each enabled key below `size` is disabled. -/
def disableFrom : ℕ → ℕ → KeyMap ℤ → KeyMap ℤ
  | _, 0, list => list
  | i, size + 1, list =>
    disableFrom (i + 1) size
      (if getKeyStatus list i = channelStatusEnabled then
        list.insert i channelStatusManuallyDisabled
      else list)

/-- How `UpdateChannel` changes the keys. -/
inductive KeyMode where
  | append
  | replace

/-- An action of `ManageMultiKeys`, or a call of `UpdateChannel` with the keys of the request.
`vertex` is set for keys that are JSON objects. -/
inductive KeyAction where
  | disableKey (keyIndex : ℤ)
  | enableKey (keyIndex : ℤ)
  | enableAllKeys
  | disableAllKeys
  | deleteKey (keyIndex : ℤ)
  | deleteDisabledKeys
  | updateChannel (keyMode : KeyMode) (key : String) (vertex : Bool)

/-- How texts of keys are read: `unmarshal` gives the entries of a JSON array as they stand in the
text, and `vertexArrayKeys` is `getVertexArrayKeys`. -/
structure KeyReader where
  unmarshal : String → Option (List String)
  vertexArrayKeys : String → Option (List String)

/-- The keys a channel has, as `UpdateChannel` reads them to append some. -/
def existingKeys (reader : KeyReader) (key : String) : List String :=
  if hasPrefix (trimSpace key) "[" then (reader.unmarshal (trimSpace key)).getD []
  else keyLines key

/-- The keys of a request to append some, unless they cannot be read. -/
def requestedKeys (reader : KeyReader) (key : String) (vertex : Bool) : Option (List String) :=
  if vertex then
    if hasPrefix (trimSpace key) "[" then reader.vertexArrayKeys key else some [key]
  else some (((split key '\n').map trimSpace).filter (· ≠ ""))

/-- The requested keys that are new, each once. -/
def dedupedNewKeys : List String → List String → List String
  | _, [] => []
  | seen, key :: keys =>
    let normalized := trimSpace key
    if normalized = "" ∨ normalized ∈ seen then dedupedNewKeys seen keys
    else normalized :: dedupedNewKeys (normalized :: seen) keys

/-- The keys that are appended. -/
def appendedKeys (existing newKeys : List String) : List String :=
  dedupedNewKeys ((existing.map trimSpace).filter (· ≠ "")) newKeys

namespace ManagedChannel

variable (reader : KeyReader)

/-- The channel with the keys that were kept. -/
def withKept (channel : ManagedChannel) (kept : KeptKeys) : ManagedChannel :=
  { key := joinWith '\n' kept.keys
    channelInfo := { channel.channelInfo with
      multiKeyStatusList := kept.multiKeyStatusList
      multiKeyDisabledReason := kept.multiKeyDisabledReason
      multiKeyDisabledTime := kept.multiKeyDisabledTime }
    multiKeySize := kept.keys.length }

/-- The channel with another status list. -/
def withList (channel : ManagedChannel) (list : KeyMap ℤ) : ManagedChannel :=
  { channel with channelInfo := { channel.channelInfo with multiKeyStatusList := list } }

/-- The position of a key in the request, if it is in range. -/
def index (channel : ManagedChannel) (keyIndex : ℤ) : Option ℕ :=
  if keyIndex < 0 ∨ channel.multiKeySize ≤ keyIndex then none else some keyIndex.toNat

/-- The keys that `delete_key` keeps. -/
def keptByDelete (channel : ManagedChannel) (i : ℕ) : KeptKeys :=
  keepKeys channel.channelInfo (fun j => j ≠ i) (fun _ => true) 0
    (keysOf reader.unmarshal channel.key) .none

/-- The keys that `delete_disabled_keys` keeps. -/
def keptByDeleteDisabled (channel : ManagedChannel) : KeptKeys :=
  let status := getKeyStatus channel.channelInfo.multiKeyStatusList
  keepKeys channel.channelInfo (fun j => status j ≠ channelStatusAutoDisabled)
    (fun j => status j ≠ channelStatusEnabled) 0 (keysOf reader.unmarshal channel.key) .none

/-- The text of keys that `UpdateChannel` saves, unless the keys to append cannot be read. -/
def newKeyText (channel : ManagedChannel) (keyMode : KeyMode) (key : String) (vertex : Bool) :
    Option String :=
  match keyMode with
  | .replace => some key
  | .append =>
    if channel.key = "" then some key
    else
      let existing := existingKeys reader channel.key
      (requestedKeys reader key vertex).map fun newKeys =>
        joinWith '\n' (existing ++ appendedKeys existing newKeys)

/-- An action, unless it is refused. -/
def manage (channel : ManagedChannel) : KeyAction → Option ManagedChannel
  | .disableKey keyIndex =>
    (channel.index keyIndex).map fun i =>
      channel.update reader.unmarshal
        (channel.withList (channel.channelInfo.multiKeyStatusList.insert i
          channelStatusManuallyDisabled))
  | .enableKey keyIndex =>
    (channel.index keyIndex).map fun i =>
      channel.update reader.unmarshal { channel with
        channelInfo := { channel.channelInfo with
          multiKeyStatusList := channel.channelInfo.multiKeyStatusList.erase i
          multiKeyDisabledReason := channel.channelInfo.multiKeyDisabledReason.erase i
          multiKeyDisabledTime := channel.channelInfo.multiKeyDisabledTime.erase i } }
  | .enableAllKeys =>
    some (channel.update reader.unmarshal { channel with
      channelInfo := { channel.channelInfo with
        multiKeyStatusList := ∅
        multiKeyDisabledReason := ∅
        multiKeyDisabledTime := ∅ } })
  | .disableAllKeys =>
    let list := channel.channelInfo.multiKeyStatusList
    if ∃ i < channel.multiKeySize, getKeyStatus list i = channelStatusEnabled then
      some (channel.update reader.unmarshal
        (channel.withList (disableFrom 0 channel.multiKeySize list)))
    else none
  | .deleteKey keyIndex =>
    (channel.index keyIndex).bind fun i =>
      let kept := channel.keptByDelete reader i
      if kept.keys = [] then none
      else some (channel.update reader.unmarshal (channel.withKept kept))
  | .deleteDisabledKeys =>
    let kept := channel.keptByDeleteDisabled reader
    if kept.keys.length = (keysOf reader.unmarshal channel.key).length then none
    else some (channel.update reader.unmarshal (channel.withKept kept))
  | .updateChannel keyMode key vertex =>
    (channel.newKeyText reader keyMode key vertex).map fun key =>
      channel.update reader.unmarshal { channel with key := key }

end ManagedChannel

/-! ### What an action is to do -/

/-- The keys with their statuses. -/
def keyEntries (keys : List String) (list : KeyMap ℤ) : List (String × ℤ) :=
  keys.zipIdx.map fun e => (e.1, getKeyStatus list e.2)

/-- The keys of a channel with their statuses. -/
def ManagedChannel.entries (reader : KeyReader) (channel : ManagedChannel) : List (String × ℤ) :=
  keyEntries (keysOf reader.unmarshal channel.key) channel.channelInfo.multiKeyStatusList

/-- New keys are enabled. -/
def enabledEntries (keys : List String) : List (String × ℤ) :=
  keys.map fun key => (key, channelStatusEnabled)

/-- **What an action is to do** to the keys and their statuses. -/
def KeyAction.spec (reader : KeyReader) (key : String) (entries : List (String × ℤ)) :
    KeyAction → List (String × ℤ)
  | .disableKey i => entries.modify i.toNat fun e => (e.1, channelStatusManuallyDisabled)
  | .enableKey i => entries.modify i.toNat fun e => (e.1, channelStatusEnabled)
  | .enableAllKeys => entries.map fun e => (e.1, channelStatusEnabled)
  | .disableAllKeys =>
    entries.map fun e =>
      if e.2 = channelStatusEnabled then (e.1, channelStatusManuallyDisabled) else e
  | .deleteKey i => entries.eraseIdx i.toNat
  | .deleteDisabledKeys => entries.filter fun e => e.2 ≠ channelStatusAutoDisabled
  | .updateChannel .replace newKey _ =>
    if newKey = "" then entries else enabledEntries (keysOf reader.unmarshal newKey)
  | .updateChannel .append newKey vertex =>
    if key = "" then enabledEntries (keysOf reader.unmarshal newKey)
    else entries ++ enabledEntries (appendedKeys (entries.map Prod.fst)
      ((requestedKeys reader newKey vertex).getD []))

namespace ManagedChannel

/-- A text is read back as the keys it was made of, and counted as them. -/
def Reads (reader : KeyReader) (text : String) (keys : List String) : Prop :=
  keysOf reader.unmarshal text = keys ∧ countedKeys reader.unmarshal text = keys

/-- The condition: the text that is saved is read back as the keys it was made of, a deletion
leaves a key, and keys that replace others come to positions without a status. -/
def Readable (reader : KeyReader) (channel : ManagedChannel) : KeyAction → Prop
  | .deleteKey keyIndex =>
    ∀ i ∈ channel.index keyIndex,
      let keys := (keysOf reader.unmarshal channel.key).eraseIdx i
      keys ≠ [] → Reads reader (joinWith '\n' keys) keys
  | .deleteDisabledKeys =>
    let keys := ((channel.entries reader).filter fun e => e.2 ≠ channelStatusAutoDisabled).map
      Prod.fst
    keys.length ≠ (keysOf reader.unmarshal channel.key).length →
      keys ≠ [] ∧ Reads reader (joinWith '\n' keys) keys
  | .updateChannel .replace key _ =>
    countedKeys reader.unmarshal key = keysOf reader.unmarshal key ∧
      ∀ i < (keysOf reader.unmarshal key).length,
        getKeyStatus channel.channelInfo.multiKeyStatusList i = channelStatusEnabled
  | .updateChannel .append key vertex =>
    if channel.key = "" then countedKeys reader.unmarshal key = keysOf reader.unmarshal key
    else
      ∀ newKeys ∈ requestedKeys reader key vertex,
        let existing := keysOf reader.unmarshal channel.key
        let keys := existing ++ appendedKeys existing newKeys
        existingKeys reader channel.key = existing ∧ Reads reader (joinWith '\n' keys) keys
  | _ => True

instance decidableReads (reader : KeyReader) (text : String) (keys : List String) :
    Decidable (Reads reader text keys) := inferInstanceAs (Decidable (_ ∧ _))

instance decidableReadable (reader : KeyReader) (channel : ManagedChannel) :
    ∀ a, Decidable (Readable reader channel a)
  | .deleteKey keyIndex =>
    inferInstanceAs (Decidable (∀ i ∈ channel.index keyIndex, _ ≠ [] → Reads _ _ _))
  | .deleteDisabledKeys => inferInstanceAs (Decidable (_ ≠ _ → _ ≠ [] ∧ Reads _ _ _))
  | .updateChannel .replace key _ =>
    inferInstanceAs (Decidable (_ = _ ∧ ∀ i < (keysOf reader.unmarshal key).length, _ = _))
  | .updateChannel .append key vertex =>
    inferInstanceAs (Decidable (if channel.key = "" then _ = _
      else ∀ newKeys ∈ requestedKeys reader key vertex, _ = _ ∧ Reads _ _ _))
  | .disableKey _ | .enableKey _ | .enableAllKeys | .disableAllKeys => .isTrue trivial

/-- **The books of a channel are in order**: its number of keys is that of the keys it has, and
every position with a status is that of a key. -/
structure WellFormed (reader : KeyReader) (channel : ManagedChannel) : Prop where
  counted : countedKeys reader.unmarshal channel.key = keysOf reader.unmarshal channel.key
  size : channel.multiKeySize = (keysOf reader.unmarshal channel.key).length
  below : ∀ i, channel.channelInfo.multiKeyStatusList.lookup i ≠ none → i < channel.multiKeySize

end ManagedChannel

/-- An action, or nothing if it is refused. -/
def ManagedChannel.step (reader : KeyReader) (channel : ManagedChannel) (a : KeyAction) :
    ManagedChannel :=
  (channel.manage reader a).getD channel

/-- **What a successful action has done**: the keys have the statuses they are to have, they are
counted, and every position with a status is that of a key. -/
structure ManagedChannel.Right (reader : KeyReader) (channel : ManagedChannel) (a : KeyAction)
    (channel' : ManagedChannel) : Prop where
  entries : channel'.entries reader = a.spec reader channel.key (channel.entries reader)
  size : channel'.multiKeySize = (keysOf reader.unmarshal channel'.key).length
  below : ∀ i, channel'.channelInfo.multiKeyStatusList.lookup i ≠ none → i < channel'.multiKeySize

/-- A channel as it is added, with its keys one below the other. -/
def addedChannel (multiKeyMode : MultiKeyMode) (keys : List String) : ManagedChannel :=
  { key := joinWith '\n' keys
    channelInfo :=
      { isMultiKey := true
        multiKeyStatusList := ∅
        multiKeyDisabledReason := ∅
        multiKeyDisabledTime := ∅
        multiKeyPollingIndex := 0
        multiKeyMode := multiKeyMode }
    multiKeySize := keys.length }

/-! ### Status lists -/

theorem lookup_foldl_erase (size : ℕ) (positions : List ℕ) (list : KeyMap ℤ) (i : ℕ) :
    (positions.foldl (fun list idx => if size ≤ idx then list.erase idx else list) list).lookup i =
      if i ∈ positions ∧ size ≤ i then none else list.lookup i := by
  induction positions generalizing list with
  | nil => simp
  | cons p positions ih =>
    rw [List.foldl_cons, ih]
    by_cases hp : size ≤ p
    · rw [if_pos hp]
      by_cases hi : i = p
      · subst hi
        simp [hp]
      · simp [hi, AList.lookup_erase_ne hi]
    · rw [if_neg hp]
      by_cases hi : i = p
      · subst hi
        simp [hp]
      · simp [hi]

/-- **What is kept of a status list** are the entries below the number of keys. -/
theorem lookup_keepBelow (size : ℕ) (list : KeyMap ℤ) (i : ℕ) :
    (keepBelow size list).lookup i = if i < size then list.lookup i else none := by
  rw [keepBelow, lookup_foldl_erase]
  by_cases hi : i < size
  · rw [if_pos hi, if_neg (by omega)]
  · rw [if_neg hi]
    by_cases hmem : i ∈ list.keys
    · rw [if_pos ⟨hmem, by omega⟩]
    · rw [if_neg (by tauto)]
      exact AList.lookup_eq_none.2 (by simpa [AList.mem_keys] using hmem)

variable (info : ChannelInfo) (keys : List String) (list : KeyMap ℤ)

theorem getKeyStatus_insert (i : ℕ) (status : ℤ) (j : ℕ) :
    getKeyStatus (list.insert i status) j = if j = i then status else getKeyStatus list j := by
  by_cases hj : j = i
  · subst hj
    simp [getKeyStatus]
  · simp [getKeyStatus, hj, AList.lookup_insert_ne hj]

theorem getKeyStatus_erase (i j : ℕ) :
    getKeyStatus (list.erase i) j =
      if j = i then channelStatusEnabled else getKeyStatus list j := by
  by_cases hj : j = i
  · subst hj
    simp [getKeyStatus]
  · simp [getKeyStatus, hj, AList.lookup_erase_ne hj]

/-- The statuses after all enabled keys from `i` on, `size` of them, were disabled. -/
theorem getKeyStatus_disableFrom (i size : ℕ) (list : KeyMap ℤ) (j : ℕ) :
    getKeyStatus (disableFrom i size list) j =
      if i ≤ j ∧ j < i + size ∧ getKeyStatus list j = channelStatusEnabled then
        channelStatusManuallyDisabled
      else getKeyStatus list j := by
  induction size generalizing i list with
  | zero =>
    rw [disableFrom, if_neg]
    omega
  | succ size ih =>
    rw [disableFrom, ih]
    by_cases hi : getKeyStatus list i = channelStatusEnabled
    · rw [if_pos hi, getKeyStatus_insert]
      by_cases hj : j = i
      · subst hj
        have hne : channelStatusManuallyDisabled ≠ channelStatusEnabled := by decide
        simp [hi, hne]
      · rw [if_neg hj]
        congr 1
        apply propext
        omega
    · rw [if_neg hi]
      by_cases hj : j = i
      · subst hj
        simp [hi]
      · congr 1
        apply propext
        omega

/-! ### Entries -/

theorem length_keyEntries : (keyEntries keys list).length = keys.length := by
  simp [keyEntries]

theorem getElem?_keyEntries (i : ℕ) :
    (keyEntries keys list)[i]? = keys[i]?.map fun key => (key, getKeyStatus list i) := by
  rw [keyEntries, List.getElem?_map, List.getElem?_zipIdx, Option.map_map]
  simp [Function.comp_def]

@[simp] theorem keys_keyEntries : (keyEntries keys list).map Prod.fst = keys := by
  rw [keyEntries, List.map_map]
  exact List.zipIdx_map_fst 0 keys

/-- The statuses of the keys are those below their number. -/
theorem keyEntries_congr {keys : List String} {list list' : KeyMap ℤ}
    (h : ∀ i < keys.length, getKeyStatus list i = getKeyStatus list' i) :
    keyEntries keys list = keyEntries keys list' := by
  apply List.ext_getElem?
  intro i
  rw [getElem?_keyEntries, getElem?_keyEntries]
  by_cases hi : i < keys.length
  · rw [h i hi]
  · rw [List.getElem?_eq_none (not_lt.1 hi)]
    rfl

/-- Keys without a status are enabled. -/
theorem keyEntries_enabled {keys : List String} {list : KeyMap ℤ}
    (h : ∀ i < keys.length, getKeyStatus list i = channelStatusEnabled) :
    keyEntries keys list = enabledEntries keys := by
  apply List.ext_getElem?
  intro i
  rw [getElem?_keyEntries, enabledEntries, List.getElem?_map]
  by_cases hi : i < keys.length
  · rw [h i hi]
  · rw [List.getElem?_eq_none (not_lt.1 hi)]
    rfl

/-- Keys that are appended to all that have a status are enabled. -/
theorem keyEntries_append {keys newKeys : List String} {list : KeyMap ℤ}
    (h : ∀ i, keys.length ≤ i → getKeyStatus list i = channelStatusEnabled) :
    keyEntries (keys ++ newKeys) list = keyEntries keys list ++ enabledEntries newKeys := by
  apply List.ext_getElem?
  intro i
  rw [getElem?_keyEntries, List.getElem?_append, List.getElem?_append, length_keyEntries]
  by_cases hi : i < keys.length
  · rw [if_pos hi, if_pos hi, getElem?_keyEntries]
  · rw [if_neg hi, if_neg hi, h i (not_lt.1 hi), enabledEntries, List.getElem?_map]

/-! ### The loop over the keys -/

/-- What is copied to the position after the kept keys is found there, and nowhere else. -/
theorem keyEntries_add (copies : Bool) (i : ℕ) (key : String) (kept : KeptKeys)
    (hbelow : ∀ j, kept.multiKeyStatusList.lookup j ≠ none → j < kept.keys.length) :
    keyEntries (kept.add info copies i key).keys (kept.add info copies i key).multiKeyStatusList =
        keyEntries kept.keys kept.multiKeyStatusList ++
          [(key, getKeyStatus info.multiKeyStatusList i)] ∧
      ∀ j, (kept.add info copies i key).multiKeyStatusList.lookup j ≠ none →
        j < (kept.add info copies i key).keys.length := by
  have hnone : kept.multiKeyStatusList.lookup kept.keys.length = none := by
    by_contra hsome
    exact absurd (hbelow _ hsome) (lt_irrefl _)
  have hlookup : ∀ j, (kept.add info copies i key).multiKeyStatusList.lookup j =
      if j = kept.keys.length ∧ getKeyStatus info.multiKeyStatusList i ≠ channelStatusEnabled then
        some (getKeyStatus info.multiKeyStatusList i)
      else kept.multiKeyStatusList.lookup j := by
    intro j
    by_cases hstatus : getKeyStatus info.multiKeyStatusList i = channelStatusEnabled
    · simp [KeptKeys.add, hstatus]
    · simp only [KeptKeys.add, hstatus, ne_eq, not_false_eq_true, if_true, and_true, copyEntry]
      cases hl : info.multiKeyStatusList.lookup i with
      | none => exact absurd (by simp [getKeyStatus, hl]) hstatus
      | some v =>
        have hv : getKeyStatus info.multiKeyStatusList i = v := by simp [getKeyStatus, hl]
        by_cases hj : j = kept.keys.length
        · subst hj
          simp [hv]
        · simp [hj, AList.lookup_insert_ne hj]
  have hkeys : (kept.add info copies i key).keys = kept.keys ++ [key] := rfl
  constructor
  · apply List.ext_getElem?
    intro j
    rw [getElem?_keyEntries, hkeys, List.getElem?_append, List.getElem?_append,
      length_keyEntries]
    by_cases hj : j < kept.keys.length
    · have hne : ¬(j = kept.keys.length ∧
          getKeyStatus info.multiKeyStatusList i ≠ channelStatusEnabled) := by omega
      rw [if_pos hj, if_pos hj, getElem?_keyEntries, getKeyStatus, getKeyStatus, hlookup,
        if_neg hne]
    · rw [if_neg hj, if_neg hj]
      rcases Nat.lt_or_ge kept.keys.length j with hlt | hge
      · rw [List.getElem?_eq_none (by simp; omega), List.getElem?_eq_none (by simp; omega)]
        rfl
      · obtain rfl : j = kept.keys.length := by omega
        have hsame : getKeyStatus (kept.add info copies i key).multiKeyStatusList
            kept.keys.length = getKeyStatus info.multiKeyStatusList i := by
          rw [getKeyStatus, hlookup]
          by_cases hstatus : getKeyStatus info.multiKeyStatusList i = channelStatusEnabled
          · rw [if_neg (by simp [hstatus]), hnone, hstatus]
            rfl
          · rw [if_pos ⟨rfl, hstatus⟩]
            rfl
        rw [hsame, Nat.sub_self]
        rfl
  · intro j hj
    rw [hlookup] at hj
    rw [hkeys, List.length_append, List.length_singleton]
    split at hj
    · omega
    · have hlt := hbelow j hj
      omega

/-- **A key that is kept takes its status to its new position.** -/
theorem keyEntries_keepKeys (keep copies : ℕ → Bool) (keys : List String) (i : ℕ) (kept : KeptKeys)
    (hbelow : ∀ j, kept.multiKeyStatusList.lookup j ≠ none → j < kept.keys.length) :
    keyEntries (keepKeys info keep copies i keys kept).keys
        (keepKeys info keep copies i keys kept).multiKeyStatusList =
      keyEntries kept.keys kept.multiKeyStatusList ++
        ((keys.zipIdx i).filter fun e => keep e.2).map fun e =>
          (e.1, getKeyStatus info.multiKeyStatusList e.2) := by
  induction keys generalizing i kept with
  | nil => simp [keepKeys]
  | cons key keys ih =>
    rw [keepKeys, List.zipIdx_cons, List.filter_cons]
    cases hkeep : keep i with
    | false =>
      simp only [Bool.false_eq_true, if_false]
      exact ih (i + 1) kept hbelow
    | true =>
      simp only [if_true]
      obtain ⟨hadd, hbelow'⟩ := keyEntries_add info (copies i) i key kept hbelow
      rw [ih (i + 1) _ hbelow', hadd]
      simp

/-! ### Entries after an action -/

/-- The status of one position changes. -/
theorem keyEntries_modify {list list' : KeyMap ℤ} {i : ℕ} {status : ℤ}
    (h : ∀ j, getKeyStatus list' j = if j = i then status else getKeyStatus list j) :
    keyEntries keys list' = (keyEntries keys list).modify i fun e => (e.1, status) := by
  apply List.ext_getElem?
  intro j
  rw [List.getElem?_modify, getElem?_keyEntries, getElem?_keyEntries, h j]
  by_cases hj : i = j
  · subst hj
    cases keys[i]? <;> simp
  · rw [if_neg (Ne.symm hj)]
    cases keys[j]? <;> simp [hj]

/-- All statuses change by a rule. -/
theorem keyEntries_map (rule : ℤ → ℤ) {list list' : KeyMap ℤ} {keys : List String}
    (h : ∀ i < keys.length, getKeyStatus list' i = rule (getKeyStatus list i)) :
    keyEntries keys list' = (keyEntries keys list).map fun e => (e.1, rule e.2) := by
  apply List.ext_getElem?
  intro i
  rw [List.getElem?_map, getElem?_keyEntries, getElem?_keyEntries]
  by_cases hi : i < keys.length
  · rw [h i hi, Option.map_map]
    rfl
  · rw [List.getElem?_eq_none (not_lt.1 hi)]
    rfl

/-- Leaving out a position of the list of keys with their positions. -/
theorem filter_zipIdx_ne (start i : ℕ) :
    (keys.zipIdx start).filter (fun e => decide (e.2 ≠ start + i)) =
      (keys.zipIdx start).eraseIdx i := by
  induction keys generalizing start i with
  | nil => rfl
  | cons key keys ih =>
    rw [List.zipIdx_cons]
    cases i with
    | zero =>
      rw [List.eraseIdx_cons_zero, List.filter_cons_of_neg (by simp)]
      apply List.filter_eq_self.2
      intro e he
      have hle := List.le_snd_of_mem_zipIdx he
      simp only [Nat.add_zero, decide_eq_true_eq]
      omega
    | succ i =>
      rw [List.eraseIdx_cons_succ, List.filter_cons_of_pos (by simp), ← ih (start + 1) i]
      congr 2
      funext e
      congr 2
      omega

/-- The keys but one, with their statuses. -/
theorem keyEntries_delete (i : ℕ) :
    let kept := keepKeys info (fun j => j ≠ i) (fun _ => true) 0 keys .none
    keyEntries kept.keys kept.multiKeyStatusList =
      (keyEntries keys info.multiKeyStatusList).eraseIdx i := by
  intro kept
  have hkept := keyEntries_keepKeys info (fun j => j ≠ i) (fun _ => true) keys 0 .none
    fun j hj => absurd rfl hj
  have hfilter := filter_zipIdx_ne keys 0 i
  rw [Nat.zero_add] at hfilter
  have hall : keyEntries keys info.multiKeyStatusList =
      keys.zipIdx.map fun e => (e.1, getKeyStatus info.multiKeyStatusList e.2) := rfl
  rw [hkept, hfilter, hall, List.eraseIdx_map]
  rfl

/-- The keys that are not disabled automatically, with their statuses. -/
theorem keyEntries_deleteDisabled : let status := getKeyStatus info.multiKeyStatusList
    let kept := keepKeys info (fun j => status j ≠ channelStatusAutoDisabled)
      (fun j => status j ≠ channelStatusEnabled) 0 keys .none
    keyEntries kept.keys kept.multiKeyStatusList =
      (keyEntries keys info.multiKeyStatusList).filter
        fun e => e.2 ≠ channelStatusAutoDisabled := by
  intro status kept
  have hkept := keyEntries_keepKeys info (fun j => status j ≠ channelStatusAutoDisabled)
    (fun j => status j ≠ channelStatusEnabled) keys 0 .none fun j hj => absurd rfl hj
  have hall : keyEntries keys info.multiKeyStatusList =
      keys.zipIdx.map fun e => (e.1, getKeyStatus info.multiKeyStatusList e.2) := rfl
  rw [hkept, hall, List.filter_map]
  rfl

/-! ### Texts of keys -/

theorem keyLines_ne_nil (key : String) : keyLines key ≠ [] := by
  simp [keyLines, splitTrimmed, split, List.splitOn_ne_nil]

/-- A text has a key, unless it is empty. -/
theorem countedKeys_ne_nil {unmarshal : String → Option (List String)} {key : String}
    (h : key ≠ "") : countedKeys unmarshal key ≠ [] := by
  rw [countedKeys, if_neg h]
  intro hnil
  dsimp only at hnil
  split_ifs at hnil with hprefix hparsed hparsed
  · exact keyLines_ne_nil key hnil
  · exact hparsed hnil
  · exact keyLines_ne_nil key hnil
  · exact hparsed rfl

namespace ManagedChannel

variable {reader : KeyReader} {channel channel' : ManagedChannel}

/-! ### Saving a channel -/

theorem key_update_of_ne {unmarshal : String → Option (List String)}
    (h : channel'.key ≠ "") : (channel.update unmarshal channel').key = channel'.key := by
  rw [update]
  exact if_pos h

/-- A text that is not changed, or that is empty, is not saved. -/
theorem key_update_same {unmarshal : String → Option (List String)}
    (h : channel'.key = channel.key ∨ channel'.key = "") :
    (channel.update unmarshal channel').key = channel.key := by
  rw [update]
  rcases h with h | h
  · by_cases hne : channel'.key ≠ ""
    · rw [if_pos hne, h]
    · rw [if_neg hne]
  · rw [if_neg (not_not.2 h)]

/-- **A channel that was saved is in order**, if its keys are counted as they are read. -/
theorem wellFormed_update
    (h : countedKeys reader.unmarshal (channel.update reader.unmarshal channel').key =
      keysOf reader.unmarshal (channel.update reader.unmarshal channel').key) :
    (channel.update reader.unmarshal channel').WellFormed reader := by
  refine ⟨h, ?_, ?_⟩
  · rw [← h]
    rfl
  · intro i hi
    by_contra hge
    refine hi ((lookup_keepBelow _ _ i).trans ?_)
    exact if_neg hge

/-- The keys of a channel that was saved have the statuses it was saved with. -/
theorem entries_update
    (h : countedKeys reader.unmarshal (channel.update reader.unmarshal channel').key =
      keysOf reader.unmarshal (channel.update reader.unmarshal channel').key) :
    (channel.update reader.unmarshal channel').entries reader =
      keyEntries (keysOf reader.unmarshal (channel.update reader.unmarshal channel').key)
        channel'.channelInfo.multiKeyStatusList := by
  rw [entries]
  apply keyEntries_congr
  intro i hi
  rw [← h] at hi
  have hlookup := lookup_keepBelow
    (countedKeys reader.unmarshal (channel.update reader.unmarshal channel').key).length
    channel'.channelInfo.multiKeyStatusList i
  rw [if_pos hi] at hlookup
  rw [getKeyStatus, getKeyStatus, ← hlookup]
  rfl

/-- Saving `channel'` over `channel` is to give the keys `result`. -/
structure Saves (reader : KeyReader) (channel channel' : ManagedChannel)
    (result : List (String × ℤ)) : Prop where
  counted : countedKeys reader.unmarshal (channel.update reader.unmarshal channel').key =
    keysOf reader.unmarshal (channel.update reader.unmarshal channel').key
  entries : keyEntries (keysOf reader.unmarshal (channel.update reader.unmarshal channel').key)
    channel'.channelInfo.multiKeyStatusList = result

/-- Another text is saved. -/
theorem saves_text {keys : List String} {result : List (String × ℤ)} (hkey : channel'.key ≠ "")
    (hreads : Reads reader channel'.key keys)
    (hresult : keyEntries keys channel'.channelInfo.multiKeyStatusList = result) :
    Saves reader channel channel' result := by
  constructor
  · rw [key_update_of_ne hkey, hreads.1, hreads.2]
  · rw [key_update_of_ne hkey, hreads.1, hresult]

/-- The text stays. -/
theorem saves_statuses {result : List (String × ℤ)} (h : channel.WellFormed reader)
    (hkey : channel'.key = channel.key ∨ channel'.key = "")
    (hresult : keyEntries (keysOf reader.unmarshal channel.key)
      channel'.channelInfo.multiKeyStatusList = result) :
    Saves reader channel channel' result := by
  constructor
  · rw [key_update_same hkey]
    exact h.counted
  · rw [key_update_same hkey, hresult]

/-! ### The actions -/

theorem ne_empty_of_reads {text : String} {keys : List String} (hne : keys ≠ [])
    (hreads : Reads reader text keys) : text ≠ "" := by
  rintro rfl
  exact hne hreads.1.symm

theorem index_eq_some {keyIndex : ℤ} {i : ℕ} (h : channel.index keyIndex = some i) :
    keyIndex.toNat = i := by
  rw [index] at h
  split at h
  · exact absurd h nofun
  · exact Option.some.inj h

/-- The keys that were kept are saved. -/
theorem saves_kept {kept : KeptKeys} {result : List (String × ℤ)} (hne : kept.keys ≠ [])
    (hreads : Reads reader (joinWith '\n' (result.map Prod.fst)) (result.map Prod.fst))
    (hresult : keyEntries kept.keys kept.multiKeyStatusList = result) :
    Saves reader channel (channel.withKept kept) result := by
  have hkeys : result.map Prod.fst = kept.keys := by rw [← hresult, keys_keyEntries]
  rw [hkeys] at hreads
  exact saves_text (ne_empty_of_reads hne hreads) hreads hresult

theorem saves_updateChannel (h : channel.WellFormed reader) {keyMode : KeyMode}
    {key text : String} {vertex : Bool}
    (hreadable : channel.Readable reader (.updateChannel keyMode key vertex))
    (htext : channel.newKeyText reader keyMode key vertex = some text) :
    Saves reader channel { channel with key := text }
      ((KeyAction.updateChannel keyMode key vertex).spec reader channel.key
        (channel.entries reader)) := by
  have hnone : ∀ i, (keysOf reader.unmarshal channel.key).length ≤ i →
      getKeyStatus channel.channelInfo.multiKeyStatusList i = channelStatusEnabled := by
    intro i hi
    cases hl : channel.channelInfo.multiKeyStatusList.lookup i with
    | none => simp [getKeyStatus, hl]
    | some v =>
      have hlt := h.below i (by simp [hl])
      rw [h.size] at hlt
      omega
  cases keyMode with
  | replace =>
    obtain ⟨hcounted, henabled⟩ := hreadable
    have htext' : key = text := Option.some.inj htext
    subst htext'
    by_cases hkey : key = ""
    · refine saves_statuses h (.inr hkey) ?_
      simp only [KeyAction.spec, if_pos hkey]
      rfl
    · refine saves_text hkey ⟨rfl, hcounted⟩ ?_
      simp only [KeyAction.spec, if_neg hkey]
      exact keyEntries_enabled henabled
  | append =>
    by_cases hempty : channel.key = ""
    · -- A channel without keys takes the text of the request.
      have hcounted : countedKeys reader.unmarshal key = keysOf reader.unmarshal key := by
        simpa only [Readable, if_pos hempty] using hreadable
      have htext' : key = text := by
        simpa only [newKeyText, if_pos hempty, Option.some.injEq] using htext
      subst htext'
      have hlength : (keysOf reader.unmarshal channel.key).length = 0 := by
        rw [hempty]
        rfl
      have hresult : keyEntries (keysOf reader.unmarshal key)
          channel.channelInfo.multiKeyStatusList =
            enabledEntries (keysOf reader.unmarshal key) :=
        keyEntries_enabled fun i _ => hnone i (by omega)
      simp only [KeyAction.spec, if_pos hempty]
      by_cases hkey : key = ""
      · refine saves_statuses h (.inr hkey) ?_
        rw [hempty, ← hkey]
        exact hresult
      · exact saves_text hkey ⟨rfl, hcounted⟩ hresult
    · have hread := hreadable
      simp only [Readable, if_neg hempty] at hread
      simp only [newKeyText, if_neg hempty, Option.map_eq_some_iff] at htext
      obtain ⟨newKeys, hnew, rfl⟩ := htext
      obtain ⟨hexisting, hreads⟩ := hread newKeys hnew
      have hkeys : keysOf reader.unmarshal channel.key ≠ [] := by
        rw [← h.counted]
        exact countedKeys_ne_nil hempty
      simp only [KeyAction.spec, if_neg hempty, hnew, Option.getD_some, hexisting, entries,
        keys_keyEntries]
      refine saves_text (ne_empty_of_reads ?_ hreads) hreads (keyEntries_append hnone)
      intro hnil
      exact hkeys (List.append_eq_nil_iff.1 hnil).1

/-- **What an action saves.** -/
theorem saves_manage (h : channel.WellFormed reader) {a : KeyAction}
    (hreadable : channel.Readable reader a) {result : ManagedChannel}
    (hresult : channel.manage reader a = some result) :
    ∃ channel', result = channel.update reader.unmarshal channel' ∧
      Saves reader channel channel' (a.spec reader channel.key (channel.entries reader)) := by
  cases a with
  | disableKey keyIndex =>
    obtain ⟨i, hi, rfl⟩ := Option.map_eq_some_iff.1 hresult
    refine ⟨_, rfl, saves_statuses h (.inl rfl) ?_⟩
    rw [KeyAction.spec, index_eq_some hi]
    exact keyEntries_modify _ fun j => getKeyStatus_insert _ i _ j
  | enableKey keyIndex =>
    obtain ⟨i, hi, rfl⟩ := Option.map_eq_some_iff.1 hresult
    refine ⟨_, rfl, saves_statuses h (.inl rfl) ?_⟩
    rw [KeyAction.spec, index_eq_some hi]
    exact keyEntries_modify _ fun j => getKeyStatus_erase _ i j
  | enableAllKeys =>
    obtain rfl := Option.some.inj hresult
    refine ⟨_, rfl, saves_statuses h (.inl rfl) ?_⟩
    rw [KeyAction.spec]
    exact keyEntries_map (fun _ => channelStatusEnabled) fun i _ => rfl
  | disableAllKeys =>
    simp only [manage] at hresult
    split at hresult
    · obtain rfl := Option.some.inj hresult
      refine ⟨_, rfl, saves_statuses h (.inl rfl) ?_⟩
      have hmap : keyEntries (keysOf reader.unmarshal channel.key) (disableFrom 0
          channel.multiKeySize channel.channelInfo.multiKeyStatusList) =
            (channel.entries reader).map fun e => (e.1, if e.2 = channelStatusEnabled then
              channelStatusManuallyDisabled else e.2) := by
        refine keyEntries_map (fun s => if s = channelStatusEnabled then
          channelStatusManuallyDisabled else s) ?_
        intro i hi
        rw [← h.size] at hi
        simp [getKeyStatus_disableFrom, hi]
      refine hmap.trans ?_
      rw [KeyAction.spec]
      apply List.map_congr_left
      intro e _
      by_cases he : e.2 = channelStatusEnabled
      · rw [if_pos he, if_pos he]
      · rw [if_neg he, if_neg he]
    · exact absurd hresult nofun
  | deleteKey keyIndex =>
    obtain ⟨i, hi, hsome⟩ := Option.bind_eq_some_iff.1 hresult
    have hentries := keyEntries_delete channel.channelInfo
      (keysOf reader.unmarshal channel.key) i
    have hkeys : ((channel.entries reader).eraseIdx i).map Prod.fst =
        (keysOf reader.unmarshal channel.key).eraseIdx i := by
      rw [← List.eraseIdx_map, entries, keys_keyEntries]
    dsimp only at hsome hentries
    split at hsome
    · exact absurd hsome nofun
    · obtain rfl := Option.some.inj hsome
      rename_i hne
      refine ⟨_, rfl, ?_⟩
      rw [KeyAction.spec, index_eq_some hi]
      refine saves_kept hne ?_ hentries
      rw [hkeys]
      refine hreadable i hi ?_
      rw [← hkeys, entries, ← hentries, keys_keyEntries]
      exact hne
  | deleteDisabledKeys =>
    have hentries := keyEntries_deleteDisabled channel.channelInfo
      (keysOf reader.unmarshal channel.key)
    simp only [manage] at hresult
    dsimp only at hentries
    split at hresult
    · exact absurd hresult nofun
    · obtain rfl := Option.some.inj hresult
      rename_i hlength
      have hkeys : ((channel.entries reader).filter
          fun e => e.2 ≠ channelStatusAutoDisabled).map Prod.fst =
            (channel.keptByDeleteDisabled reader).keys := by
        rw [entries, ← hentries, keys_keyEntries]
        rfl
      obtain ⟨hne, hreads⟩ := hreadable (by rw [hkeys]; exact hlength)
      refine ⟨_, rfl, saves_kept (by rwa [← hkeys]) hreads hentries⟩
  | updateChannel keyMode key vertex =>
    obtain ⟨text, htext, rfl⟩ := Option.map_eq_some_iff.1 hresult
    exact ⟨_, rfl, saves_updateChannel h hreadable htext⟩

/-- **One action** leaves the books in order, and has done what it is to do. -/
theorem WellFormed.manage (h : channel.WellFormed reader) {a : KeyAction}
    (hreadable : channel.Readable reader a) {result : ManagedChannel}
    (hresult : channel.manage reader a = some result) :
    result.WellFormed reader ∧ Right reader channel a result := by
  obtain ⟨channel', rfl, hsaves⟩ := saves_manage h hreadable hresult
  have hwell := wellFormed_update hsaves.counted
  exact ⟨hwell, (entries_update hsaves.counted).trans hsaves.entries, hwell.size, hwell.below⟩

theorem WellFormed.step (h : channel.WellFormed reader) {a : KeyAction}
    (hreadable : channel.Readable reader a) : (channel.step reader a).WellFormed reader := by
  rw [ManagedChannel.step]
  cases hresult : channel.manage reader a with
  | none => exact h
  | some result => exact (h.manage hreadable hresult).1

end ManagedChannel

/-! ### Plain keys -/

/-! ### Runs -/

open ManagedChannel in
/-- **Every key keeps its status** in every run whose actions meet the condition: each action that
succeeds has done to the keys and their statuses what it is to do, and the number of keys and the
positions with a status are right. -/
theorem keys_keep_their_status (reader : KeyReader) (channel : ManagedChannel)
    (hchannel : channel.WellFormed reader) (as : List KeyAction)
    (hreadable : Transition.Along (step reader) (Readable reader) channel as) :
    Transition.Along (step reader)
      (fun channel a => ∀ channel', channel.manage reader a = some channel' →
        Right reader channel a channel') channel as := by
  have hstep : ∀ (c : ManagedChannel) a, c.WellFormed reader → c.Readable reader a →
      (c.step reader a).WellFormed reader := by
    intro c a hc ha
    exact hc.step ha
  refine Transition.along_of_invariant hstep ?_ hchannel hreadable
  intro c a hc ha channel' hresult
  exact (hc.manage ha hresult).2

/-- Texts of keys none of which is a JSON array. -/
def plainKeyReader : KeyReader := ⟨fun _ => none, fun _ => none⟩

/-- A channel with three keys, the second of which is disabled automatically. -/
def threeKeys : ManagedChannel :=
  (addedChannel .polling ["sk-a", "sk-b", "sk-a"]).withList
    ((∅ : KeyMap ℤ).insert 1 channelStatusAutoDisabled)

theorem wellFormed_threeKeys : threeKeys.WellFormed plainKeyReader := by
  refine ⟨by decide +kernel, by decide +kernel, ?_⟩
  intro i hi
  by_contra hge
  have hne : i ≠ 1 := by
    rintro rfl
    exact hge (by decide +kernel)
  exact hi (AList.lookup_insert_ne hne)

theorem keys_keep_their_status_six : Transition.Along (ManagedChannel.step plainKeyReader)
      (fun channel a => ∀ channel', channel.manage plainKeyReader a = some channel' →
        ManagedChannel.Right plainKeyReader channel a channel')
      threeKeys
      [.deleteDisabledKeys, .updateChannel .append "sk-c\n sk-a" false, .disableKey 1,
        .deleteKey 0, .enableAllKeys, .updateChannel .replace "sk-d\nsk-e" false] :=
  keys_keep_their_status plainKeyReader threeKeys wellFormed_threeKeys _ (by decide +kernel)

/-- A channel with two keys, both disabled automatically. -/
def noKeyLeft : ManagedChannel :=
  (addedChannel .polling ["sk-a", "sk-b"]).withList
    (((∅ : KeyMap ℤ).insert 0 channelStatusAutoDisabled).insert 1 channelStatusAutoDisabled)

/-- If all keys are disabled automatically, none of them is deleted and all of them are enabled. -/
theorem deleted_keys_are_enabled : noKeyLeft.entries plainKeyReader =
        [("sk-a", channelStatusAutoDisabled), ("sk-b", channelStatusAutoDisabled)] ∧
      ∃ channel, noKeyLeft.manage plainKeyReader .deleteDisabledKeys = some channel ∧
        channel.entries plainKeyReader =
          [("sk-a", channelStatusEnabled), ("sk-b", channelStatusEnabled)] ∧
        ¬ManagedChannel.Right plainKeyReader noKeyLeft .deleteDisabledKeys channel := by
  refine ⟨by decide +kernel, noKeyLeft.step plainKeyReader .deleteDisabledKeys, by rfl,
    by decide +kernel, ?_⟩
  intro h
  exact absurd h.entries (by decide +kernel)

end NewApi

/-
**Selecting a key of a channel that has several.**

A channel of the memory cache is one object that all requests share.  `GetNextEnabledKey` goes by
the positions of its keys: it collects those that are enabled and picks one of them at random, or
the next one after the position it left off at.  `handlerMultiKeyUpdate` goes by the text of a key
and changes the status of the first position that holds it.  Whether a disabled key stays out of use
therefore depends on the other positions that hold it.

Main definitions:

* `NewApi.Channel.getNextEnabledKey`, `NewApi.Channel.nextKey` — the selection, and the one on the
  shared object;
* `NewApi.SharedStep`, `NewApi.Channel.runShared` — calls and changes of a status, in any order;
* `NewApi.Channel.SoleKey` — the condition.

Main results:

* `NewApi.nextKey_polling` — a poll picks the first enabled position in a circle;
* `NewApi.next_key_enabled_and_fair` — **errors, disabled keys and turns**;
* `NewApi.repeated_key_returned` — a disabled key that is returned from its second position.
-/

import NewApi.Lib.RoundRobin
import NewApi.ChannelStatus

set_option autoImplicit false

namespace NewApi

/-! ### The selection -/

/-- The next enabled key of a channel, with its position, and the channel afterwards.
`cacheGetChannelInfo` is what the cache has about the channel, where the saved position is read. -/
def Channel.getNextEnabledKey (unmarshal : String → Option (List String))
    (cacheGetChannelInfo : Except String ChannelInfo) (rand : ℕ) (channel : Channel) :
    Except RelayError (String × ℕ) × Channel :=
  let keys := channel.getKeys unmarshal
  let enabled := enabledIdx keys channel.channelInfo.multiKeyStatusList
  let first := enabled.headD 0
  let random := enabled.getD (rand % enabled.length) 0
  if channel.channelInfo.isMultiKey = false then (.ok (channel.key, 0), channel)
  else if keys = [] then (.error (noAvailableKey "no keys available"), channel)
  else if enabled = [] then (.error (noAvailableKey "no enabled keys"), channel)
  else
    match channel.channelInfo.multiKeyMode with
    | .random => (.ok (keys.getD random "", random), channel)
    | .polling =>
      match cacheGetChannelInfo with
      | .error err => (.error (getChannelFailed err), channel)
      | .ok channelInfo =>
        let (polled, idx) := channel.pollKey unmarshal channelInfo.multiKeyPollingIndex
        (.ok (keys.getD idx "", idx), polled)
    | .unknown => (.ok (keys.getD first "", first), channel)

/-- The selection on the object that the cache holds. -/
def Channel.nextKey (unmarshal : String → Option (List String)) (rand : ℕ) (channel : Channel) :
    Except RelayError (String × ℕ) × Channel :=
  channel.getNextEnabledKey unmarshal (.ok channel.channelInfo) rand

/-- The position at which a selection ended. -/
def selectedIdx : Except RelayError (String × ℕ) → Option ℕ
  | .ok (_, idx) => some idx
  | .error _ => none

/-- The position holds a key, and the key is enabled. -/
def Channel.KeyEnabled (unmarshal : String → Option (List String)) (channel : Channel) (i : ℕ) :
    Prop :=
  i < (channel.getKeys unmarshal).length ∧
    getKeyStatus channel.channelInfo.multiKeyStatusList i = channelStatusEnabled

/-! ### What happens to the shared object -/

/-- A call for a key, with the random number it draws, or a change of the status of a key. -/
inductive SharedStep where
  | nextKey (rand : ℕ)
  | update (usingKey : String) (status : ℤ) (reason : String) (now : ℤ)
deriving DecidableEq, Repr

def Channel.sharedStep (unmarshal : String → Option (List String)) (channel : Channel) :
    SharedStep → Channel
  | .nextKey rand => (channel.nextKey unmarshal rand).2
  | .update usingKey status reason now =>
    handlerMultiKeyUpdate unmarshal channel usingKey status reason now

def Channel.runShared (unmarshal : String → Option (List String)) (channel : Channel)
    (steps : List SharedStep) : Channel :=
  steps.foldl (Channel.sharedStep unmarshal) channel

/-- The step enables the key. -/
def SharedStep.Enables (key : String) : SharedStep → Prop
  | .nextKey _ => False
  | .update usingKey status _ _ => usingKey = key ∧ status = channelStatusEnabled

/-- The channel before the call `t` of calls that follow each other. -/
def Channel.beforeCall (unmarshal : String → Option (List String)) (rands : ℕ → ℕ)
    (channel : Channel) : ℕ → Channel
  | 0 => channel
  | t + 1 => ((channel.beforeCall unmarshal rands t).nextKey unmarshal (rands t)).2

/-- What the call `t` of calls that follow each other returns. -/
def Channel.callResult (unmarshal : String → Option (List String)) (rands : ℕ → ℕ)
    (channel : Channel) (t : ℕ) : Except RelayError (String × ℕ) :=
  ((channel.beforeCall unmarshal rands t).nextKey unmarshal (rands t)).1

/-- Every position that holds the key, other than the one a change of its status is about, is
disabled. -/
def Channel.SoleKey (unmarshal : String → Option (List String)) (channel : Channel)
    (key : String) : Prop :=
  ∀ i, (channel.getKeys unmarshal)[i]? = some key → channel.keyIndex unmarshal key ≠ some i →
    ¬ channel.KeyEnabled unmarshal i

/-- No position that holds the key is enabled. -/
def Channel.KeyOff (unmarshal : String → Option (List String)) (channel : Channel)
    (key : String) : Prop :=
  ∀ i, (channel.getKeys unmarshal)[i]? = some key → ¬ channel.KeyEnabled unmarshal i

section Selection

variable {unmarshal : String → Option (List String)} {channel : Channel}

/-! ### Positions -/

theorem mem_enabledIdx {i : ℕ} :
    i ∈ enabledIdx (channel.getKeys unmarshal) channel.channelInfo.multiKeyStatusList ↔
      channel.KeyEnabled unmarshal i := by
  simp [enabledIdx, Channel.KeyEnabled]

/-- The number of enabled positions, as a count over the positions. -/
theorem length_enabledIdx (keys : List String) (statusList : KeyMap ℤ) :
    (enabledIdx keys statusList).length =
      Nat.count (fun i => getKeyStatus statusList i = channelStatusEnabled) keys.length := by
  rw [Nat.count_eq_card_filter_range, enabledIdx, ← List.toFinset_card_of_nodup
    (List.nodup_range.filter _)]
  congr 1
  ext i
  simp

/-- A key at a position is the one `GetKeys` gives there. -/
theorem getElem?_of_keyEnabled {i : ℕ} (h : channel.KeyEnabled unmarshal i) :
    (channel.getKeys unmarshal)[i]? = some ((channel.getKeys unmarshal).getD i "") := by
  rw [List.getD_eq_getElem?_getD, List.getElem?_eq_getElem h.1]
  rfl

/-! ### Polling -/

/-- A poll picks the first enabled position in a circle, beginning at the saved one, and saves the
position after it. -/
theorem pollKey_eq {pollingIndex : ℤ} {i : ℕ} (h : channel.KeyEnabled unmarshal i) :
    ∃ start idx, start < (channel.getKeys unmarshal).length ∧
      (0 ≤ pollingIndex → pollingIndex < (channel.getKeys unmarshal).length →
        (start : ℤ) = pollingIndex) ∧
      RoundRobin.firstFrom (fun idx =>
        getKeyStatus channel.channelInfo.multiKeyStatusList idx = channelStatusEnabled)
        (channel.getKeys unmarshal).length start = some idx ∧
      (channel.pollKey unmarshal pollingIndex).2 = idx ∧
      (channel.pollKey unmarshal pollingIndex).1.channelInfo.multiKeyPollingIndex =
        ((idx + 1) % (channel.getKeys unmarshal).length : ℕ) := by
  obtain ⟨hlt, hon⟩ := h
  generalize hstart : (if pollingIndex < 0 ∨ ((channel.getKeys unmarshal).length : ℤ) ≤ pollingIndex
    then 0 else pollingIndex.toNat) = start
  have hin : start < (channel.getKeys unmarshal).length := by
    rw [← hstart]
    split <;> omega
  obtain ⟨idx, hidx⟩ := Option.isSome_iff_exists.1
    (@RoundRobin.firstFrom_isSome (fun idx =>
      getKeyStatus channel.channelInfo.multiKeyStatusList idx = channelStatusEnabled) _
      (channel.getKeys unmarshal).length start i hin hlt hon)
  refine ⟨start, idx, hin, ?_, hidx, ?_⟩
  · intro h0 hle
    rw [← hstart, if_neg (by omega)]
    omega
  · unfold RoundRobin.firstFrom at hidx
    simp only [Channel.pollKey, hstart, hidx]
    exact ⟨trivial, rfl⟩

/-! ### One call -/

/-- A call leaves what the selection goes by as it was. -/
structure SameKeys (unmarshal : String → Option (List String)) (channel channel' : Channel) :
    Prop where
  keys : channel'.getKeys unmarshal = channel.getKeys unmarshal
  statusList : channel'.channelInfo.multiKeyStatusList = channel.channelInfo.multiKeyStatusList
  isMultiKey : channel'.channelInfo.isMultiKey = channel.channelInfo.isMultiKey
  mode : channel'.channelInfo.multiKeyMode = channel.channelInfo.multiKeyMode

theorem SameKeys.refl : SameKeys unmarshal channel channel := ⟨rfl, rfl, rfl, rfl⟩

theorem SameKeys.keyEnabled {channel' : Channel} (h : SameKeys unmarshal channel channel')
    (i : ℕ) : channel'.KeyEnabled unmarshal i ↔ channel.KeyEnabled unmarshal i := by
  unfold Channel.KeyEnabled
  rw [h.keys, h.statusList]

theorem sameKeys_pollKey (pollingIndex : ℤ) :
    SameKeys unmarshal channel (channel.pollKey unmarshal pollingIndex).1 := by
  simp only [Channel.pollKey]
  split
  · exact ⟨rfl, rfl, rfl, rfl⟩
  · exact SameKeys.refl

theorem sameKeys_nextKey (rand : ℕ) :
    SameKeys unmarshal channel (channel.nextKey unmarshal rand).2 := by
  unfold Channel.nextKey Channel.getNextEnabledKey
  dsimp only
  split
  · exact SameKeys.refl
  · split
    · exact SameKeys.refl
    · split
      · exact SameKeys.refl
      · split
        · exact SameKeys.refl
        · exact sameKeys_pollKey _
        · exact SameKeys.refl

/-- **What a call returns**: an error if no position is enabled, and otherwise an enabled position
with its key. -/
theorem nextKey_spec (hmulti : channel.channelInfo.isMultiKey = true) (rand : ℕ) :
    ((∃ err, (channel.nextKey unmarshal rand).1 = .error err) ∧
        ∀ i, ¬ channel.KeyEnabled unmarshal i) ∨
      ∃ i, channel.KeyEnabled unmarshal i ∧
        (channel.nextKey unmarshal rand).1 =
          .ok ((channel.getKeys unmarshal).getD i "", i) := by
  unfold Channel.nextKey Channel.getNextEnabledKey
  dsimp only
  rw [if_neg (by simp [hmulti])]
  by_cases hkeys : channel.getKeys unmarshal = []
  · rw [if_pos hkeys]
    refine .inl ⟨⟨_, rfl⟩, ?_⟩
    intro i hi
    have := hi.1
    simp [hkeys] at this
  rw [if_neg hkeys]
  by_cases hnone : enabledIdx (channel.getKeys unmarshal)
      channel.channelInfo.multiKeyStatusList = []
  · rw [if_pos hnone]
    refine .inl ⟨⟨_, rfl⟩, ?_⟩
    intro i hi
    have := (@mem_enabledIdx unmarshal channel i).2 hi
    simp [hnone] at this
  rw [if_neg hnone]
  refine .inr ?_
  have hlength := List.length_pos_iff.2 hnone
  cases hmode : channel.channelInfo.multiKeyMode with
  | random =>
    refine ⟨_, mem_enabledIdx.1 ?_, rfl⟩
    rw [List.getD_eq_getElem?_getD, List.getElem?_eq_getElem (Nat.mod_lt _ hlength)]
    exact List.getElem_mem _
  | polling =>
    obtain ⟨i, hi⟩ := List.exists_mem_of_ne_nil _ hnone
    obtain ⟨start, idx, hstart, -, hfirst, hpoll, -⟩ := @pollKey_eq unmarshal channel
      channel.channelInfo.multiKeyPollingIndex i (mem_enabledIdx.1 hi)
    obtain ⟨hon, hlt, -⟩ := RoundRobin.firstFrom_rank hstart hfirst
    refine ⟨idx, ⟨hlt, hon⟩, ?_⟩
    simp only [hpoll]
  | unknown =>
    refine ⟨_, mem_enabledIdx.1 ?_, rfl⟩
    rw [List.headD_eq_head?_getD, List.head?_eq_some_head hnone]
    exact List.head_mem hnone

/-! ### Runs -/

/-- A change of the status of another key, or one that disables the key, leaves it out of use. -/
theorem keyOff_handlerMultiKeyUpdate {key : String} (h : channel.KeyOff unmarshal key)
    (usingKey : String) (status : ℤ) (reason : String) (now : ℤ)
    (hkeeps : ¬ (usingKey = key ∧ status = channelStatusEnabled)) :
    (handlerMultiKeyUpdate unmarshal channel usingKey status reason now).KeyOff unmarshal key := by
  intro i hi hon
  rw [getKeys_handlerMultiKeyUpdate] at hi
  obtain ⟨hlt, hstatus⟩ := hon
  rw [getKeys_handlerMultiKeyUpdate] at hlt
  rw [getKeyStatus_handlerMultiKeyUpdate] at hstatus
  by_cases hindex : channel.keyIndex unmarshal usingKey = some i
  · rw [if_pos hindex] at hstatus
    -- the position that is changed holds the key the change is about
    obtain ⟨hlt', hkey, -⟩ := List.idxOf?_eq_some_iff.1 hindex
    rw [List.getElem?_eq_getElem hlt', Option.some.injEq] at hi
    exact hkeeps ⟨hkey.symm.trans hi, hstatus⟩
  · rw [if_neg hindex] at hstatus
    exact h i hi ⟨hlt, hstatus⟩

/-- Disabling a key that no other enabled position holds puts it out of use. -/
theorem keyOff_of_sole {key : String} (h : channel.SoleKey unmarshal key) {status : ℤ}
    (hstatus : status ≠ channelStatusEnabled) (reason : String) (now : ℤ) :
    (handlerMultiKeyUpdate unmarshal channel key status reason now).KeyOff unmarshal key := by
  intro i hi hon
  rw [getKeys_handlerMultiKeyUpdate] at hi
  obtain ⟨hlt, hset⟩ := hon
  rw [getKeys_handlerMultiKeyUpdate] at hlt
  rw [getKeyStatus_handlerMultiKeyUpdate] at hset
  by_cases hindex : channel.keyIndex unmarshal key = some i
  · rw [if_pos hindex] at hset
    exact hstatus hset
  · rw [if_neg hindex] at hset
    exact h i hi hindex ⟨hlt, hset⟩

/-- A step that does not enable the key leaves it out of use. -/
theorem keyOff_sharedStep {key : String} (h : channel.KeyOff unmarshal key) {step : SharedStep}
    (hstep : ¬ step.Enables key) : (channel.sharedStep unmarshal step).KeyOff unmarshal key := by
  cases step with
  | nextKey rand =>
    have hsame := @sameKeys_nextKey unmarshal channel rand
    intro i hi hon
    have hi' : ((channel.nextKey unmarshal rand).2.getKeys unmarshal)[i]? = some key := hi
    rw [hsame.keys] at hi'
    exact h i hi' ((hsame.keyEnabled i).1 hon)
  | update usingKey status reason now =>
    exact keyOff_handlerMultiKeyUpdate h usingKey status reason now hstep

/-- A run that does not enable the key leaves it out of use. -/
theorem keyOff_runShared {key : String} {steps : List SharedStep} {channel : Channel}
    (h : channel.KeyOff unmarshal key) (hsteps : ∀ step ∈ steps, ¬ step.Enables key) :
    (channel.runShared unmarshal steps).KeyOff unmarshal key := by
  induction steps generalizing channel with
  | nil => exact h
  | cons step steps ih =>
    have hstep := keyOff_sharedStep h (hsteps step List.mem_cons_self)
    exact ih hstep fun s hs => hsteps s (List.mem_cons_of_mem _ hs)

/-- The channel stays one with several keys. -/
theorem isMultiKey_runShared {steps : List SharedStep} {channel : Channel} :
    (channel.runShared unmarshal steps).channelInfo.isMultiKey =
      channel.channelInfo.isMultiKey := by
  induction steps generalizing channel with
  | nil => rfl
  | cons step steps ih =>
    have hrest := @ih (channel.sharedStep unmarshal step)
    refine hrest.trans ?_
    cases step with
    | nextKey rand => exact (sameKeys_nextKey rand).isMultiKey
    | update usingKey status reason now => exact isMultiKey_handlerMultiKeyUpdate ..

/-- A key that is out of use is not returned. -/
theorem nextKey_ne_of_keyOff (hmulti : channel.channelInfo.isMultiKey = true) {key : String}
    (h : channel.KeyOff unmarshal key) (rand i : ℕ) :
    (channel.nextKey unmarshal rand).1 ≠ .ok (key, i) := by
  intro hok
  obtain ⟨⟨err, herr⟩, -⟩ | ⟨j, hj, hres⟩ := @nextKey_spec unmarshal channel hmulti rand
  · rw [hok] at herr
    cases herr
  · rw [hok] at hres
    simp only [Except.ok.injEq, Prod.mk.injEq] at hres
    obtain ⟨rfl, rfl⟩ := hres
    exact h i (getElem?_of_keyEnabled hj) hj

/-! ### Turns -/

theorem sameKeys_beforeCall (rands : ℕ → ℕ) (t : ℕ) :
    SameKeys unmarshal channel (channel.beforeCall unmarshal rands t) := by
  induction t with
  | zero => exact SameKeys.refl
  | succ t ih =>
    have hnext := @sameKeys_nextKey unmarshal (channel.beforeCall unmarshal rands t) (rands t)
    exact ⟨hnext.keys.trans ih.keys, hnext.statusList.trans ih.statusList,
      hnext.isMultiKey.trans ih.isMultiKey, hnext.mode.trans ih.mode⟩

/-- A call that polls: the first enabled position in a circle, and the position after it saved. -/
theorem nextKey_polling (hmulti : channel.channelInfo.isMultiKey = true)
    (hmode : channel.channelInfo.multiKeyMode = .polling) {i : ℕ}
    (hi : channel.KeyEnabled unmarshal i) (rand : ℕ) :
    ∃ start idx, start < (channel.getKeys unmarshal).length ∧
      (0 ≤ channel.channelInfo.multiKeyPollingIndex →
        channel.channelInfo.multiKeyPollingIndex < (channel.getKeys unmarshal).length →
          (start : ℤ) = channel.channelInfo.multiKeyPollingIndex) ∧
      RoundRobin.firstFrom (fun idx =>
        getKeyStatus channel.channelInfo.multiKeyStatusList idx = channelStatusEnabled)
        (channel.getKeys unmarshal).length start = some idx ∧
      selectedIdx (channel.nextKey unmarshal rand).1 = some idx ∧
      (channel.nextKey unmarshal rand).2.channelInfo.multiKeyPollingIndex =
        ((idx + 1) % (channel.getKeys unmarshal).length : ℕ) := by
  obtain ⟨start, idx, hstart, hsaved, hfirst, hpoll, hsave⟩ :=
    @pollKey_eq unmarshal channel channel.channelInfo.multiKeyPollingIndex i hi
  have hkeys : channel.getKeys unmarshal ≠ [] := by
    intro hnil
    have := hi.1
    simp [hnil] at this
  have hsome : enabledIdx (channel.getKeys unmarshal)
      channel.channelInfo.multiKeyStatusList ≠ [] :=
    List.ne_nil_of_mem (mem_enabledIdx.2 hi)
  refine ⟨start, idx, hstart, hsaved, hfirst, ?_, ?_⟩
  · simp [Channel.nextKey, Channel.getNextEnabledKey, hmulti, hkeys, hsome, hmode, hpoll,
      selectedIdx]
  · simpa [Channel.nextKey, Channel.getNextEnabledKey, hmulti, hkeys, hsome, hmode] using hsave

/-- The calls of a channel that polls take turns among the enabled positions. -/
theorem turns_of_polling (hmulti : channel.channelInfo.isMultiKey = true)
    (hmode : channel.channelInfo.multiKeyMode = .polling) {i : ℕ}
    (hi : channel.KeyEnabled unmarshal i) (rands : ℕ → ℕ) :
    ∃ starts picks, RoundRobin.Turns (fun idx =>
        getKeyStatus channel.channelInfo.multiKeyStatusList idx = channelStatusEnabled)
        (channel.getKeys unmarshal).length starts picks ∧
      ∀ t, selectedIdx (channel.callResult unmarshal rands t) = some (picks t) := by
  have hcall : ∀ t, ∃ start idx, start < (channel.getKeys unmarshal).length ∧
      (0 ≤ (channel.beforeCall unmarshal rands t).channelInfo.multiKeyPollingIndex →
        (channel.beforeCall unmarshal rands t).channelInfo.multiKeyPollingIndex <
          (channel.getKeys unmarshal).length →
          (start : ℤ) = (channel.beforeCall unmarshal rands t).channelInfo.multiKeyPollingIndex) ∧
      RoundRobin.firstFrom (fun idx =>
        getKeyStatus channel.channelInfo.multiKeyStatusList idx = channelStatusEnabled)
        (channel.getKeys unmarshal).length start = some idx ∧
      selectedIdx (channel.callResult unmarshal rands t) = some idx ∧
      (channel.beforeCall unmarshal rands (t + 1)).channelInfo.multiKeyPollingIndex =
        ((idx + 1) % (channel.getKeys unmarshal).length : ℕ) := by
    intro t
    have hsame := @sameKeys_beforeCall unmarshal channel rands t
    have hpolling := @nextKey_polling unmarshal (channel.beforeCall unmarshal rands t)
      (hsame.isMultiKey.trans hmulti) (hsame.mode.trans hmode) i ((hsame.keyEnabled i).2 hi)
      (rands t)
    rw [hsame.keys, hsame.statusList] at hpolling
    exact hpolling
  choose starts picks hlt hsaved hpick hselected hnext using hcall
  refine ⟨starts, picks, ⟨hlt, hpick, ?_⟩, hselected⟩
  intro t
  -- the position saved by one call is where the next one begins
  have hpos : 0 < (channel.getKeys unmarshal).length := by
    have := hlt t
    omega
  have hmod := Nat.mod_lt (picks t + 1) hpos
  have hbegin := hsaved (t + 1) (by rw [hnext t]; omega) (by rw [hnext t]; omega)
  rw [hnext t] at hbegin
  exact_mod_cast hbegin

/-- **Errors, disabled keys and turns.**  A call fails exactly if no position is enabled, and
returns an enabled position with its key otherwise; a key that is disabled while no other enabled
position holds it is not returned before it is enabled again; and of `n` calls that poll one after
the other each of `m` enabled positions is returned by `n / m`, rounded down or up. -/
theorem next_key_enabled_and_fair (hmulti : channel.channelInfo.isMultiKey = true) :
    (∀ rand, ((∃ err, (channel.nextKey unmarshal rand).1 = .error err) ↔
        ∀ i, ¬ channel.KeyEnabled unmarshal i) ∧
      ∀ key i, (channel.nextKey unmarshal rand).1 = .ok (key, i) →
        channel.KeyEnabled unmarshal i ∧ (channel.getKeys unmarshal)[i]? = some key) ∧
    (∀ key status reason now, status ≠ channelStatusEnabled → channel.SoleKey unmarshal key →
      ∀ steps : List SharedStep, (∀ step ∈ steps, ¬ step.Enables key) → ∀ rand i,
        (((handlerMultiKeyUpdate unmarshal channel key status reason now).runShared unmarshal
          steps).nextKey unmarshal rand).1 ≠ .ok (key, i)) ∧
    (channel.channelInfo.multiKeyMode = .polling → ∀ rands n i, channel.KeyEnabled unmarshal i →
      let m := (enabledIdx (channel.getKeys unmarshal)
        channel.channelInfo.multiKeyStatusList).length
      let returned := Nat.count
        (fun t => selectedIdx (channel.callResult unmarshal rands t) = some i) n
      n / m ≤ returned ∧ returned ≤ (n + m - 1) / m) := by
  refine ⟨?_, ?_, ?_⟩
  · intro rand
    obtain ⟨⟨err, herr⟩, hoff⟩ | ⟨j, hj, hres⟩ := @nextKey_spec unmarshal channel hmulti rand
    · refine ⟨⟨fun _ => hoff, fun _ => ⟨err, herr⟩⟩, ?_⟩
      intro key i hok
      rw [herr] at hok
      cases hok
    · refine ⟨⟨?_, fun hoff => absurd hj (hoff j)⟩, ?_⟩
      · rintro ⟨err, herr⟩
        rw [hres] at herr
        cases herr
      · intro key i hok
        rw [hres] at hok
        simp only [Except.ok.injEq, Prod.mk.injEq] at hok
        obtain ⟨rfl, rfl⟩ := hok
        exact ⟨hj, getElem?_of_keyEnabled hj⟩
  · intro key status reason now hstatus hsole steps hsteps rand i
    have hoff := keyOff_runShared (keyOff_of_sole hsole hstatus reason now) hsteps
    refine nextKey_ne_of_keyOff ?_ hoff rand i
    rw [isMultiKey_runShared, isMultiKey_handlerMultiKeyUpdate, hmulti]
  · intro hmode rands n i hi
    obtain ⟨starts, picks, hturns, hselected⟩ := turns_of_polling hmulti hmode hi rands
    simp only [hselected, Option.some.injEq, length_enabledIdx]
    exact hturns.count_picks hi.1 hi.2 n

end Selection

/-! ### Keys held twice -/

/-- A channel that polls the given keys. -/
def pollingChannel (key : String) (statusList : KeyMap ℤ) : Channel where
  id := 1
  key := key
  status := channelStatusEnabled
  weight := none
  models := "gpt-4o"
  group := "default"
  priority := none
  otherInfo := ⟨none, none⟩
  channelInfo :=
    { isMultiKey := true
      multiKeyStatusList := statusList
      multiKeyDisabledReason := ∅
      multiKeyDisabledTime := ∅
      multiKeyPollingIndex := 0
      multiKeyMode := .polling }
  keys := []

/-- Three keys, one of them disabled: seven calls return each of the others three or four times, and
no call returns the first key when it is disabled too. -/
theorem next_key_enabled_and_fair_three :
    let channel := pollingChannel "a\nb\nc" (AList.insert 1 2 ∅)
    let m := (enabledIdx (channel.getKeys fun _ => none)
      channel.channelInfo.multiKeyStatusList).length
    let returned := Nat.count
      (fun t => selectedIdx (channel.callResult (fun _ => none) (fun _ => 0) t) = some 2) 7
    (7 / m ≤ returned ∧ returned ≤ (7 + m - 1) / m) ∧
      ∀ rand i, (((handlerMultiKeyUpdate (fun _ => none) channel "a" channelStatusAutoDisabled
        "invalid key" 1767225600).runShared (fun _ => none) [.nextKey 0, .nextKey 0]).nextKey
          (fun _ => none) rand).1 ≠ .ok ("a", i) := by
  intro channel
  obtain ⟨-, hdisabled, hfair⟩ := @next_key_enabled_and_fair (fun _ => none) channel rfl
  refine ⟨hfair rfl (fun _ => 0) 7 2 ⟨by decide, by decide⟩, ?_⟩
  refine hdisabled "a" channelStatusAutoDisabled "invalid key" 1767225600 (by decide) ?_ _ ?_
  · -- the key is at the first position only
    intro i hi hne
    have hkeys : channel.getKeys (fun _ => none) = ["a", "b", "c"] := by decide
    have hindex : channel.keyIndex (fun _ => none) "a" = some 0 := by decide
    rw [hkeys] at hi
    rw [hindex] at hne
    have hlt : i < 3 := (List.getElem?_eq_some_iff.1 hi).1
    obtain rfl | rfl | rfl : i = 0 ∨ i = 1 ∨ i = 2 := by omega
    · exact absurd rfl hne
    · exact absurd hi (by decide)
    · exact absurd hi (by decide)
  · intro step hstep
    rw [List.mem_pair, or_self] at hstep
    subst hstep
    exact id

/-- **A disabled key is returned**: the key at the positions 0 and 2 is disabled at the first of
them only, and the second call returns it from the other. -/
theorem repeated_key_returned :
    let channel := handlerMultiKeyUpdate (fun _ => none) (pollingChannel "a\nb\na" ∅) "a"
      channelStatusAutoDisabled "invalid key" 1767225600
    ((channel.runShared (fun _ => none) [.nextKey 0]).nextKey (fun _ => none) 0).1 =
      .ok ("a", 2) := by
  decide

end NewApi

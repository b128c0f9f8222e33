/-
**The choice of a channel.**

`GetRandomSatisfiedChannel` goes to the priority that is next, and picks one of the channels that
have it by a random number below the sum of their weights.  If the weights are small they are
multiplied, and if there are none every channel gets the same.  What is picked is an entry of the
list of the group and the model, and the list has a channel twice that names the group or the model
twice.

Main definitions:

* `NewApi.ChannelCache.candidates`, `NewApi.ChannelCache.targets` — the channels of a group and a
  model, and those of the priority that is next;
* `NewApi.ChannelCache.draws` — how many random numbers choose a channel;
* `NewApi.ChannelCache.ListedEvenly` — the condition.

Main results:

* `NewApi.targetPriority_isLevel` — the priority that is next;
* `NewApi.draws_eq` — how many random numbers choose a channel;
* `NewApi.weighted_choice` — **every random number chooses a channel of the priority that is next,
  and the channels are chosen by their weights exactly if they are listed evenly**.
-/

import NewApi.ChannelCache
import NewApi.Lib.Levels
import NewApi.Lib.WeightedPick

set_option autoImplicit false

namespace NewApi

/-! ### The channels to choose from -/

/-- The priorities of channels. -/
def priorities (channels : List Channel) : Finset ℤ := (channels.map Channel.getPriority).toFinset

/-- The channels of the priority that is next. -/
def targetChannels (retry : ℕ) (channels : List Channel) : List Channel :=
  channels.filter (·.getPriority = targetPriority retry channels)

/-- The weight of a channel after smoothing. -/
def effectiveWeight (targets : List Channel) (channel : Channel) : ℤ :=
  let sumWeight := (targets.map Channel.getWeight).sum
  if sumWeight = 0 then channel.getWeight + 100
  else if Int.tdiv sumWeight targets.length < 10 then channel.getWeight * 100
  else channel.getWeight

namespace ChannelCache

/-- Every channel that is listed is in the cache, under its id. -/
structure Consistent (cache : ChannelCache) : Prop where
  byId : cache.ById
  known : ∀ group model, ∀ id ∈ cache.listed group model, (cache.channelsIDM id).isSome

/-- The ids that are listed for a group and a model, or for the other name of the model. -/
def candidates (cache : ChannelCache) (group model : String) : List ℤ :=
  let exact := cache.listed group model
  if exact = [] then cache.listed group (formatMatchingModelName model) else exact

def channels (cache : ChannelCache) (group model : String) : List Channel :=
  (cache.candidates group model).filterMap cache.channelsIDM

def targets (cache : ChannelCache) (group model : String) (retry : ℕ) : List Channel :=
  targetChannels retry (cache.channels group model)

/-- The bound of the random number. -/
def totalWeight (cache : ChannelCache) (group model : String) (retry : ℕ) : ℤ :=
  let targets := cache.targets group model retry
  WeightedPick.total (effectiveWeight targets) targets

/-- How many of the random numbers choose a channel. -/
def draws (cache : ChannelCache) (group model : String) (retry : ℕ) (channel : Channel) : ℕ :=
  (List.range (cache.totalWeight group model retry).toNat).countP fun r : ℕ =>
    (getRandomSatisfiedChannel cache group model retry fun _ => (r : ℤ)).toOption = some (some channel)

/-- Channels are chosen as often as their weights say, and equally often if they have none. -/
def SharesByWeight (cache : ChannelCache) (group model : String) (retry : ℕ) : Prop :=
  let targets := cache.targets group model retry
  let draws := cache.draws group model retry
  (∀ c ∈ targets, ∀ c' ∈ targets, (draws c : ℤ) * c'.getWeight = draws c' * c.getWeight) ∧
    ((∀ c ∈ targets, c.getWeight = 0) → ∀ c ∈ targets, ∀ c' ∈ targets, draws c = draws c')

/-- **The condition**: channels that can be chosen are listed equally often. -/
def ListedEvenly (cache : ChannelCache) (group model : String) (retry : ℕ) : Prop :=
  let targets := cache.targets group model retry
  let ids := cache.candidates group model
  ∀ c ∈ targets, ∀ c' ∈ targets,
    (c.getWeight ≠ 0 ∧ c'.getWeight ≠ 0 ∨ ∀ d ∈ targets, d.getWeight = 0) →
      ids.count c.id = ids.count c'.id

end ChannelCache

/-! ### The priority that is next -/

/-- **The priority that is next** is the one that `retry` others exceed, or the last. -/
theorem targetPriority_isLevel (retry : ℕ) {channels : List Channel} (hne : channels ≠ []) :
    Levels.IsLevel (priorities channels) (min retry ((priorities channels).card - 1))
      (targetPriority retry channels) := by
  let sorted := Levels.descending (channels.map Channel.getPriority)
  have hlength : sorted.length = (priorities channels).card := Levels.length_descending _
  have hpos : 0 < sorted.length := by
    obtain ⟨c, hc⟩ := List.exists_mem_of_ne_nil channels hne
    exact List.length_pos_of_mem (Levels.mem_descending.2 (List.mem_map_of_mem hc))
  have hplace : min retry ((priorities channels).card - 1) < sorted.length := by omega
  have htarget : targetPriority retry channels =
      sorted[min retry ((priorities channels).card - 1)] := by
    have hindex : (if sorted.length ≤ retry then sorted.length - 1 else retry) =
        min retry ((priorities channels).card - 1) := by
      split
      · omega
      · omega
    have hget : targetPriority retry channels =
        sorted.getD (if sorted.length ≤ retry then sorted.length - 1 else retry) 0 := rfl
    rw [hget, hindex, List.getD_eq_getElem _ _ hplace]
  have hlevel := Levels.isLevel_getElem (Levels.descending_pairwise _) hplace
  rw [Levels.toFinset_descending] at hlevel
  rw [htarget]
  exact hlevel

/-- There is a channel of the priority that is next. -/
theorem targetChannels_ne_nil (retry : ℕ) {channels : List Channel} (hne : channels ≠ []) :
    targetChannels retry channels ≠ [] := by
  have hmem := (targetPriority_isLevel retry hne).1
  obtain ⟨c, hc, hpriority⟩ := List.mem_map.1 (List.mem_toFinset.1 hmem)
  exact List.ne_nil_of_mem (List.mem_filter.2 ⟨hc, by simp [hpriority]⟩)

/-! ### The random number -/

theorem pickByWeight_eq (weight : Channel → ℤ) (r : ℤ) (channels : List Channel) :
    pickByWeight weight r channels =
      match WeightedPick.pick weight r channels with
      | some channel => .ok (some channel)
      | none => .error "channel not found" := by
  induction channels generalizing r with
  | nil => rfl
  | cons channel channels ih =>
    rw [pickByWeight, WeightedPick.pick]
    by_cases hlt : r < weight channel
    · rw [if_pos hlt, if_pos (by omega)]
    · rw [if_neg hlt, if_neg (by omega), ih]

/-- The bound of the random number is the sum of the weights after smoothing, and the channel is
picked by these. -/
theorem chooseChannel_eq {group model : String} {retry : ℕ} {intn : ℤ → ℤ}
    {channels : List Channel} (hne : channels ≠ []) :
    let targets := targetChannels retry channels
    chooseChannel group model retry intn channels =
      pickByWeight (effectiveWeight targets)
        (intn (WeightedPick.total (effectiveWeight targets) targets)) targets := by
  intro targets
  have hsum : ∀ n : ℤ, WeightedPick.total (fun c : Channel => c.getWeight * n) targets =
      (targets.map Channel.getWeight).sum * n := by
    intro n
    rw [WeightedPick.total, List.sum_map_mul_right]
  unfold chooseChannel
  simp only
  rw [show channels.filter (·.getPriority = targetPriority retry channels) = targets from rfl,
    if_neg (targetChannels_ne_nil retry hne)]
  by_cases hzero : (targets.map Channel.getWeight).sum = 0
  · have hweight : effectiveWeight targets = fun c => c.getWeight + 100 := by
      funext c
      rw [effectiveWeight, if_pos hzero]
    have htotal : WeightedPick.total (fun c : Channel => c.getWeight + 100) targets =
        targets.length * 100 := by
      rw [WeightedPick.total, List.sum_map_add, hzero, zero_add]
      exact WeightedPick.total_const 100 targets
    rw [if_pos hzero, hweight, htotal]
  · rw [if_neg hzero]
    by_cases hsmall : Int.tdiv (targets.map Channel.getWeight).sum targets.length < 10
    · have hweight : effectiveWeight targets = fun c => c.getWeight * 100 := by
        funext c
        rw [effectiveWeight, if_neg hzero, if_pos hsmall]
      rw [if_pos hsmall, hweight, hsum]
    · have hweight : effectiveWeight targets = Channel.getWeight := by
        funext c
        rw [effectiveWeight, if_neg hzero, if_neg hsmall]
      rw [if_neg hsmall, hweight, WeightedPick.total]

/-! ### The weights after smoothing -/

section Smoothing

variable {targets : List Channel} (hweights : ∀ c ∈ targets, 0 ≤ c.getWeight)

include hweights

/-- Without weights every channel gets the same. -/
theorem sum_getWeight_eq_zero_iff :
    (targets.map Channel.getWeight).sum = 0 ↔ ∀ c ∈ targets, c.getWeight = 0 := by
  constructor
  · intro hzero c hc
    have hle := List.single_le_sum (l := targets.map Channel.getWeight) (by
      intro n hn
      obtain ⟨d, hd, rfl⟩ := List.mem_map.1 hn
      exact hweights d hd) c.getWeight (List.mem_map_of_mem hc)
    have hnonneg := hweights c hc
    omega
  · intro hall
    refine List.sum_eq_zero fun n hn => ?_
    obtain ⟨c, hc, rfl⟩ := List.mem_map.1 hn
    exact hall c hc

/-- What the weights become: all the same, or the same multiple of each. -/
theorem effectiveWeight_cases :
    (∀ c ∈ targets, c.getWeight = 0 ∧ effectiveWeight targets c = 100) ∨
      ((∃ c ∈ targets, c.getWeight ≠ 0) ∧
        ∃ n : ℤ, 0 < n ∧ ∀ c, effectiveWeight targets c = c.getWeight * n) := by
  by_cases hzero : (targets.map Channel.getWeight).sum = 0
  · refine .inl fun c hc => ?_
    have hweight := (sum_getWeight_eq_zero_iff hweights).1 hzero c hc
    exact ⟨hweight, by rw [effectiveWeight, if_pos hzero, hweight, zero_add]⟩
  · refine .inr ⟨?_, ?_⟩
    · have hsome := mt (sum_getWeight_eq_zero_iff hweights).2 hzero
      push Not at hsome
      exact hsome
    · by_cases hsmall : Int.tdiv (targets.map Channel.getWeight).sum targets.length < 10
      · exact ⟨100, by decide, fun c => by rw [effectiveWeight, if_neg hzero, if_pos hsmall]⟩
      · exact ⟨1, by decide, fun c => by rw [effectiveWeight, if_neg hzero, if_neg hsmall, mul_one]⟩

theorem effectiveWeight_nonneg : ∀ c ∈ targets, 0 ≤ effectiveWeight targets c := by
  intro c hc
  rcases effectiveWeight_cases hweights with hall | ⟨-, n, hn, hmul⟩
  · rw [(hall c hc).2]
    decide
  · rw [hmul]
    exact Int.mul_nonneg (hweights c hc) hn.le

/-- **The bound of the random number is positive.** -/
theorem total_effectiveWeight_pos (hne : targets ≠ []) :
    0 < WeightedPick.total (effectiveWeight targets) targets := by
  have hnonneg := effectiveWeight_nonneg hweights
  obtain ⟨c, hc, hpos⟩ : ∃ c ∈ targets, 0 < effectiveWeight targets c := by
    rcases effectiveWeight_cases hweights with hall | ⟨⟨c, hc, hc0⟩, n, hn, hmul⟩
    · obtain ⟨c, hc⟩ := List.exists_mem_of_ne_nil targets hne
      refine ⟨c, hc, ?_⟩
      rw [(hall c hc).2]
      decide
    · refine ⟨c, hc, ?_⟩
      have hw := hweights c hc
      rw [hmul]
      exact Int.mul_pos (by omega) hn
  have hle : effectiveWeight targets c ≤ WeightedPick.total (effectiveWeight targets) targets := by
    refine List.single_le_sum ?_ _ (List.mem_map_of_mem hc)
    intro n hn
    obtain ⟨d, hd, rfl⟩ := List.mem_map.1 hn
    exact hnonneg d hd
  omega

end Smoothing

/-! ### The entries of the list -/

theorem channelsOf_eq {channelsIDM : ℤ → Option Channel} {ids : List ℤ}
    (h : ∀ id ∈ ids, (channelsIDM id).isSome) :
    channelsOf channelsIDM ids = .ok (ids.filterMap channelsIDM) := by
  induction ids with
  | nil => rfl
  | cons id ids ih =>
    obtain ⟨channel, hchannel⟩ := Option.isSome_iff_exists.1 (h id List.mem_cons_self)
    have hrest := ih fun i hi => h i (List.mem_cons_of_mem id hi)
    rw [channelsOf, hchannel]
    simp only [hrest, List.filterMap_cons, hchannel]

/-- A channel is found as often as its id is listed. -/
theorem count_filterMap {cache : ChannelCache} (hid : cache.ById) {id : ℤ} {channel : Channel}
    (hchannel : cache.channelsIDM id = some channel) (ids : List ℤ) :
    (ids.filterMap cache.channelsIDM).count channel = ids.count id := by
  induction ids with
  | nil => rfl
  | cons i ids ih =>
    by_cases heq : i = id
    · subst heq
      rw [List.filterMap_cons_some hchannel, List.count_cons_self, List.count_cons_self, ih]
    · rw [List.count_cons_of_ne heq]
      cases hi : cache.channelsIDM i with
      | none => rw [List.filterMap_cons_none hi, ih]
      | some other =>
        have hne : other ≠ channel := by
          rintro rfl
          exact heq ((hid i other hi).symm.trans (hid id other hchannel))
        rw [List.filterMap_cons_some hi, List.count_cons_of_ne hne, ih]

section Choice

variable {cache : ChannelCache} {group model : String} {retry : ℕ}

theorem ChannelCache.Consistent.candidates (h : cache.Consistent) :
    ∀ id ∈ cache.candidates group model, (cache.channelsIDM id).isSome := by
  intro id hid
  unfold ChannelCache.candidates at hid
  simp only at hid
  split at hid
  · exact h.known _ _ id hid
  · exact h.known _ _ id hid

/-- The channels that are found are as many as the ids that are listed. -/
theorem ChannelCache.Consistent.channels_ne_nil (h : cache.Consistent)
    (hne : cache.candidates group model ≠ []) : cache.channels group model ≠ [] := by
  obtain ⟨id, hid⟩ := List.exists_mem_of_ne_nil _ hne
  obtain ⟨channel, hchannel⟩ := Option.isSome_iff_exists.1 (h.candidates id hid)
  exact List.ne_nil_of_mem (List.mem_filterMap.2 ⟨id, hid, hchannel⟩)

/-- **A random number picks an entry of the list**, if there are several. -/
theorem getRandomSatisfiedChannel_eq (h : cache.Consistent)
    (htwo : 2 ≤ (cache.candidates group model).length) (intn : ℤ → ℤ) :
    getRandomSatisfiedChannel cache group model retry intn =
      pickByWeight (effectiveWeight (cache.targets group model retry))
        (intn (cache.totalWeight group model retry)) (cache.targets group model retry) := by
  have hne : cache.candidates group model ≠ [] := by
    intro hnil
    rw [hnil] at htwo
    exact absurd htwo (by decide)
  have hknown := @ChannelCache.Consistent.candidates cache group model h
  have hchannels := h.channels_ne_nil hne
  rw [ChannelCache.channels] at hchannels
  cases hc : cache.candidates group model with
  | nil => exact absurd hc hne
  | cons id ids =>
    cases ids with
    | nil =>
      rw [hc, List.length_singleton] at htwo
      omega
    | cons id' ids =>
      have hlisted : (if cache.listed group model = [] then
          cache.listed group (formatMatchingModelName model)
        else cache.listed group model) = id :: id' :: ids := hc
      have htargets : cache.targets group model retry =
          targetChannels retry ((id :: id' :: ids).filterMap cache.channelsIDM) := by
        rw [ChannelCache.targets, ChannelCache.channels, hc]
      rw [hc] at hknown hchannels
      unfold getRandomSatisfiedChannel ChannelCache.totalWeight
      rw [htargets]
      simp only [hlisted, channelsOf_eq hknown]
      exact chooseChannel_eq hchannels

/-- A number below the bound picks a channel of the priority that is next. -/
theorem exists_pick_target (h : cache.Consistent) (hne : cache.candidates group model ≠ [])
    {r : ℤ} (hr : r < cache.totalWeight group model retry) :
    ∃ channel ∈ cache.channels group model,
      pickByWeight (effectiveWeight (cache.targets group model retry)) r
          (cache.targets group model retry) = .ok (some channel) ∧
        Levels.IsLevel (priorities (cache.channels group model))
          (min retry ((priorities (cache.channels group model)).card - 1)) channel.getPriority := by
  have hchannels := h.channels_ne_nil hne
  obtain ⟨channel, hchannel, hpick⟩ :=
    WeightedPick.exists_pick (targetChannels_ne_nil retry hchannels) hr
  obtain ⟨hmem, hpriority⟩ := List.mem_filter.1 hchannel
  refine ⟨channel, hmem, ?_, ?_⟩
  · rw [pickByWeight_eq]
    exact congrArg (fun picked : Option Channel =>
      match picked with
      | some channel => (.ok (some channel) : Except String (Option Channel))
      | none => .error "channel not found") hpick
  · rw [of_decide_eq_true hpriority]
    exact targetPriority_isLevel retry hchannels

/-- What a random number picks. -/
theorem toOption_pickByWeight (weight : Channel → ℤ) (r : ℤ) (channels : List Channel) :
    (pickByWeight weight r channels).toOption =
      (WeightedPick.pick weight r channels).map some := by
  rw [pickByWeight_eq]
  cases WeightedPick.pick weight r channels with
  | none => rfl
  | some channel => rfl

/-- **How many random numbers choose a channel**: its weight after smoothing, for each time it is
listed. -/
theorem draws_eq (h : cache.Consistent)
    (hweights : ∀ id channel, cache.channelsIDM id = some channel → 0 ≤ channel.getWeight)
    (htwo : 2 ≤ (cache.candidates group model).length) {channel : Channel}
    (hchannel : channel ∈ cache.targets group model retry) :
    (cache.draws group model retry channel : ℤ) =
      (cache.candidates group model).count channel.id *
        effectiveWeight (cache.targets group model retry) channel := by
  have hnonneg : ∀ c ∈ cache.targets group model retry, 0 ≤ c.getWeight := by
    intro c hc
    obtain ⟨id, -, hid⟩ := List.mem_filterMap.1 (List.mem_of_mem_filter hc)
    exact hweights id c hid
  have hdraws : cache.draws group model retry channel =
      WeightedPick.draws (effectiveWeight (cache.targets group model retry))
        (cache.targets group model retry) channel := by
    unfold ChannelCache.draws WeightedPick.draws
    refine List.countP_congr fun r _ => ?_
    rw [getRandomSatisfiedChannel_eq h htwo, toOption_pickByWeight]
    simp
  have hcount : (cache.targets group model retry).count channel =
      (cache.candidates group model).count channel.id := by
    obtain ⟨hmem, hpriority⟩ := List.mem_filter.1 hchannel
    obtain ⟨id, -, hid⟩ := List.mem_filterMap.1 hmem
    have hfilter : (cache.targets group model retry).count channel =
        (cache.channels group model).count channel := List.count_filter hpriority
    rw [hfilter, h.byId id channel hid]
    exact count_filterMap h.byId hid _
  rw [hdraws, WeightedPick.draws_eq (effectiveWeight_nonneg hnonneg), hcount]

/-- Channels are chosen by their weights exactly if they are listed evenly. -/
theorem sharesByWeight_iff (h : cache.Consistent)
    (hweights : ∀ id channel, cache.channelsIDM id = some channel → 0 ≤ channel.getWeight)
    (htwo : 2 ≤ (cache.candidates group model).length) :
    cache.SharesByWeight group model retry ↔ cache.ListedEvenly group model retry := by
  have hdraws := fun c hc => @draws_eq cache group model retry h hweights htwo c hc
  have hnonneg : ∀ c ∈ cache.targets group model retry, 0 ≤ c.getWeight := by
    intro c hc
    obtain ⟨id, -, hid⟩ := List.mem_filterMap.1 (List.mem_of_mem_filter hc)
    exact hweights id c hid
  unfold ChannelCache.SharesByWeight ChannelCache.ListedEvenly
  simp only
  generalize cache.targets group model retry = targets at hdraws hnonneg ⊢
  rcases effectiveWeight_cases hnonneg with hall | ⟨⟨d, hd, hd0⟩, n, hn, hmul⟩
  · -- no weights: every time a channel is listed it gets the same
    have hsame : ∀ c ∈ targets, (cache.draws group model retry c : ℤ) =
        (cache.candidates group model).count c.id * 100 := by
      intro c hc
      rw [hdraws c hc, (hall c hc).2]
    constructor
    · rintro ⟨-, hequal⟩ c hc c' hc' -
      have heq := hequal (fun e he => (hall e he).1) c hc c' hc'
      have hc₁ := hsame c hc
      have hc₂ := hsame c' hc'
      omega
    · intro heven
      refine ⟨fun c hc c' hc' => by rw [(hall c hc).1, (hall c' hc').1, mul_zero, mul_zero], ?_⟩
      intro hzero c hc c' hc'
      have heq := heven c hc c' hc' (.inr hzero)
      have hc₁ := hsame c hc
      have hc₂ := hsame c' hc'
      rw [heq] at hc₁
      omega
  · have hmul' : ∀ c ∈ targets, (cache.draws group model retry c : ℤ) =
        (cache.candidates group model).count c.id * (c.getWeight * n) := by
      intro c hc
      rw [hdraws c hc, hmul]
    constructor
    · rintro ⟨hshares, -⟩ c hc c' hc' hweight
      have hweight' : c.getWeight ≠ 0 ∧ c'.getWeight ≠ 0 :=
        hweight.resolve_right fun hzero => hd0 (hzero d hd)
      have heq := hshares c hc c' hc'
      rw [hmul' c hc, hmul' c' hc'] at heq
      have hcancel : ((cache.candidates group model).count c.id : ℤ) *
          (c.getWeight * c'.getWeight * n) =
            (cache.candidates group model).count c'.id * (c.getWeight * c'.getWeight * n) := by
        linarith
      have hne : c.getWeight * c'.getWeight * n ≠ 0 :=
        mul_ne_zero (mul_ne_zero hweight'.1 hweight'.2) hn.ne'
      exact_mod_cast mul_right_cancel₀ hne hcancel
    · intro heven
      refine ⟨fun c hc c' hc' => ?_, fun hzero => absurd (hzero d hd) hd0⟩
      rw [hmul' c hc, hmul' c' hc']
      by_cases hweight : c.getWeight ≠ 0 ∧ c'.getWeight ≠ 0
      · rw [heven c hc c' hc' (.inl hweight)]
        ring
      · rcases not_and_or.1 hweight with hzero | hzero
        · rw [not_not.1 hzero]
          ring
        · rw [not_not.1 hzero]
          ring

end Choice

/-! ### The choice -/

/-- **The weighted choice.**  The bound of the random number is positive, and nothing but the number
below it is drawn; each number chooses a channel of the group and the model with the priority that
`retry` others exceed, or with the last; and the channels of this priority are chosen by their
weights exactly if they are listed evenly. -/
theorem weighted_choice {cache : ChannelCache} (h : cache.Consistent)
    (hweights : ∀ id channel, cache.channelsIDM id = some channel → 0 ≤ channel.getWeight)
    (group model : String) (retry : ℕ) (htwo : 2 ≤ (cache.candidates group model).length) :
    let bound := cache.totalWeight group model retry
    let channels := cache.channels group model
    0 < bound ∧
      (∀ intn intn' : ℤ → ℤ, intn bound = intn' bound →
        getRandomSatisfiedChannel cache group model retry intn =
          getRandomSatisfiedChannel cache group model retry intn') ∧
      (∀ r, 0 ≤ r → r < bound → ∃ channel ∈ channels,
        getRandomSatisfiedChannel cache group model retry (fun _ => r) = .ok (some channel) ∧
          Levels.IsLevel (priorities channels) (min retry ((priorities channels).card - 1))
            channel.getPriority) ∧
      (cache.SharesByWeight group model retry ↔ cache.ListedEvenly group model retry) := by
  intro bound channels
  have hcandidates : cache.candidates group model ≠ [] := by
    intro hnil
    rw [hnil, List.length_nil] at htwo
    omega
  have htargets := targetChannels_ne_nil retry (h.channels_ne_nil hcandidates)
  have hnonneg : ∀ c ∈ cache.targets group model retry, 0 ≤ c.getWeight := by
    intro c hc
    obtain ⟨id, -, hid⟩ := List.mem_filterMap.1 (List.mem_of_mem_filter hc)
    exact hweights id c hid
  refine ⟨total_effectiveWeight_pos hnonneg htargets, ?_, ?_, sharesByWeight_iff h hweights htwo⟩
  · intro intn intn' hsame
    rw [getRandomSatisfiedChannel_eq h htwo, getRandomSatisfiedChannel_eq h htwo]
    exact congrArg (fun r => pickByWeight _ r _) hsame
  · intro r _ hr
    obtain ⟨channel, hmem, hpick, hlevel⟩ := exists_pick_target h hcandidates hr
    exact ⟨channel, hmem, by rw [getRandomSatisfiedChannel_eq h htwo, hpick], hlevel⟩

/-- A channel of one group with the weight 10. -/
def weightedChannel (id : ℤ) (models : String) : Channel where
  id := id
  key := "k"
  status := channelStatusEnabled
  weight := some 10
  models := models
  group := "default"
  priority := none
  otherInfo := ⟨none, none⟩
  channelInfo := ⟨false, ∅, ∅, ∅, 0, .unknown⟩
  keys := []

/-- The cache of two channels of one group. -/
def twoChannelCache (models : String) : Option ChannelCache :=
  initChannelCache (fun _ => none) stableSort
    ⟨[weightedChannel 1 models, weightedChannel 2 "gpt-4o"], by simp [weightedChannel]⟩ ["default"]
    fun _ => none

/-- Every cache that is built from the tables is consistent. -/
theorem consistent_initChannelCache {unmarshal : String → Option (List String)}
    {sorting : SortSlice} {table : ChannelTable} {abilityGroups : List String}
    {old : ℤ → Option Channel} {cache : ChannelCache}
    (h : initChannelCache unmarshal sorting table abilityGroups old = some cache) :
    cache.Consistent := by
  refine ⟨byId_initChannelCache h, fun group model id hid => ?_⟩
  have hcount : 0 < (table.rows.flatMap Channel.entries).count (group, model, id) := by
    rw [← count_listed h]
    exact List.count_pos_iff.2 hid
  obtain ⟨row, hrow, hentry⟩ := List.mem_flatMap.1 (List.count_pos_iff.1 hcount)
  have hrowId : row.id = id := by
    unfold Channel.entries at hentry
    split at hentry
    · cases hentry
    · obtain ⟨g, -, hg⟩ := List.mem_flatMap.1 hentry
      obtain ⟨m, -, hm⟩ := List.mem_map.1 hg
      exact (Prod.mk.inj (Prod.mk.inj hm).2).2
  unfold initChannelCache at h
  simp only at h
  split at h
  · cases h
  · obtain rfl := Option.some.inj h
    have hfound : (channelById table.rows id).isSome := by
      rw [channelById, List.find?_isSome]
      exact ⟨row, List.mem_reverse.2 hrow, by simp [hrowId]⟩
    simpa using hfound

/-- The weights in the cache of two channels. -/
theorem twoChannelCache_weights {models : String} {cache : ChannelCache}
    (h : twoChannelCache models = some cache) :
    ∀ id channel, cache.channelsIDM id = some channel → 0 ≤ channel.getWeight := by
  unfold twoChannelCache initChannelCache at h
  simp only at h
  split at h
  · cases h
  · obtain rfl := Option.some.inj h
    intro id channel hchannel
    obtain ⟨row, hrow, rfl⟩ := Option.map_eq_some_iff.1 hchannel
    have hmem := List.mem_reverse.1 (List.mem_of_find?_eq_some hrow)
    have hten : (0 : ℤ) ≤ 10 := by decide
    rcases List.mem_cons.1 hmem with rfl | hmem
    · exact hten
    · rw [List.mem_singleton.1 hmem]
      exact hten

/-- Two channels with the same weight. -/
theorem weighted_choice_two : ∃ cache, twoChannelCache "gpt-4o" = some cache ∧
    cache.totalWeight "default" "gpt-4o" 0 = 20 ∧
      cache.ListedEvenly "default" "gpt-4o" 0 ∧ cache.SharesByWeight "default" "gpt-4o" 0 := by
  have hdata : (twoChannelCache "gpt-4o").map (fun cache =>
      (cache.candidates "default" "gpt-4o", (cache.targets "default" "gpt-4o" 0).map (·.id),
        cache.totalWeight "default" "gpt-4o" 0)) = some ([1, 2], [1, 2], 20) := by decide
  obtain ⟨cache, hcache, hdata⟩ := Option.map_eq_some_iff.1 hdata
  obtain ⟨hids, hdata⟩ := Prod.mk.inj hdata
  obtain ⟨htargets, htotal⟩ := Prod.mk.inj hdata
  have heven : cache.ListedEvenly "default" "gpt-4o" 0 := by
    have hone : ∀ c ∈ cache.targets "default" "gpt-4o" 0,
        (cache.candidates "default" "gpt-4o").count c.id = 1 := by
      intro c hc
      have hmem : c.id ∈ [1, 2] := htargets ▸ List.mem_map_of_mem hc
      rw [hids]
      rcases List.mem_cons.1 hmem with hid | hmem
      · rw [hid]
        decide
      · rw [List.mem_singleton.1 hmem]
        decide
    intro c hc c' hc' _
    rw [hone c hc, hone c' hc']
  refine ⟨cache, hcache, htotal, heven, ?_⟩
  refine (weighted_choice (consistent_initChannelCache hcache) (twoChannelCache_weights hcache)
    "default" "gpt-4o" 0 ?_).2.2.2.2 heven
  rw [hids]
  decide

/-- **A channel that names a model twice is chosen twice as often** as another one with the same
weight. -/
theorem repeated_channel_preferred : ∃ cache, twoChannelCache "gpt-4o,gpt-4o" = some cache ∧
    cache.Consistent ∧
      (∀ id channel, cache.channelsIDM id = some channel → 0 ≤ channel.getWeight) ∧
      2 ≤ (cache.candidates "default" "gpt-4o").length ∧
      ¬ cache.SharesByWeight "default" "gpt-4o" 0 := by
  have hdata : (twoChannelCache "gpt-4o,gpt-4o").map (fun cache =>
      (cache.candidates "default" "gpt-4o",
        (cache.targets "default" "gpt-4o" 0).map fun c => (c.id, c.getWeight))) =
          some ([1, 1, 2], [(1, 10), (1, 10), (2, 10)]) := by decide
  obtain ⟨cache, hcache, hdata⟩ := Option.map_eq_some_iff.1 hdata
  obtain ⟨hids, htargets⟩ := Prod.mk.inj hdata
  have htwo : 2 ≤ (cache.candidates "default" "gpt-4o").length := by
    rw [hids]
    decide
  have hconsistent := consistent_initChannelCache hcache
  have hweights := twoChannelCache_weights hcache
  refine ⟨cache, hcache, hconsistent, hweights, htwo, fun hshares => ?_⟩
  have heven := (sharesByWeight_iff hconsistent hweights htwo).1 hshares
  obtain ⟨c, hc, hc'⟩ := List.mem_map.1 (htargets ▸ List.mem_cons_self :
    (1, 10) ∈ (cache.targets "default" "gpt-4o" 0).map fun c => (c.id, c.getWeight))
  obtain ⟨d, hd, hd'⟩ := List.mem_map.1 (htargets ▸ by simp :
    (2, 10) ∈ (cache.targets "default" "gpt-4o" 0).map fun c => (c.id, c.getWeight))
  obtain ⟨hcid, hcweight⟩ := Prod.mk.inj hc'
  obtain ⟨hdid, hdweight⟩ := Prod.mk.inj hd'
  have hequal := heven c hc d hd (.inl ⟨by rw [hcweight]; decide, by rw [hdweight]; decide⟩)
  rw [hids, hcid, hdid] at hequal
  exact absurd hequal (by decide)

end NewApi

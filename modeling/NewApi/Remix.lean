/-
**The price of a remix.**

A remix is a task on the video of another one, and is meant to be charged for the length and the size
of that video.  Before the first attempt, the ratios of the origin task are read and kept with the
prices of the request.  Each attempt then computes the prices of the model, and puts them in place of
those that are kept: the ratios are gone before they are applied.

Numbers are exact here, and a quota is cut off after the point.

Main definitions:

* `NewApi.resolveOriginTask` — the ratios of the origin task;
* `NewApi.modelPriceHelperPerCall` — the price of a model;
* `NewApi.relayTaskSubmit`, `NewApi.relayTask` — an attempt, and the attempts up to one that succeeds.

Main results:

* `NewApi.remix_charged_base` — a remix is charged the price of the model;
* `NewApi.remix_ratios` — **that is the price times the ratios for exactly those that change
  nothing**;
* `NewApi.long_remix_is_cheap` — a remix of a long video.
-/

import NewApi.GroupSettlement

set_option autoImplicit false

namespace NewApi

/-! ### Prices -/

/-- The prices of a task, with the ratios for its length, size and the like. -/
structure TaskPriceData where
  freeModel : Bool
  modelPrice : ℚ
  modelRatio : ℚ
  usePrice : Bool
  quota : ℤ
  otherRatios : List (String × ℚ)
  groupRatioInfo : GroupRatioInfo
deriving DecidableEq, Repr

/-- The prices before any have been computed. -/
def TaskPriceData.zero : TaskPriceData := ⟨false, 0, 0, false, 0, [], ⟨0, 0, false⟩⟩

/-- Set a ratio. -/
def setRatio (key : String) (ratio : ℚ) (ratios : List (String × ℚ)) : List (String × ℚ) :=
  (key, ratio) :: ratios.filter fun r => r.1 ≠ key

/-- Set a ratio that is positive. -/
def TaskPriceData.addOtherRatio (key : String) (ratio : ℚ) (p : TaskPriceData) : TaskPriceData :=
  if ratio ≤ 0 then p else { p with otherRatios := setRatio key ratio p.otherRatios }

/-- A number cut off after the point. -/
def truncQuota (x : ℚ) : ℤ := if 0 ≤ x then ⌊x⌋ else ⌈x⌉

/-- What an attempt reads of the settings for the model and the group of a request. -/
structure PerCallConfig where
  modelPrice : Option ℚ
  defaultModelPrice : Option ℚ
  modelRatio : ℚ
  ratioSuccess : Bool
  acceptUnsetRatioModel : Bool
  enableFreeModelPreConsume : Bool
  quotaPerUnit : ℚ
  groupRatioInfo : GroupRatioInfo

/-- The prices of a model, if there are any. -/
def modelPriceHelperPerCall (cfg : PerCallConfig) : Option TaskPriceData :=
  match cfg.modelPrice.or cfg.defaultModelPrice with
  | some modelPrice =>
    let freeModel := !cfg.enableFreeModelPreConsume &&
      decide (cfg.groupRatioInfo.groupRatio = 0 ∨ modelPrice = 0)
    some
      { freeModel := freeModel
        modelPrice := modelPrice
        modelRatio := 0
        usePrice := true
        quota := if freeModel then 0
          else truncQuota (modelPrice * cfg.quotaPerUnit * cfg.groupRatioInfo.groupRatio)
        otherRatios := []
        groupRatioInfo := cfg.groupRatioInfo }
  | none =>
    if cfg.ratioSuccess = false ∧ cfg.acceptUnsetRatioModel = false then none
    else
      let freeModel := !cfg.enableFreeModelPreConsume &&
        decide (cfg.groupRatioInfo.groupRatio = 0 ∨ cfg.modelRatio = 0)
      some
        { freeModel := freeModel
          modelPrice := -1
          modelRatio := cfg.modelRatio
          usePrice := false
          quota := if freeModel then 0
            else truncQuota (cfg.modelRatio / 2 * cfg.quotaPerUnit * cfg.groupRatioInfo.groupRatio)
          otherRatios := []
          groupRatioInfo := cfg.groupRatioInfo }

/-! ### The origin task -/

/-- The digits of a number. -/
def digits : List Char → Option ℕ
  | [] => none
  | cs => if cs.all Char.isDigit then
      some (cs.foldl (fun n c => 10 * n + (c.toNat - '0'.toNat)) 0) else none

/-- The number that a text is read as: zero if it is none, and the nearest one of 64 bits. -/
def atoi (s : String) : ℤ :=
  let parsed : Option ℤ := match s.toList with
    | '-' :: cs => (digits cs).map fun n => -(n : ℤ)
    | '+' :: cs => (digits cs).map fun n => (n : ℤ)
    | cs => (digits cs).map fun n => (n : ℤ)
  max (-2 ^ 63) (min (2 ^ 63 - 1) (parsed.getD 0))

/-- What is read of the origin task: its billing context, if it has one, and of its data the fields
that are texts. -/
structure OriginTask where
  otherRatios : Option (List (String × ℚ))
  seconds : Option String
  size : Option String

/-- What is kept with the request between two attempts. -/
structure TaskRelayInfo where
  isRemix : Bool
  priceData : TaskPriceData
  billing : Option ℤ
deriving DecidableEq, Repr

/-- A request before anything is known of it. -/
def TaskRelayInfo.initial (isRemix : Bool) : TaskRelayInfo := ⟨isRemix, .zero, none⟩

/-- The ratios of the origin task are kept with the prices. -/
def resolveOriginTask (origin : OriginTask) (info : TaskRelayInfo) : TaskRelayInfo :=
  if info.isRemix then
    match origin.otherRatios with
    | some ratios =>
      { info with
        priceData := ratios.foldl (fun p r => p.addOtherRatio r.1 r.2) info.priceData }
    | none =>
      let seconds := atoi (origin.seconds.getD "")
      let seconds := if seconds ≤ 0 then 4 else seconds
      let large := origin.size = some "1792x1024" ∨ origin.size = some "1024x1792"
      let ratios := setRatio "seconds" seconds info.priceData.otherRatios
      let ratios := setRatio "size" (if large then 1666667 / 1000000 else 1) ratios
      { info with priceData := { info.priceData with otherRatios := ratios } }
  else info

/-! ### Attempts -/

/-- What an adaptor says about the price of a request before it is sent. -/
structure TaskAdaptor where
  estimateBilling : TaskRelayInfo → List (String × ℚ)

/-- What an adaptor says after it: none has anything to say. -/
def TaskAdaptor.adjustBillingOnSubmit (_ : TaskAdaptor) (_ : TaskRelayInfo) : List (String × ℚ) := []

/-- What an attempt meets: whether the request is accepted, the settings, whether the model's ratios
are left out, whether the quota can be taken, and whether the upstream takes the task. -/
structure TaskAttempt where
  valid : Bool
  cfg : PerCallConfig
  patched : Bool
  preConsumes : Bool
  submitted : Bool

section Submit

variable (range : List (String × ℚ) → List (String × ℚ)) (adaptor : TaskAdaptor)

/-- The quota with the ratios applied in the order in which the map is gone through. -/
def applyRatios (quota : ℤ) (ratios : List (String × ℚ)) : ℤ :=
  (range ratios).foldl (fun quota r => if r.2 ≠ 1 then truncQuota (quota * r.2) else quota) quota

def recalcQuotaFromRatios (info : TaskRelayInfo) (ratios : List (String × ℚ)) : ℤ :=
  let baseQuota := (range info.priceData.otherRatios).foldl
    (fun quota r => if r.2 ≠ 1 ∧ 0 < r.2 then truncQuota (quota / r.2) else quota)
    info.priceData.quota
  truncQuota ((range ratios).foldl (fun result r => if r.2 ≠ 1 then result * r.2 else result)
    (baseQuota : ℚ))

/-- An attempt: the quota if the task is submitted, and what is kept. -/
def relayTaskSubmit (attempt : TaskAttempt) (info : TaskRelayInfo) : Option ℤ × TaskRelayInfo :=
  if attempt.valid = false then (none, info)
  else
    match modelPriceHelperPerCall attempt.cfg with
    | none => (none, info)
    | some priceData =>
      let info := { info with priceData := priceData }
      let info := { info with
        priceData := (range (adaptor.estimateBilling info)).foldl
          (fun (p : TaskPriceData) (r : String × ℚ) => p.addOtherRatio r.1 r.2) info.priceData }
      let quota := if attempt.patched then info.priceData.quota
        else applyRatios range info.priceData.quota info.priceData.otherRatios
      let info := { info with priceData := { info.priceData with quota := quota } }
      if info.billing = none ∧ info.priceData.freeModel = false ∧ attempt.preConsumes = false then
        (none, info)
      else
        let info := if info.billing = none ∧ info.priceData.freeModel = false then
          { info with billing := some info.priceData.quota } else info
        if attempt.submitted = false then (none, info)
        else
          let adjustedRatios := adaptor.adjustBillingOnSubmit info
          if adjustedRatios ≠ [] then
            let finalQuota := recalcQuotaFromRatios range info adjustedRatios
            (some finalQuota, { info with
              priceData := { info.priceData with
                quota := finalQuota
                otherRatios := adjustedRatios } })
          else (some info.priceData.quota, info)

/-- The attempts up to the first that succeeds: the quota that the request is settled at, with the
attempt. -/
def relayTask : TaskRelayInfo → List TaskAttempt → Option (ℤ × TaskAttempt)
  | _, [] => none
  | info, attempt :: rest =>
    match relayTaskSubmit range adaptor attempt info with
    | (some quota, _) => some (quota, attempt)
    | (none, info) => relayTask info rest

/-! ### The charge -/

variable {range adaptor}

/-- The quota of the model without any ratio. -/
def basePrice (cfg : PerCallConfig) : ℤ :=
  ((modelPriceHelperPerCall cfg).map fun p => p.quota).getD 0

/-- The prices of a model have no ratios. -/
theorem otherRatios_perCall {cfg : PerCallConfig} {p : TaskPriceData}
    (h : modelPriceHelperPerCall cfg = some p) : p.otherRatios = [] := by
  unfold modelPriceHelperPerCall at h
  split at h
  · rw [← Option.some.inj h]
  · split at h
    · cases h
    · rw [← Option.some.inj h]

/-- **An attempt at a remix charges the price of the model**, whatever has been kept before it, and
what it keeps is a remix again. -/
theorem relayTaskSubmit_remix (hrange : ∀ ratios, (range ratios).Perm ratios)
    (hremix : ∀ info : TaskRelayInfo, info.isRemix = true → adaptor.estimateBilling info = [])
    (attempt : TaskAttempt) {info : TaskRelayInfo} (hinfo : info.isRemix = true) :
    (relayTaskSubmit range adaptor attempt info).2.isRemix = true ∧
      ∀ quota ∈ (relayTaskSubmit range adaptor attempt info).1, quota = basePrice attempt.cfg := by
  have hempty : range [] = [] := (hrange []).eq_nil
  unfold relayTaskSubmit
  split
  · exact ⟨hinfo, by simp⟩
  · cases hprice : modelPriceHelperPerCall attempt.cfg with
    | none => exact ⟨hinfo, by simp⟩
    | some priceData =>
      have hestimate : adaptor.estimateBilling { info with priceData := priceData } = [] :=
        hremix _ hinfo
      have hratios := otherRatios_perCall hprice
      have hbase : basePrice attempt.cfg = priceData.quota := by simp [basePrice, hprice]
      have hquota : (if attempt.patched then priceData.quota
          else applyRatios range priceData.quota priceData.otherRatios) = priceData.quota := by
        rw [hratios, applyRatios, hempty]
        split <;> rfl
      simp only [hestimate, hempty, List.foldl_nil, hquota, TaskAdaptor.adjustBillingOnSubmit,
        ne_eq, not_true_eq_false, if_false]
      split
      · exact ⟨hinfo, by simp⟩
      · split
        · refine ⟨?_, by simp⟩
          split <;> exact hinfo
        · refine ⟨by split <;> exact hinfo, fun quota hq => ?_⟩
          rw [hbase, ← Option.some.inj hq]
          split <;> rfl

/-- **A remix is charged the price of the model**, as the attempt finds it that succeeds. -/
theorem remix_charged_base (hrange : ∀ ratios, (range ratios).Perm ratios)
    (hremix : ∀ info : TaskRelayInfo, info.isRemix = true → adaptor.estimateBilling info = [])
    {info : TaskRelayInfo} (hinfo : info.isRemix = true) (attempts : List TaskAttempt) {quota : ℤ}
    {attempt : TaskAttempt} (h : relayTask range adaptor info attempts = some (quota, attempt)) :
    quota = basePrice attempt.cfg := by
  induction attempts generalizing info with
  | nil => cases h
  | cons first rest ih =>
    obtain ⟨hnext, hquota⟩ := relayTaskSubmit_remix hrange hremix first hinfo
    rw [relayTask] at h
    rcases hsubmit : relayTaskSubmit range adaptor first info with ⟨_ | q, info'⟩
    · rw [hsubmit] at h hnext
      exact ih hnext h
    · rw [hsubmit] at h hquota
      obtain ⟨rfl, rfl⟩ := Prod.mk.inj (Option.some.inj h)
      exact hquota q rfl

end Submit

/-- The ratios that are read from the origin task. -/
def extractedRatios (origin : OriginTask) : List (String × ℚ) :=
  (resolveOriginTask origin (.initial true)).priceData.otherRatios

/-- The product of ratios. -/
def ratioProduct (ratios : List (String × ℚ)) : ℚ := (ratios.map Prod.snd).prod

theorem eq_truncQuota_of_pos {n : ℤ} (hn : 0 < n) (x : ℚ) :
    n = truncQuota x ↔ (n : ℚ) ≤ x ∧ x < n + 1 := by
  have hn' : (0 : ℚ) < n := by exact_mod_cast hn
  unfold truncQuota
  split
  · rw [eq_comm, Int.floor_eq_iff]
  · rename_i hneg
    constructor
    · intro heq
      have hle : ⌈x⌉ ≤ 0 := Int.ceil_le.2 (by push_cast; linarith)
      omega
    · rintro ⟨hle, _⟩
      exact absurd (hn'.le.trans hle) hneg

theorem eq_truncQuota_of_neg {n : ℤ} (hn : n < 0) (x : ℚ) :
    n = truncQuota x ↔ (n : ℚ) - 1 < x ∧ x ≤ n := by
  have hn' : (n : ℚ) < 0 := by exact_mod_cast hn
  unfold truncQuota
  split
  · rename_i hpos
    constructor
    · intro heq
      have hle : 0 ≤ ⌊x⌋ := Int.floor_nonneg.2 hpos
      omega
    · rintro ⟨_, hle⟩
      exact absurd (hpos.trans hle) (not_le.2 hn')
  · rw [eq_comm, Int.ceil_eq_iff]

/-- A quota that a factor changes by less than one, and not towards zero. -/
theorem truncQuota_mul_eq_iff (quota : ℤ) (p : ℚ) :
    quota = truncQuota (quota * p) ↔ quota = 0 ∨ (1 ≤ p ∧ (p - 1) * |(quota : ℚ)| < 1) := by
  rcases lt_trichotomy quota 0 with hneg | rfl | hpos
  · have hneg' : (quota : ℚ) < 0 := by exact_mod_cast hneg
    rw [eq_truncQuota_of_neg hneg, abs_of_neg hneg', or_iff_right (by omega)]
    constructor
    · rintro ⟨hlt, hle⟩
      exact ⟨by nlinarith, by linarith⟩
    · rintro ⟨hone, hlt⟩
      exact ⟨by linarith, by nlinarith⟩
  · simp [truncQuota]
  · have hpos' : (0 : ℚ) < quota := by exact_mod_cast hpos
    rw [eq_truncQuota_of_pos hpos, abs_of_pos hpos', or_iff_right (by omega)]
    constructor
    · rintro ⟨hle, hlt⟩
      exact ⟨by nlinarith, by linarith⟩
    · rintro ⟨hone, hlt⟩
      exact ⟨by nlinarith, by linarith⟩

/-- **The charge for a remix** is the price of the model times the ratios of the origin task exactly
if these are at least one together and change the price by less than one. -/
theorem remix_ratios (range : List (String × ℚ) → List (String × ℚ)) (adaptor : TaskAdaptor)
    (hrange : ∀ ratios, (range ratios).Perm ratios)
    (hremix : ∀ info : TaskRelayInfo, info.isRemix = true → adaptor.estimateBilling info = [])
    (origin : OriginTask) (attempts : List TaskAttempt) (quota : ℤ) (attempt : TaskAttempt)
    (h : relayTask range adaptor (resolveOriginTask origin (.initial true)) attempts =
      some (quota, attempt)) :
    quota = truncQuota (basePrice attempt.cfg * ratioProduct (extractedRatios origin)) ↔
      basePrice attempt.cfg = 0 ∨ (1 ≤ ratioProduct (extractedRatios origin) ∧
        (ratioProduct (extractedRatios origin) - 1) * |(basePrice attempt.cfg : ℚ)| < 1) := by
  have hresolved : (resolveOriginTask origin (.initial true)).isRemix = true := by
    simp only [resolveOriginTask, TaskRelayInfo.initial, if_true]
    split <;> rfl
  rw [remix_charged_base hrange hremix hresolved attempts h]
  exact truncQuota_mul_eq_iff _ _

/-- A model with a price of a tenth of a unit. -/
def tenthPerCall : PerCallConfig where
  modelPrice := some (1 / 10)
  defaultModelPrice := none
  modelRatio := 0
  ratioSuccess := false
  acceptUnsetRatioModel := false
  enableFreeModelPreConsume := true
  quotaPerUnit := 500000
  groupRatioInfo := ⟨1, -1, false⟩

/-- An adaptor that leaves the ratios of a remix alone. -/
def silentAdaptor : TaskAdaptor where
  estimateBilling _ := []

/-- A remix of a task whose ratios are one, that goes through at the second attempt. -/
theorem remix_ratios_unit :
    (50000 : ℤ) = truncQuota (basePrice tenthPerCall *
      ratioProduct (extractedRatios ⟨some [("size", 1)], none, none⟩)) :=
  (remix_ratios id silentAdaptor (fun _ => .refl _) (fun _ _ => rfl)
    ⟨some [("size", 1)], none, none⟩
    [⟨true, tenthPerCall, false, true, false⟩, ⟨true, tenthPerCall, false, true, true⟩] 50000
    ⟨true, tenthPerCall, false, true, true⟩ (by
      simp [relayTask, relayTaskSubmit, tenthPerCall, silentAdaptor, modelPriceHelperPerCall,
        resolveOriginTask, TaskRelayInfo.initial, applyRatios, TaskAdaptor.adjustBillingOnSubmit,
        truncQuota]
      norm_num)).2
    (.inr (by
      have hone : ratioProduct (extractedRatios ⟨some [("size", 1)], none, none⟩) = 1 := by
        decide +kernel
      rw [hone]
      norm_num))

/-- **A remix of ten seconds at the large size** is charged as one of the least length and size:
50000 instead of 833333. -/
theorem long_remix_is_cheap :
    let origin : OriginTask := ⟨some [("seconds", 10), ("size", 1666667 / 1000000)], none, none⟩
    let attempt : TaskAttempt := ⟨true, tenthPerCall, false, true, true⟩
    (relayTask id silentAdaptor (resolveOriginTask origin (.initial true)) [attempt]).map Prod.fst =
        some 50000 ∧
      truncQuota (basePrice tenthPerCall * ratioProduct (extractedRatios origin)) = 833333 := by
  decide +kernel

end NewApi

/-
**The maintenance loops.**

Two tasks work off tables in batches: one expires subscriptions and resets their used amounts, the
other schedules and carries out resets of low balances.  Each asks for the rows that are due, works
through them and counts them, and asks again as long as a batch is full.  A row that is counted and
is due all the same is found again by the next batch, so the loops make progress only if whatever is
counted leaves the selection.

Main definitions:

* `NewApi.runSubscriptionQuotaResetOnce`, `NewApi.runLowBalanceQuotaResetOnce` — the two tasks;
* `NewApi.Advances` — the reset times of a plan lead out of the past;
* `NewApi.SubsAdvance`, `NewApi.StatesAdvance` — the conditions on the tables and the setting.

Main results:

* `NewApi.maintenance_progress` — **what is counted leaves the selection, exactly under the
  condition**; the loops then end;
* `NewApi.edited_plan_is_counted` — a row that is counted and stays.
-/

import NewApi.Lib.BatchLoop
import NewApi.LowBalanceReset
import NewApi.SubscriptionSpec

set_option autoImplicit false

namespace NewApi

/-! ### The tasks -/

def subscriptionResetBatchSize : ℕ := 300

def lowBalanceQuotaResetBatchSize : ℕ := 300

/-- A batch of a sweep that expires subscriptions: how many, if it does not fail. -/
def expireBatch (envs : ℕ → ExpireEnv) (i : ℕ) (t : Tables) : Option ℕ × Tables :=
  match expireDueSubscriptions (envs i) subscriptionResetBatchSize t with
  | ((n, none), t') => (some n.toNat, t')
  | ((_, some _), t') => (none, t')

/-- A batch of a sweep that resets subscriptions. -/
def resetBatch (loc : Location) (env : ResetEnv) (t : Tables) : Option ℕ × Tables :=
  match resetDueSubscriptions loc env subscriptionResetBatchSize t with
  | ((n, none), t') => (some n, t')
  | ((_, some _), t') => (none, t')

/-- Expire the subscriptions that have ended and reset those whose reset is due; a failure ends the
task. -/
def runSubscriptionQuotaResetOnce (loc : Location) (envs : ℕ → ExpireEnv) (env : ResetEnv)
    (rounds : ℕ) (t : Tables) : Option (Bool × Tables) :=
  match BatchLoop.loop subscriptionResetBatchSize (expireBatch envs) rounds 0 t with
  | some (true, t') =>
    BatchLoop.loop subscriptionResetBatchSize (fun _ => resetBatch loc env) rounds 0 t'
  | ended => ended

/-- An amount of dollars in quota as the program has it: an `int` keeps 64 bits of the product. -/
def dollarsToQuota64 (quotaPerUnit : ℚ) (amount : ℤ) : ℤ :=
  if amount ≤ 0 ∨ quotaPerUnit ≤ 0 then 0 else wrap64 ⌈amount * quotaPerUnit⌉

/-- A batch that schedules.  The setting is a double: `none` is a NaN or an infinity above zero, on
whose conversion the call panics, and one below zero acts like any setting that is not positive. -/
def scheduleBatch (quotaPerUnit : Option ℚ) (now limit : ℤ) (t : LowBalanceTables) :
    Option ℕ × LowBalanceTables :=
  match quotaPerUnit with
  | none => (none, t)
  | some quotaPerUnit =>
    let (n, t') := scheduleLowBalanceQuotaResets (dollarsToQuota64 quotaPerUnit) now limit t
    (some n, t')

/-- A batch of due resets; the first one converts the setting. -/
def resetDueBatch (quotaPerUnit : Option ℚ) (now limit : ℤ) (t : LowBalanceTables) :
    Option ℕ × LowBalanceTables :=
  match quotaPerUnit with
  | none => (if dueStates now t = [] then some 0 else none, t)
  | some quotaPerUnit =>
    let (n, t') := resetDueLowBalanceQuota (dollarsToQuota64 quotaPerUnit) now limit t
    (some n, t')

/-- Schedule resets of low balances and carry out those that are due. -/
def runLowBalanceQuotaResetOnce (quotaPerUnit : Option ℚ) (now : ℤ) (rounds : ℕ)
    (t : LowBalanceTables) : Option (Bool × LowBalanceTables) :=
  match BatchLoop.loop lowBalanceQuotaResetBatchSize
      (fun _ => scheduleBatch quotaPerUnit now lowBalanceQuotaResetBatchSize) rounds 0 t with
  | some (true, t') =>
    BatchLoop.loop lowBalanceQuotaResetBatchSize
      (fun _ => resetDueBatch quotaPerUnit now lowBalanceQuotaResetBatchSize) rounds 0 t'
  | ended => ended

/-! ### The due check of one subscription -/

/-- Whether a sweep at `now` picks the subscription. -/
def UserSubscription.isSelected (s : UserSubscription) (now : ℤ) : Bool :=
  s.isResetDue now && s.status = .active

/-- A reset time that has been reached. -/
def Reached (now next : ℤ) : Prop := 0 < next ∧ next ≤ now

instance Reached.decidable (now next : ℤ) : Decidable (Reached now next) := instDecidableAnd

/-- The instant from which the next reset of a subscription is computed. -/
def UserSubscription.resetBase (s : UserSubscription) : ℤ :=
  if s.lastResetTime ≤ 0 then s.startTime else s.lastResetTime

/-- The reset times of a plan from `base` on: the first has been reached, and one of those after it
has not. -/
def Advances (loc : Location) (plan : SubscriptionPlan) (endTime now base : ℤ) : Prop :=
  let next := fun x => calcNextResetTime loc x plan endTime
  Reached now (next base) ∧ ∃ k, ¬ Reached now (next^[k] (next base))

section DueCheck

variable {loc : Location} {plan : SubscriptionPlan} {endTime now : ℤ}

/-- The loop ends at the first reset time that has not been reached. -/
theorem resetLoop_of_leaves {k fuel : ℕ} {advanced : Bool} {base x : ℤ}
    (hk : ¬ Reached now ((fun x => calcNextResetTime loc x plan endTime)^[k] x)) (hfuel : k < fuel) :
    ∃ b n, resetLoop loc plan endTime now fuel advanced base x =
      some (advanced || decide (Reached now x), b, n) ∧ ¬ Reached now n := by
  induction k generalizing fuel advanced base x with
  | zero =>
    obtain ⟨fuel, rfl⟩ := Nat.exists_eq_succ_of_ne_zero (by omega : fuel ≠ 0)
    have hx : ¬ Reached now x := hk
    refine ⟨base, x, ?_, hx⟩
    simp only [resetLoop]
    rw [if_neg (by exact hx)]
    simp [hx]
  | succ k ih =>
    obtain ⟨fuel, rfl⟩ := Nat.exists_eq_succ_of_ne_zero (by omega : fuel ≠ 0)
    by_cases hx : Reached now x
    · rw [Function.iterate_succ_apply] at hk
      obtain ⟨b, n, hloop, hn⟩ := @ih fuel true x _ hk (by omega)
      refine ⟨b, n, ?_, hn⟩
      simp only [resetLoop]
      rw [if_pos (by exact hx), hloop]
      simp [hx]
    · refine ⟨base, x, ?_, hx⟩
      simp only [resetLoop]
      rw [if_neg (by exact hx)]
      simp [hx]

/-- A loop that has ended has left the reset times that have been reached. -/
theorem resetLoop_some {fuel : ℕ} {advanced adv : Bool} {base x b n : ℤ}
    (h : resetLoop loc plan endTime now fuel advanced base x = some (adv, b, n)) :
    (∃ k, ¬ Reached now ((fun x => calcNextResetTime loc x plan endTime)^[k] x)) ∧
      adv = (advanced || decide (Reached now x)) := by
  induction fuel generalizing advanced base x with
  | zero => simp [resetLoop] at h
  | succ fuel ih =>
    simp only [resetLoop] at h
    split at h
    · rename_i hx
      obtain ⟨⟨k, hk⟩, hadv⟩ := ih h
      have hx : Reached now x := hx
      exact ⟨⟨k + 1, by rwa [Function.iterate_succ_apply]⟩, by simp [hadv, hx]⟩
    · rename_i hx
      have hx : ¬ Reached now x := hx
      simp only [Option.some.injEq, Prod.mk.injEq] at h
      exact ⟨⟨0, hx⟩, by simp [← h.1, hx]⟩

variable {sub : UserSubscription}

/-- A sweep picks rows whose reset is due. -/
theorem reached_of_selected (hsub : sub.isSelected now = true) :
    Reached now sub.nextResetTime := by
  simp only [UserSubscription.isSelected, UserSubscription.isResetDue, Bool.decide_and,
    Bool.and_eq_true, decide_eq_true_eq] at hsub
  exact hsub.1

theorem not_selected_of_not_reached (hsub : ¬ Reached now sub.nextResetTime) :
    sub.isSelected now = false :=
  Bool.eq_false_iff.2 fun h => hsub (reached_of_selected h)

/-- What the due check finds for a row whose reset is due. -/
theorem resetOutcome_of_selected {fuel : ℕ} (hsub : sub.isSelected now = true) :
    resetOutcome loc fuel sub plan now =
      if normalizeResetPeriod plan.quotaResetPeriod = .never then .keep
      else
        match resetLoop loc plan sub.endTime now fuel false sub.resetBase
            (calcNextResetTime loc sub.resetBase plan sub.endTime) with
        | none => .hang
        | some (advanced, base, next) => if advanced then .reset base next else .keep := by
  obtain ⟨hpos, hle⟩ := reached_of_selected hsub
  rw [resetOutcome, if_neg (by omega)]
  by_cases hnever : normalizeResetPeriod plan.quotaResetPeriod = .never
  · rw [if_pos hnever, if_pos hnever]
  · rw [if_neg hnever, if_neg hnever]
    simp only [UserSubscription.resetBase]
    cases resetLoop loc plan sub.endTime now fuel false
        (if sub.lastResetTime ≤ 0 then sub.startTime else sub.lastResetTime)
        (calcNextResetTime loc (if sub.lastResetTime ≤ 0 then sub.startTime else sub.lastResetTime)
          plan sub.endTime) with
    | none => rfl
    | some r =>
      obtain ⟨advanced, base, next⟩ := r
      cases advanced with
      | true => rfl
      | false =>
        have hlate : ¬(sub.nextResetTime = 0 ∧ 0 < next) := by omega
        simp only [Bool.false_eq_true, if_false, if_neg hlate]

/-- Where the reset times lead out of the past, the row is reset and not picked any more. -/
theorem resetOutcome_of_advances (hsub : sub.isSelected now = true)
    (hadv : Advances loc plan sub.endTime now sub.resetBase) :
    ∃ k, ∀ fuel, k < fuel → resetOutcome loc fuel sub plan now ≠ .hang ∧
      ((resetOutcome loc fuel sub plan now).apply sub).isSelected now = false := by
  obtain ⟨hfirst, k, hk⟩ := hadv
  refine ⟨k, fun fuel hfuel => ?_⟩
  have hperiod : normalizeResetPeriod plan.quotaResetPeriod ≠ .never := by
    intro hnever
    have hzero : calcNextResetTime loc sub.resetBase plan sub.endTime = 0 :=
      calcNextResetTime_never hnever
    have hpos : 0 < calcNextResetTime loc sub.resetBase plan sub.endTime := hfirst.1
    omega
  obtain ⟨b, n, hloop, hn⟩ := @resetLoop_of_leaves _ _ _ _ k fuel false sub.resetBase _ hk hfuel
  have hreset : resetOutcome loc fuel sub plan now = .reset b n := by
    rw [resetOutcome_of_selected hsub, if_neg hperiod]
    simp only at hfirst
    simp only [hloop, hfirst]
    rfl
  rw [hreset]
  exact ⟨by simp, not_selected_of_not_reached hn⟩

/-- A row that is worked off and not picked any more had reset times that lead out of the past. -/
theorem advances_of_resetOutcome {fuel : ℕ} (hsub : sub.isSelected now = true)
    (hhang : resetOutcome loc fuel sub plan now ≠ .hang)
    (hleft : ((resetOutcome loc fuel sub plan now).apply sub).isSelected now = false) :
    Advances loc plan sub.endTime now sub.resetBase := by
  have hkeep : resetOutcome loc fuel sub plan now ≠ .keep := by
    intro hkeep
    rw [hkeep, ResetOutcome.apply, hsub] at hleft
    simp at hleft
  rw [resetOutcome_of_selected hsub] at hhang hkeep
  split at hkeep
  · simp at hkeep
  · rename_i hperiod
    rw [if_neg hperiod] at hhang
    cases hloop : resetLoop loc plan sub.endTime now fuel false sub.resetBase
        (calcNextResetTime loc sub.resetBase plan sub.endTime) with
    | none => simp [hloop] at hhang
    | some result =>
      obtain ⟨advanced, b, n⟩ := result
      obtain ⟨hk, hadvanced⟩ := resetLoop_some hloop
      simp only [hloop, hadvanced, Bool.false_or, decide_eq_true_eq] at hkeep
      split at hkeep
      · rename_i hreached
        exact ⟨hreached, hk⟩
      · simp at hkeep

end DueCheck

/-! ### A batch of a reset sweep -/

/-- A sweep at `now` whose statements succeed. -/
def sweepEnv (now : ℤ) (plans : ℤ → Except String SubscriptionPlan) (fuel : ℕ) : ResetEnv where
  now := now
  plans := plans
  fuel := fuel

/-- The rows a sweep picks, in order. -/
def dueSubs (now : ℤ) (t : Tables) : List UserSubscription :=
  (t.subs.filter (·.isSelected now)).insertionSort fun a b => a.nextResetTime ≤ b.nextResetTime

/-- Whether the plan of a subscription can be read. -/
def planReadable (plans : ℤ → Except String SubscriptionPlan) (sub : UserSubscription) : Bool :=
  (getSubscriptionPlanById plans sub.planId).isOk

section Batch

variable {loc : Location} {now : ℤ} {plans : ℤ → Except String SubscriptionPlan} {fuel : ℕ}

variable {sub : UserSubscription} {t t' : Tables} {subs rest : List UserSubscription}

/-- The reset of one picked row: it fails if the due check does not come to an end, else the row is
written as the check leaves it. -/
theorem resetOne_selected (loc : Location) (plans : ℤ → Except String SubscriptionPlan) (fuel : ℕ)
    (plan : SubscriptionPlan) (hnd : (t.subs.map (·.id)).Nodup) (hmem : sub ∈ t.subs)
    (hsub : sub.isSelected now = true) :
    resetOne loc (sweepEnv now plans fuel) sub.id plan t =
      if resetOutcome loc fuel sub plan now = .hang then ((false, some .hang), t)
      else ((true, none), t.saveSub ((resetOutcome loc fuel sub plan now).apply sub)) := by
  have hfind : (t.subs.find? fun s => s.id = sub.id && s.isResetDue now) = some sub := by
    have hdue : sub.isResetDue now = true := by
      simp only [UserSubscription.isSelected, Bool.and_eq_true] at hsub
      exact hsub.1
    rw [Rows.find?_and_key hnd sub.id (·.isResetDue now), Rows.first_of_mem hnd hmem,
      Option.filter_some, if_pos hdue]
  have hsave : t.saveSub sub = t := by
    rw [Tables.saveSub, Rows.save_of_mem hnd hmem]
  simp only [resetOne, sweepEnv, guardFault_none, hfind, maybeResetUserSubscriptionWithPlanTx]
  cases hout : resetOutcome loc fuel sub plan now with
  | keep => simp [ResetOutcome.apply, hsave]
  | hang => simp
  | schedule base next => simp
  | reset base next => simp

/-- The due check of a row does not come to an end. -/
def Hangs (loc : Location) (now : ℤ) (plans : ℤ → Except String SubscriptionPlan) (fuel : ℕ)
    (sub : UserSubscription) : Prop :=
  ∃ plan, getSubscriptionPlanById plans sub.planId = .ok plan ∧
    resetOutcome loc fuel sub plan now = .hang

/-- The row as a sweep leaves it. -/
def checkedRow (loc : Location) (now : ℤ) (plans : ℤ → Except String SubscriptionPlan) (fuel : ℕ)
    (sub : UserSubscription) : UserSubscription :=
  match getSubscriptionPlanById plans sub.planId with
  | .error _ => sub
  | .ok plan => (resetOutcome loc fuel sub plan now).apply sub

theorem checkedRow_id (sub : UserSubscription) :
    (checkedRow loc now plans fuel sub).id = sub.id := by
  unfold checkedRow
  split
  · rfl
  · unfold ResetOutcome.apply
    split <;> rfl

/-- The tables after the rows of a batch have been written as `g` makes them. -/
def Tables.saveSubs (g : UserSubscription → UserSubscription) (subs : List UserSubscription)
    (t : Tables) : Tables :=
  { t with subs := Rows.saveAll (·.id) g subs t.subs }

theorem Tables.sub_saveSubs {g : UserSubscription → UserSubscription} (hg : ∀ s, (g s).id = s.id)
    (hnd : (subs.map (·.id)).Nodup) (hsub : sub ∈ subs) (t : Tables) :
    (t.saveSubs g subs).sub sub.id = some (g sub) :=
  Rows.first_saveAll hg hnd hsub

/-- The rows of a batch are picked rows of the table, each once. -/
structure IsBatch (now : ℤ) (subs : List UserSubscription) (t : Tables) : Prop where
  nodup : (t.subs.map (·.id)).Nodup
  nodup_subs : (subs.map (·.id)).Nodup
  mem : ∀ sub ∈ subs, sub ∈ t.subs
  selected : ∀ sub ∈ subs, sub.isSelected now = true

/-- After one row of a batch has been written the others are a batch. -/
theorem IsBatch.tail {row : UserSubscription} (h : IsBatch now (sub :: rest) t)
    (hrow : row.id = sub.id) : IsBatch now rest (t.saveSub row) := by
  have hnd := h.nodup_subs
  rw [List.map_cons, List.nodup_cons] at hnd
  refine ⟨Rows.nodup_save h.nodup, hnd.2, ?_, fun x hx => h.selected x (List.mem_cons_of_mem sub hx)⟩
  intro x hx
  refine Rows.mem_save_iff.2 (.inr ⟨h.mem x (List.mem_cons_of_mem sub hx), ?_⟩)
  rw [hrow]
  exact fun he => hnd.1 (he ▸ List.mem_map_of_mem hx)

theorem resetSubs_cons_of_hangs (h : IsBatch now (sub :: rest) t)
    (hhangs : Hangs loc now plans fuel sub) (count : ℕ) :
    resetSubs loc (sweepEnv now plans fuel) (sub :: rest) count t = ((count, some .hang), t) := by
  obtain ⟨plan, hplan, hout⟩ := hhangs
  have hone := resetOne_selected loc plans fuel plan h.nodup (h.mem sub List.mem_cons_self)
    (h.selected sub List.mem_cons_self)
  rw [if_pos hout] at hone
  have hplan' : getSubscriptionPlanById (sweepEnv now plans fuel).plans sub.planId = .ok plan := hplan
  simp only [resetSubs, hplan', hone]
  rfl

theorem resetSubs_cons_of_not_hangs (h : IsBatch now (sub :: rest) t)
    (hends : ¬ Hangs loc now plans fuel sub) (count : ℕ) :
    resetSubs loc (sweepEnv now plans fuel) (sub :: rest) count t =
      resetSubs loc (sweepEnv now plans fuel) rest
        (if planReadable plans sub then count + 1 else count)
        (t.saveSub (checkedRow loc now plans fuel sub)) := by
  have hmem := h.mem sub List.mem_cons_self
  cases hplan : getSubscriptionPlanById plans sub.planId with
  | error e =>
    have hplan' : getSubscriptionPlanById (sweepEnv now plans fuel).plans sub.planId = .error e :=
      hplan
    have hsame : t.saveSub (checkedRow loc now plans fuel sub) = t := by
      rw [checkedRow, hplan, Tables.saveSub, Rows.save_of_mem h.nodup hmem]
    have hnone : planReadable plans sub = false := by
      rw [planReadable, hplan]
      rfl
    simp only [resetSubs, hplan', hsame, hnone, Bool.false_eq_true, if_false]
  | ok plan =>
    have hplan' : getSubscriptionPlanById (sweepEnv now plans fuel).plans sub.planId = .ok plan :=
      hplan
    have hone := resetOne_selected loc plans fuel plan h.nodup hmem
      (h.selected sub List.mem_cons_self)
    rw [if_neg fun hout => hends ⟨plan, hplan, hout⟩] at hone
    have hsome : planReadable plans sub = true := by
      rw [planReadable, hplan]
      rfl
    simp only [resetSubs, hplan', hone, checkedRow, hplan, hsome, if_true]

/-- **A batch whose due checks come to an end** counts the rows whose plan can be read, and writes
each row as the check leaves it. -/
theorem resetSubs_of_not_hangs (h : IsBatch now subs t)
    (hends : ∀ sub ∈ subs, ¬ Hangs loc now plans fuel sub) (count : ℕ) :
    resetSubs loc (sweepEnv now plans fuel) subs count t =
      ((count + (subs.filter (planReadable plans)).length, none),
        t.saveSubs (checkedRow loc now plans fuel) subs) := by
  induction subs generalizing t count with
  | nil => rfl
  | cons sub rest ih =>
    rw [resetSubs_cons_of_not_hangs h (hends sub List.mem_cons_self),
      ih (h.tail (checkedRow_id sub)) fun x hx => hends x (List.mem_cons_of_mem sub hx)]
    have hcount : (if planReadable plans sub then count + 1 else count) +
        (rest.filter (planReadable plans)).length =
        count + ((sub :: rest).filter (planReadable plans)).length := by
      rw [List.filter_cons]
      split
      · simp only [List.length_cons]
        omega
      · rfl
    rw [hcount]
    rfl

/-- A batch with a row whose due check does not come to an end does not come to one either. -/
theorem resetSubs_of_hangs (h : IsBatch now subs t) (hsub : sub ∈ subs)
    (hhangs : Hangs loc now plans fuel sub) (count : ℕ) :
    (resetSubs loc (sweepEnv now plans fuel) subs count t).1.2 = some .hang := by
  induction subs generalizing t count with
  | nil => simp at hsub
  | cons x rest ih =>
    by_cases hx : Hangs loc now plans fuel x
    · rw [resetSubs_cons_of_hangs h hx]
    · rw [resetSubs_cons_of_not_hangs h hx]
      rcases List.mem_cons.1 hsub with rfl | hsub
      · exact absurd hhangs hx
      · exact ih (h.tail (checkedRow_id x)) hsub _

theorem nodup_dueSubs (hnd : (t.subs.map (·.id)).Nodup) :
    ((dueSubs now t).map (·.id)).Nodup := by
  have hperm : ((dueSubs now t).map (·.id)).Perm ((t.subs.filter (·.isSelected now)).map (·.id)) :=
    (List.perm_insertionSort _ _).map _
  exact hperm.nodup_iff.2 (hnd.sublist (List.filter_sublist.map _))

theorem mem_dueSubs :
    sub ∈ dueSubs now t ↔ sub ∈ t.subs ∧ sub.isSelected now = true := by
  rw [dueSubs, List.mem_insertionSort, List.mem_filter]

theorem isBatch_take (now : ℤ) (hnd : (t.subs.map (·.id)).Nodup) (n : ℕ) :
    IsBatch now ((dueSubs now t).take n) t where
  nodup := hnd
  nodup_subs := (nodup_dueSubs hnd).sublist ((List.take_sublist n _).map _)
  mem := fun _ hsub => (mem_dueSubs.1 (List.mem_of_mem_take hsub)).1
  selected := fun _ hsub => (mem_dueSubs.1 (List.mem_of_mem_take hsub)).2

/-! ### Sweeps that make progress -/

/-- Every picked row whose plan can be read has reset times that lead out of the past. -/
def SubsAdvance (loc : Location) (plans : ℤ → Except String SubscriptionPlan) (now : ℤ)
    (t : Tables) : Prop :=
  ∀ sub ∈ t.subs, sub.isSelected now = true → ∀ plan,
    getSubscriptionPlanById plans sub.planId = .ok plan →
      Advances loc plan sub.endTime now sub.resetBase

/-- With `fuel` rounds every due check comes to an end, and a row whose plan can be read is not
picked any more. -/
def Settles (loc : Location) (now : ℤ) (plans : ℤ → Except String SubscriptionPlan) (fuel : ℕ)
    (sub : UserSubscription) : Prop :=
  ¬ Hangs loc now plans fuel sub ∧
    (planReadable plans sub = true → (checkedRow loc now plans fuel sub).isSelected now = false)

/-- Rows whose reset times lead out of the past settle, given enough rounds. -/
theorem settles_of_advance (hsub : sub.isSelected now = true)
    (hadv : ∀ plan, getSubscriptionPlanById plans sub.planId = .ok plan →
      Advances loc plan sub.endTime now sub.resetBase) :
    ∃ k, ∀ fuel, k < fuel → Settles loc now plans fuel sub := by
  cases hplan : getSubscriptionPlanById plans sub.planId with
  | error e =>
    refine ⟨0, fun fuel _ => ⟨?_, ?_⟩⟩
    · rintro ⟨plan, hplan', _⟩
      simp [hplan] at hplan'
    · intro hreadable
      rw [planReadable, hplan] at hreadable
      simp [Except.isOk, Except.toBool] at hreadable
  | ok plan =>
    obtain ⟨k, hk⟩ := resetOutcome_of_advances hsub (hadv plan hplan)
    refine ⟨k, fun fuel hfuel => ⟨?_, fun _ => ?_⟩⟩
    · rintro ⟨plan', hplan', hout⟩
      rw [hplan] at hplan'
      obtain rfl := Except.ok.inj hplan'
      exact (hk fuel hfuel).1 hout
    · rw [checkedRow, hplan]
      exact (hk fuel hfuel).2

/-- Enough rounds for each row of a list are enough for all. -/
theorem settles_all (h : ∀ sub ∈ subs, ∃ k, ∀ fuel, k < fuel → Settles loc now plans fuel sub) :
    ∃ fuel, ∀ sub ∈ subs, Settles loc now plans fuel sub := by
  suffices hall : ∃ k, ∀ fuel, k < fuel → ∀ sub ∈ subs, Settles loc now plans fuel sub by
    obtain ⟨k, hk⟩ := hall
    exact ⟨k + 1, hk (k + 1) (Nat.lt_succ_self k)⟩
  induction subs with
  | nil => exact ⟨0, by simp⟩
  | cons x rest ih =>
    obtain ⟨k, hk⟩ := h x List.mem_cons_self
    obtain ⟨l, hl⟩ := ih fun sub hsub => h sub (List.mem_cons_of_mem x hsub)
    refine ⟨max k l, fun fuel hfuel sub hsub => ?_⟩
    rcases List.mem_cons.1 hsub with rfl | hsub
    · exact hk fuel (by omega)
    · exact hl fuel (by omega) sub hsub

/-- The rows a sweep counts. -/
def countedSubs (plans : ℤ → Except String SubscriptionPlan) (now limit : ℤ) (t : Tables) :
    List UserSubscription :=
  ((dueSubs now t).take (sweepLimit limit)).filter (planReadable plans)

/-- **A sweep whose picked rows settle** counts the rows whose plan can be read and writes each as
the due check leaves it. -/
theorem resetDue_of_settles (hnd : (t.subs.map (·.id)).Nodup)
    (hsettles : ∀ sub ∈ dueSubs now t, Settles loc now plans fuel sub) (limit : ℤ) :
    resetDueSubscriptions loc (sweepEnv now plans fuel) limit t =
      (((countedSubs plans now limit t).length, none),
        t.saveSubs (checkedRow loc now plans fuel) ((dueSubs now t).take (sweepLimit limit))) := by
  have hbatch := resetSubs_of_not_hangs (isBatch_take now hnd (sweepLimit limit))
    (fun sub hsub => (hsettles sub (List.mem_of_mem_take hsub)).1) 0
  rw [Nat.zero_add] at hbatch
  exact hbatch

/-- What is asked of a reset sweep at `now`: for any limit it comes to an end, and no row it counts
is picked again. -/
def ResetsProgress (loc : Location) (plans : ℤ → Except String SubscriptionPlan) (now : ℤ)
    (t : Tables) : Prop :=
  ∀ limit, ∃ fuel,
    (resetDueSubscriptions loc (sweepEnv now plans fuel) limit t).1 =
      ((countedSubs plans now limit t).length, none) ∧
    ∀ sub ∈ countedSubs plans now limit t, ∀ row,
      (resetDueSubscriptions loc (sweepEnv now plans fuel) limit t).2.sub sub.id = some row →
      row.isSelected now = false

/-- Enough rounds for every due row. -/
theorem SubsAdvance.settles (hadv : SubsAdvance loc plans now t) :
    ∃ fuel, ∀ sub ∈ dueSubs now t, Settles loc now plans fuel sub := by
  refine settles_all fun sub hsub => ?_
  obtain ⟨hmem, hselected⟩ := mem_dueSubs.1 hsub
  exact settles_of_advance hselected (hadv sub hmem hselected)

theorem resetsProgress_of_advance (hnd : (t.subs.map (·.id)).Nodup)
    (hadv : SubsAdvance loc plans now t) : ResetsProgress loc plans now t := by
  intro limit
  obtain ⟨fuel, hsettles⟩ := hadv.settles
  have hresult := resetDue_of_settles hnd hsettles limit
  refine ⟨fuel, by rw [hresult], ?_⟩
  intro sub hsub row hrow
  obtain ⟨hbatch, hreadable⟩ := List.mem_filter.1 hsub
  rw [hresult] at hrow
  rw [Tables.sub_saveSubs checkedRow_id (isBatch_take now hnd (sweepLimit limit)).nodup_subs hbatch]
    at hrow
  rw [← Option.some.inj hrow]
  exact (hsettles sub (List.mem_of_mem_take hbatch)).2 hreadable

/-- A limit that takes every row a sweep picks. -/
theorem take_all :
    (dueSubs now t).take (sweepLimit (t.subs.length + 1)) = dueSubs now t := by
  refine List.take_of_length_le ?_
  have hlength : (dueSubs now t).length ≤ t.subs.length := by
    rw [dueSubs, List.length_insertionSort]
    exact List.length_filter_le _ _
  have hlimit : sweepLimit (t.subs.length + 1) = t.subs.length + 1 := by
    unfold sweepLimit
    rw [if_neg (by omega)]
    omega
  omega

theorem advance_of_resetsProgress (hnd : (t.subs.map (·.id)).Nodup)
    (hprogress : ResetsProgress loc plans now t) : SubsAdvance loc plans now t := by
  intro sub hmem hsub plan hplan
  obtain ⟨fuel, hcount, hleft⟩ := hprogress (t.subs.length + 1)
  have hbatch := isBatch_take now hnd (sweepLimit (t.subs.length + 1))
  have hdue : sub ∈ (dueSubs now t).take (sweepLimit (t.subs.length + 1)) := by
    rw [take_all]
    exact mem_dueSubs.2 ⟨hmem, hsub⟩
  -- a check that does not come to an end would be reported
  have hends : ∀ x ∈ (dueSubs now t).take (sweepLimit (t.subs.length + 1)),
      ¬ Hangs loc now plans fuel x := by
    intro x hx hhangs
    have herr := resetSubs_of_hangs hbatch hx hhangs 0
    have hnone : (resetSubs loc (sweepEnv now plans fuel)
        ((dueSubs now t).take (sweepLimit (t.subs.length + 1))) 0 t).1.2 = none := by
      have hresult := congrArg Prod.snd hcount
      exact hresult
    rw [herr] at hnone
    simp at hnone
  have hreadable : planReadable plans sub = true := by
    rw [planReadable, hplan]
    rfl
  have hresult : resetDueSubscriptions loc (sweepEnv now plans fuel) (t.subs.length + 1) t = _ :=
    resetSubs_of_not_hangs hbatch hends 0
  have hrow := hleft sub (List.mem_filter.2 ⟨hdue, hreadable⟩) (checkedRow loc now plans fuel sub)
    (by rw [hresult]; exact Tables.sub_saveSubs checkedRow_id hbatch.nodup_subs hdue t)
  rw [checkedRow, hplan] at hrow
  exact advances_of_resetOutcome hsub (fun hout => hends sub hdue ⟨plan, hplan, hout⟩) hrow

/-- **A reset sweep makes progress** exactly if the reset times of the picked rows lead out of the
past. -/
theorem resetsProgress_iff (hnd : (t.subs.map (·.id)).Nodup) :
    ResetsProgress loc plans now t ↔ SubsAdvance loc plans now t :=
  ⟨advance_of_resetsProgress hnd, resetsProgress_of_advance hnd⟩

/-- What settles before a sweep settles after it: a row that is picked then is a row of before. -/
theorem settles_saveSubs (limit : ℤ)
    (hsettles : ∀ sub ∈ dueSubs now t, Settles loc now plans fuel sub) :
    ∀ sub ∈ dueSubs now (t.saveSubs (checkedRow loc now plans fuel)
      ((dueSubs now t).take (sweepLimit limit))), Settles loc now plans fuel sub := by
  intro sub hsub
  obtain ⟨hmem, hselected⟩ := mem_dueSubs.1 hsub
  rcases Rows.mem_saveAll hmem with hold | ⟨x, hx, rfl⟩
  · exact hsettles sub (mem_dueSubs.2 ⟨hold, hselected⟩)
  · -- a row that has been written and is picked has no plan, and is as it was
    have hx' := List.mem_of_mem_take hx
    cases hplan : getSubscriptionPlanById plans x.planId with
    | error e =>
      have hsame : checkedRow loc now plans fuel x = x := by rw [checkedRow, hplan]
      rw [hsame]
      exact hsettles x hx'
    | ok plan =>
      have hreadable : planReadable plans x = true := by
        rw [planReadable, hplan]
        rfl
      rw [(hsettles x hx').2 hreadable] at hselected
      simp at hselected

/-- A sweep leaves as many rows less to pick as it counts. -/
theorem selected_saveSubs (hnd : (t.subs.map (·.id)).Nodup)
    (hsettles : ∀ sub ∈ dueSubs now t, Settles loc now plans fuel sub) (limit : ℤ) :
    ((t.saveSubs (checkedRow loc now plans fuel)
      ((dueSubs now t).take (sweepLimit limit))).subs.filter (·.isSelected now)).length +
      (countedSubs plans now limit t).length ≤ (t.subs.filter (·.isSelected now)).length := by
  have hbatch := isBatch_take now hnd (sweepLimit limit)
  refine Rows.length_filter_saveAll checkedRow_id hnd hbatch.nodup_subs hbatch.mem hbatch.selected
    (fun x hx hreadable => (hsettles x (List.mem_of_mem_take hx)).2 hreadable) fun x _ hnone => ?_
  rw [checkedRow]
  cases hplan : getSubscriptionPlanById plans x.planId with
  | error e => rfl
  | ok plan =>
    rw [planReadable, hplan] at hnone
    simp [Except.isOk, Except.toBool] at hnone

theorem resetBatch_lowers : BatchLoop.Lowers (fun _ => resetBatch loc (sweepEnv now plans fuel))
    (fun t => (t.subs.map (·.id)).Nodup ∧ ∀ sub ∈ dueSubs now t, Settles loc now plans fuel sub)
    fun t => (t.subs.filter (·.isSelected now)).length := by
  rintro i t n t' ⟨hnd, hsettles⟩ hbatch
  have hresult := resetDue_of_settles hnd hsettles subscriptionResetBatchSize
  simp only [resetBatch, hresult, Prod.mk.injEq, Option.some.injEq] at hbatch
  obtain ⟨rfl, rfl⟩ := hbatch
  exact ⟨⟨Rows.nodup_saveAll hnd, settles_saveSubs _ hsettles⟩, selected_saveSubs hnd hsettles _⟩

/-! ### The loop that expires -/

/-- What a sweep that expires does to the table: some rows are marked. -/
def ExpiredFrom (t t' : Tables) : Prop :=
  List.Forall₂ (fun s s' => s' = s ∨ s' = { s with status := .expired }) t.subs t'.subs

theorem ExpiredFrom.refl (t : Tables) : ExpiredFrom t t :=
  List.forall₂_same.2 fun _ _ => .inl rfl

theorem ExpiredFrom.markExpired (h : ExpiredFrom t t') (userId now : ℤ) :
    ExpiredFrom t (markExpired userId now t') := by
  unfold ExpiredFrom at h ⊢
  simp only [NewApi.markExpired, Rows.update]
  refine List.forall₂_map_right_iff.2 (h.imp fun s s' hs => ?_)
  split
  · rcases hs with rfl | rfl
    · exact .inr rfl
    · exact .inr rfl
  · exact hs

/-- The rows of a table after the part of one user are the marked ones. -/
theorem expireUserTx_subs {faults : ExpireFaults} {userId : ℤ}
    (h : expireUserTx now faults userId t = .ok t') :
    t'.subs = (markExpired userId now t).subs := by
  rcases expireUserTx_ok h with ⟨rfl, _⟩ | ⟨c, _, _, _, rfl⟩
  · rfl
  · rfl

theorem expireDue_expiredFrom (env : ExpireEnv) (limit : ℤ) {t₀ : Tables} (h : ExpiredFrom t₀ t) :
    ExpiredFrom t₀ (expireDueSubscriptions env limit t).2 := by
  refine expireDue_rule (P := ExpiredFrom t₀) (fun userId _ t₁ t₂ h₁ htx => ?_) h
  unfold ExpiredFrom
  rw [expireUserTx_subs htx]
  exact h₁.markExpired userId env.now

/-- A sweep that does not fail leaves as many rows less to expire as it counts. -/
theorem expireUsers_counts {env : ExpireEnv} {users : List ℤ} {count n : ℤ}
    (h : expireUsers env users count t = ((n, none), t')) :
    count ≤ n ∧ (t'.subs.filter (·.isDue env.now)).length + n =
      (t.subs.filter (·.isDue env.now)).length + count := by
  induction users generalizing count t with
  | nil =>
    simp only [expireUsers, Prod.mk.injEq] at h
    obtain ⟨⟨rfl, _⟩, rfl⟩ := h
    exact ⟨le_refl _, rfl⟩
  | cons userId rest ih =>
    unfold expireUsers at h
    simp only at h
    split at h
    · simp at h
    · rename_i t₁ htx
      split at h
      · simp at h
      · obtain ⟨hle, hcount⟩ := ih h
        have hbefore : ∀ s ∈ t.subs, (s.userId = userId && s.isDue env.now) = true →
            s.isDue env.now = true := by
          intro s _ hs
          rw [Bool.and_eq_true] at hs
          exact hs.2
        have hafter : ∀ s ∈ t.subs, (s.userId = userId && s.isDue env.now) = true →
            ({ s with status := .expired } : UserSubscription).isDue env.now = false := by
          intro s _ _
          simp [UserSubscription.isDue]
        have hmarked := Rows.length_filter_update hbefore hafter
        have hrows : t₁.subs = Rows.update
            (fun s : UserSubscription => s.userId = userId && s.isDue env.now)
            (fun s => { s with status := .expired }) t.subs := expireUserTx_subs htx
        have hok : (env.user userId).update = none := by
          unfold expireUserTx at htx
          exact (guardFault_eq_ok.1 htx).1
        rw [if_pos hok] at hle hcount
        rw [hrows] at hcount
        constructor
        · omega
        · omega

theorem ExpiredFrom.ids (h : ExpiredFrom t t') :
    t'.subs.map (·.id) = t.subs.map (·.id) := by
  unfold ExpiredFrom at h
  generalize t.subs = rows, t'.subs = rows' at h ⊢
  induction h with
  | nil => rfl
  | cons hs _ ih =>
    rcases hs with rfl | rfl
    · rw [List.map_cons, List.map_cons, ih]
    · rw [List.map_cons, List.map_cons, ih]

/-- A row a reset sweep picks after rows have been expired is one it picked before. -/
theorem ExpiredFrom.dueSubs (h : ExpiredFrom t t') (hsub : sub ∈ NewApi.dueSubs now t') :
    sub ∈ NewApi.dueSubs now t := by
  obtain ⟨hmem, hselected⟩ := mem_dueSubs.1 hsub
  refine mem_dueSubs.2 ⟨?_, hselected⟩
  unfold ExpiredFrom at h
  clear hsub
  generalize t.subs = rows, t'.subs = rows' at h hmem ⊢
  induction h with
  | nil => exact hmem
  | cons hs _ ih =>
    rcases List.mem_cons.1 hmem with rfl | hmem
    · rcases hs with rfl | rfl
      · exact List.mem_cons_self
      · simp [UserSubscription.isSelected] at hselected
    · exact List.mem_cons_of_mem _ (ih hmem)

theorem expireBatch_lowers {envs : ℕ → ExpireEnv} (henvs : ∀ i, (envs i).now = now) (t₀ : Tables) :
    BatchLoop.Lowers (expireBatch envs) (ExpiredFrom t₀)
      fun t => (t.subs.filter (·.isDue now)).length := by
  intro i t n t' hinv hbatch
  unfold expireBatch at hbatch
  cases hdue : expireDueSubscriptions (envs i) subscriptionResetBatchSize t with
  | mk result t₁ =>
    obtain ⟨z, fault⟩ := result
    rw [hdue] at hbatch
    cases fault with
    | some e => simp at hbatch
    | none =>
      simp only [Prod.mk.injEq, Option.some.injEq] at hbatch
      obtain ⟨rfl, rfl⟩ := hbatch
      refine ⟨?_, ?_⟩
      · have hexpired := expireDue_expiredFrom (envs i) subscriptionResetBatchSize hinv
        rw [hdue] at hexpired
        exact hexpired
      · unfold expireDueSubscriptions at hdue
        split at hdue
        · simp at hdue
        · obtain ⟨hle, hcount⟩ := expireUsers_counts hdue
          rw [henvs i] at hcount
          simp only
          omega

/-- **The task that expires and resets subscriptions ends** where the reset times lead out of the
past. -/
theorem subscriptionTask_ends (hnd : (t.subs.map (·.id)).Nodup)
    (hadv : SubsAdvance loc plans now t) {envs : ℕ → ExpireEnv} (henvs : ∀ i, (envs i).now = now) :
    ∃ fuel rounds, (runSubscriptionQuotaResetOnce loc envs (sweepEnv now plans fuel) rounds t).isSome
      = true := by
  obtain ⟨fuel, hsettles⟩ := hadv.settles
  refine ⟨fuel, t.subs.length + 1, ?_⟩
  have hsize : 0 < subscriptionResetBatchSize := by decide
  have hlength : (t.subs.filter (·.isDue now)).length < t.subs.length + 1 :=
    Nat.lt_succ_of_le (List.length_filter_le _ _)
  obtain ⟨ok, t', hexpire, hinv⟩ := BatchLoop.loop_ends hsize (expireBatch_lowers henvs t) 0
    (ExpiredFrom.refl t) hlength
  rw [runSubscriptionQuotaResetOnce, hexpire]
  cases ok with
  | false => rfl
  | true =>
    have hexpired := hinv rfl
    have hlength' : (t'.subs.filter (·.isSelected now)).length < t.subs.length + 1 := by
      have hsame : t'.subs.length = t.subs.length := hexpired.length_eq.symm
      have hle := List.length_filter_le (fun s : UserSubscription => s.isSelected now) t'.subs
      omega
    obtain ⟨ok, t'', hreset, _⟩ := BatchLoop.loop_ends hsize resetBatch_lowers 0
      ⟨hexpired.ids ▸ hnd, fun sub hsub => hsettles sub (hexpired.dueSubs hsub)⟩ hlength'
    simp only [hreset]
    rfl

end Batch

/-! ### Resets of low balances -/

section LowBalance

variable {toQuota : ℤ → ℤ} {now : ℤ}

/-- The threshold and the target are positive. -/
def Pays (toQuota : ℤ → ℤ) : Prop :=
  0 < lowBalanceResetThresholdQuota toQuota ∧ 0 < lowBalanceResetTargetQuota toQuota

/-- A state after its reset. -/
def completedState (now : ℤ) (state : UserQuotaResetState) : UserQuotaResetState :=
  { state with status := .completed, completedAt := now, resetAt := 0 }

theorem isDue_completedState (state : UserQuotaResetState) :
    (completedState now state).isDue now = false := by
  simp [completedState, UserQuotaResetState.isDue]

variable {t t₀ : LowBalanceTables}

/-- A due reset completes its state if the amounts are positive, and does nothing otherwise. -/
theorem resetDue_states {state : UserQuotaResetState} (hnd : (t.states.map (·.userId)).Nodup)
    (hmem : state ∈ t.states) (hdue : state.isDue now = true) (hpays : Pays toQuota) :
    (resetDueLowBalanceQuotaState toQuota state.userId now t).2.states =
      Rows.save (·.userId) (completedState now state) t.states := by
  obtain ⟨hthreshold, htarget⟩ := hpays
  have hfind : (t.states.find? fun s => s.userId = state.userId && s.isDue now) = some state := by
    rw [Rows.find?_and_key hnd state.userId (·.isDue now), Rows.first_of_mem hnd hmem,
      Option.filter_some, if_pos hdue]
  simp only [resetDueLowBalanceQuotaState, hfind]
  rw [if_neg (by omega)]
  split
  · rfl
  · split
    · rfl
    · rfl

theorem resetDueStates_of_not_pos {states : List UserQuotaResetState} (hpays : ¬ Pays toQuota) :
    (resetDueStates toQuota now states t).2 = t := by
  have hnot : lowBalanceResetThresholdQuota toQuota ≤ 0 ∨ lowBalanceResetTargetQuota toQuota ≤ 0 := by
    rw [← not_lt, ← not_lt, ← not_and_or]
    exact hpays
  induction states with
  | nil => rfl
  | cons state rest ih =>
    have hsame : (resetDueLowBalanceQuotaState toQuota state.userId now t).2 = t := by
      simp only [resetDueLowBalanceQuotaState]
      rw [if_pos hnot]
    simp only [resetDueStates]
    rw [hsame]
    exact ih

/-- Each state of a batch is counted. -/
theorem resetDueStates_count (states : List UserQuotaResetState) (t : LowBalanceTables) :
    (resetDueStates toQuota now states t).1 = states.length := by
  induction states generalizing t with
  | nil => rfl
  | cons state rest ih => simp only [resetDueStates, ih, List.length_cons]

/-- **A batch of due resets completes its states.** -/
theorem resetDueStates_states {states : List UserQuotaResetState}
    (hnd : (t.states.map (·.userId)).Nodup) (hstates : (states.map (·.userId)).Nodup)
    (hmem : ∀ state ∈ states, state ∈ t.states) (hdue : ∀ state ∈ states, state.isDue now = true)
    (hpays : Pays toQuota) :
    (resetDueStates toQuota now states t).2.states =
      Rows.saveAll (·.userId) (completedState now) states t.states := by
  induction states generalizing t with
  | nil => rfl
  | cons state rest ih =>
    rw [List.map_cons, List.nodup_cons] at hstates
    have hone := resetDue_states hnd (hmem state List.mem_cons_self)
      (hdue state List.mem_cons_self) hpays
    simp only [resetDueStates]
    rw [ih (by rw [hone]; exact Rows.nodup_save hnd) hstates.2 ?_
      fun x hx => hdue x (List.mem_cons_of_mem state hx), hone]
    · rfl
    · intro x hx
      rw [hone]
      refine Rows.mem_save_iff.2 (.inr ⟨hmem x (List.mem_cons_of_mem state hx), ?_⟩)
      exact fun he => hstates.1 (List.mem_map.2 ⟨x, hx, he⟩)

theorem mem_dueStates {state : UserQuotaResetState} :
    state ∈ dueStates now t ↔ state ∈ t.states ∧ state.isDue now = true := by
  rw [dueStates, List.mem_insertionSort, List.mem_filter]

theorem nodup_dueStates (hnd : (t.states.map (·.userId)).Nodup) :
    ((dueStates now t).map (·.userId)).Nodup := by
  have hperm : ((dueStates now t).map (·.userId)).Perm
      ((t.states.filter (·.isDue now)).map (·.userId)) := (List.perm_insertionSort _ _).map _
  exact hperm.nodup_iff.2 (hnd.sublist (List.filter_sublist.map _))

/-- The states a batch works off. -/
def processedStates (now limit : ℤ) (t : LowBalanceTables) : List UserQuotaResetState :=
  (dueStates now t).take (lowBalanceBatch limit)

theorem resetDueLowBalance_states (now limit : ℤ) (hnd : (t.states.map (·.userId)).Nodup)
    (hpays : Pays toQuota) :
    (resetDueLowBalanceQuota toQuota now limit t).2.states =
      Rows.saveAll (·.userId) (completedState now) (processedStates now limit t) t.states :=
  resetDueStates_states hnd ((nodup_dueStates hnd).sublist ((List.take_sublist _ _).map _))
    (fun _ h => (mem_dueStates.1 (List.mem_of_mem_take h)).1)
    (fun _ h => (mem_dueStates.1 (List.mem_of_mem_take h)).2) hpays

/-- What is asked of the due resets at `now`: for any limit, no state that is counted is pending and
due afterwards. -/
def StatesProgress (quotaPerUnit : Option ℚ) (now : ℤ) (t : LowBalanceTables) : Prop :=
  ∀ limit n t', resetDueBatch quotaPerUnit now limit t = (some n, t') →
    n = (processedStates now limit t).length ∧
    ∀ state ∈ processedStates now limit t, ¬ t'.Due state.userId now

/-- The threshold and the target are worth positive 64-bit integers. -/
def SettingPays (quotaPerUnit : ℚ) : Prop :=
  0 < quotaPerUnit ∧ 0 < wrap64 ⌈lowBalanceResetThresholdUSD * quotaPerUnit⌉ ∧
    0 < wrap64 ⌈lowBalanceResetTargetUSD * quotaPerUnit⌉

/-- If there is anything to do, the setting either is not a number that is converted or pays. -/
def StatesAdvance (quotaPerUnit : Option ℚ) (now : ℤ) (t : LowBalanceTables) : Prop :=
  ∀ q ∈ quotaPerUnit, ∀ state ∈ t.states, state.isDue now = true → SettingPays q

theorem pays_iff (q : ℚ) : Pays (dollarsToQuota64 q) ↔ SettingPays q := by
  unfold Pays SettingPays lowBalanceResetThresholdQuota lowBalanceResetTargetQuota dollarsToQuota64
  by_cases hq : q ≤ 0
  · simp [hq]
  · simp [hq, not_le.1 hq, lowBalanceResetThresholdUSD, lowBalanceResetTargetUSD]

/-- **The due resets make progress** exactly if the setting pays or there is nothing to do. -/
theorem statesProgress_iff {quotaPerUnit : Option ℚ} (hnd : (t.states.map (·.userId)).Nodup) :
    StatesProgress quotaPerUnit now t ↔ StatesAdvance quotaPerUnit now t := by
  cases quotaPerUnit with
  | none =>
    refine ⟨fun _ q hq => by simp at hq, fun _ limit n t' hbatch => ?_⟩
    -- a batch that is counted has found nothing
    simp only [resetDueBatch, Prod.mk.injEq] at hbatch
    obtain ⟨hn, rfl⟩ := hbatch
    split at hn
    · rename_i hnone
      simp [processedStates, hnone, ← Option.some.inj hn]
    · simp at hn
  | some q =>
    constructor
    · intro hprogress q' hq state hmem hdue
      obtain rfl := Option.some.inj hq
      by_contra hpays
      have hsame : (resetDueLowBalanceQuota (dollarsToQuota64 q) now (t.states.length + 1) t).2 = t :=
        resetDueStates_of_not_pos (mt (pays_iff q).1 hpays)
      have hall : processedStates now (t.states.length + 1) t = dueStates now t := by
        refine List.take_of_length_le ?_
        have hlength : (dueStates now t).length ≤ t.states.length := by
          rw [dueStates, List.length_insertionSort]
          exact List.length_filter_le _ _
        have hlimit : lowBalanceBatch (t.states.length + 1) = t.states.length + 1 := by
          unfold lowBalanceBatch
          rw [if_neg (by omega)]
          omega
        omega
      have hcounted := hprogress (t.states.length + 1) _ _ rfl
      refine hcounted.2 state (hall ▸ mem_dueStates.2 ⟨hmem, hdue⟩) ?_
      have hrow : t.Due state.userId now := ⟨state, Rows.first_of_mem hnd hmem, hdue⟩
      rw [← hsame] at hrow
      exact hrow
    · intro hadv limit n t' hbatch
      simp only [resetDueBatch, Prod.mk.injEq, Option.some.injEq] at hbatch
      obtain ⟨rfl, rfl⟩ := hbatch
      refine ⟨resetDueStates_count _ t, ?_⟩
      rintro state hstate ⟨row, hrow, hdue⟩
      have hstate' := mem_dueStates.1 (List.mem_of_mem_take hstate)
      have hpays := (pays_iff q).2 (hadv q rfl state hstate'.1 hstate'.2)
      have hstates := resetDueLowBalance_states now limit hnd hpays
      have hkey : ∀ s, (completedState now s).userId = s.userId := fun _ => rfl
      have hbatch : ((processedStates now limit t).map fun s => s.userId).Nodup :=
        (nodup_dueStates hnd).sublist ((List.take_sublist _ _).map _)
      rw [LowBalanceTables.state, hstates, Rows.first_saveAll hkey hbatch hstate] at hrow
      rw [← Option.some.inj hrow, isDue_completedState] at hdue
      simp at hdue

/-! ### The task that resets low balances -/

theorem any_pending (hnd : (t.states.map (·.userId)).Nodup) (id : ℤ) :
    (t.states.any fun s => s.userId = id && s.status = .pending) = t.pending id := by
  have hfind := Rows.find?_and_key hnd id fun s => decide (s.status = .pending)
  rw [← List.isSome_find?, hfind, LowBalanceTables.pending, LowBalanceTables.state]
  cases Rows.first (fun s : UserQuotaResetState => s.userId) id t.states with
  | none => rfl
  | some state =>
    rw [Option.filter_some, Option.any_some]
    split
    · rename_i hpending
      exact hpending.symm
    · rename_i hpending
      exact (Bool.eq_false_of_not_eq_true hpending).symm

/-- What scheduling keeps while it goes through a batch. -/
structure ScheduleInv (toQuota : ℤ → ℤ) (now : ℤ) (t₀ t : LowBalanceTables) : Prop where
  users : t.users = t₀.users
  nodup : (t.states.map (·.userId)).Nodup
  due : (t.states.filter (·.isDue now)).length ≤ (t₀.states.filter (·.isDue now)).length

theorem ScheduleInv.schedule (h : ScheduleInv toQuota now t₀ t) (userId quota : ℤ) :
    ScheduleInv toQuota now t₀
      (maybeScheduleLowBalanceQuotaReset toQuota now userId quota t).2 := by
  rcases maybeSchedule_cases toQuota now userId quota t with hnone | ⟨_, _, hsome⟩
  · rw [hnone]
    exact h
  · rw [hsome]
    refine ⟨h.users, nodup_saveState _ h.nodup, le_trans (Rows.length_filter_save_le ?_) h.due⟩
    have hdelay : ¬ now + lowBalanceResetDelaySeconds ≤ now := by
      simp [lowBalanceResetDelaySeconds]
    simp [UserQuotaResetState.isDue, hdelay]

/-- A schedule takes its user out of the candidates. -/
theorem candidates_schedule (h : ScheduleInv toQuota now t₀ t) {user : BalanceUser}
    (huser : user ∈ t.users) (henabled : user.enabled = true)
    (hlow : user.quota < lowBalanceResetThresholdQuota toQuota)
    (hscheduled : (maybeScheduleLowBalanceQuotaReset toQuota now user.id user.quota t).1 = true) :
    (scheduleCandidates toQuota
      (maybeScheduleLowBalanceQuotaReset toQuota now user.id user.quota t).2).length + 1 ≤
      (scheduleCandidates toQuota t).length := by
  rcases maybeSchedule_cases toQuota now user.id user.quota t with hnone | ⟨_, hidle, hsome⟩
  · rw [hnone] at hscheduled
    simp at hscheduled
  · rw [hsome]
    simp only [scheduleCandidates]
    have hnd := h.nodup
    simp only [any_pending hnd, any_pending (nodup_saveState _ hnd)]
    -- the candidates afterwards are those of before that are still without a pending reset
    have hsub : ∀ u ∈ t.users, (u.enabled && decide (u.quota < lowBalanceResetThresholdQuota
        toQuota) && !(t.saveState ⟨user.id, .pending, now, now + lowBalanceResetDelaySeconds, 0,
          user.quota⟩).pending u.id) = (!decide (u.id = user.id) && (u.enabled && decide (u.quota <
        lowBalanceResetThresholdQuota toQuota) && !t.pending u.id)) := by
      intro u _
      rw [LowBalanceTables.pending, LowBalanceTables.state_saveState]
      by_cases hid : u.id = user.id
      · simp [hid]
      · simp [hid, LowBalanceTables.pending]
    rw [show (t.saveState ⟨user.id, .pending, now, now + lowBalanceResetDelaySeconds, 0,
      user.quota⟩).users = t.users from rfl, List.filter_congr hsub, ← List.filter_filter]
    refine Nat.succ_le_of_lt (List.length_filter_lt_length_iff_exists.2 ⟨user, ?_, by simp⟩)
    exact List.mem_filter.2 ⟨huser, by simp [henabled, hlow, hidle]⟩

theorem scheduleUsers_lowers {users : List BalanceUser} (h : ScheduleInv toQuota now t₀ t)
    (husers : ∀ user ∈ users, user ∈ t₀.users ∧ user.enabled = true ∧
      user.quota < lowBalanceResetThresholdQuota toQuota) :
    ScheduleInv toQuota now t₀ (scheduleUsers toQuota now users t).2 ∧
      (scheduleCandidates toQuota (scheduleUsers toQuota now users t).2).length +
        (scheduleUsers toQuota now users t).1 ≤ (scheduleCandidates toQuota t).length := by
  induction users generalizing t with
  | nil => exact ⟨h, le_refl _⟩
  | cons user rest ih =>
    obtain ⟨huser, henabled, hlow⟩ := husers user List.mem_cons_self
    obtain ⟨hinv, hless⟩ := ih (h.schedule user.id user.quota)
      fun x hx => husers x (List.mem_cons_of_mem user hx)
    simp only [scheduleUsers]
    refine ⟨hinv, ?_⟩
    split
    · rename_i hscheduled
      have hone := candidates_schedule h (h.users ▸ huser) henabled hlow hscheduled
      omega
    · rename_i hnot
      rcases maybeSchedule_cases toQuota now user.id user.quota t with hnone | ⟨_, _, hsome⟩
      · rw [hnone] at hless ⊢
        exact hless
      · rw [hsome] at hnot
        simp at hnot

theorem scheduleBatch_lowers (q : ℚ) (now : ℤ) (t₀ : LowBalanceTables) :
    BatchLoop.Lowers (fun _ => scheduleBatch (some q) now lowBalanceQuotaResetBatchSize)
      (ScheduleInv (dollarsToQuota64 q) now t₀)
      fun t => (scheduleCandidates (dollarsToQuota64 q) t).length := by
  intro i t n t' hinv hbatch
  simp only [scheduleBatch, Prod.mk.injEq, Option.some.injEq] at hbatch
  obtain ⟨rfl, rfl⟩ := hbatch
  simp only [scheduleLowBalanceQuotaResets]
  split
  · exact ⟨hinv, le_refl _⟩
  · refine scheduleUsers_lowers hinv fun user huser => ?_
    have hcandidate := (List.mem_insertionSort _).1 (List.mem_of_mem_take huser)
    obtain ⟨hmem, hok⟩ := List.mem_filter.1 hcandidate
    simp only [Bool.and_eq_true, decide_eq_true_eq] at hok
    exact ⟨hinv.users ▸ hmem, hok.1.1, hok.1.2⟩

/-- What a batch of due resets leaves makes progress again, with as many states less that are due as
have been processed. -/
theorem resetDueBatch_lowers (q : ℚ) :
    BatchLoop.Lowers (fun _ => resetDueBatch (some q) now lowBalanceQuotaResetBatchSize)
      (fun t => (t.states.map (·.userId)).Nodup ∧ StatesAdvance (some q) now t)
      fun t => (t.states.filter (·.isDue now)).length := by
  rintro i t n t' ⟨hnd, hadv⟩ hbatch
  simp only [resetDueBatch, Prod.mk.injEq, Option.some.injEq] at hbatch
  obtain ⟨rfl, rfl⟩ := hbatch
  have hcount : (resetDueLowBalanceQuota (dollarsToQuota64 q) now lowBalanceQuotaResetBatchSize t).1 =
      (processedStates now lowBalanceQuotaResetBatchSize t).length := resetDueStates_count _ t
  rw [hcount]
  by_cases hpays : SettingPays q
  · have hkey : ∀ s, (completedState now s).userId = s.userId := fun _ => rfl
    have hbatch : ((processedStates now lowBalanceQuotaResetBatchSize t).map fun s => s.userId).Nodup
        := (nodup_dueStates hnd).sublist ((List.take_sublist _ _).map _)
    have hdue : ∀ s ∈ processedStates now lowBalanceQuotaResetBatchSize t,
        s ∈ t.states ∧ s.isDue now = true := fun s hs => mem_dueStates.1 (List.mem_of_mem_take hs)
    have hless := Rows.length_filter_saveAll (p := fun _ => true)
      (q := fun s : UserQuotaResetState => s.isDue now) hkey hnd hbatch
      (fun s hs => (hdue s hs).1) (fun s hs => (hdue s hs).2)
      (fun s _ _ => isDue_completedState s) fun _ _ h => by simp at h
    rw [List.filter_true] at hless
    have hstates := resetDueLowBalance_states now lowBalanceQuotaResetBatchSize hnd
      ((pays_iff q).2 hpays)
    rw [← hstates] at hless
    refine ⟨⟨?_, fun q' hq _ _ _ => Option.some.inj hq ▸ hpays⟩, hless⟩
    rw [hstates]
    exact Rows.nodup_saveAll hnd
  · -- nothing is due where the setting does not pay
    have hnone : processedStates now lowBalanceQuotaResetBatchSize t = [] := by
      refine List.eq_nil_iff_forall_not_mem.2 fun s hs => ?_
      have hdue := mem_dueStates.1 (List.mem_of_mem_take hs)
      exact hpays (hadv q rfl s hdue.1 hdue.2)
    have hsame :
        (resetDueLowBalanceQuota (dollarsToQuota64 q) now lowBalanceQuotaResetBatchSize t).2 = t :=
      resetDueStates_of_not_pos (mt (pays_iff q).1 hpays)
    rw [hsame, hnone]
    exact ⟨⟨hnd, hadv⟩, le_refl _⟩

/-- **The task that schedules and resets low balances ends** where the setting pays or nothing is
due, and where it is not a number. -/
theorem lowBalanceTask_ends {quotaPerUnit : Option ℚ} (hnd : (t.states.map (·.userId)).Nodup)
    (hadv : StatesAdvance quotaPerUnit now t) :
    ∃ rounds, (runLowBalanceQuotaResetOnce quotaPerUnit now rounds t).isSome = true := by
  cases quotaPerUnit with
  | none => exact ⟨1, rfl⟩
  | some q =>
    have hsize : 0 < lowBalanceQuotaResetBatchSize := by decide
    have husers : (scheduleCandidates (dollarsToQuota64 q) t).length ≤ t.users.length :=
      List.length_filter_le _ _
    have hstates : (t.states.filter (·.isDue now)).length ≤ t.states.length :=
      List.length_filter_le _ _
    refine ⟨t.users.length + t.states.length + 1, ?_⟩
    have hlength : (scheduleCandidates (dollarsToQuota64 q) t).length <
        t.users.length + t.states.length + 1 := by
      omega
    obtain ⟨ok, t', hschedule, hinv⟩ := BatchLoop.loop_ends hsize
      (scheduleBatch_lowers q now t) 0 ⟨rfl, hnd, le_refl _⟩ hlength
    rw [runLowBalanceQuotaResetOnce, hschedule]
    cases ok with
    | false => rfl
    | true =>
      obtain ⟨_, hnd', hdue⟩ := hinv rfl
      have hadv' : StatesAdvance (some q) now t' := by
        intro q' hq state hmem hstate
        have hpos : 0 < (t'.states.filter (·.isDue now)).length :=
          List.length_pos_of_mem (List.mem_filter.2 ⟨hmem, hstate⟩)
        obtain ⟨s, hs⟩ := List.exists_mem_of_length_pos (lt_of_lt_of_le hpos hdue)
        obtain ⟨hs, hsdue⟩ := List.mem_filter.1 hs
        exact hadv q' hq s hs hsdue
      obtain ⟨ok, t'', hreset, _⟩ := BatchLoop.loop_ends hsize (resetDueBatch_lowers q) 0
        ⟨hnd', hadv'⟩ (by omega :
          (t'.states.filter (·.isDue now)).length < t.users.length + t.states.length + 1)
      simp only [hreset]
      rfl

end LowBalance

/-! ### Progress -/

/-- What is asked of the maintenance of the tables at the instant `now`. -/
structure MaintenanceOk (loc : Location) (plans : ℤ → Except String SubscriptionPlan)
    (quotaPerUnit : Option ℚ) (now : ℤ) (t : Tables) (balances : LowBalanceTables) : Prop where
  /-- No subscription that a sweep counts as reset is picked again. -/
  resets : ResetsProgress loc plans now t
  /-- No state that a batch counts as processed is pending and due. -/
  states : StatesProgress quotaPerUnit now balances
  /-- The loops of the subscription task end. -/
  subscriptionTask : ∀ envs : ℕ → ExpireEnv, (∀ i, (envs i).now = now) → ∃ fuel rounds,
    (runSubscriptionQuotaResetOnce loc envs (sweepEnv now plans fuel) rounds t).isSome = true
  /-- The loops of the low balance task end. -/
  lowBalanceTask : ∃ rounds,
    (runLowBalanceQuotaResetOnce quotaPerUnit now rounds balances).isSome = true

/-- **The maintenance loops make progress** exactly if the reset times of every picked subscription
whose plan can be read lead out of the past, and the quota of a dollar is positive where a low
balance is due. -/
theorem maintenance_progress (loc : Location) (plans : ℤ → Except String SubscriptionPlan)
    (quotaPerUnit : Option ℚ) (now : ℤ) (t : Tables) (balances : LowBalanceTables)
    (hsubs : (t.subs.map (·.id)).Nodup) (hstates : (balances.states.map (·.userId)).Nodup) :
    MaintenanceOk loc plans quotaPerUnit now t balances ↔
      SubsAdvance loc plans now t ∧ StatesAdvance quotaPerUnit now balances := by
  constructor
  · intro hok
    exact ⟨(resetsProgress_iff hsubs).1 hok.resets, (statesProgress_iff hstates).1 hok.states⟩
  · rintro ⟨hsubsAdvance, hstatesAdvance⟩
    exact
      { resets := (resetsProgress_iff hsubs).2 hsubsAdvance
        states := (statesProgress_iff hstates).2 hstatesAdvance
        subscriptionTask := fun envs henvs => subscriptionTask_ends hsubs hsubsAdvance henvs
        lowBalanceTask := lowBalanceTask_ends hstates hstatesAdvance }

/-- A daily plan, and the same plan after an administrator has edited it. -/
def dailyPlan : SubscriptionPlan where
  id := 1
  title := "pro"
  durationUnit := "month"
  durationValue := 1
  customSeconds := 0
  maxPurchasePerUser := 0
  upgradeGroup := ""
  totalAmount := 1000
  quotaResetPeriod := "daily"
  quotaResetCustomSeconds := 0

def editedPlan : SubscriptionPlan := { dailyPlan with quotaResetPeriod := "never" }

/-- A subscription bought while the plan was daily. -/
def dailySub : UserSubscription where
  id := 1
  userId := 1
  planId := 1
  amountTotal := 1000
  amountUsed := 10
  startTime := 1771700000
  endTime := 1774119200
  status := .active
  source := "order"
  lastResetTime := 1771700000
  nextResetTime := 1771718400
  upgradeGroup := ""
  prevUserGroup := ""

def dailyTables : Tables where
  subs := [dailySub]
  records := []
  userGroup := fun _ => "default"
  nextSubId := 2
  nextRecordId := 1

/-- A trigger of the day before. -/
def dueBalance : LowBalanceTables where
  users := [⟨1, true, 10⟩]
  states := [⟨1, .pending, 1771632000, 1771718400, 0, 10⟩]
  checkins := []

/-- Under the daily plan the subscription is reset, and a million of quota to the dollar pays. -/
theorem maintenance_progress_daily :
    MaintenanceOk utc (fun _ => .ok dailyPlan) (some 1000000) 1771718400 dailyTables dueBalance := by
  refine (maintenance_progress utc (fun _ => .ok dailyPlan) (some 1000000) 1771718400 dailyTables
    dueBalance (by decide) (by decide)).2 ⟨?_, ?_⟩
  · intro sub hsub _ plan hplan
    obtain rfl := List.mem_singleton.1 hsub
    have hdaily : plan = dailyPlan := (Except.ok.inj (hplan.symm.trans rfl))
    subst hdaily
    exact ⟨by decide, 1, by decide⟩
  · intro q hq _ _ _
    obtain rfl := Option.some.inj hq
    exact ⟨by norm_num, by decide +kernel, by decide +kernel⟩

/-- **What is counted can stay**: a subscription whose plan is not reset any more, and a low balance
where the setting is zero or so large that the target is not a positive 64-bit integer. -/
theorem edited_plan_is_counted :
    ((resetDueSubscriptions utc (sweepEnv 1771718400 (fun _ => .ok editedPlan) 1) 300
      dailyTables).1 = (1, none) ∧
      (resetDueSubscriptions utc (sweepEnv 1771718400 (fun _ => .ok editedPlan) 1) 300
        dailyTables).2.sub 1 = some dailySub ∧ dailySub.isSelected 1771718400 = true) ∧
    (resetDueBatch (some 0) 1771718400 300 dueBalance = (some 1, dueBalance) ∧
      resetDueBatch (some 50000000000000000) 1771718400 300 dueBalance = (some 1, dueBalance) ∧
      dueBalance.states.all (·.isDue 1771718400) = true) := by
  refine ⟨by decide, by decide, by decide +kernel, by decide⟩

end NewApi

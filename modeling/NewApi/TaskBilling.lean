/-
**Billing a task on its end: the refund and the settlement.**

A task that fails is refunded what it was charged, a task that succeeds is settled: its charge is
replaced by the amount the adaptor computes, or by one computed from the tokens used, or kept.
Both change the funding source the task was charged to first, and its token afterwards; a funding
source that cannot be changed ends the call, a token that cannot be changed is logged.

The store also keeps a list of the refunds and settlements there have been, those that fail and
those without a difference among them.  The program has the others in its log; nothing reads them.

Main definitions:

* `NewApi.TaskStore` — the table of tasks, the quotas, and the list of refunds and settlements;
* `NewApi.refundTaskQuota` — the refund;
* `NewApi.recalculateTaskQuota`, `NewApi.settleTaskBillingOnComplete` — the settlement.

Main results:

* `NewApi.refundTaskQuota_of_ne_zero`, `NewApi.settleTaskBillingOnComplete_spec` — **what the two
  calls do**;
* `NewApi.walletTotal_refund`, `NewApi.walletTotal_settle` — the list accounts for every change of
  a wallet.
-/

import NewApi.Task
import NewApi.BillingSessionSpec

set_option autoImplicit false

namespace NewApi

/-! ### The store -/

inductive TaskEventKind where
  | refund
  | settle
deriving DecidableEq, Repr

/-- A refund or a settlement: the task as it was billed, and the change of its charge. -/
structure TaskEvent where
  task : Task
  kind : TaskEventKind
  delta : ℤ
deriving DecidableEq, Repr

structure TaskStore where
  tasks : TaskTable
  world : World
  events : List TaskEvent

namespace TaskStore

/-- The refunds and settlements of a task. -/
def eventsOf (id : ℤ) (st : TaskStore) : List TaskEvent :=
  st.events.filter fun e => e.task.id = id

/-- How often a task has been refunded. -/
def refunds (id : ℤ) (st : TaskStore) : ℕ :=
  ((st.eventsOf id).filter fun e => e.kind = .refund).length

/-- How often a task has been settled. -/
def settlements (id : ℤ) (st : TaskStore) : ℕ :=
  ((st.eventsOf id).filter fun e => e.kind = .settle).length

/-- By how much the charge of a task has changed since its submission. -/
def chargeDelta (id : ℤ) (st : TaskStore) : ℤ := ((st.eventsOf id).map TaskEvent.delta).sum

/-- Add `e` to the list. -/
def log (e : TaskEvent) (st : TaskStore) : TaskStore := { st with events := st.events ++ [e] }

@[simp] theorem log_tasks (e : TaskEvent) (st : TaskStore) : (st.log e).tasks = st.tasks := rfl

@[simp] theorem log_world (e : TaskEvent) (st : TaskStore) : (st.log e).world = st.world := rfl

@[simp] theorem log_events (e : TaskEvent) (st : TaskStore) :
    (st.log e).events = st.events ++ [e] := rfl

theorem refunds_add_settlements (id : ℤ) (st : TaskStore) :
    st.refunds id + st.settlements id = (st.eventsOf id).length := by
  unfold refunds settlements
  induction st.eventsOf id with
  | nil => rfl
  | cons e es ih =>
    cases h : e.kind <;> simp [h] <;> omega

end TaskStore

/-! ### Funding source and token -/

/-- The answers of the statements of one change of a task's charge: the outcome for the funding
source, the key the token is found to have (none when it is not found), and the token's outcome. -/
structure TaskBillingEnv where
  funding : FundingSource.ChangeFaults := {}
  tokenKey : String := ""
  token : Fault := none
deriving DecidableEq, Repr

/-- Whether the task is charged to a subscription. -/
def taskIsSubscription (task : Task) : Bool :=
  task.privateData.billingSource = billingSourceSubscription && 0 < task.privateData.subscriptionId

/-- Take `delta` more from the task's funding source, or give it back when it is negative. -/
def taskAdjustFunding (cfg : BillingConfig) (faults : FundingSource.ChangeFaults) (task : Task)
    (delta : ℤ) (w : World) : Except String World :=
  if taskIsSubscription task then
    FundingSource.postConsume faults.sub task.privateData.subscriptionId delta w
  else if 0 < delta then decreaseUserQuota cfg faults.user task.userId delta w
  else increaseUserQuota cfg faults.user task.userId (-delta) w

/-- Take `delta` more from the task's token, or give it back when it is negative; a token that is
not found or cannot be changed is left alone. -/
def taskAdjustTokenQuota (cfg : BillingConfig) (env : TaskBillingEnv) (task : Task) (delta : ℤ)
    (w : World) : World :=
  if task.privateData.tokenId ≤ 0 ∨ delta = 0 then w
  else if env.tokenKey = "" then w
  else
    match (if 0 < delta then decreaseTokenQuota cfg env.token task.privateData.tokenId delta w
        else increaseTokenQuota cfg env.token task.privateData.tokenId (-delta) w) with
    | .error _ => w
    | .ok w' => w'

/-! ### Refund and settlement -/

/-- Give back what the task was charged. -/
def refundTaskQuota (cfg : BillingConfig) (env : TaskBillingEnv) (task : Task) (st : TaskStore) :
    TaskStore :=
  let quota := task.quota
  if quota = 0 then st
  else
    match taskAdjustFunding cfg env.funding task (-quota) st.world with
    | .error _ => st.log ⟨task, .refund, 0⟩
    | .ok w =>
      { st with world := taskAdjustTokenQuota cfg env task (-quota) w }.log
        ⟨task, .refund, -quota⟩

/-- Replace the charge by `actualQuota`; the new charge is noted in the caller's copy only. -/
def recalculateTaskQuota (cfg : BillingConfig) (env : TaskBillingEnv) (task : Task)
    (actualQuota : ℤ) (w : World) : Task × World :=
  if actualQuota ≤ 0 then (task, w)
  else
    let quotaDelta := actualQuota - task.quota
    if quotaDelta = 0 then (task, w)
    else
      match taskAdjustFunding cfg env.funding task quotaDelta w with
      | .error _ => (task, w)
      | .ok w =>
        ({ task with quota := actualQuota }, taskAdjustTokenQuota cfg env task quotaDelta w)

/-- What the upstream service reports about a task. -/
structure TaskInfo where
  status : String := ""
  reason : String := ""
  url : String := ""
  progress : String := ""
  totalTokens : ℤ := 0
deriving DecidableEq, Repr

/-- Replace the charge by the price of the tokens used.  The price is `priceByTokens`; there is
none for a model without a ratio, and for a task whose group is not known. -/
def recalculateTaskQuotaByTokens (cfg : BillingConfig) (env : TaskBillingEnv)
    (priceByTokens : Option ℤ) (task : Task) (totalTokens : ℤ) (w : World) : Task × World :=
  if totalTokens ≤ 0 then (task, w)
  else
    match priceByTokens with
    | none => (task, w)
    | some actualQuota => recalculateTaskQuota cfg env task actualQuota w

/-- The charge of a completed task: kept for a price per call, else the adaptor's, else the one
of the tokens used, else kept. -/
def settledCharge (cfg : BillingConfig) (env : TaskBillingEnv) (adjusted : ℤ)
    (priceByTokens : Option ℤ) (task : Task) (taskResult : TaskInfo) (w : World) : Task × World :=
  if task.privateData.billingContext.any TaskBillingContext.perCallBilling then (task, w)
  else if 0 < adjusted then recalculateTaskQuota cfg env task adjusted w
  else if 0 < taskResult.totalTokens then
    recalculateTaskQuotaByTokens cfg env priceByTokens task taskResult.totalTokens w
  else (task, w)

/-- Settle a completed task. -/
def settleTaskBillingOnComplete (cfg : BillingConfig) (env : TaskBillingEnv) (adjusted : ℤ)
    (priceByTokens : Option ℤ) (task : Task) (taskResult : TaskInfo) (st : TaskStore) :
    Task × TaskStore :=
  let settled := settledCharge cfg env adjusted priceByTokens task taskResult st.world
  (settled.1, { st with world := settled.2 }.log ⟨task, .settle, settled.1.quota - task.quota⟩)

variable (cfg : BillingConfig) (env : TaskBillingEnv) (adjusted : ℤ) (priceByTokens : Option ℤ)
  (task : Task) (taskResult : TaskInfo) (u : ℤ) (st : TaskStore)

/-! ### What the two calls do -/

@[simp] theorem refundTaskQuota_tasks : (refundTaskQuota cfg env task st).tasks = st.tasks := by
  unfold refundTaskQuota
  dsimp only
  split
  · rfl
  · split <;> rfl

theorem refundTaskQuota_of_zero {task : Task} (h : task.quota = 0) :
    refundTaskQuota cfg env task st = st := if_pos h

/-- A refund of a task that was charged is put on the list.  The charge changes by its amount, or
not at all when the funding source cannot be changed. -/
theorem refundTaskQuota_of_ne_zero {task : Task} (h : task.quota ≠ 0) :
    ∃ delta, (refundTaskQuota cfg env task st).events = st.events ++ [⟨task, .refund, delta⟩] ∧
      (delta = 0 ∨ delta = -task.quota) := by
  unfold refundTaskQuota
  simp only [if_neg h]
  cases taskAdjustFunding cfg env.funding task (-task.quota) st.world with
  | error e => exact ⟨0, rfl, Or.inl rfl⟩
  | ok w => exact ⟨-task.quota, rfl, Or.inr rfl⟩

/-- A refund whose funding source can be changed gives back the whole charge. -/
theorem refundTaskQuota_ok {cfg : BillingConfig} {env : TaskBillingEnv} {task : Task}
    {st : TaskStore} {w : World} (h : task.quota ≠ 0)
    (hfunding : taskAdjustFunding cfg env.funding task (-task.quota) st.world = .ok w) :
    (refundTaskQuota cfg env task st).events = st.events ++ [⟨task, .refund, -task.quota⟩] := by
  unfold refundTaskQuota
  simp only [if_neg h, hfunding]
  rfl

/-- A settlement changes nothing of the task but its charge, and never to nothing. -/
theorem recalculateTaskQuota_spec (actualQuota : ℤ) (w : World) :
    ∃ q, (recalculateTaskQuota cfg env task actualQuota w).1 = { task with quota := q } ∧
      (q = task.quota ∨ 0 < q) := by
  unfold recalculateTaskQuota
  split
  · exact ⟨task.quota, rfl, Or.inl rfl⟩
  · rename_i hpos
    dsimp only
    split
    · exact ⟨task.quota, rfl, Or.inl rfl⟩
    · split
      · exact ⟨task.quota, rfl, Or.inl rfl⟩
      · exact ⟨actualQuota, rfl, Or.inr (by omega)⟩

theorem settledCharge_spec (w : World) :
    ∃ q, (settledCharge cfg env adjusted priceByTokens task taskResult w).1 =
        { task with quota := q } ∧ (q = task.quota ∨ 0 < q) := by
  unfold settledCharge
  split
  · exact ⟨task.quota, rfl, Or.inl rfl⟩
  · split
    · exact recalculateTaskQuota_spec cfg env task adjusted w
    · split
      · unfold recalculateTaskQuotaByTokens
        split
        · exact ⟨task.quota, rfl, Or.inl rfl⟩
        · cases priceByTokens with
          | none => exact ⟨task.quota, rfl, Or.inl rfl⟩
          | some q => exact recalculateTaskQuota_spec cfg env task q w
      · exact ⟨task.quota, rfl, Or.inl rfl⟩

/-- A settlement is put on the list and leaves the table of tasks alone. -/
theorem settleTaskBillingOnComplete_spec : ∃ q delta,
      (settleTaskBillingOnComplete cfg env adjusted priceByTokens task taskResult st).1 =
        { task with quota := q } ∧ (q = task.quota ∨ 0 < q) ∧
      (settleTaskBillingOnComplete cfg env adjusted priceByTokens task taskResult st).2.tasks =
        st.tasks ∧
      (settleTaskBillingOnComplete cfg env adjusted priceByTokens task taskResult st).2.events =
        st.events ++ [⟨task, .settle, delta⟩] := by
  obtain ⟨q, htask, hq⟩ :=
    settledCharge_spec cfg env adjusted priceByTokens task taskResult st.world
  exact ⟨q, _, htask, hq, rfl, rfl⟩

/-! ### The list accounts for the wallets -/

/-- What an event takes from the wallet of the user `u`. -/
def TaskEvent.walletDelta (u : ℤ) (e : TaskEvent) : ℤ :=
  if taskIsSubscription e.task = false ∧ e.task.userId = u then e.delta else 0

/-- The wallet of the user `u`, with what the refunds and settlements have taken from it. -/
def TaskStore.walletTotal (u : ℤ) (st : TaskStore) : ℤ :=
  st.world.userQuota u + (st.events.map (TaskEvent.walletDelta u)).sum

theorem walletTotal_log (e : TaskEvent) (st : TaskStore) :
    (st.log e).walletTotal u = st.walletTotal u + e.walletDelta u := by
  simp only [TaskStore.walletTotal, TaskStore.log_world, TaskStore.log_events, List.map_append,
    List.sum_append, List.map_cons, List.map_nil, List.sum_cons, List.sum_nil]
  omega

/-- A change of the funding source takes `delta` from the wallet, if the task is charged to it. -/
theorem taskAdjustFunding_userQuota {cfg : BillingConfig} {faults : FundingSource.ChangeFaults}
    {task : Task} {delta : ℤ} {w w' : World}
    (h : taskAdjustFunding cfg faults task delta w = .ok w') (u : ℤ) (kind : TaskEventKind) :
    w'.userQuota u + TaskEvent.walletDelta u ⟨task, kind, delta⟩ = w.userQuota u := by
  have hwallet : ∀ x, w' = w.addUserQuota task.userId (-x) → taskIsSubscription task = false →
      w'.userQuota u + TaskEvent.walletDelta u ⟨task, kind, x⟩ = w.userQuota u := by
    rintro x rfl hsub
    rcases eq_or_ne task.userId u with rfl | hne
    · simp only [World.addUserQuota_self, TaskEvent.walletDelta, hsub, true_and, if_true]
      omega
    · simp [World.addUserQuota, TaskEvent.walletDelta, hne, Function.update_of_ne hne.symm]
  unfold taskAdjustFunding at h
  cases hsub : taskIsSubscription task with
  | true =>
    simp only [hsub, if_true, FundingSource.postConsume] at h
    cases hpost : postConsumeUserSubscriptionDelta faults.sub task.privateData.subscriptionId
        delta w.store with
    | error e => simp [hpost, Except.map] at h
    | ok store =>
      rw [hpost] at h
      simp [TaskEvent.walletDelta, hsub, ← Except.ok.inj h]
  | false =>
    simp only [hsub, Bool.false_eq_true, if_false] at h
    split at h
    · exact hwallet delta (changeQuota_ok h).2 hsub
    · have hw := (changeQuota_ok h).2
      exact hwallet delta hw hsub

@[simp] theorem taskAdjustTokenQuota_userQuota (delta : ℤ) (w : World) :
    (taskAdjustTokenQuota cfg env task delta w).userQuota = w.userQuota := by
  unfold taskAdjustTokenQuota
  split
  · rfl
  · split
    · rfl
    · split
      · rfl
      · rename_i h
        split at h <;> rw [(changeQuota_ok h).2, World.addTokenQuota_userQuota]

/-- A refund adds to the wallet what it takes off the charge. -/
theorem walletTotal_refund :
    (refundTaskQuota cfg env task st).walletTotal u = st.walletTotal u := by
  unfold refundTaskQuota
  dsimp only
  split
  · rfl
  · cases hfunding : taskAdjustFunding cfg env.funding task (-task.quota) st.world with
    | error e => simp [walletTotal_log, TaskEvent.walletDelta]
    | ok w =>
      have := taskAdjustFunding_userQuota hfunding u .refund
      dsimp only
      rw [walletTotal_log]
      simp only [TaskStore.walletTotal, taskAdjustTokenQuota_userQuota]
      omega

theorem recalculateTaskQuota_userQuota (actualQuota : ℤ) (u : ℤ) (w : World) :
    (recalculateTaskQuota cfg env task actualQuota w).2.userQuota u +
        TaskEvent.walletDelta u
          ⟨task, .settle, (recalculateTaskQuota cfg env task actualQuota w).1.quota - task.quota⟩ =
      w.userQuota u := by
  unfold recalculateTaskQuota
  split
  · simp [TaskEvent.walletDelta]
  · dsimp only
    split
    · simp [TaskEvent.walletDelta]
    · cases hfunding : taskAdjustFunding cfg env.funding task (actualQuota - task.quota) w with
      | error e => simp [TaskEvent.walletDelta]
      | ok w' =>
        have := taskAdjustFunding_userQuota hfunding u .settle
        simpa using this

/-- A settlement takes from the wallet what it adds to the charge. -/
theorem walletTotal_settle :
    (settleTaskBillingOnComplete cfg env adjusted priceByTokens task taskResult
      st).2.walletTotal u = st.walletTotal u := by
  have hkept : st.world.userQuota u + TaskEvent.walletDelta u
      ⟨task, .settle, task.quota - task.quota⟩ = st.world.userQuota u := by
    simp [TaskEvent.walletDelta]
  have hcharge : (settledCharge cfg env adjusted priceByTokens task taskResult
      st.world).2.userQuota u + TaskEvent.walletDelta u ⟨task, .settle,
        (settledCharge cfg env adjusted priceByTokens task taskResult st.world).1.quota -
          task.quota⟩ = st.world.userQuota u := by
    unfold settledCharge
    split
    · exact hkept
    · split
      · exact recalculateTaskQuota_userQuota cfg env task adjusted u st.world
      · split
        · unfold recalculateTaskQuotaByTokens
          split
          · exact hkept
          · cases priceByTokens with
            | none => exact hkept
            | some q => exact recalculateTaskQuota_userQuota cfg env task q u st.world
        · exact hkept
  simp only [settleTaskBillingOnComplete]
  rw [walletTotal_log]
  simp only [TaskStore.walletTotal]
  omega

end NewApi

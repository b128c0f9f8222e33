/-
**Every failed task is refunded.**

A task fails when a visit or a report says so or when it times out, and then it is refunded in the
same step.  Three other steps fail a task and bill nobody: the bulk update of tasks without an id
at the upstream service, the bulk update of the tasks of a channel that is not found, and a fetch
at a user's request that learns of the failure.

Where none of these steps meets a task, the failure of its row and its refund are one step.  If
besides every billing step ends the row it bills, and every refund can be carried out, a failed task
has been charged nothing.

Main definitions:

* `NewApi.silentlyFailed` — the tasks an action fails without billing them;
* `NewApi.Spared` — the action does not end the task in this way;
* `NewApi.Fair` — the action neither fails the task silently, nor bills it without ending it, and
  a refund it makes can be carried out.

Main results:

* `NewApi.refundedIn_step`, `NewApi.charge_step` — **what one action does**;
* `NewApi.failure_refunded` — runs that spare a task refund it in the step in which it fails, and in
  fair runs the net charge of a failed task is zero.
-/

import NewApi.TaskOnce

set_option autoImplicit false

namespace NewApi

/-! ### Silent failures -/

/-- The tasks that an action fails, or would fail if they had not ended, without billing them. -/
def silentlyFailed (cfg : TaskConfig) (s : System) : Action → List ℤ
  | .poll n (.platform platform bulk) =>
    let p := s.pollers n
    if bulk ≠ none ∨ p.taskChannelM ≠ [] ∨ p.taskIds ≠ [] ∨ p.items ≠ [] then []
    else (Rows.first Prod.fst platform p.platformTask).elim [] fun g => nullTaskIds g.2
  | .poll n (.channel channelId (.lookupFailed bulk)) =>
    let p := s.pollers n
    if bulk ≠ none ∨ p.taskIds ≠ [] ∨ p.items ≠ [] then []
    else (Rows.first Prod.fst channelId p.taskChannelM).elim [] fun c => p.failedIDs c.2
  | .fetch n (some ti) none =>
    match s.fetches n with
    | none => []
    | some t =>
      if (fetched cfg ti t).status = taskStatusFailure ∧ s.store.tasks.hasStatus t.status t then
        [t.id]
      else []
  | _ => []

/-- The action does not end the task by failing it silently, and does not sweep it as one of the
time before refunds. -/
def Spared (cfg : TaskConfig) (id : ℤ) (s : System) (a : Action) : Prop :=
  (id ∈ silentlyFailed cfg s a → s.store.ended id ≠ none) ∧
    match a with
    | .sweep n _ => ∀ t ∈ (s.sweeps n).head?, t.id = id → t.isLegacy = false
    | _ => True

instance (cfg : TaskConfig) (id : ℤ) (s : System) (a : Action) : Decidable (Spared cfg id s a) := by
  unfold Spared
  cases a <;> infer_instance

/-- If the task ends with a failure, it is refunded in this step. -/
def RefundedIn (id : ℤ) (st st' : TaskStore) : Prop :=
  st.ended id = none → st'.ended id = some taskStatusFailure →
    ∃ e, st'.eventsOf id = st.eventsOf id ++ [e] ∧ e.kind = .refund

variable {id q : ℤ} {st st' : TaskStore} {t : Task} {cfg : TaskConfig} {env : TaskBillingEnv}
  {r : Task × TaskStore} {answer : Option VideoResponse} {fault : Fault} {ids : List ℤ}
  {failReason : Option String} {s : System} {a : Action}

theorem refundedIn_of_same (h : st'.ended id = st.ended id) :
    RefundedIn id st st' := by
  intro hopen hfailed
  rw [h, hopen] at hfailed
  exact absurd hfailed (by simp)

theorem refundedIn_of_onlyTask (h : OnlyTask t.id st st') (hne : t.id ≠ id) :
    RefundedIn id st st' :=
  refundedIn_of_same (TaskStore.ended_congr (h id hne.symm).1)

/-- A refund of a task that was charged puts one entry on the list. -/
theorem refund_eventsOf_of_ne_zero (cfg : BillingConfig) (env : TaskBillingEnv) (st : TaskStore)
    (h : t.quota ≠ 0) :
    ∃ e, (refundTaskQuota cfg env t st).eventsOf t.id = st.eventsOf t.id ++ [e] ∧
      e.kind = .refund := by
  obtain ⟨delta, hevents, _⟩ := refundTaskQuota_of_ne_zero cfg env st h
  exact ⟨_, eventsOf_append hevents rfl, rfl⟩

/-- A compare-and-set from a final status ends no task that has not ended. -/
theorem ended_cas_of_done {fromStatus : TaskStatus} (hdone : fromStatus.isDone = true)
    (hopen : st.ended t.id = none) :
    st.tasks.cas fromStatus t = st.tasks := by
  cases hwon : st.tasks.hasStatus fromStatus t with
  | false => exact TaskTable.cas_of_lost hwon
  | true =>
    rw [TaskStore.ended_of_hasStatus hwon, hdone] at hopen
    exact absurd hopen (by simp)

/-- What a billing of a task that has ended leaves of the row. -/
theorem Billed.ended (h : Billed cfg env t st r) (id : ℤ) : r.2.ended id = st.ended id := by
  rw [TaskStore.ended, h.tasks, TaskStore.ended]

/-- The final status of a row that a visit has ended. -/
theorem ended_of_won {fromStatus : TaskStatus} (hdone : t.status.isDone = true)
    (hwon : st.tasks.hasStatus fromStatus t = true)
    (hbilled : Billed cfg env t { st with tasks := st.tasks.cas fromStatus t } r) :
    r.2.ended t.id = some t.status := by
  rw [hbilled.ended, TaskStore.ended_cas_won hwon, hdone]
  simp

theorem refundedIn_visit (h : Visit cfg answer t st r) (hquota : t.quota ≠ 0) :
    RefundedIn t.id st r.2 := by
  cases h with
  | stopped t' hcarries => exact refundedIn_of_same rfl
  | moved t' hcarries hopen =>
    rw [← hcarries.id_eq]
    intro hbefore hafter
    cases hwon : st.tasks.hasStatus t.status t' with
    | true =>
      rw [TaskStore.ended_cas_won hwon, hopen] at hafter
      exact absurd hafter (by simp)
    | false =>
      rw [TaskTable.cas_of_lost hwon, hbefore] at hafter
      exact absurd hafter (by simp)
  | ended t' r hcarries hreported hdone hne hwon hbilled =>
    rw [← hcarries.id_eq]
    intro hbefore hafter
    rw [ended_of_won hdone hwon hbilled] at hafter
    cases hbilled with
    | refund hstatus =>
      exact refund_eventsOf_of_ne_zero cfg.billing _ _ (by rw [hcarries.2]; exact hquota)
    | settle adjusted priceByTokens taskResult hstatus =>
      rw [hstatus, Option.some.injEq] at hafter
      exact absurd hafter.symm failure_ne_success
  | again t' tasks r hcarries hdone heq htasks hbilled =>
    rw [← hcarries.id_eq]
    intro hbefore hafter
    have hsame : tasks = st.tasks := by
      rcases htasks with rfl | rfl
      · rfl
      · exact ended_cas_of_done hdone hbefore
    rw [hbilled.ended, hsame, hbefore] at hafter
    exact absurd hafter (by simp)

theorem refundedIn_sweepTask (cfg : TaskConfig) (env : SweepEnv) (st : TaskStore)
    (hlegacy : t.isLegacy = false) (hquota : t.quota ≠ 0) :
    RefundedIn t.id st (sweepTask cfg env t st) := by
  rcases sweepTask_cases cfg env t st with h | ⟨hwon, h⟩
  · rw [h]
    exact refundedIn_of_same rfl
  · rw [h, hlegacy, if_neg (by simp)]
    intro _ _
    have hcharged : (t.timedOut cfg env.now).quota ≠ 0 := hquota
    exact refund_eventsOf_of_ne_zero cfg.billing env.billing
      { st with tasks := st.tasks.cas t.status (t.timedOut cfg env.now) } hcharged

theorem refundedIn_updateSunoTask (cfg : TaskConfig) (env : SunoEnv) (item : SunoDataResponse)
    (st : TaskStore) (hquota : t.quota ≠ 0) :
    RefundedIn t.id st (updateSunoTask cfg env item t st).2 := by
  rcases updateSunoTask_cases cfg env item t st with ⟨_, h⟩ | ⟨_, _, h⟩ | ⟨_, _, h⟩
  · rw [h]
    exact refundedIn_of_same rfl
  · rw [h]
    exact refundedIn_of_same (by rw [TaskStore.ended, sunoRefunded_tasks, TaskStore.ended])
  · rw [h]
    intro _ hafter
    have hget : (st.tasks.save (item.written t)).get t.id = some (item.written t) :=
      TaskTable.get_save (item.written t) st.tasks
    obtain ⟨r, hr, hstatus, _⟩ := TaskStore.ended_eq_some.1 hafter
    obtain rfl : item.written t = r := Option.some.inj (hget.symm.trans hr)
    -- the row is written as failed, so the report was handled as a failure
    have hfails : item.fails (item.apply t) = true := by
      simp [SunoDataResponse.fails, ← written_status, hstatus]
    have hrefund := refund_eventsOf_of_ne_zero cfg.billing env.billing st
      (show ({ item.apply t with progress := "100%" } : Task).quota ≠ 0 from hquota)
    unfold sunoRefunded
    rw [if_pos hfails]
    exact hrefund

/-- A bulk update ends only the tasks it names. -/
theorem ended_bulkFail (h : fault ≠ none ∨ id ∉ ids) :
    (st.bulkFail fault ids failReason).ended id = st.ended id := by
  rcases bulkFail_cases fault ids failReason st with heq | ⟨tasks, hbulk, heq⟩
  · rw [heq]
  · rw [heq]
    refine TaskStore.ended_congr ?_
    have hget := TaskTable.get_bulkUpdate hbulk id
    rcases h with hfault | hid
    · -- a bulk update that fails is not carried out, unless it has nothing to do
      unfold TaskTable.bulkUpdate at hbulk
      split at hbulk
      · rw [← Except.ok.inj hbulk]
      · exact absurd (guardFault_eq_ok.1 hbulk).1 hfault
    · cases hrow : st.tasks.get id with
      | none => simpa [hrow] using hget
      | some r =>
        have hr : r.id ∉ ids := by
          rw [TaskTable.id_of_get hrow]
          exact hid
        simpa [hrow, hr] using hget

/-- What a bulk update does to a task: nothing, or it fails it. -/
theorem bulkFail_same_or_failed (id : ℤ) (fault : Fault) (ids : List ℤ)
    (failReason : Option String) (st : TaskStore) :
    (st.bulkFail fault ids failReason).ended id = st.ended id ∨ (fault = none ∧ id ∈ ids) := by
  by_cases h : fault ≠ none ∨ id ∉ ids
  · exact Or.inl (ended_bulkFail h)
  · rw [not_or, not_not, not_not] at h
    exact Or.inr h

theorem refundedIn_bulkFail (h : fault = none → id ∈ ids → st.ended id ≠ none) :
    RefundedIn id st (st.bulkFail fault ids failReason) := by
  rcases bulkFail_same_or_failed id fault ids failReason st with hsame | ⟨hfault, hid⟩
  · exact refundedIn_of_same hsame
  · intro hopen _
    exact absurd hopen (h hfault hid)

/-- A task whose copies were all charged is refunded in the step in which it fails, if the step
spares it. -/
theorem refundedIn_step (hquota : Everywhere (fun t => t.id = id → t.quota ≠ 0) s)
    (hspared : Spared cfg id s a) :
    RefundedIn id s.store (step cfg s a).store := by
  cases a with
  | poll n a =>
    simp only [step]
    cases a with
    | start query => exact refundedIn_of_same rfl
    | platform platform bulk =>
      have hsilent := hspared.1
      simp only [silentlyFailed] at hsilent
      simp only [pollStep]
      split
      · exact refundedIn_of_same rfl
      · rename_i hidle
        split
        · exact refundedIn_of_same rfl
        · rename_i tasks hfirst
          refine refundedIn_bulkFail fun hbulk hid => hsilent ?_
          rw [if_neg (by rw [not_or]; exact ⟨by simp [hbulk], hidle⟩), hfirst]
          exact hid
    | channel channelId answer =>
      simp only [pollStep]
      split
      · exact refundedIn_of_same rfl
      · rename_i hidle
        split
        · exact refundedIn_of_same rfl
        · rename_i taskIds hfirst
          cases answer with
          | lookupFailed bulk =>
            have hsilent := hspared.1
            simp only [silentlyFailed] at hsilent
            refine refundedIn_bulkFail fun hbulk hid => hsilent ?_
            rw [if_neg (by rw [not_or]; exact ⟨by simp [hbulk], hidle⟩), hfirst]
            exact hid
          | failed => exact refundedIn_of_same rfl
          | found items =>
            dsimp only
            split <;> exact refundedIn_of_same rfl
    | visit answer =>
      simp only [pollStep]
      cases hnext : (s.pollers n).nextVisit with
      | none => exact refundedIn_of_same rfl
      | some v =>
        obtain ⟨u, t⟩ := v
        have hresult := updateVideoSingleTask_visit cfg answer t s.store
        rcases eq_or_ne t.id id with rfl | hne
        · exact refundedIn_visit hresult ((hquota.pollers n).nextVisit hnext rfl)
        · exact refundedIn_of_onlyTask hresult.onlyTask hne
    | item env =>
      simp only [pollStep]
      cases hitems : (s.pollers n).items with
      | nil => exact refundedIn_of_same rfl
      | cons item items =>
        dsimp only
        cases htask : (s.pollers n).task item.taskId with
        | none => exact refundedIn_of_same rfl
        | some t =>
          rcases eq_or_ne t.id id with rfl | hne
          · exact refundedIn_updateSunoTask cfg env item s.store
              ((hquota.pollers n).task htask rfl)
          · exact refundedIn_of_onlyTask
              (onlyTask_updateSunoTask cfg env item t s.store) hne
  | sweepStart n now query => exact refundedIn_of_same rfl
  | sweep n env =>
    simp only [step]
    cases hsweep : s.sweeps n with
    | nil => exact refundedIn_of_same rfl
    | cons t tasks =>
      rcases eq_or_ne t.id id with rfl | hne
      · have hlegacy := hspared.2 t (by simp [hsweep]) rfl
        exact refundedIn_sweepTask cfg env s.store hlegacy
          (hquota.sweeps n t (by simp [hsweep]) rfl)
      · exact refundedIn_of_onlyTask (onlyTask_sweepTask cfg env t s.store) hne
  | fetchStart n userId taskId => exact refundedIn_of_same rfl
  | fetch n report write =>
    simp only [step]
    cases hfetch : s.fetches n with
    | none => exact refundedIn_of_same rfl
    | some t =>
      dsimp only
      rcases tryRealtimeFetch_cases cfg report write t s.store with
        hnothing | ⟨ti, rfl, rfl, hwrite⟩
      · exact refundedIn_of_same (by rw [hnothing])
      · rcases eq_or_ne t.id id with rfl | hne
        · intro hopen hafter
          rw [hwrite] at hafter
          have hid : (fetched cfg ti t).id = t.id := rfl
          cases hwon : s.store.tasks.hasStatus t.status (fetched cfg ti t) with
          | false =>
            rw [TaskTable.cas_of_lost hwon, hopen] at hafter
            exact absurd hafter (by simp)
          | true =>
            have hstatus : (fetched cfg ti t).status = taskStatusFailure := by
              rw [← hid, TaskStore.ended_cas_won hwon] at hafter
              split at hafter
              · exact Option.some.inj hafter
              · exact absurd hafter (by simp)
            have hsilent := hspared.1
            simp only [silentlyFailed, hfetch] at hsilent
            refine absurd hopen (hsilent ?_)
            rw [if_pos ⟨hstatus, hwon⟩]
            exact List.mem_singleton_self _
        · exact refundedIn_of_onlyTask (onlyTask_tryRealtimeFetch cfg (some ti) none t s.store)
            hne

/-! ### Fair actions -/

/-- Whether the funding source of a task can be given back its charge. -/
def canRefund (cfg : TaskConfig) (env : TaskBillingEnv) (t : Task) (st : TaskStore) : Bool :=
  match taskAdjustFunding cfg.billing env.funding t (-t.quota) st.world with
  | .error _ => false
  | .ok _ => true

/-- A report that causes a refund finds the row unfinished, ends it and is written, and the refund
can be carried out; another report that is written leaves the status of a row that has ended. -/
def sunoFair (cfg : TaskConfig) (env : SunoEnv) (item : SunoDataResponse) (t : Task)
    (st : TaskStore) : Prop :=
  taskNeedsUpdate t item = true →
    if item.fails (item.apply t) = true ∧ t.quota ≠ 0 then
      st.ended t.id = none ∧ (item.apply t).status.isDone = true ∧ env.write = none ∧
        canRefund cfg env.billing t st = true
    else st.ended t.id = none ∨ st.ended t.id = some (item.apply t).status ∨ env.write ≠ none

instance (cfg : TaskConfig) (env : SunoEnv) (item : SunoDataResponse) (t : Task) (st : TaskStore) :
    Decidable (sunoFair cfg env item t st) := by
  unfold sunoFair; infer_instance

/-- As far as the task `id` is concerned, the action fails no task silently; what it bills it ends,
and it can give back the charge of what it fails; what has ended keeps its status. -/
def Fair (cfg : TaskConfig) (id : ℤ) (s : System) (a : Action) : Prop :=
  (id ∈ silentlyFailed cfg s a → s.store.ended id = some taskStatusFailure) ∧
    match a with
    | .poll n (.visit answer) => ∀ v ∈ (s.pollers n).nextVisit, v.2.id = id →
        ∀ u ∈ reported cfg answer v.2, v.2.status.isDone = false ∧
          (u.status = taskStatusFailure →
            canRefund cfg (billingEnv answer) v.2 s.store = true)
    | .poll n (.item env) => ∀ v ∈ (s.pollers n).nextItem, v.2.id = id →
        sunoFair cfg env v.1 v.2 s.store
    | .sweep n env => ∀ t ∈ (s.sweeps n).head?, t.id = id →
        t.isLegacy = false ∧ canRefund cfg env.billing t s.store = true
    | .fetch n report _ => ∀ t ∈ s.fetches n, t.id = id → ∀ ti ∈ report,
        t.status.isDone = true → (fetched cfg ti t).status = t.status
    | _ => True

instance (cfg : TaskConfig) (id : ℤ) (s : System) (a : Action) : Decidable (Fair cfg id s a) := by
  unfold Fair
  cases a with
  | poll n a => cases a <;> infer_instance
  | sweepStart n now query => infer_instance
  | sweep n env => infer_instance
  | fetchStart n userId taskId => infer_instance
  | fetch n report write => infer_instance

/-! ### The charge of a failed task -/

/-- The step leaves the task alone, or ends it; a failure takes its whole charge `q` off. -/
abbrev ChargeStep (id q : ℤ) (st st' : TaskStore) : Prop :=
  Latch.Step (TaskStore.ended id) (TaskStore.eventsOf id)
    (fun w es => w = taskStatusFailure → (es.map TaskEvent.delta).sum = -q) st st'

/-- The charge `q` of an open task is untouched, and that of a failed task is taken off. -/
abbrev ChargeSound (id q : ℤ) (st : TaskStore) : Prop :=
  Latch.Sound (TaskStore.ended id) (TaskStore.eventsOf id)
    (fun w es => w = taskStatusFailure → (es.map TaskEvent.delta).sum = -q) st

theorem chargeStep_of_same (hended : st'.ended id = st.ended id)
    (hevents : st'.eventsOf id = st.eventsOf id) : ChargeStep id q st st' := .keep hended hevents

theorem chargeStep_refl (id q : ℤ) (st : TaskStore) : ChargeStep id q st st :=
  chargeStep_of_same rfl rfl

theorem chargeStep_of_onlyTask (h : OnlyTask t.id st st') (hne : t.id ≠ id) :
    ChargeStep id q st st' := by
  obtain ⟨hget, hevents⟩ := h id hne.symm
  exact chargeStep_of_same (TaskStore.ended_congr hget) hevents

theorem taskAdjustFunding_sameAs {cfg : BillingConfig} {faults : FundingSource.ChangeFaults}
    {t' : Task} {delta : ℤ} {w : World} (h : t.SameAs t') :
    taskAdjustFunding cfg faults t' delta w = taskAdjustFunding cfg faults t delta w := by
  obtain ⟨_, _, _, huser, _, hprivate⟩ := h
  have hsource := congrArg TaskPrivateData.billingSource hprivate
  have hsub := congrArg TaskPrivateData.subscriptionId hprivate
  dsimp only at hsource hsub
  have hkind : taskIsSubscription t' = taskIsSubscription t := by
    rw [taskIsSubscription, hsource, hsub, taskIsSubscription]
  rw [taskAdjustFunding, hkind, hsub, huser, taskAdjustFunding]

/-- A refund that can be carried out takes the whole charge off. -/
theorem refund_eventsOf_of_canRefund {t' : Task} (hcarries : t.Carries t') (hquota : t.quota ≠ 0)
    (hworld : st'.world = st.world) (h : canRefund cfg env t st = true) :
    ∃ e, (refundTaskQuota cfg.billing env t' st').eventsOf t'.id = st'.eventsOf t'.id ++ [e] ∧
      e.delta = -t.quota := by
  unfold canRefund at h
  cases hfunding : taskAdjustFunding cfg.billing env.funding t (-t.quota) st.world with
  | error e => simp [hfunding] at h
  | ok w =>
    have hfunding' : taskAdjustFunding cfg.billing env.funding t' (-t'.quota) st'.world =
        .ok w := by
      rw [taskAdjustFunding_sameAs hcarries.1, hcarries.2, hworld, hfunding]
    have hevents := refundTaskQuota_ok (by rw [hcarries.2]; exact hquota) hfunding'
    exact ⟨_, eventsOf_append hevents rfl, by rw [hcarries.2]⟩

/-- A step that ends a task with a failure and takes its charge off. -/
theorem chargeStep_of_refunded {status : TaskStatus} (hopen : st.ended id = none)
    (hended : st'.ended id = some status)
    (hevents : ∃ e, st'.eventsOf id = st.eventsOf id ++ [e] ∧ e.delta = -q) :
    ChargeStep id q st st' := by
  obtain ⟨e, hevents, hdelta⟩ := hevents
  refine .set status [e] hopen hended hevents fun _ => ?_
  simp [hdelta]

theorem chargeStep_visit (h : Visit cfg answer t st r) (hopen : t.status.isDone = false)
    (hquota : st.ended t.id = none → t.quota = q) (hq : q ≠ 0)
    (hcan : ∀ u ∈ reported cfg answer t, u.status = taskStatusFailure →
      canRefund cfg (billingEnv answer) t st = true) :
    ChargeStep t.id q st r.2 := by
  cases h with
  | stopped t' hcarries => exact chargeStep_refl _ _ st
  | moved t' hcarries hgoes =>
    have hsame : { st with tasks := st.tasks.cas t.status t' }.ended t'.id = st.ended t'.id :=
      TaskStore.ended_cas_open hopen hgoes
    rw [hcarries.id_eq] at hsame
    exact chargeStep_of_same hsame rfl
  | ended t' r hcarries hreported hdone hne hwon hbilled =>
    have hbefore : st.ended t'.id = none := by
      rw [TaskStore.ended_of_hasStatus hwon, hopen]
      simp
    have hafter := ended_of_won hdone hwon hbilled
    obtain ⟨u, hu, hstatus⟩ := Option.map_eq_some_iff.1 hreported
    obtain rfl : t.quota = q := hquota (hcarries.id_eq ▸ hbefore)
    rw [← hcarries.id_eq]
    cases hbilled with
    | refund hfailed =>
      have hcanRefund := hcan u hu (hstatus.trans hfailed)
      exact chargeStep_of_refunded hbefore hafter
        (refund_eventsOf_of_canRefund hcarries hq rfl hcanRefund)
    | settle adjusted priceByTokens taskResult hsuccess =>
      obtain ⟨q, delta, _, _, _, hevents⟩ := settleTaskBillingOnComplete_spec cfg.billing
        (billingEnv answer) adjusted priceByTokens t'
        taskResult { st with tasks := st.tasks.cas t.status t' }
      refine .set t'.status _ hbefore hafter (eventsOf_append hevents rfl) fun hfailed => ?_
      exact absurd (hfailed.symm.trans hsuccess) failure_ne_success
  | again t' tasks r hcarries hdone heq htasks hbilled => simp [hopen] at hdone

theorem chargeStep_sweepTask (cfg : TaskConfig) (env : SweepEnv) (st : TaskStore)
    (hopen : t.status.isDone = false) (hquota : st.ended t.id = none → t.quota = q) (hq : q ≠ 0)
    (hlegacy : t.isLegacy = false) (hcan : canRefund cfg env.billing t st = true) :
    ChargeStep t.id q st (sweepTask cfg env t st) := by
  rcases sweepTask_cases cfg env t st with h | ⟨hwon, h⟩
  · rw [h]
    exact chargeStep_refl _ _ st
  · rw [h, hlegacy, if_neg (by simp)]
    have hid : (t.timedOut cfg env.now).id = t.id := rfl
    have hbefore : st.ended t.id = none := by
      have := TaskStore.ended_of_hasStatus hwon
      rw [hopen, hid] at this
      simpa using this
    obtain rfl : t.quota = q := hquota hbefore
    have hafter := TaskStore.ended_cas_won hwon
    have hstatus : (t.timedOut cfg env.now).status = taskStatusFailure := rfl
    rw [hid, hstatus, isDone_failure, if_pos rfl] at hafter
    refine chargeStep_of_refunded hbefore ((ended_refund _ _ _ _ _).trans hafter) ?_
    exact refund_eventsOf_of_canRefund (timedOut_carries cfg env.now t) hq rfl hcan

theorem chargeStep_updateSunoTask (cfg : TaskConfig) {env : SunoEnv} {item : SunoDataResponse}
    (hquota : st.ended t.id = none → t.quota = q) (hq : q ≠ 0) (h : sunoFair cfg env item t st) :
    ChargeStep t.id q st (updateSunoTask cfg env item t st).2 := by
  rcases updateSunoTask_cases cfg env item t st with
    ⟨_, heq⟩ | ⟨hneeds, hfault, heq⟩ | ⟨hneeds, hwrite, heq⟩
  · rw [heq]
    exact chargeStep_refl _ _ st
  · have hfair := h hneeds
    rw [heq]
    split at hfair
    · exact absurd hfair.2.2.1 hfault
    · rename_i hno
      rw [sunoRefunded_of_not hno]
      exact chargeStep_refl _ _ st
  · have hfair := h hneeds
    have hafter := TaskStore.ended_written cfg env item t st
    rw [heq]
    split at hfair
    · rename_i hrefund
      obtain ⟨hopen, hdone, _, hcan⟩ := hfair
      obtain rfl : t.quota = q := hquota hopen
      rw [hdone, if_pos rfl] at hafter
      refine chargeStep_of_refunded hopen hafter ?_
      have hcarries : t.Carries { item.apply t with progress := "100%" } :=
        ⟨⟨rfl, rfl, rfl, rfl, rfl, rfl⟩, rfl⟩
      rw [sunoRefunded, if_pos hrefund.1]
      exact refund_eventsOf_of_canRefund hcarries hq rfl hcan
    · rename_i hno
      rw [sunoRefunded_of_not hno] at hafter ⊢
      rcases hfair with hopen | hkept | hfault
      · cases hdone : (item.apply t).status.isDone with
        | true =>
          rw [hdone, if_pos rfl] at hafter
          refine .set _ [] hopen hafter (List.append_nil _).symm fun hfailed => ?_
          -- the report makes the task a failed one, and it was charged
          refine absurd ⟨?_, ?_⟩ hno
          · simp [SunoDataResponse.fails, hfailed]
          · rwa [hquota hopen]
        | false =>
          rw [hdone, if_neg (by simp)] at hafter
          exact chargeStep_of_same (hafter.trans hopen.symm) rfl
      · obtain ⟨_, _, _, hdone⟩ := TaskStore.ended_eq_some.1 hkept
        rw [hdone, if_pos rfl] at hafter
        exact chargeStep_of_same (hafter.trans hkept.symm) rfl
      · exact absurd hwrite hfault

theorem chargeStep_bulkFail (h : fault = none → id ∈ ids → st.ended id = some taskStatusFailure) :
    ChargeStep id q st (st.bulkFail fault ids failReason) := by
  have hevents : (st.bulkFail fault ids failReason).eventsOf id = st.eventsOf id := by
    rw [TaskStore.eventsOf, bulkFail_events, TaskStore.eventsOf]
  refine chargeStep_of_same ?_ hevents
  rcases bulkFail_same_or_failed id fault ids failReason st with hsame | ⟨hfault, hid⟩
  · exact hsame
  · have hfailed := h hfault hid
    rcases bulkFail_cases fault ids failReason st with heq | ⟨tasks, hbulk, heq⟩
    · rw [heq]
    · -- the row had failed before, and is failed again
      obtain ⟨r, hrow, hstatus, _⟩ := TaskStore.ended_eq_some.1 hfailed
      have hget := TaskTable.get_bulkUpdate hbulk id
      rw [hrow, Option.map_some] at hget
      rw [heq, hfailed, TaskStore.ended_of_get hget]
      split <;> simp [TaskTable.failed, hstatus]

/-- A fetch that neither fails the task silently nor changes the status of an ended one. -/
theorem chargeStep_tryRealtimeFetch {report : Option TaskInfo}
    (hsilent : ∀ ti, report = some ti → fault = none →
      (fetched cfg ti t).status = taskStatusFailure → st.tasks.hasStatus t.status t = true →
        st.ended t.id = some taskStatusFailure)
    (hkeeps : ∀ ti ∈ report, t.status.isDone = true → (fetched cfg ti t).status = t.status) :
    ChargeStep t.id q st (tryRealtimeFetch cfg report fault t st) := by
  rcases tryRealtimeFetch_cases cfg report fault t st with h | ⟨ti, hreport, hfault, h⟩
  · rw [h]
    exact chargeStep_refl _ _ st
  · rw [h]
    have hid : (fetched cfg ti t).id = t.id := rfl
    cases hwon : st.tasks.hasStatus t.status (fetched cfg ti t) with
    | false =>
      rw [TaskTable.cas_of_lost hwon]
      exact chargeStep_refl _ _ st
    | true =>
      have hbefore := TaskStore.ended_of_hasStatus hwon
      have hafter := TaskStore.ended_cas_won hwon
      rw [hid] at hbefore hafter
      cases hdone : t.status.isDone with
      | true =>
        have hsame := hkeeps ti hreport hdone
        rw [hsame] at hafter
        exact chargeStep_of_same (hafter.trans hbefore.symm) rfl
      | false =>
        rw [hdone, if_neg (by simp)] at hbefore
        cases hends : (fetched cfg ti t).status.isDone with
        | false =>
          rw [hends, if_neg (by simp)] at hafter
          exact chargeStep_of_same (hafter.trans hbefore.symm) rfl
        | true =>
          rw [hends, if_pos rfl] at hafter
          refine .set _ [] hbefore hafter (by simp [TaskStore.eventsOf]) fun hfailed => ?_
          have := hsilent ti hreport hfault hfailed hwon
          rw [hbefore] at this
          exact absurd this (by simp)

/-- A fair action takes the charge of a task off when it fails the task, if all copies of a task
that has not ended have that charge. -/
theorem charge_step (htidy : Tidy s)
    (hquota : s.store.ended id = none → Everywhere (fun t => t.id = id → t.quota = q) s)
    (hq : q ≠ 0) (hfair : Fair cfg id s a) : ChargeStep id q s.store (step cfg s a).store := by
  cases a with
  | poll n a =>
    simp only [step]
    cases a with
    | start query => exact chargeStep_refl id q s.store
    | platform platform bulk =>
      have hsilent := hfair.1
      simp only [silentlyFailed] at hsilent
      simp only [pollStep]
      split
      · exact chargeStep_refl id q s.store
      · rename_i hidle
        split
        · exact chargeStep_refl id q s.store
        · rename_i tasks hfirst
          refine chargeStep_bulkFail fun hbulk hid => hsilent ?_
          rw [if_neg (by rw [not_or]; exact ⟨by simp [hbulk], hidle⟩), hfirst]
          exact hid
    | channel channelId answer =>
      simp only [pollStep]
      split
      · exact chargeStep_refl id q s.store
      · rename_i hidle
        split
        · exact chargeStep_refl id q s.store
        · rename_i taskIds hfirst
          cases answer with
          | lookupFailed bulk =>
            have hsilent := hfair.1
            simp only [silentlyFailed] at hsilent
            refine chargeStep_bulkFail fun hbulk hid => hsilent ?_
            rw [if_neg (by rw [not_or]; exact ⟨by simp [hbulk], hidle⟩), hfirst]
            exact hid
          | failed => exact chargeStep_refl id q s.store
          | found items =>
            dsimp only
            split <;> exact chargeStep_refl id q s.store
    | visit answer =>
      have hvisit := hfair.2
      dsimp only at hvisit
      simp only [pollStep]
      cases hnext : (s.pollers n).nextVisit with
      | none => exact chargeStep_refl id q s.store
      | some v =>
        obtain ⟨u, t⟩ := v
        have hresult := updateVideoSingleTask_visit cfg answer t s.store
        rcases eq_or_ne t.id id with rfl | hne
        · have hcopy : s.store.ended t.id = none → t.quota = q :=
            fun hopen => ((hquota hopen).pollers n).nextVisit hnext rfl
          have hfairVisit := hvisit (u, t) hnext rfl
          cases hreported : reported cfg answer t with
          | none =>
            simp only [(updateVideoSingleTask_of_silent s.store hreported).2]
            exact chargeStep_refl _ _ s.store
          | some reportedTask =>
            have hopen := (hfairVisit reportedTask hreported).1
            refine chargeStep_visit hresult hopen hcopy hq fun u' hu' => ?_
            exact (hfairVisit u' hu').2
        · exact chargeStep_of_onlyTask hresult.onlyTask hne
    | item env =>
      have hitem := hfair.2
      dsimp only at hitem
      simp only [pollStep]
      cases hitems : (s.pollers n).items with
      | nil => exact chargeStep_refl id q s.store
      | cons item items =>
        dsimp only
        cases htask : (s.pollers n).task item.taskId with
        | none => exact chargeStep_refl id q s.store
        | some t =>
          have hnext : (s.pollers n).nextItem = some (item, t) := by
            simp [Poller.nextItem, hitems, htask]
          rcases eq_or_ne t.id id with rfl | hne
          · have hcopy : s.store.ended t.id = none → t.quota = q :=
              fun hopen => ((hquota hopen).pollers n).task htask rfl
            exact chargeStep_updateSunoTask cfg hcopy hq (hitem (item, t) hnext rfl)
          · exact chargeStep_of_onlyTask
              (onlyTask_updateSunoTask cfg env item t s.store) hne
  | sweepStart n now query => exact chargeStep_refl id q s.store
  | sweep n env =>
    have hswept := hfair.2
    dsimp only at hswept
    simp only [step]
    cases hsweep : s.sweeps n with
    | nil => exact chargeStep_refl id q s.store
    | cons t tasks =>
      have hmem : t ∈ s.sweeps n := by simp [hsweep]
      rcases eq_or_ne t.id id with rfl | hne
      · have hcopy : s.store.ended t.id = none → t.quota = q :=
          fun hopen => (hquota hopen).sweeps n t hmem rfl
        obtain ⟨hlegacy, hcan⟩ := hswept t (by simp [hsweep]) rfl
        exact chargeStep_sweepTask cfg env s.store (htidy.sweeps n t hmem) hcopy hq hlegacy
          hcan
      · exact chargeStep_of_onlyTask (onlyTask_sweepTask cfg env t s.store) hne
  | fetchStart n userId taskId => exact chargeStep_refl id q s.store
  | fetch n report write =>
    obtain ⟨hsilent, hkeeps⟩ := hfair
    dsimp only at hkeeps
    simp only [step]
    cases hfetch : s.fetches n with
    | none => exact chargeStep_refl id q s.store
    | some t =>
      dsimp only
      rcases eq_or_ne t.id id with rfl | hne
      · refine chargeStep_tryRealtimeFetch ?_ (hkeeps t hfetch rfl)
        rintro ti rfl rfl hfailed hwon
        refine hsilent ?_
        simp only [silentlyFailed, hfetch]
        rw [if_pos ⟨hfailed, hwon⟩]
        exact List.mem_singleton_self _
      · exact chargeStep_of_onlyTask (onlyTask_tryRealtimeFetch cfg report write t s.store) hne

/-- What a fair run keeps: copies of an open task have its charge. -/
structure FairInv (id q : ℤ) (s : System) : Prop where
  tidy : Tidy s
  quota : s.store.ended id = none → Everywhere (fun t => t.id = id → t.quota = q) s
  charge : ChargeSound id q s.store

/-- The status a task has ended with is not taken back. -/
theorem ChargeStep.open_before (h : ChargeStep id q st st') (hopen : st'.ended id = none) :
    st.ended id = none := by
  cases h with
  | keep hvalue hlog => rw [← hvalue, hopen]
  | set w es hbefore hvalue hlog hallowed => exact hbefore

/-- A visit that settles the copy it visits has ended its row. -/
theorem Visit.quota_eq (h : Visit cfg answer t st r) (hopen : t.status.isDone = false) :
    r.1.quota = t.quota ∨ r.2.ended t.id ≠ none := by
  cases h with
  | stopped t' hcarries => exact Or.inl hcarries.2
  | moved t' hcarries hgoes => exact Or.inl hcarries.2
  | ended t' r hcarries hreported hdone hne hwon hbilled =>
    refine Or.inr ?_
    rw [← hcarries.id_eq, ended_of_won hdone hwon hbilled]
    simp
  | again t' tasks r hcarries hdone heq htasks hbilled => simp [hopen] at hdone

theorem fairInv_step (h : FairInv id q s) (hq : q ≠ 0) (hfair : Fair cfg id s a) :
    FairInv id q (step cfg s a) := by
  have hcharge := charge_step h.tidy h.quota hq hfair
  refine ⟨tidy_step cfg a h.tidy, ?_, h.charge.step hcharge⟩
  intro hopen
  have hquota := h.quota (hcharge.open_before hopen)
  refine everywhere_step ?_ ?_ hquota
  · intro t t' ht hcarries hid
    rw [hcarries.2]
    exact ht (hcarries.id_eq.symm.trans hid)
  · rintro n answer rfl v hnext hid
    have hresult := updateVideoSingleTask_visit cfg answer v.2 s.store
    have hsame := hresult.sameAs.1.1
    have hcopy := (hquota.pollers n).nextVisit hnext (hsame.symm.trans hid)
    have hfairVisit := hfair.2 v hnext (hsame.symm.trans hid)
    cases hreported : reported cfg answer v.2 with
    | none =>
      rw [(updateVideoSingleTask_of_silent s.store hreported).1.2]
      exact hcopy
    | some u =>
      rcases hresult.quota_eq (hfairVisit u hreported).1 with hkept | hends
      · rw [hkept]
        exact hcopy
      · -- the copy was settled, so the row has ended
        rw [hsame.symm.trans hid] at hends
        refine absurd ?_ hends
        simpa [step, pollStep, hnext] using hopen

/-! ### Runs -/

/-- Two things hold of every task that was charged and has not ended when a run begins.  If the
steps of the run spare it, then a step in which it fails is one in which it is refunded.  If they are
fair, then its net charge is zero when it has failed. -/
theorem failure_refunded (cfg : TaskConfig) (tasks : TaskTable) (w : World) (as : List Action)
    (task : Task) (htask : task ∈ tasks.rows) (hopen : task.status.isDone = false)
    (hquota : task.quota ≠ 0) :
    (Transition.Along (step cfg) (Spared cfg task.id) (System.start tasks w) as →
      Transition.Along (step cfg)
        (fun s a => RefundedIn task.id s.store (step cfg s a).store) (System.start tasks w) as) ∧
    (Transition.Along (step cfg) (Fair cfg task.id) (System.start tasks w) as →
      (Transition.run (step cfg) (System.start tasks w) as).store.ended task.id =
        some taskStatusFailure →
      task.quota +
        (Transition.run (step cfg) (System.start tasks w) as).store.chargeDelta task.id = 0) := by
  have hrow : ∀ r ∈ tasks.rows, r.id = task.id → r = task := by
    intro r hr hid
    exact Rows.eq_of_key_eq tasks.nodup hr htask hid
  refine ⟨fun hspared => ?_, fun hfair hfailed => ?_⟩
  · have hstart : Everywhere (fun t => t.id = task.id → t.quota ≠ 0) (System.start tasks w) := by
      refine everywhere_start w fun r hr hid => ?_
      rw [hrow r hr hid]
      exact hquota
    have hkeep : ∀ s a, Everywhere (fun t => t.id = task.id → t.quota ≠ 0) s →
        Spared cfg task.id s a →
        Everywhere (fun t => t.id = task.id → t.quota ≠ 0) (step cfg s a) := by
      intro s a hs _
      refine everywhere_step_of_sameAs a (fun t t' ht hsame hcharge hid => ?_) hs
      have hbefore := ht (hsame.1.symm.trans hid)
      rcases hcharge with hcharge | hcharge <;> omega
    exact Transition.along_of_invariant hkeep (fun s a hs hok => refundedIn_step hs hok) hstart
      hspared
  · have hstart : FairInv task.id task.quota (System.start tasks w) := by
      refine ⟨tidy_start tasks w, fun _ => ?_, ?_⟩
      · refine everywhere_start w fun r hr hid => ?_
        rw [hrow r hr hid]
      · have hnone : (System.start tasks w).store.ended task.id = none := by
          rw [TaskStore.ended_eq_none]
          intro r hr
          rw [hrow r (TaskTable.mem_of_get hr) (TaskTable.id_of_get hr)]
          exact hopen
        unfold ChargeSound Latch.Sound
        rw [hnone]
        rfl
    have hinv := Transition.run_invariant (fun s a hs hok => fairInv_step hs hquota hok) hstart
      hfair
    have hsum := hinv.charge.allowed_of_set hfailed rfl
    rw [TaskStore.chargeDelta, hsum]
    omega

/-- A poller learns of a failure, while a user asks for the task and a sweep is under way. -/
def failureSeen : List Action :=
  [Action.sweepStart 0 1800009999 none] ++ toChannel 0 "50" [] ++
    [Action.fetchStart 0 1 "task_job", Action.poll 0 (.visit failureAnswer),
      Action.fetch 0 (some { status := "FAILURE" }) none, Action.sweep 0 { now := 1800009999 }]

theorem failure_refunded_seen :
    Transition.Along (step pollingConfig)
        (fun s a => RefundedIn 1 s.store (step pollingConfig s a).store)
        (System.start (oneTask "50") emptyWorld) failureSeen ∧
      100 + (Transition.run (step pollingConfig) (System.start (oneTask "50") emptyWorld)
        failureSeen).store.chargeDelta 1 = 0 := by
  have h := failure_refunded pollingConfig (oneTask "50") emptyWorld failureSeen
    (runningTask 1 "50" "job") (by decide) (by decide) (by decide)
  exact ⟨h.1 (by decide), h.2 (by decide) (by decide)⟩

/-- The channel of a running task has been deleted when a poller comes to it. -/
def channelDeleted : List Action :=
  [.poll 0 (.start none), .poll 0 (.platform "50" none), .poll 0 (.channel 7 (.lookupFailed none))]

/-- The task has failed, and its charge has not been given back. -/
theorem channel_deleted_not_refunded :
    let s := Transition.run (step pollingConfig) (System.start (oneTask "50") emptyWorld)
      channelDeleted
    (runningTask 1 "50" "job").isLegacy = false ∧ (runningTask 1 "50" "job").quota = 100 ∧
      (System.start (oneTask "50") emptyWorld).store.ended 1 = none ∧
      s.store.ended 1 = some taskStatusFailure ∧ s.store.refunds 1 = 0 ∧
      s.store.world.userQuota 1 = 0 := by
  decide

/-- So has a task whose failure a user's request learns of first. -/
example :
    let s := Transition.run (step pollingConfig) (System.start (oneTask "50") emptyWorld)
      [.fetchStart 0 1 "task_job", .fetch 0 (some { status := "FAILURE" }) none]
    s.store.ended 1 = some taskStatusFailure ∧ s.store.refunds 1 = 0 := by
  decide

end NewApi

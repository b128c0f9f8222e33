/-
**A task is billed at most once.**

A task that ends is refunded or settled by whoever ends it, so a task is billed once if every step
that bills it ends its row and no step re-opens a row that has ended.  Sweeps are such steps, as
are visits of copies that have not ended.

A visit of a copy that has ended is not: it finds no difference between the status it saw and the
one it writes, and bills the task without winning an update.  A copy is visited again when two tasks
of a round share an id at the upstream service.  Nor is the handling of a Suno report, which refunds
first and writes afterwards, whatever the row holds.

Main definitions:

* `NewApi.VisitsUnfinished` — a visit that has something to report finds its copy unfinished;
* `NewApi.SunoGuarded` — a report that causes a refund finds the row unfinished and ends it, and
  no other report re-opens a row.

Main results:

* `NewApi.once_step` — **a step that meets both conditions ends a task and bills it at most once**;
* `NewApi.video_billed_once`, `NewApi.suno_refunded_once` — runs whose steps meet the condition for
  their kind of task bill each task at most once.
-/

import NewApi.Lib.Latch
import NewApi.TaskPollingSpec

set_option autoImplicit false

namespace NewApi

/-! ### Ending a row -/

namespace TaskStore

theorem ended_of_hasStatus {fromStatus : TaskStatus} {t : Task} {st : TaskStore}
    (h : st.tasks.hasStatus fromStatus t = true) :
    st.ended t.id = if fromStatus.isDone then some fromStatus else none := by
  obtain ⟨r, hget, hstatus⟩ := TaskTable.hasStatus_iff.1 h
  simp [ended, hget, hstatus]

theorem ended_of_get {id : ℤ} {t : Task} {st : TaskStore} (h : st.tasks.get id = some t) :
    st.ended id = if t.status.isDone then some t.status else none := by
  simp [ended, h]

/-- A report ends the task if its status does. -/
theorem ended_written (cfg : TaskConfig) (env : SunoEnv) (item : SunoDataResponse) (t : Task)
    (st : TaskStore) :
    { sunoRefunded cfg env item t st with tasks := st.tasks.save (item.written t) }.ended t.id =
      if (item.apply t).status.isDone then some (item.apply t).status else none := by
  rw [← written_status]
  exact ended_of_get (TaskTable.get_save (item.written t) st.tasks)

theorem ended_cas_won {fromStatus : TaskStatus} {t : Task} {st : TaskStore}
    (h : st.tasks.hasStatus fromStatus t = true) :
    { st with tasks := st.tasks.cas fromStatus t }.ended t.id =
      if t.status.isDone then some t.status else none := by
  refine ended_of_get ?_
  rw [TaskTable.get_cas, if_pos h]

/-- A compare-and-set from one unfinished status to another ends nothing. -/
theorem ended_cas_open {fromStatus : TaskStatus} {t : Task} {st : TaskStore}
    (hfrom : fromStatus.isDone = false) (hto : t.status.isDone = false) :
    { st with tasks := st.tasks.cas fromStatus t }.ended t.id = st.ended t.id := by
  cases hwon : st.tasks.hasStatus fromStatus t with
  | true =>
    rw [ended_cas_won hwon, ended_of_hasStatus hwon, hfrom, hto]
    simp
  | false => rw [TaskTable.cas_of_lost hwon]

end TaskStore

/-! ### Steps that bill a task at most once -/

/-- The step leaves the task alone, or ends it and bills it at most once. -/
abbrev OnceStep (id : ℤ) (st st' : TaskStore) : Prop :=
  Latch.Step (fun st => (TaskStore.ended id st).map fun _ => ()) (TaskStore.eventsOf id)
    (fun _ es => es.length ≤ 1) st st'

/-- An open task has not been billed, and one that has ended at most once. -/
abbrev BilledOnce (id : ℤ) (st : TaskStore) : Prop :=
  Latch.Sound (fun st => (TaskStore.ended id st).map fun _ => ()) (TaskStore.eventsOf id)
    (fun _ es => es.length ≤ 1) st

theorem BilledOnce.length_le {id : ℤ} {st : TaskStore} (h : BilledOnce id st) :
    (st.eventsOf id).length ≤ 1 := by
  cases hvalue : (TaskStore.ended id st).map fun _ => () with
  | none => simp [h.log_of_open hvalue]
  | some w => exact h.allowed_of_set hvalue

theorem onceStep_of_same {id : ℤ} {st st' : TaskStore} (hended : st'.ended id = st.ended id)
    (hevents : st'.eventsOf id = st.eventsOf id) : OnceStep id st st' :=
  .keep (by simp only [hended]) hevents

theorem onceStep_refl (id : ℤ) (st : TaskStore) : OnceStep id st st := onceStep_of_same rfl rfl

/-- A step about another task. -/
theorem onceStep_of_onlyTask {id : ℤ} {t : Task} {st st' : TaskStore} (h : OnlyTask t.id st st')
    (hne : t.id ≠ id) : OnceStep id st st' := by
  obtain ⟨hget, hevents⟩ := h id hne.symm
  exact onceStep_of_same (TaskStore.ended_congr hget) hevents

/-- A step that ends a task, and puts at most one entry on the list. -/
theorem onceStep_of_ended {id : ℤ} {st st' : TaskStore} (hopen : st.ended id = none)
    (hended : st'.ended id ≠ none)
    (hevents : st'.eventsOf id = st.eventsOf id ∨ ∃ e, st'.eventsOf id = st.eventsOf id ++ [e]) :
    OnceStep id st st' := by
  obtain ⟨status, hstatus⟩ := Option.ne_none_iff_exists'.1 hended
  rcases hevents with hevents | ⟨e, hevents⟩
  · exact .set () [] (by simp [hopen]) (by simp [hstatus]) (by simp [hevents]) (by simp)
  · exact .set () [e] (by simp [hopen]) (by simp [hstatus]) hevents (by simp)

@[simp] theorem ended_refund (cfg : BillingConfig) (env : TaskBillingEnv) (t : Task) (id : ℤ)
    (st : TaskStore) : (refundTaskQuota cfg env t st).ended id = st.ended id := by
  rw [TaskStore.ended, refundTaskQuota_tasks, TaskStore.ended]

/-- A refund puts at most one entry on the list. -/
theorem refund_eventsOf (cfg : BillingConfig) (env : TaskBillingEnv) (t : Task) (st : TaskStore) :
    (refundTaskQuota cfg env t st).eventsOf t.id = st.eventsOf t.id ∨
      ∃ e, (refundTaskQuota cfg env t st).eventsOf t.id = st.eventsOf t.id ++ [e] := by
  by_cases hquota : t.quota = 0
  · rw [refundTaskQuota_of_zero cfg env st hquota]
    exact Or.inl rfl
  · obtain ⟨delta, hevents, _⟩ := refundTaskQuota_of_ne_zero cfg env st hquota
    exact Or.inr ⟨_, eventsOf_append hevents rfl⟩

theorem Billed.eventsOf {cfg : TaskConfig} {env : TaskBillingEnv} {t : Task} {st : TaskStore}
    {r : Task × TaskStore} (h : Billed cfg env t st r) :
    r.2.eventsOf t.id = st.eventsOf t.id ∨ ∃ e, r.2.eventsOf t.id = st.eventsOf t.id ++ [e] := by
  cases h with
  | refund hstatus => exact refund_eventsOf cfg.billing env t st
  | settle adjusted priceByTokens taskResult hstatus =>
    obtain ⟨q, delta, _, _, _, hevents⟩ := settleTaskBillingOnComplete_spec cfg.billing env
      adjusted priceByTokens t taskResult st
    exact Or.inr ⟨_, eventsOf_append hevents rfl⟩

/-- A visit of a copy that has not ended. -/
theorem Visit.onceStep {cfg : TaskConfig} {answer : Option VideoResponse} {t : Task} {st : TaskStore}
    {r : Task × TaskStore} (h : Visit cfg answer t st r) (hopen : t.status.isDone = false) :
    OnceStep t.id st r.2 := by
  cases h with
  | stopped t' hcarries => exact onceStep_refl t.id st
  | moved t' hcarries hgoes =>
    rw [← hcarries.id_eq]
    exact onceStep_of_same (TaskStore.ended_cas_open hopen hgoes) rfl
  | ended t' r hcarries hreported hdone hne hwon hbilled =>
    rw [← hcarries.id_eq]
    -- the row had the status of the copy, which is unfinished
    have hbefore : st.ended t'.id = none := by
      rw [TaskStore.ended_of_hasStatus hwon, hopen]
      simp
    have hafter : r.2.ended t'.id = some t'.status := by
      have hwritten := TaskStore.ended_cas_won hwon
      rw [hdone, if_pos rfl] at hwritten
      rw [← hwritten, TaskStore.ended, TaskStore.ended, hbilled.tasks]
    exact onceStep_of_ended hbefore (by simp [hafter]) hbilled.eventsOf
  | again t' tasks r hcarries hdone heq htasks hbilled => simp [hopen] at hdone

/-- A sweep of a copy that has not ended. -/
theorem onceStep_sweepTask (cfg : TaskConfig) (env : SweepEnv) {t : Task} (st : TaskStore)
    (hopen : t.status.isDone = false) : OnceStep t.id st (sweepTask cfg env t st) := by
  rcases sweepTask_cases cfg env t st with h | ⟨hwon, h⟩
  · rw [h]
    exact onceStep_refl t.id st
  · rw [h]
    have hbefore : st.ended t.id = none := by
      have := TaskStore.ended_of_hasStatus hwon
      rw [hopen] at this
      simpa [Task.timedOut] using this
    have hafter : { st with tasks := st.tasks.cas t.status (t.timedOut cfg env.now) }.ended t.id =
        some taskStatusFailure := by
      have := TaskStore.ended_cas_won hwon
      simpa [Task.timedOut] using this
    split
    · exact onceStep_of_ended hbefore (by simp [hafter]) (Or.inl rfl)
    · have hlog := refund_eventsOf cfg.billing env.billing (t.timedOut cfg env.now)
        { st with tasks := st.tasks.cas t.status (t.timedOut cfg env.now) }
      refine onceStep_of_ended hbefore ?_ hlog
      rw [ended_refund, hafter]
      simp

/-- A bulk update ends tasks and bills nobody. -/
theorem onceStep_bulkFail (id : ℤ) (fault : Fault) (ids : List ℤ) (failReason : Option String)
    (st : TaskStore) : OnceStep id st (st.bulkFail fault ids failReason) := by
  have hevents : (st.bulkFail fault ids failReason).eventsOf id = st.eventsOf id := by
    rw [TaskStore.eventsOf, bulkFail_events, TaskStore.eventsOf]
  rcases bulkFail_cases fault ids failReason st with h | ⟨tasks, hbulk, h⟩
  · rw [h]
    exact onceStep_refl id st
  · have hget := TaskTable.get_bulkUpdate hbulk id
    rw [h] at hevents ⊢
    cases hrow : st.tasks.get id with
    | none =>
      rw [hrow] at hget
      exact onceStep_of_same (TaskStore.ended_congr (by rw [hget, hrow]; rfl)) hevents
    | some r =>
      rw [hrow, Option.map_some] at hget
      by_cases hmem : r.id ∈ ids
      · rw [if_pos hmem] at hget
        have hafter : { st with tasks := tasks }.ended id = some taskStatusFailure := by
          rw [TaskStore.ended_of_get hget]
          simp [TaskTable.failed]
        cases hended : st.ended id with
        | none => exact onceStep_of_ended hended (by simp [hafter]) (Or.inl hevents)
        | some status => exact .keep (by simp [hended, hafter]) hevents
      · rw [if_neg hmem] at hget
        exact onceStep_of_same (TaskStore.ended_congr (by rw [hget, hrow])) hevents

/-! ### The conditions -/

/-- A visit whose answer says something finds its copy unfinished. -/
def VisitsUnfinished (cfg : TaskConfig) (s : System) : Action → Prop
  | .poll n (.visit answer) => ∀ v ∈ (s.pollers n).nextVisit,
      (reported cfg answer v.2).isSome = true → v.2.status.isDone = false
  | _ => True

/-- A report that causes a refund finds the row unfinished, gives it a final status and is written;
another report that is written leaves a row that has ended with a final status. -/
def sunoGuard (env : SunoEnv) (item : SunoDataResponse) (t : Task) (st : TaskStore) : Prop :=
  taskNeedsUpdate t item = true →
    if item.fails (item.apply t) = true ∧ t.quota ≠ 0 then
      st.ended t.id = none ∧ (item.apply t).status.isDone = true ∧ env.write = none
    else st.ended t.id = none ∨ (item.apply t).status.isDone = true ∨ env.write ≠ none

instance (env : SunoEnv) (item : SunoDataResponse) (t : Task) (st : TaskStore) :
    Decidable (sunoGuard env item t st) := by
  unfold sunoGuard; infer_instance

def SunoGuarded (s : System) : Action → Prop
  | .poll n (.item env) =>
    ∀ v ∈ (s.pollers n).nextItem, sunoGuard env v.1 v.2 s.store
  | _ => True

instance (cfg : TaskConfig) (s : System) (a : Action) : Decidable (VisitsUnfinished cfg s a) := by
  unfold VisitsUnfinished; split <;> infer_instance

instance (s : System) (a : Action) : Decidable (SunoGuarded s a) := by
  unfold SunoGuarded; split <;> infer_instance

/-- The action is one of a poller or a sweeper. -/
def Action.isPolling : Action → Bool
  | .poll _ _ => true
  | .sweepStart _ _ _ => true
  | .sweep _ _ => true
  | .fetchStart _ _ _ => false
  | .fetch _ _ _ => false

/-- The handling of a guarded report. -/
theorem onceStep_updateSunoTask (cfg : TaskConfig) {env : SunoEnv} {item : SunoDataResponse}
    {t : Task} {st : TaskStore} (h : sunoGuard env item t st) :
    OnceStep t.id st (updateSunoTask cfg env item t st).2 := by
  have hid : (item.written t).id = t.id := rfl
  rcases updateSunoTask_cases cfg env item t st with
    ⟨_, heq⟩ | ⟨hneeds, hfault, heq⟩ | ⟨hneeds, hwrite, heq⟩
  · rw [heq]
    exact onceStep_refl t.id st
  · have hguard := h hneeds
    rw [heq]
    split at hguard
    · exact absurd hguard.2.2 hfault
    · -- nothing is refunded, and nothing written
      rename_i hno
      rw [sunoRefunded_of_not hno]
      exact onceStep_refl t.id st
  · have hguard := h hneeds
    have hafter := TaskStore.ended_written cfg env item t st
    rw [heq]
    split at hguard
    · rename_i hrefund
      obtain ⟨hopen, hdone, _⟩ := hguard
      rw [hdone, if_pos rfl] at hafter
      have hlog := refund_eventsOf cfg.billing env.billing
        { item.apply t with progress := "100%" } st
      refine onceStep_of_ended hopen (by simp [hafter]) ?_
      unfold sunoRefunded
      rw [if_pos hrefund.1]
      exact hlog
    · rename_i hno
      have hnone : (sunoRefunded cfg env item t st).eventsOf t.id = st.eventsOf t.id := by
        rw [sunoRefunded_of_not hno]
      cases hopen : st.ended t.id with
      | none =>
        cases hdone : (item.apply t).status.isDone with
        | true => exact onceStep_of_ended hopen (by simp [hafter, hdone]) (Or.inl hnone)
        | false =>
          refine onceStep_of_same ?_ hnone
          rw [hafter, hopen, hdone]
          simp
      | some status =>
        have hdone : (item.apply t).status.isDone = true := by
          rcases hguard with hguard | hguard | hguard
          · simp [hopen] at hguard
          · exact hguard
          · exact absurd hwrite hguard
        exact .keep (by simp [hopen, hafter, hdone]) hnone

/-! ### One action, and runs -/

/-- An action of a poller or a sweeper bills the task `id` at most once, if the visit or the report
it handles meets its condition, or is not about that task. -/
theorem once_step {cfg : TaskConfig} {s : System} {a : Action} (id : ℤ) (htidy : Tidy s)
    (hpolling : a.isPolling = true)
    (hvisit : ∀ n answer, a = .poll n (.visit answer) → ∀ v ∈ (s.pollers n).nextVisit,
      v.2.id = id → (reported cfg answer v.2).isSome = true → v.2.status.isDone = false)
    (hitem : ∀ n env, a = .poll n (.item env) → ∀ v ∈ (s.pollers n).nextItem,
      v.2.id = id → sunoGuard env v.1 v.2 s.store) :
    OnceStep id s.store (step cfg s a).store := by
  cases a with
  | poll n a =>
    simp only [step]
    cases a with
    | start query => exact onceStep_refl id s.store
    | platform platform bulk =>
      simp only [pollStep]
      split
      · exact onceStep_refl id s.store
      · split
        · exact onceStep_refl id s.store
        · exact onceStep_bulkFail id _ _ _ s.store
    | channel channelId answer =>
      simp only [pollStep]
      split
      · exact onceStep_refl id s.store
      · split
        · exact onceStep_refl id s.store
        · cases answer with
          | lookupFailed bulk => exact onceStep_bulkFail id _ _ _ s.store
          | failed => exact onceStep_refl id s.store
          | found items =>
            dsimp only
            split <;> exact onceStep_refl id s.store
    | visit answer =>
      simp only [pollStep]
      cases hnext : (s.pollers n).nextVisit with
      | none => exact onceStep_refl id s.store
      | some v =>
        obtain ⟨u, t⟩ := v
        have hresult := updateVideoSingleTask_visit cfg answer t s.store
        rcases eq_or_ne t.id id with rfl | hne
        · cases hreported : reported cfg answer t with
          | none =>
            simp only [(updateVideoSingleTask_of_silent s.store hreported).2]
            exact onceStep_refl t.id s.store
          | some t' =>
            exact hresult.onceStep
              (hvisit n answer rfl (u, t) hnext rfl (by simp [hreported]))
        · exact onceStep_of_onlyTask hresult.onlyTask hne
    | item env =>
      simp only [pollStep]
      cases hitems : (s.pollers n).items with
      | nil => exact onceStep_refl id s.store
      | cons item items =>
        dsimp only
        cases htask : (s.pollers n).task item.taskId with
        | none => exact onceStep_refl id s.store
        | some t =>
          have hnext : (s.pollers n).nextItem = some (item, t) := by
            simp [Poller.nextItem, hitems, htask]
          rcases eq_or_ne t.id id with rfl | hne
          · exact onceStep_updateSunoTask cfg (hitem n env rfl (item, t) hnext rfl)
          · exact onceStep_of_onlyTask
              (onlyTask_updateSunoTask cfg env item t s.store) hne
  | sweepStart n now query => exact onceStep_refl id s.store
  | sweep n env =>
    simp only [step]
    cases hsweep : s.sweeps n with
    | nil => exact onceStep_refl id s.store
    | cons t tasks =>
      have hopen := htidy.sweeps n t (by simp [hsweep])
      rcases eq_or_ne t.id id with rfl | hne
      · exact onceStep_sweepTask cfg env s.store hopen
      · exact onceStep_of_onlyTask (onlyTask_sweepTask cfg env t s.store) hne
  | fetchStart n userId taskId => simp [Action.isPolling] at hpolling
  | fetch n report write => simp [Action.isPolling] at hpolling

/-- What a run of pollers and sweepers keeps for the task `id` of a platform. -/
structure OnceInv (id : ℤ) (P : TaskPlatform → Prop) (s : System) : Prop where
  tidy : Tidy s
  platform : Everywhere (fun t => t.id = id → P t.platform) s
  once : BilledOnce id s.store

theorem onceInv_start {id : ℤ} {P : TaskPlatform → Prop} {tasks : TaskTable} (w : World)
    (h : ∀ r, tasks.get id = some r → P r.platform) : OnceInv id P (System.start tasks w) where
  tidy := tidy_start tasks w
  platform := everywhere_start w fun r hr hid => h r (hid ▸ TaskTable.get_of_mem hr)
  once := Latch.sound_of_nil rfl fun _ => by simp

/-- Copies of the task `id` stay copies of it. -/
theorem onceInv_step {id : ℤ} {P : TaskPlatform → Prop} {cfg : TaskConfig} {s : System}
    {a : Action} (h : OnceInv id P s) (hpolling : a.isPolling = true)
    (hvisit : ∀ n answer, a = .poll n (.visit answer) → ∀ v ∈ (s.pollers n).nextVisit,
      v.2.id = id → (reported cfg answer v.2).isSome = true → v.2.status.isDone = false)
    (hitem : ∀ n env, a = .poll n (.item env) → ∀ v ∈ (s.pollers n).nextItem,
      v.2.id = id → sunoGuard env v.1 v.2 s.store) : OnceInv id P (step cfg s a) where
  tidy := tidy_step cfg a h.tidy
  platform := everywhere_step_of_sameAs a
    (fun _ _ ht hsame _ hid => hsame.2.2.1 ▸ ht (hsame.1 ▸ hid)) h.platform
  once := h.once.step (once_step id h.tidy hpolling hvisit hitem)

/-- The copy to be handled next is one of those the poller holds. -/
theorem Poller.Copies.nextItem {P : Task → Prop} {p : Poller} (h : p.Copies P)
    {v : SunoDataResponse × Task} (hv : p.nextItem = some v) : P v.2 := by
  unfold Poller.nextItem at hv
  split at hv
  · exact absurd hv (by simp)
  · obtain ⟨t, ht, rfl⟩ := Option.map_eq_some_iff.1 hv
    exact h.task ht

/-! ### Runs -/

/-- A task that is no Suno task is billed at most once in a run of pollers and sweepers whose
visits find their copies unfinished: refunded at most once, settled at most once, never both. -/
theorem video_billed_once (cfg : TaskConfig) (tasks : TaskTable) (w : World) (as : List Action)
    (hpolling : ∀ a ∈ as, a.isPolling = true)
    (hunfinished : Transition.Along (step cfg) (VisitsUnfinished cfg) (System.start tasks w) as)
    (id : ℤ) (hvideo : ∀ r, tasks.get id = some r → r.platform ≠ taskPlatformSuno) :
    let st := (Transition.run (step cfg) (System.start tasks w) as).store
    st.refunds id ≤ 1 ∧ st.settlements id ≤ 1 ∧ ¬ (0 < st.refunds id ∧ 0 < st.settlements id) := by
  have hkeep : ∀ s a, OnceInv id (· ≠ taskPlatformSuno) s →
      VisitsUnfinished cfg s a ∧ a.isPolling = true →
      OnceInv id (· ≠ taskPlatformSuno) (step cfg s a) := by
    intro s a hs hok
    refine onceInv_step hs hok.2 ?_ ?_
    · rintro n answer rfl v hv _ hreported
      exact hok.1 v hv hreported
    · -- the reports are about Suno tasks, and this is none
      rintro n env rfl v hv hid
      have hsuno := (hs.tidy.pollers n).nextItem hv
      exact absurd hsuno ((hs.platform.pollers n).nextItem hv hid)
  have hinv := Transition.run_invariant hkeep (onceInv_start w hvideo)
    (Transition.along_and_forall hunfinished hpolling)
  have hlength := hinv.once.length_le
  have hsum := TaskStore.refunds_add_settlements id
    (Transition.run (step cfg) (System.start tasks w) as).store
  dsimp only
  omega

/-- Settings under which tasks time out after an hour. -/
def pollingConfig : TaskConfig where
  billing := { batchUpdateEnabled := false, trustQuota := 0, formatQuota := toString, loc := utc }
  serverAddress := "https://example.com"
  taskTimeoutMinutes := 60
  taskQueryLimit := 1000

/-- A running task of user 1, charged 100 to the wallet. -/
def runningTask (id : ℤ) (platform : TaskPlatform) (upstreamTaskId : String) : Task where
  id := id
  taskId := "task_" ++ upstreamTaskId
  platform := platform
  userId := 1
  channelId := 7
  quota := 100
  status := "IN_PROGRESS"
  submitTime := 1800000000
  progress := "30%"
  privateData := { upstreamTaskId := upstreamTaskId, billingSource := "wallet" }

/-- The table with one task, or with two that the upstream service knows by one id. -/
def oneTask (platform : TaskPlatform) : TaskTable where
  rows := [runningTask 1 platform "job"]
  nodup := by simp

def twoTasks (platform : TaskPlatform) : TaskTable where
  rows := [runningTask 1 platform "job", runningTask 2 platform "job"]
  nodup := by simp [runningTask]

/-- A world in which nobody has any quota left. -/
def emptyWorld : World where
  userQuota := fun _ => 0
  tokenRemain := fun _ => 0
  store := Tables.empty fun _ => "default"

/-- A poller loads the tasks and comes to the channel of a platform. -/
def toChannel (n : ℕ) (platform : TaskPlatform) (items : List SunoDataResponse) : List Action :=
  [.poll n (.start none), .poll n (.platform platform none), .poll n (.channel 7 (.found items))]

/-- The answer that a task has failed. -/
def failureAnswer : Option VideoResponse :=
  some { parsed := some { status := "FAILURE", reason := "boom" }, now := 1800000100 }

/-- Two pollers learn of a failure, and a sweeper has loaded the task as well. -/
def racingNodes : List Action :=
  toChannel 0 "50" [] ++ toChannel 1 "50" [] ++
    [Action.sweepStart 0 1800009999 none, .poll 0 (.visit failureAnswer),
      .poll 1 (.visit failureAnswer), .sweep 0 { now := 1800009999 }]

theorem video_billed_once_racing :
    let st := (Transition.run (step pollingConfig) (System.start (oneTask "50") emptyWorld)
      racingNodes).store
    st.refunds 1 ≤ 1 ∧ st.settlements 1 ≤ 1 ∧ ¬ (0 < st.refunds 1 ∧ 0 < st.settlements 1) :=
  video_billed_once pollingConfig (oneTask "50") emptyWorld racingNodes (by decide)
    (by decide) 1 (by
      intro r hr
      rw [show r = runningTask 1 "50" "job" from (Option.some.inj hr).symm]
      decide)

/-- Two tasks share an id at the upstream service, and it reports a failure for that id. -/
def sharedId : List Action :=
  toChannel 0 "50" [] ++ [Action.poll 0 (.visit failureAnswer), Action.poll 0 (.visit failureAnswer)]

/-- The later one is visited twice and refunded twice, the other not at all. -/
theorem shared_id_refunded_twice :
    let s := Transition.run (step pollingConfig) (System.start (twoTasks "50") emptyWorld) sharedId
    (∀ a ∈ sharedId, a.isPolling = true) ∧ s.store.refunds 2 = 2 ∧ s.store.refunds 1 = 0 ∧
      s.store.world.userQuota 1 = 200 := by
  decide

/-- A Suno task is refunded at most once in a run of pollers and sweepers whose reports are
guarded. -/
theorem suno_refunded_once (cfg : TaskConfig) (tasks : TaskTable) (w : World) (as : List Action)
    (hpolling : ∀ a ∈ as, a.isPolling = true)
    (hguarded : Transition.Along (step cfg) SunoGuarded (System.start tasks w) as) (id : ℤ)
    (hsuno : ∀ r, tasks.get id = some r → r.platform = taskPlatformSuno) :
    (Transition.run (step cfg) (System.start tasks w) as).store.refunds id ≤ 1 := by
  have hkeep : ∀ s a, OnceInv id (· = taskPlatformSuno) s →
      SunoGuarded s a ∧ a.isPolling = true → OnceInv id (· = taskPlatformSuno) (step cfg s a) := by
    intro s a hs hok
    refine onceInv_step hs hok.2 ?_ ?_
    · -- the visits are of other tasks than Suno's
      rintro n answer rfl v hv hid
      have hvideo := (hs.tidy.pollers n).nextVisit hv
      exact absurd ((hs.platform.pollers n).nextVisit hv hid) hvideo
    · rintro n env rfl v hv _
      exact hok.1 v hv
  have hinv := Transition.run_invariant hkeep (onceInv_start w hsuno)
    (Transition.along_and_forall hguarded hpolling)
  have hlength := hinv.once.length_le
  have hsum := TaskStore.refunds_add_settlements id
    (Transition.run (step cfg) (System.start tasks w) as).store
  omega

/-- The report that a Suno task has failed. -/
def failureReport : SunoDataResponse where
  taskId := "job"
  status := "FAILURE"
  failReason := "boom"
  submitTime := 1800000000

/-- A poller has loaded a Suno task; another handles the failure; a sweep comes too late. -/
def guardedReports : List Action :=
  toChannel 0 "suno" [failureReport] ++ [Action.sweepStart 0 1800009999 none,
    Action.poll 0 (.item {}), Action.sweep 0 { now := 1800009999 }]

theorem suno_refunded_once_guarded :
    (Transition.run (step pollingConfig) (System.start (oneTask "suno") emptyWorld)
      guardedReports).store.refunds 1 ≤ 1 :=
  suno_refunded_once pollingConfig (oneTask "suno") emptyWorld guardedReports (by decide)
    (by decide) 1 (by
      intro r hr
      rw [show r = runningTask 1 "suno" "job" from (Option.some.inj hr).symm]
      decide)

/-- A batch reports a failure, without the time of the submission, twice. -/
def repeatedReport : List Action :=
  toChannel 0 "suno" [{ failureReport with submitTime := 0 }, { failureReport with submitTime := 0 }]
    ++ [Action.poll 0 (.item {}), Action.poll 0 (.item {})]

/-- The task differs from the report each time, and is refunded each time. -/
theorem repeated_report_refunded_twice :
    let s := Transition.run (step pollingConfig) (System.start (oneTask "suno") emptyWorld)
      repeatedReport
    (∀ a ∈ repeatedReport, a.isPolling = true) ∧ s.store.refunds 1 = 2 ∧
      s.store.world.userQuota 1 = 200 := by
  decide

end NewApi

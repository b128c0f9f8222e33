/-
**What polling does to a task.**

For each of the operations on one task the possible outcomes are listed once.  A visit of a copy
that has not ended bills the task only if it wins the update that ends its row.  A visit of a copy
that has already ended, which happens when two tasks of a round share an id at the upstream service,
bills the task again (`Visit.again`).

The rows and all copies of a task keep what the task is; this is proved once for all actions
(`everywhere_step`).

Main definitions:

* `NewApi.TaskStore.ended` — the final status of a task;
* `NewApi.Visit`, `NewApi.Billed` — the outcomes of a visit;
* `NewApi.Everywhere` — a property of the rows and of every copy.

Main results:

* `NewApi.updateVideoSingleTask_visit`, `NewApi.sweepTask_cases`, `NewApi.updateSunoTask_cases`,
  `NewApi.tryRealtimeFetch_cases` — **the outcomes of the operations**;
* `NewApi.everywhere_step` — what every update of a task keeps, every action keeps everywhere;
* `NewApi.run_userQuota` — the list of refunds and settlements accounts for every wallet;
* `NewApi.tidy_step` — a poller's copies are of the platform it is at, a sweeper's are unfinished.
-/

import NewApi.Lib.Transition
import NewApi.TaskPolling

set_option autoImplicit false

namespace NewApi

/-! ### The final status of a task -/

namespace TaskStore

/-- The status a task has ended with. -/
def ended (id : ℤ) (st : TaskStore) : Option TaskStatus :=
  (st.tasks.get id).bind fun r => if r.status.isDone then some r.status else none

theorem ended_eq_none {id : ℤ} {st : TaskStore} :
    st.ended id = none ↔ ∀ r, st.tasks.get id = some r → r.status.isDone = false := by
  unfold ended
  cases st.tasks.get id with
  | none => simp
  | some r => cases h : r.status.isDone <;> simp [h]

theorem ended_eq_some {id : ℤ} {st : TaskStore} {status : TaskStatus} :
    st.ended id = some status ↔
      ∃ r, st.tasks.get id = some r ∧ r.status = status ∧ status.isDone = true := by
  unfold ended
  cases st.tasks.get id with
  | none => simp
  | some r =>
    cases h : r.status.isDone with
    | false =>
      simp only [Option.bind_some, h, Bool.false_eq_true, if_false, Option.some.injEq,
        exists_eq_left', false_iff, reduceCtorEq]
      rintro ⟨rfl, hdone⟩
      simp [h] at hdone
    | true =>
      simp only [Option.bind_some, h, if_true, Option.some.injEq, exists_eq_left']
      constructor
      · rintro rfl
        exact ⟨rfl, h⟩
      · exact fun hstatus => hstatus.1

theorem ended_congr {id : ℤ} {st st' : TaskStore} (h : st'.tasks.get id = st.tasks.get id) :
    st'.ended id = st.ended id := by
  unfold ended
  rw [h]

end TaskStore

/-! ### Writes by one copy -/

namespace TaskTable

/-- A compare-and-set that is lost changes nothing. -/
theorem cas_of_lost {fromStatus : TaskStatus} {t : Task} {tbl : TaskTable}
    (h : tbl.hasStatus fromStatus t = false) : tbl.cas fromStatus t = tbl := by
  obtain ⟨rows, hnd⟩ := tbl
  have hrows : Rows.update (fun r => r.id = t.id && r.status = fromStatus) (fun _ => t) rows =
      rows := by
    rw [Rows.update]
    conv_rhs => rw [← List.map_id rows]
    refine List.map_congr_left fun r hr => ?_
    have hno : (decide (r.id = t.id) && decide (r.status = fromStatus)) = false := by
      simpa using List.any_eq_false.1 h r hr
    simp [hno]
  simp only [cas, change, hrows]

end TaskTable

/-- The copy `t'` is `t`, brought up to date. -/
def Task.Carries (t t' : Task) : Prop := t.SameAs t' ∧ t'.quota = t.quota

theorem Task.Carries.refl (t : Task) : t.Carries t := ⟨.refl t, rfl⟩

variable {t x : Task} {cfg : TaskConfig} {answer : Option VideoResponse} {taskResult : TaskInfo}
  {st : TaskStore} {id : ℤ} {env : TaskBillingEnv} {r : Task × TaskStore} {P : Task → Prop}
  {p : Poller} {s : System}

theorem Task.Carries.id_eq {t' : Task} (h : t.Carries t') : t'.id = t.id := h.1.1

/-! ### The outcomes of a visit -/

/-- A task that has ended is billed: refunded or settled. -/
inductive Billed (cfg : TaskConfig) (env : TaskBillingEnv) (t : Task) (st : TaskStore) :
    Task × TaskStore → Prop
  | refund (hstatus : t.status = taskStatusFailure) :
      Billed cfg env t st (t, refundTaskQuota cfg.billing env t st)
  | settle (adjusted : ℤ) (priceByTokens : Option ℤ) (taskResult : TaskInfo)
      (hstatus : t.status = taskStatusSuccess) :
      Billed cfg env t st
        (settleTaskBillingOnComplete cfg.billing env adjusted priceByTokens t taskResult st)

/-- The task as an answer reports it; there is none if the answer says nothing about the task. -/
def reported (cfg : TaskConfig) (answer : Option VideoResponse) (t : Task) : Option Task :=
  answer.bind fun r =>
    r.taskResult.bind fun read =>
      (r.readError read).bind fun taskResult =>
        applyTaskInfo cfg r.now taskResult { t with data := r.body }

/-- A visit whose answer says nothing about the task does nothing. -/
theorem updateVideoSingleTask_of_silent (st : TaskStore) (h : reported cfg answer t = none) :
    t.Carries (updateVideoSingleTask cfg answer t st).1 ∧
      (updateVideoSingleTask cfg answer t st).2 = st := by
  unfold updateVideoSingleTask
  cases answer with
  | none => exact ⟨.refl t, rfl⟩
  | some r =>
    simp only [reported, Option.bind_some] at h
    dsimp only
    cases hread : r.taskResult with
    | none => exact ⟨.refl t, rfl⟩
    | some read =>
      simp only [hread, Option.bind_some] at h
      dsimp only
      cases herror : r.readError read with
      | none => exact ⟨⟨⟨rfl, rfl, rfl, rfl, rfl, rfl⟩, rfl⟩, rfl⟩
      | some taskResult =>
        simp only [herror, Option.bind_some] at h
        simp only [h, and_true]
        exact ⟨⟨rfl, rfl, rfl, rfl, rfl, rfl⟩, rfl⟩

/-- The outcomes of the statements that bill the visited task. -/
def billingEnv (answer : Option VideoResponse) : TaskBillingEnv :=
  answer.elim {} VideoResponse.billing

/-- The outcomes of a visit of the copy `t`: nothing is written; a task that goes on is written; a
task ends, and this visit has won the update; the copy had already ended with this status. -/
inductive Visit (cfg : TaskConfig) (answer : Option VideoResponse) (t : Task) (st : TaskStore) :
    Task × TaskStore → Prop
  | stopped (t' : Task) (hcarries : t.Carries t') : Visit cfg answer t st (t', st)
  | moved (t' : Task) (hcarries : t.Carries t') (hopen : t'.status.isDone = false) :
      Visit cfg answer t st (t', { st with tasks := st.tasks.cas t.status t' })
  | ended (t' : Task) (r : Task × TaskStore) (hcarries : t.Carries t')
      (hreported : (reported cfg answer t).map Task.status = some t'.status)
      (hdone : t'.status.isDone = true) (hne : t.status ≠ t'.status)
      (hwon : st.tasks.hasStatus t.status t' = true)
      (hbilled : Billed cfg (billingEnv answer) t'
        { st with tasks := st.tasks.cas t.status t' } r) : Visit cfg answer t st r
  | again (t' : Task) (tasks : TaskTable) (r : Task × TaskStore) (hcarries : t.Carries t')
      (hdone : t.status.isDone = true) (heq : t'.status = t.status)
      (htasks : tasks = st.tasks ∨ tasks = st.tasks.cas t.status t')
      (hbilled : Billed cfg (billingEnv answer) t' { st with tasks := tasks } r) :
      Visit cfg answer t st r

theorem applyTaskInfo_spec {now : ℤ} {u : Task} (h : applyTaskInfo cfg now taskResult t = some u) :
    u.status = taskResult.status ∧ t.Carries u := by
  unfold applyTaskInfo at h
  dsimp only at h
  split at h
  · obtain rfl := Option.some.inj h
    exact ⟨rfl, ⟨rfl, rfl, rfl, rfl, rfl, rfl⟩, rfl⟩
  · split at h
    · obtain rfl := Option.some.inj h
      exact ⟨rfl, ⟨rfl, rfl, rfl, rfl, rfl, rfl⟩, rfl⟩
    · split at h
      · obtain rfl := Option.some.inj h
        exact ⟨rfl, ⟨rfl, rfl, rfl, rfl, rfl, rfl⟩, rfl⟩
      · split at h
        · obtain rfl := Option.some.inj h
          exact ⟨rfl, ⟨rfl, rfl, rfl, rfl, rfl, rfl⟩, rfl⟩
        · split at h
          · obtain rfl := Option.some.inj h
            exact ⟨rfl, ⟨rfl, rfl, rfl, rfl, rfl, rfl⟩, rfl⟩
          · exact absurd h (by simp)

theorem applyProgress_spec (taskResult : TaskInfo) (t : Task) :
    (applyProgress taskResult t).status = t.status ∧ t.Carries (applyProgress taskResult t) := by
  unfold applyProgress
  generalize (if taskResult.status = taskStatusFailure then progressComplete
    else taskResult.progress) = progress
  dsimp only
  split
  · exact ⟨rfl, ⟨rfl, rfl, rfl, rfl, rfl, rfl⟩, rfl⟩
  · exact ⟨rfl, .refl t⟩

/-- What is written of a visited task, and whether it may be billed. -/
theorem persistVideoTask_cases (fault : Fault) (snap : TaskSnapshot) (t : Task) (st : TaskStore) :
    persistVideoTask fault snap t st = (false, st) ∨
    (t.status.isDone = true ∧ snap.status ≠ t.status ∧ st.tasks.hasStatus snap.status t = true ∧
      persistVideoTask fault snap t st = (true, { st with tasks := st.tasks.cas snap.status t })) ∨
    (¬ (t.status.isDone = true ∧ snap.status ≠ t.status) ∧
      (persistVideoTask fault snap t st = (true, st) ∨
        persistVideoTask fault snap t st =
          (true, { st with tasks := st.tasks.cas snap.status t }))) := by
  unfold persistVideoTask TaskTable.updateWithStatus
  split
  · rename_i hends
    cases fault with
    | some e => exact Or.inl rfl
    | none =>
      cases hwon : st.tasks.hasStatus snap.status t with
      | false =>
        refine Or.inl ?_
        simp [TaskTable.cas_of_lost hwon]
      | true => exact Or.inr (Or.inl ⟨hends.1, hends.2, rfl, rfl⟩)
  · rename_i hgoes
    refine Or.inr (Or.inr ⟨hgoes, ?_⟩)
    split
    · cases fault with
      | some e => exact Or.inl rfl
      | none => exact Or.inr rfl
    · exact Or.inl rfl

theorem billVideoTask_false (cfg : TaskConfig) (r : VideoResponse) (taskResult : TaskInfo)
    (quota : ℤ) (t : Task) (st : TaskStore) :
    billVideoTask cfg r taskResult quota false t st = (t, st) := by
  simp [billVideoTask]

/-- A task that goes on is not billed. -/
theorem billVideoTask_of_open {r : VideoResponse} {quota : ℤ} {bill : Bool}
    (hstatus : t.status = taskResult.status) (hopen : t.status.isDone = false) :
    billVideoTask cfg r taskResult quota bill t st = (t, st) := by
  have hsuccess : ¬ (bill ∧ taskResult.status = taskStatusSuccess) := by
    rintro ⟨_, h⟩
    simp [hstatus, h] at hopen
  have hfailure : ¬ (bill ∧ taskResult.status = taskStatusFailure ∧ quota ≠ 0) := by
    rintro ⟨_, h, _⟩
    simp [hstatus, h] at hopen
  rw [billVideoTask, if_neg hsuccess, if_neg hfailure]

/-- A task that has ended and may be billed is refunded or settled; where nothing was charged, the
refund does nothing. -/
theorem billVideoTask_of_done {r : VideoResponse} (st : TaskStore)
    (hstatus : t.status = taskResult.status) (hdone : t.status.isDone = true) :
    Billed cfg r.billing t st (billVideoTask cfg r taskResult t.quota true t st) := by
  rcases TaskStatus.isDone_iff.1 hdone with hsuccess | hfailure
  · rw [billVideoTask, if_pos ⟨rfl, hstatus ▸ hsuccess⟩]
    exact .settle _ _ _ hsuccess
  · have hne : ¬ (true = true ∧ taskResult.status = taskStatusSuccess) := by
      rw [← hstatus, hfailure]
      exact fun h => failure_ne_success h.2
    have hrefund : Billed cfg r.billing t st _ := .refund hfailure
    rw [billVideoTask, if_neg hne]
    by_cases hquota : t.quota = 0
    · rw [if_neg (by simp [hquota])]
      rwa [refundTaskQuota_of_zero cfg.billing r.billing st hquota] at hrefund
    · rw [if_pos ⟨rfl, hstatus ▸ hfailure, hquota⟩]
      exact hrefund

/-- What a visit does once the report has been applied to the copy. -/
theorem visit_of_updated {r : VideoResponse} {t' : Task} (hcarries : t.Carries t')
    (hreported : (reported cfg (some r) t).map Task.status = some t'.status)
    (hstatus : t'.status = taskResult.status) :
    Visit cfg (some r) t st (billVideoTask cfg r taskResult t.quota
      (persistVideoTask r.write t.snapshot t' st).1 t'
      (persistVideoTask r.write t.snapshot t' st).2) := by
  rw [← hcarries.2]
  rcases persistVideoTask_cases r.write t.snapshot t' st with
    hlost | ⟨hdone, hne, hwon, hwrite⟩ | ⟨hplain, hwrite⟩
  · rw [hlost, billVideoTask_false]
    exact .stopped t' hcarries
  · rw [hwrite]
    exact .ended t' _ hcarries hreported hdone hne hwon (billVideoTask_of_done _ hstatus hdone)
  · cases hdone : t'.status.isDone with
    | true =>
      -- the copy had this status before, so there was no update to be won
      have heq : t'.status = t.status := by
        by_contra hne
        exact hplain ⟨hdone, fun h => hne h.symm⟩
      have hbilled : ∀ st, Billed cfg r.billing t' st
          (billVideoTask cfg r taskResult t'.quota true t' st) :=
        fun st => billVideoTask_of_done st hstatus hdone
      rcases hwrite with hwrite | hwrite
      · rw [hwrite]
        exact .again t' st.tasks _ hcarries (heq ▸ hdone) heq (Or.inl rfl) (hbilled _)
      · rw [hwrite]
        exact .again t' _ _ hcarries (heq ▸ hdone) heq (Or.inr rfl) (hbilled _)
    | false =>
      rcases hwrite with hwrite | hwrite
      · rw [hwrite, billVideoTask_of_open hstatus hdone]
        exact .stopped t' hcarries
      · rw [hwrite, billVideoTask_of_open hstatus hdone]
        exact .moved t' hcarries hdone

/-- Every visit has one of the outcomes. -/
theorem updateVideoSingleTask_visit (cfg : TaskConfig) (answer : Option VideoResponse) (t : Task)
    (st : TaskStore) : Visit cfg answer t st (updateVideoSingleTask cfg answer t st) := by
  unfold updateVideoSingleTask
  cases answer with
  | none => exact .stopped t (.refl t)
  | some r =>
    dsimp only
    cases hread : r.taskResult with
    | none => exact .stopped t (.refl t)
    | some read =>
      dsimp only
      have hdata : t.Carries { t with data := r.body } :=
        ⟨⟨rfl, rfl, rfl, rfl, rfl, rfl⟩, rfl⟩
      cases herror : r.readError read with
      | none => exact .stopped _ hdata
      | some taskResult =>
        dsimp only
        cases happly : applyTaskInfo cfg r.now taskResult { t with data := r.body } with
        | none => exact .stopped _ ⟨⟨rfl, rfl, rfl, rfl, rfl, rfl⟩, rfl⟩
        | some updated =>
          have hupdated := applyTaskInfo_spec happly
          have hprogress := applyProgress_spec taskResult updated
          refine visit_of_updated ?_ ?_ (hprogress.1.trans hupdated.1)
          · exact ⟨(hdata.1.trans hupdated.2.1).trans hprogress.2.1,
              hprogress.2.2.trans (hupdated.2.2.trans hdata.2)⟩
          · simp [reported, hread, herror, happly, hprogress.1]

/-! ### The outcomes of the other operations -/

theorem timedOut_carries (cfg : TaskConfig) (now : ℤ) (t : Task) :
    t.Carries (t.timedOut cfg now) := ⟨⟨rfl, rfl, rfl, rfl, rfl, rfl⟩, rfl⟩

/-- A sweep of a task does nothing, or wins the update; then it refunds the task, unless that is of
the time before refunds. -/
theorem sweepTask_cases (cfg : TaskConfig) (env : SweepEnv) (t : Task) (st : TaskStore) :
    sweepTask cfg env t st = st ∨
    (st.tasks.hasStatus t.status (t.timedOut cfg env.now) = true ∧
      sweepTask cfg env t st =
        if t.isLegacy then { st with tasks := st.tasks.cas t.status (t.timedOut cfg env.now) }
        else refundTaskQuota cfg.billing env.billing (t.timedOut cfg env.now)
          { st with tasks := st.tasks.cas t.status (t.timedOut cfg env.now) }) := by
  unfold sweepTask TaskTable.updateWithStatus
  cases env.write with
  | some e => exact Or.inl rfl
  | none =>
    dsimp only [guardFault_none]
    cases hwon : st.tasks.hasStatus t.status (t.timedOut cfg env.now) with
    | false =>
      refine Or.inl ?_
      simp [TaskTable.cas_of_lost hwon]
    | true =>
      refine Or.inr ⟨rfl, ?_⟩
      cases hlegacy : t.isLegacy with
      | true => simp
      | false =>
        by_cases hquota : t.quota = 0
        · have hnothing := refundTaskQuota_of_zero cfg.billing env.billing
            { st with tasks := st.tasks.cas t.status (t.timedOut cfg env.now) }
            ((timedOut_carries cfg env.now t).2.trans hquota)
          simp [hquota, hnothing]
        · simp [hquota]

theorem written_carries (item : SunoDataResponse) (t : Task) : t.Carries (item.written t) :=
  ⟨⟨rfl, rfl, rfl, rfl, rfl, rfl⟩, rfl⟩

theorem written_status (item : SunoDataResponse) (t : Task) :
    (item.written t).status = (item.apply t).status := rfl

/-- The store after the refund a report may cause. -/
def sunoRefunded (cfg : TaskConfig) (env : SunoEnv) (item : SunoDataResponse) (t : Task)
    (st : TaskStore) : TaskStore :=
  if item.fails (item.apply t) then
    refundTaskQuota cfg.billing env.billing { item.apply t with progress := "100%" } st
  else st

@[simp] theorem sunoRefunded_tasks (cfg : TaskConfig) (env : SunoEnv) (item : SunoDataResponse)
    (t : Task) (st : TaskStore) : (sunoRefunded cfg env item t st).tasks = st.tasks := by
  unfold sunoRefunded
  split
  · exact refundTaskQuota_tasks _ _ _ _
  · rfl

/-- A report that causes no refund bills nobody. -/
theorem sunoRefunded_of_not {env : SunoEnv} {item : SunoDataResponse} {st : TaskStore}
    (h : ¬ (item.fails (item.apply t) = true ∧ t.quota ≠ 0)) :
    sunoRefunded cfg env item t st = st := by
  unfold sunoRefunded
  split
  · rename_i hfails
    refine refundTaskQuota_of_zero cfg.billing env.billing st ?_
    by_contra hquota
    exact h ⟨hfails, hquota⟩
  · rfl

/-- A report that says nothing new does nothing; any other may refund the task, and then writes it,
unless that fails. -/
theorem updateSunoTask_cases (cfg : TaskConfig) (env : SunoEnv) (item : SunoDataResponse)
    (t : Task) (st : TaskStore) :
    (taskNeedsUpdate t item = false ∧ updateSunoTask cfg env item t st = (t, st)) ∨
    (taskNeedsUpdate t item = true ∧ env.write ≠ none ∧
      updateSunoTask cfg env item t st = (item.written t, sunoRefunded cfg env item t st)) ∨
    (taskNeedsUpdate t item = true ∧ env.write = none ∧
      updateSunoTask cfg env item t st = (item.written t,
        { sunoRefunded cfg env item t st with tasks := st.tasks.save (item.written t) })) := by
  unfold updateSunoTask TaskTable.update
  cases hneeds : taskNeedsUpdate t item with
  | false => exact Or.inl ⟨rfl, rfl⟩
  | true =>
    cases hwrite : env.write with
    | some e => exact Or.inr (Or.inl ⟨rfl, by simp, rfl⟩)
    | none =>
      refine Or.inr (Or.inr ⟨rfl, rfl, ?_⟩)
      rw [← sunoRefunded_tasks cfg env item t st]
      rfl

theorem fetched_carries (cfg : TaskConfig) (ti : TaskInfo) (t : Task) :
    t.Carries (fetched cfg ti t) := ⟨⟨rfl, rfl, rfl, rfl, rfl, rfl⟩, rfl⟩

/-- A fetch writes the task as fetched if nobody has moved it, or does nothing. -/
theorem tryRealtimeFetch_cases (cfg : TaskConfig) (report : Option TaskInfo) (fault : Fault)
    (t : Task) (st : TaskStore) :
    tryRealtimeFetch cfg report fault t st = st ∨
    ∃ ti, report = some ti ∧ fault = none ∧ tryRealtimeFetch cfg report fault t st =
      { st with tasks := st.tasks.cas t.status (fetched cfg ti t) } := by
  unfold tryRealtimeFetch TaskTable.updateWithStatus
  cases report with
  | none => exact Or.inl rfl
  | some ti =>
    dsimp only
    split
    · cases fault with
      | some e => exact Or.inl rfl
      | none => exact Or.inr ⟨ti, rfl, rfl, rfl⟩
    · exact Or.inl rfl

/-- A bulk update fails the rows with the given ids, or does nothing. -/
theorem bulkFail_cases (fault : Fault) (ids : List ℤ) (failReason : Option String)
    (st : TaskStore) :
    st.bulkFail fault ids failReason = st ∨
    ∃ tasks, st.tasks.bulkUpdate fault ids failReason = .ok tasks ∧
      st.bulkFail fault ids failReason = { st with tasks := tasks } := by
  unfold TaskStore.bulkFail
  cases h : st.tasks.bulkUpdate fault ids failReason with
  | error e => exact Or.inl rfl
  | ok tasks => exact Or.inr ⟨tasks, rfl, rfl⟩

/-! ### Other tasks are left alone -/

/-- At most the task `id` has changed, or has been billed. -/
def OnlyTask (id : ℤ) (st st' : TaskStore) : Prop :=
  ∀ j, j ≠ id → st'.tasks.get j = st.tasks.get j ∧ st'.eventsOf j = st.eventsOf j

theorem OnlyTask.refl (id : ℤ) (st : TaskStore) : OnlyTask id st st := fun _ _ => ⟨rfl, rfl⟩

theorem OnlyTask.trans {st₁ st₂ st₃ : TaskStore} (h : OnlyTask id st₁ st₂)
    (h' : OnlyTask id st₂ st₃) : OnlyTask id st₁ st₃ := by
  intro j hj
  exact ⟨(h' j hj).1.trans (h j hj).1, (h' j hj).2.trans (h j hj).2⟩

theorem onlyTask_cas (fromStatus : TaskStatus) (st : TaskStore) (h : t.id = id) :
    OnlyTask id st { st with tasks := st.tasks.cas fromStatus t } := by
  intro j hj
  exact ⟨TaskTable.get_cas_of_ne (by rw [h]; exact hj.symm), rfl⟩

theorem onlyTask_save (st : TaskStore) (h : t.id = id) :
    OnlyTask id st { st with tasks := st.tasks.save t } := by
  intro j hj
  exact ⟨TaskTable.get_save_of_ne (by rw [h]; exact hj.symm), rfl⟩

/-- An entry on the list concerns its own task. -/
theorem eventsOf_append_of_ne {st' : TaskStore} {e : TaskEvent} {j : ℤ}
    (h : st'.events = st.events ++ [e]) (hne : e.task.id ≠ j) : st'.eventsOf j = st.eventsOf j := by
  simp [TaskStore.eventsOf, h, hne]

theorem eventsOf_append {st' : TaskStore} {e : TaskEvent} {j : ℤ}
    (h : st'.events = st.events ++ [e]) (heq : e.task.id = j) :
    st'.eventsOf j = st.eventsOf j ++ [e] := by
  simp [TaskStore.eventsOf, h, heq]

theorem onlyTask_refund (cfg : BillingConfig) (env : TaskBillingEnv) (st : TaskStore)
    (h : t.id = id) : OnlyTask id st (refundTaskQuota cfg env t st) := by
  intro j hj
  refine ⟨by rw [refundTaskQuota_tasks], ?_⟩
  by_cases hquota : t.quota = 0
  · rw [refundTaskQuota_of_zero cfg env st hquota]
  · obtain ⟨delta, hevents, _⟩ := refundTaskQuota_of_ne_zero cfg env st hquota
    exact eventsOf_append_of_ne hevents (by rw [h]; exact hj.symm)

theorem Billed.onlyTask (h : Billed cfg env t st r) : OnlyTask t.id st r.2 := by
  cases h with
  | refund hstatus => exact onlyTask_refund cfg.billing env st rfl
  | settle adjusted priceByTokens taskResult hstatus =>
    obtain ⟨q, delta, _, _, htasks, hevents⟩ := settleTaskBillingOnComplete_spec cfg.billing env
      adjusted priceByTokens t taskResult st
    intro j hj
    exact ⟨by rw [htasks], eventsOf_append_of_ne hevents (by exact hj.symm)⟩

theorem Visit.onlyTask (h : Visit cfg answer t st r) : OnlyTask t.id st r.2 := by
  cases h with
  | stopped t' hcarries => exact .refl t.id st
  | moved t' hcarries hopen => exact onlyTask_cas t.status st hcarries.id_eq
  | ended t' r hcarries hreported hdone hne hwon hbilled =>
    have := hbilled.onlyTask
    rw [hcarries.id_eq] at this
    exact (onlyTask_cas t.status st hcarries.id_eq).trans this
  | again t' tasks r hcarries hdone heq htasks hbilled =>
    have hbill := hbilled.onlyTask
    rw [hcarries.id_eq] at hbill
    refine OnlyTask.trans ?_ hbill
    rcases htasks with rfl | rfl
    · exact .refl t.id st
    · exact onlyTask_cas t.status st hcarries.id_eq

theorem onlyTask_sweepTask (cfg : TaskConfig) (env : SweepEnv) (t : Task) (st : TaskStore) :
    OnlyTask t.id st (sweepTask cfg env t st) := by
  have hid : (t.timedOut cfg env.now).id = t.id := rfl
  rcases sweepTask_cases cfg env t st with h | ⟨_, h⟩
  · rw [h]
    exact .refl t.id st
  · rw [h]
    split
    · exact onlyTask_cas t.status st hid
    · exact (onlyTask_cas t.status st hid).trans (onlyTask_refund cfg.billing env.billing _ hid)

theorem onlyTask_sunoRefunded (cfg : TaskConfig) (env : SunoEnv) (item : SunoDataResponse)
    (t : Task) (st : TaskStore) : OnlyTask t.id st (sunoRefunded cfg env item t st) := by
  unfold sunoRefunded
  split
  · exact onlyTask_refund cfg.billing env.billing st rfl
  · exact .refl t.id st

theorem onlyTask_updateSunoTask (cfg : TaskConfig) (env : SunoEnv) (item : SunoDataResponse)
    (t : Task) (st : TaskStore) : OnlyTask t.id st (updateSunoTask cfg env item t st).2 := by
  have hrefund := onlyTask_sunoRefunded cfg env item t st
  rcases updateSunoTask_cases cfg env item t st with ⟨_, h⟩ | ⟨_, _, h⟩ | ⟨_, _, h⟩
  · rw [h]
    exact .refl t.id st
  · rw [h]
    exact hrefund
  · rw [h]
    refine hrefund.trans ?_
    rw [← sunoRefunded_tasks cfg env item t st]
    exact onlyTask_save _ (written_carries item t).id_eq

theorem onlyTask_tryRealtimeFetch (cfg : TaskConfig) (report : Option TaskInfo) (fault : Fault)
    (t : Task) (st : TaskStore) : OnlyTask t.id st (tryRealtimeFetch cfg report fault t st) := by
  rcases tryRealtimeFetch_cases cfg report fault t st with h | ⟨ti, _, _, h⟩
  · rw [h]
    exact .refl t.id st
  · rw [h]
    exact onlyTask_cas t.status st (fetched_carries cfg ti t).id_eq

/-- A bulk update bills nobody. -/
theorem bulkFail_events (fault : Fault) (ids : List ℤ) (failReason : Option String)
    (st : TaskStore) : (st.bulkFail fault ids failReason).events = st.events := by
  rcases bulkFail_cases fault ids failReason st with h | ⟨tasks, _, h⟩ <;> rw [h]

/-! ### The rows after an operation -/

theorem Billed.tasks (h : Billed cfg env t st r) : r.2.tasks = st.tasks := by
  cases h with
  | refund hstatus => exact refundTaskQuota_tasks cfg.billing env t st
  | settle adjusted priceByTokens taskResult hstatus => rfl

theorem Visit.rows (h : Visit cfg answer t st r) :
    ∀ x ∈ r.2.tasks.rows, x ∈ st.tasks.rows ∨ t.Carries x := by
  intro x hx
  cases h with
  | stopped t' hcarries => exact Or.inl hx
  | moved t' hcarries hopen =>
    rcases TaskTable.mem_cas hx with rfl | hx
    · exact Or.inr hcarries
    · exact Or.inl hx
  | ended t' r hcarries hreported hdone hne hwon hbilled =>
    rw [hbilled.tasks] at hx
    rcases TaskTable.mem_cas hx with rfl | hx
    · exact Or.inr hcarries
    · exact Or.inl hx
  | again t' tasks r hcarries hdone heq htasks hbilled =>
    rw [hbilled.tasks] at hx
    rcases htasks with rfl | rfl
    · exact Or.inl hx
    · rcases TaskTable.mem_cas hx with rfl | hx
      · exact Or.inr hcarries
      · exact Or.inl hx

theorem sweepTask_rows {env : SweepEnv} (hx : x ∈ (sweepTask cfg env t st).tasks.rows) :
    x ∈ st.tasks.rows ∨ t.Carries x := by
  have hcas : x ∈ (st.tasks.cas t.status (t.timedOut cfg env.now)).rows →
      x ∈ st.tasks.rows ∨ t.Carries x := by
    intro hx
    rcases TaskTable.mem_cas hx with rfl | hx
    · exact Or.inr (timedOut_carries cfg env.now t)
    · exact Or.inl hx
  rcases sweepTask_cases cfg env t st with h | ⟨_, h⟩
  · rw [h] at hx
    exact Or.inl hx
  · rw [h] at hx
    split at hx
    · exact hcas hx
    · rw [refundTaskQuota_tasks] at hx
      exact hcas hx

theorem updateSunoTask_rows {env : SunoEnv} {item : SunoDataResponse}
    (hx : x ∈ (updateSunoTask cfg env item t st).2.tasks.rows) :
    x ∈ st.tasks.rows ∨ t.Carries x := by
  rcases updateSunoTask_cases cfg env item t st with ⟨_, h⟩ | ⟨_, _, h⟩ | ⟨_, _, h⟩
  · rw [h] at hx
    exact Or.inl hx
  · rw [h, sunoRefunded_tasks] at hx
    exact Or.inl hx
  · rw [h] at hx
    rcases TaskTable.mem_save hx with rfl | hx
    · exact Or.inr (written_carries item t)
    · exact Or.inl hx

theorem updateSunoTask_carries (cfg : TaskConfig) (env : SunoEnv) (item : SunoDataResponse)
    (t : Task) (st : TaskStore) : t.Carries (updateSunoTask cfg env item t st).1 := by
  rcases updateSunoTask_cases cfg env item t st with ⟨_, h⟩ | ⟨_, _, h⟩ | ⟨_, _, h⟩ <;> rw [h]
  · exact .refl t
  · exact written_carries item t
  · exact written_carries item t

theorem tryRealtimeFetch_rows {report : Option TaskInfo} {fault : Fault}
    (hx : x ∈ (tryRealtimeFetch cfg report fault t st).tasks.rows) :
    x ∈ st.tasks.rows ∨ t.Carries x := by
  rcases tryRealtimeFetch_cases cfg report fault t st with h | ⟨ti, _, _, h⟩
  · rw [h] at hx
    exact Or.inl hx
  · rw [h] at hx
    rcases TaskTable.mem_cas hx with rfl | hx
    · exact Or.inr (fetched_carries cfg ti t)
    · exact Or.inl hx

theorem bulkFail_rows {fault : Fault} {ids : List ℤ} {failReason : Option String}
    (hx : x ∈ (st.bulkFail fault ids failReason).tasks.rows) :
    ∃ y ∈ st.tasks.rows, y.Carries x := by
  rcases bulkFail_cases fault ids failReason st with h | ⟨tasks, hbulk, h⟩
  · rw [h] at hx
    exact ⟨x, hx, .refl x⟩
  · rw [h] at hx
    obtain ⟨y, hy, hyx⟩ := TaskTable.mem_bulkUpdate hbulk hx
    refine ⟨y, hy, ?_⟩
    rcases hyx with rfl | rfl
    · exact .refl x
    · exact ⟨⟨rfl, rfl, rfl, rfl, rfl, rfl⟩, rfl⟩

/-! ### The list accounts for the wallets -/

theorem Billed.walletTotal (h : Billed cfg env t st r) (u : ℤ) :
    r.2.walletTotal u = st.walletTotal u := by
  cases h with
  | refund hstatus => exact walletTotal_refund cfg.billing env t u st
  | settle adjusted priceByTokens taskResult hstatus =>
    exact walletTotal_settle cfg.billing env adjusted priceByTokens t taskResult u st

theorem Visit.walletTotal (h : Visit cfg answer t st r) (u : ℤ) :
    r.2.walletTotal u = st.walletTotal u := by
  cases h with
  | stopped t' hcarries => rfl
  | moved t' hcarries hopen => rfl
  | ended t' r hcarries hreported hdone hne hwon hbilled => exact hbilled.walletTotal u
  | again t' tasks r hcarries hdone heq htasks hbilled => exact hbilled.walletTotal u

/-- No action changes the sum of a wallet and of what the list says was taken from it. -/
theorem walletTotal_step (cfg : TaskConfig) (s : System) (a : Action) (u : ℤ) :
    (step cfg s a).store.walletTotal u = s.store.walletTotal u := by
  have hbulk : ∀ fault ids failReason,
      (s.store.bulkFail fault ids failReason).walletTotal u = s.store.walletTotal u := by
    intro fault ids failReason
    rcases bulkFail_cases fault ids failReason s.store with h | ⟨tasks, _, h⟩ <;> rw [h]
    rfl
  cases a with
  | poll n a =>
    simp only [step]
    cases a with
    | start query => rfl
    | platform platform bulk =>
      simp only [pollStep]
      split
      · rfl
      · split
        · rfl
        · exact hbulk _ _ _
    | channel channelId answer =>
      simp only [pollStep]
      split
      · rfl
      · split
        · rfl
        · cases answer with
          | lookupFailed bulk => exact hbulk _ _ _
          | failed => rfl
          | found items =>
            dsimp only
            split <;> rfl
    | visit answer =>
      simp only [pollStep]
      split
      · rfl
      · exact (updateVideoSingleTask_visit cfg answer _ s.store).walletTotal u
    | item env =>
      simp only [pollStep]
      split
      · rfl
      · rename_i item items hitems
        split
        · rfl
        · rename_i t ht
          have hrefund : (sunoRefunded cfg env item t s.store).walletTotal u =
              s.store.walletTotal u := by
            unfold sunoRefunded
            split
            · exact walletTotal_refund cfg.billing env.billing _ u s.store
            · rfl
          rcases updateSunoTask_cases cfg env item t s.store with
            ⟨_, h⟩ | ⟨_, _, h⟩ | ⟨_, _, h⟩ <;> rw [h]
          · exact hrefund
          · exact hrefund
  | sweepStart n now query => rfl
  | sweep n env =>
    simp only [step]
    split
    · rfl
    · rename_i t tasks hsweep
      rcases sweepTask_cases cfg env t s.store with h | ⟨_, h⟩
      · rw [h]
      · dsimp only
        rw [h]
        split
        · rfl
        · exact walletTotal_refund cfg.billing env.billing _ u _
  | fetchStart n userId taskId => rfl
  | fetch n report write =>
    simp only [step]
    split
    · rfl
    · rename_i t hfetch
      rcases tryRealtimeFetch_cases cfg report write t s.store with h | ⟨ti, _, _, h⟩
      · rw [h]
      · dsimp only
        rw [h]
        rfl

/-- After any run the wallet of a user is what it was, less what the refunds and settlements of the
run have taken from it. -/
theorem run_userQuota (cfg : TaskConfig) (tasks : TaskTable) (w : World) (as : List Action)
    (u : ℤ) :
    let st := (Transition.run (step cfg) (System.start tasks w) as).store
    st.world.userQuota u = w.userQuota u - (st.events.map (TaskEvent.walletDelta u)).sum := by
  have htotal : (Transition.run (step cfg) (System.start tasks w) as).store.walletTotal u =
      (System.start tasks w).store.walletTotal u := by
    have hstep : ∀ s a, s.store.walletTotal u = (System.start tasks w).store.walletTotal u →
        (step cfg s a).store.walletTotal u = (System.start tasks w).store.walletTotal u :=
      fun s a hs => (walletTotal_step cfg s a u).trans hs
    exact Transition.run_invariant_always hstep rfl as
  simp only [TaskStore.walletTotal, System.start, List.map_nil, List.sum_nil, add_zero] at htotal
  dsimp only [System.start] at htotal ⊢
  omega

/-! ### Grouping -/

theorem forall_appendTo {κ β : Type*} [DecidableEq κ] {P : κ → β → Prop} {k : κ} {v : β}
    {m : List (κ × List β)} (hm : ∀ g ∈ m, ∀ x ∈ g.2, P g.1 x) (hv : P k v) :
    ∀ g ∈ appendTo k v m, ∀ x ∈ g.2, P g.1 x := by
  refine Rows.forall_save hm ?_
  intro x hx
  rcases List.mem_append.1 hx with hx | hx
  · cases hfirst : Rows.first Prod.fst k m with
    | none => simp [hfirst] at hx
    | some g =>
      rw [hfirst] at hx
      have hkey := Rows.key_of_first hfirst
      have := hm g (Rows.mem_of_first hfirst) x hx
      rwa [hkey] at this
  · rw [List.mem_singleton.1 hx]
    exact hv

theorem forall_group {α κ β : Type*} [DecidableEq κ] {P : κ → β → Prop} {k : α → κ} {v : α → β}
    {l : List α} {m : List (κ × List β)} (hm : ∀ g ∈ m, ∀ x ∈ g.2, P g.1 x)
    (hl : ∀ a ∈ l, P (k a) (v a)) :
    ∀ g ∈ l.foldl (fun m a => appendTo (k a) (v a) m) m, ∀ x ∈ g.2, P g.1 x := by
  induction l generalizing m with
  | nil => exact hm
  | cons a l ih =>
    refine ih (forall_appendTo hm (hl a List.mem_cons_self)) fun b hb => ?_
    exact hl b (List.mem_cons_of_mem a hb)

theorem mem_buildTaskM {tasks : List Task} {e : String × Task} (h : e ∈ buildTaskM tasks) :
    e.2 ∈ tasks ∧ e.2.getUpstreamTaskID = e.1 ∧ e.1 ≠ "" := by
  have hfold : ∀ (l : List Task) (m : List (String × Task)),
      (∀ e ∈ m, e.2 ∈ tasks ∧ e.2.getUpstreamTaskID = e.1 ∧ e.1 ≠ "") →
      (∀ t ∈ l, t ∈ tasks ∧ t.getUpstreamTaskID ≠ "") →
      ∀ e ∈ l.foldl (fun m t => Rows.save Prod.fst (t.getUpstreamTaskID, t) m) m,
        e.2 ∈ tasks ∧ e.2.getUpstreamTaskID = e.1 ∧ e.1 ≠ "" := by
    intro l
    induction l with
    | nil => exact fun m hm _ => hm
    | cons t l ih =>
      intro m hm hl
      have ht := hl t List.mem_cons_self
      exact ih _ (Rows.forall_save hm ⟨ht.1, rfl, ht.2⟩)
        fun x hx => hl x (List.mem_cons_of_mem t hx)
  refine hfold _ [] (by simp) ?_ e h
  intro t ht
  simpa using List.mem_filter.1 ht

/-! ### What holds of the rows and of every copy -/

/-- Every copy of the poller has the property. -/
structure Poller.Copies (P : Task → Prop) (p : Poller) : Prop where
  loaded : ∀ g ∈ p.platformTask, ∀ t ∈ g.2, P t
  taskM : ∀ e ∈ p.taskM, P e.2

theorem Poller.Copies.task (h : p.Copies P) {u : String} (ht : p.task u = some t) : P t := by
  obtain ⟨e, he, rfl⟩ := Option.map_eq_some_iff.1 ht
  exact h.taskM e (Rows.mem_of_first he)

theorem Poller.Copies.nextVisit (h : p.Copies P) {v : String × Task} (hv : p.nextVisit = some v) :
    P v.2 := by
  unfold Poller.nextVisit at hv
  split at hv
  · exact absurd hv (by simp)
  · obtain ⟨t, ht, rfl⟩ := Option.map_eq_some_iff.1 hv
    exact h.task ht

theorem Poller.Copies.setTask (h : p.Copies P) (u : String) (ht : P t) :
    (p.setTask u t).Copies P where
  loaded := h.loaded
  taskM := Rows.forall_save h.taskM ht

/-- Every row and every copy has the property. -/
structure Everywhere (P : Task → Prop) (s : System) : Prop where
  rows : ∀ r ∈ s.store.tasks.rows, P r
  pollers : ∀ n, (s.pollers n).Copies P
  sweeps : ∀ n, ∀ t ∈ s.sweeps n, P t
  fetches : ∀ n, ∀ t ∈ s.fetches n, P t

/-- One action of a poller keeps what bringing a task up to date keeps, if the copy it visits
keeps it. -/
theorem copies_pollStep {a : PollAction} (hcarry : ∀ t t' : Task, P t → t.Carries t' → P t')
    (hvisit : ∀ answer, a = .visit answer → ∀ v, p.nextVisit = some v →
      P (updateVideoSingleTask cfg answer v.2 st).1)
    (hrows : ∀ r ∈ st.tasks.rows, P r) (hp : p.Copies P) :
    (∀ r ∈ (pollStep cfg p st a).2.tasks.rows, P r) ∧ (pollStep cfg p st a).1.Copies P := by
  have hbulk : ∀ fault ids failReason,
      ∀ r ∈ (st.bulkFail fault ids failReason).tasks.rows, P r := by
    intro fault ids failReason r hr
    obtain ⟨y, hy, hcarries⟩ := bulkFail_rows hr
    exact hcarry y r (hrows y hy) hcarries
  cases a with
  | start query =>
    refine ⟨hrows, ?_, by simp [pollStep]⟩
    refine forall_group (P := fun _ t => P t) (by simp) fun t ht => ?_
    exact hrows t (mem_getAllUnFinishSyncTasks ht).1
  | platform platform bulk =>
    simp only [pollStep]
    split
    · exact ⟨hrows, hp⟩
    · split
      · exact ⟨hrows, hp⟩
      · rename_i tasks hfirst
        refine ⟨hbulk _ _ _, ?_, ?_⟩
        · intro g hg
          exact hp.loaded g (List.mem_filter.1 hg).1
        · intro e he
          exact hp.loaded _ (Rows.mem_of_first hfirst) e.2 (mem_buildTaskM he).1
  | channel channelId answer =>
    simp only [pollStep]
    split
    · exact ⟨hrows, hp⟩
    · split
      · exact ⟨hrows, hp⟩
      · cases answer with
        | lookupFailed bulk => exact ⟨hbulk _ _ _, hp.loaded, hp.taskM⟩
        | failed => exact ⟨hrows, hp.loaded, hp.taskM⟩
        | found items =>
          dsimp only
          split
          · exact ⟨hrows, hp.loaded, hp.taskM⟩
          · exact ⟨hrows, hp.loaded, hp.taskM⟩
  | visit answer =>
    simp only [pollStep]
    split
    · exact ⟨hrows, hp.loaded, hp.taskM⟩
    · rename_i u t hnext
      have hresult := updateVideoSingleTask_visit cfg answer t st
      refine ⟨?_, ?_⟩
      · intro r hr
        rcases hresult.rows r hr with hr | hcarries
        · exact hrows r hr
        · exact hcarry t r (hp.nextVisit hnext) hcarries
      · have hrest : Poller.Copies P { p with taskIds := p.taskIds.tail } :=
          ⟨hp.loaded, hp.taskM⟩
        exact hrest.setTask u (hvisit answer rfl _ hnext)
  | item env =>
    simp only [pollStep]
    split
    · exact ⟨hrows, hp⟩
    · rename_i item items hitems
      split
      · exact ⟨hrows, by simp, by simp⟩
      · rename_i t ht
        have hPt := hp.task ht
        refine ⟨?_, ?_⟩
        · intro r hr
          rcases updateSunoTask_rows hr with hr | hcarries
          · exact hrows r hr
          · exact hcarry t r hPt hcarries
        · have hrest : Poller.Copies P { p with items := items } := ⟨hp.loaded, hp.taskM⟩
          exact hrest.setTask item.taskId
            (hcarry t _ hPt (updateSunoTask_carries cfg env item t st))

/-- What bringing a task up to date keeps, every action keeps everywhere, if the copy it visits
keeps it. -/
theorem everywhere_step {a : Action} (hcarry : ∀ t t' : Task, P t → t.Carries t' → P t')
    (hvisit : ∀ n answer, a = .poll n (.visit answer) → ∀ v, (s.pollers n).nextVisit = some v →
      P (updateVideoSingleTask cfg answer v.2 s.store).1)
    (h : Everywhere P s) : Everywhere P (step cfg s a) := by
  cases a with
  | poll n a =>
    obtain ⟨hrows, hcopies⟩ := copies_pollStep (a := a) hcarry
      (fun answer ha => hvisit n answer (by rw [ha])) h.rows (h.pollers n)
    refine ⟨hrows, ?_, h.sweeps, h.fetches⟩
    intro m
    rcases eq_or_ne m n with rfl | hm
    · simpa [step] using hcopies
    · simpa [step, Function.update_of_ne hm] using h.pollers m
  | sweepStart n now query =>
    refine ⟨h.rows, h.pollers, ?_, h.fetches⟩
    intro m
    rcases eq_or_ne m n with rfl | hm
    · simp only [step, Function.update_self]
      intro t ht
      split at ht
      · exact absurd ht (by simp)
      · exact h.rows t (mem_getTimedOutUnfinishedTasks ht).1
    · simpa [step, Function.update_of_ne hm] using h.sweeps m
  | sweep n env =>
    simp only [step]
    cases hsweep : s.sweeps n with
    | nil => exact h
    | cons t tasks =>
      have hall := h.sweeps n
      rw [hsweep] at hall
      refine ⟨?_, h.pollers, ?_, h.fetches⟩
      · intro r hr
        rcases sweepTask_rows hr with hr | hcarries
        · exact h.rows r hr
        · exact hcarry t r (hall t List.mem_cons_self) hcarries
      · intro m
        rcases eq_or_ne m n with rfl | hm
        · simp only [Function.update_self]
          exact fun x hx => hall x (List.mem_cons_of_mem t hx)
        · simpa [Function.update_of_ne hm] using h.sweeps m
  | fetchStart n userId taskId =>
    refine ⟨h.rows, h.pollers, h.sweeps, ?_⟩
    intro m
    rcases eq_or_ne m n with rfl | hm
    · simp only [step, Function.update_self]
      exact fun t ht => h.rows t (mem_of_getByTaskId ht)
    · simpa [step, Function.update_of_ne hm] using h.fetches m
  | fetch n report write =>
    simp only [step]
    cases hfetch : s.fetches n with
    | none => exact h
    | some t =>
      refine ⟨?_, h.pollers, h.sweeps, ?_⟩
      · intro r hr
        rcases tryRealtimeFetch_rows hr with hr | hcarries
        · exact h.rows r hr
        · exact hcarry t r (h.fetches n t hfetch) hcarries
      · intro m
        rcases eq_or_ne m n with rfl | hm
        · simp
        · simpa [Function.update_of_ne hm] using h.fetches m

theorem everywhere_start {tasks : TaskTable} (w : World) (h : ∀ r ∈ tasks.rows, P r) :
    Everywhere P (System.start tasks w) where
  rows := h
  pollers := fun _ => ⟨by simp [System.start], by simp [System.start]⟩
  sweeps := by simp [System.start]
  fetches := by simp [System.start]

/-- What a visit makes of the copy: it is the same task, and its charge is the same or positive. -/
theorem Visit.sameAs (h : Visit cfg answer t st r) :
    t.SameAs r.1 ∧ (r.1.quota = t.quota ∨ 0 < r.1.quota) := by
  have hbilled : ∀ {t' st' r}, t.Carries t' → Billed cfg (billingEnv answer) t' st' r →
      t.SameAs r.1 ∧ (r.1.quota = t.quota ∨ 0 < r.1.quota) := by
    intro t' st' r hcarries hbilled
    cases hbilled with
    | refund hstatus => exact ⟨hcarries.1, Or.inl hcarries.2⟩
    | settle adjusted priceByTokens taskResult hstatus =>
      obtain ⟨q, _, htask, hq, _, _⟩ := settleTaskBillingOnComplete_spec cfg.billing
        (billingEnv answer) adjusted priceByTokens t' taskResult st'
      rw [htask]
      refine ⟨hcarries.1.trans ⟨rfl, rfl, rfl, rfl, rfl, rfl⟩, ?_⟩
      rcases hq with rfl | hq
      · exact Or.inl hcarries.2
      · exact Or.inr hq
  cases h with
  | stopped t' hcarries => exact ⟨hcarries.1, Or.inl hcarries.2⟩
  | moved t' hcarries hopen => exact ⟨hcarries.1, Or.inl hcarries.2⟩
  | ended t' r hcarries hreported hdone hne hwon hb => exact hbilled hcarries hb
  | again t' tasks r hcarries hdone heq htasks hb => exact hbilled hcarries hb

/-- A property of what a task is, and of its having been charged, is kept everywhere. -/
theorem everywhere_step_of_sameAs (a : Action)
    (hsame : ∀ t t' : Task, P t → t.SameAs t' → (t'.quota = t.quota ∨ 0 < t'.quota) → P t')
    (h : Everywhere P s) : Everywhere P (step cfg s a) := by
  refine everywhere_step (fun t t' ht hcarries => hsame t t' ht hcarries.1 (Or.inl hcarries.2))
    ?_ h
  rintro n answer rfl v hnext
  have hv := (h.pollers n).nextVisit hnext
  obtain ⟨hsameAs, hquota⟩ := (updateVideoSingleTask_visit cfg answer v.2 s.store).sameAs
  exact hsame v.2 _ hv hsameAs hquota

/-! ### Pollers and sweepers -/

/-- A poller's copies are of their platform, and only Suno's are reported in batches. -/
structure Poller.Grouped (p : Poller) : Prop where
  loaded : ∀ g ∈ p.platformTask, ∀ t ∈ g.2, t.platform = g.1
  taskM : ∀ e ∈ p.taskM, e.2.platform = p.platform
  taskIds : p.taskIds ≠ [] → p.platform ≠ taskPlatformSuno
  items : p.items ≠ [] → p.platform = taskPlatformSuno

theorem Poller.Grouped.nextItem (h : p.Grouped) {v : SunoDataResponse × Task}
    (hv : p.nextItem = some v) : v.2.platform = taskPlatformSuno := by
  unfold Poller.nextItem at hv
  split at hv
  · exact absurd hv (by simp)
  · rename_i item items hitems
    obtain ⟨t, ht, rfl⟩ := Option.map_eq_some_iff.1 hv
    obtain ⟨e, he, rfl⟩ := Option.map_eq_some_iff.1 ht
    rw [h.taskM e (Rows.mem_of_first he)]
    exact h.items (by simp [hitems])

theorem Poller.Grouped.nextVisit (h : p.Grouped) {v : String × Task} (hv : p.nextVisit = some v) :
    v.2.platform ≠ taskPlatformSuno := by
  unfold Poller.nextVisit at hv
  split at hv
  · exact absurd hv (by simp)
  · rename_i u ids hids
    obtain ⟨t, ht, rfl⟩ := Option.map_eq_some_iff.1 hv
    obtain ⟨e, he, rfl⟩ := Option.map_eq_some_iff.1 ht
    rw [h.taskM e (Rows.mem_of_first he)]
    exact h.taskIds (by simp [hids])

theorem tail_ne_nil {α : Type*} {l : List α} (h : l.tail ≠ []) : l ≠ [] := by
  rintro rfl
  exact h rfl

theorem grouped_pollStep (cfg : TaskConfig) (st : TaskStore) (a : PollAction) (h : p.Grouped) :
    (pollStep cfg p st a).1.Grouped := by
  cases a with
  | start query =>
    refine ⟨?_, by simp [pollStep], by simp [pollStep], by simp [pollStep]⟩
    exact forall_group (P := fun q t => Task.platform t = q) (by simp) fun t _ => rfl
  | platform platform bulk =>
    simp only [pollStep]
    split
    · exact h
    · split
      · exact h
      · rename_i q tasks hfirst
        have hq : q = platform := Rows.key_of_first hfirst
        subst hq
        refine ⟨?_, ?_, by simp [Poller.enter], by simp [Poller.enter]⟩
        · intro g hg
          exact h.loaded g (List.mem_filter.1 hg).1
        · intro e he
          exact h.loaded _ (Rows.mem_of_first hfirst) e.2 (mem_buildTaskM he).1
  | channel channelId answer =>
    simp only [pollStep]
    split
    · exact h
    · rename_i hidle
      rw [not_or, not_not, not_not] at hidle
      split
      · exact h
      · cases answer with
        | lookupFailed bulk => exact ⟨h.loaded, h.taskM, h.taskIds, h.items⟩
        | failed => exact ⟨h.loaded, h.taskM, h.taskIds, h.items⟩
        | found items =>
          dsimp only
          split
          · rename_i hsuno
            exact ⟨h.loaded, h.taskM, h.taskIds, fun _ => hsuno⟩
          · rename_i hvideo
            exact ⟨h.loaded, h.taskM, fun _ => hvideo, h.items⟩
  | visit answer =>
    simp only [pollStep]
    split
    · exact ⟨h.loaded, h.taskM, fun hne => h.taskIds (tail_ne_nil hne), h.items⟩
    · rename_i u t hnext
      obtain ⟨ht, _⟩ := (updateVideoSingleTask_visit cfg answer t st).sameAs
      refine ⟨h.loaded, ?_, fun hne => h.taskIds (tail_ne_nil hne), h.items⟩
      refine Rows.forall_save h.taskM ?_
      have hplatform : t.platform = p.platform := by
        unfold Poller.nextVisit at hnext
        split at hnext
        · exact absurd hnext (by simp)
        · obtain ⟨t', ht', heq⟩ := Option.map_eq_some_iff.1 hnext
          obtain ⟨e, he, rfl⟩ := Option.map_eq_some_iff.1 ht'
          cases heq
          exact h.taskM e (Rows.mem_of_first he)
      exact ht.2.2.1.trans hplatform
  | item env =>
    simp only [pollStep]
    split
    · exact h
    · rename_i item items hitems
      split
      · exact ⟨by simp, by simp, by simp, by simp⟩
      · rename_i t ht
        refine ⟨h.loaded, ?_, h.taskIds, fun _ => h.items (by simp [hitems])⟩
        refine Rows.forall_save h.taskM ?_
        obtain ⟨e, he, rfl⟩ := Option.map_eq_some_iff.1 ht
        have hcarries := updateSunoTask_carries cfg env item e.2 st
        exact hcarries.1.2.2.1.trans (h.taskM e (Rows.mem_of_first he))

/-- The pollers' copies are grouped, and the sweepers' copies have not ended. -/
structure Tidy (s : System) : Prop where
  pollers : ∀ n, (s.pollers n).Grouped
  sweeps : ∀ n, ∀ t ∈ s.sweeps n, t.status.isDone = false

theorem tidy_start (tasks : TaskTable) (w : World) : Tidy (System.start tasks w) where
  pollers := fun _ => ⟨by simp [System.start], by simp [System.start], by simp [System.start],
    by simp [System.start]⟩
  sweeps := by simp [System.start]

theorem tidy_step (cfg : TaskConfig) (a : Action) (h : Tidy s) :
    Tidy (step cfg s a) := by
  cases a with
  | poll n a =>
    refine ⟨?_, h.sweeps⟩
    intro m
    rcases eq_or_ne m n with rfl | hm
    · simpa [step] using grouped_pollStep cfg s.store a (h.pollers m)
    · simpa [step, Function.update_of_ne hm] using h.pollers m
  | sweepStart n now query =>
    refine ⟨h.pollers, ?_⟩
    intro m
    rcases eq_or_ne m n with rfl | hm
    · simp only [step, Function.update_self]
      intro t ht
      split at ht
      · exact absurd ht (by simp)
      · exact Task.isDone_of_isUnfinished (mem_getTimedOutUnfinishedTasks ht).2
    · simpa [step, Function.update_of_ne hm] using h.sweeps m
  | sweep n env =>
    simp only [step]
    cases hsweep : s.sweeps n with
    | nil => exact h
    | cons t tasks =>
      refine ⟨h.pollers, ?_⟩
      intro m
      rcases eq_or_ne m n with rfl | hm
      · simp only [Function.update_self]
        intro x hx
        exact h.sweeps m x (by rw [hsweep]; exact List.mem_cons_of_mem t hx)
      · simpa [Function.update_of_ne hm] using h.sweeps m
  | fetchStart n userId taskId => exact ⟨h.pollers, h.sweeps⟩
  | fetch n report write =>
    simp only [step]
    split
    · exact h
    · exact ⟨h.pollers, h.sweeps⟩

end NewApi

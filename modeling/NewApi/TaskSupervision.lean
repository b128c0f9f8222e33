/-
**Whether an open task is looked after.**

A task whose status is neither SUCCESS nor FAILURE is to be polled again until it has ended or is
swept, so that its charge is settled or given back.  The selections that find it ask for its
progress as well.  The progress follows from the status, but a text in the report of the upstream
service takes its place, and a Suno task with a reason for a failure is complete whatever its
status.  An open task whose progress is "100%" is not found any more.

Main definitions:

* `NewApi.Task.Supervised` — an open task is not complete;
* `NewApi.Action.Attended` — a report that leaves a task open does not make it complete.

Main results:

* `NewApi.open_task_is_found` — **in runs of attended actions the selections find every open task**;
* `NewApi.complete_but_open` — a report of a running task that is complete, and a Suno task with a
  reason for a failure, which are not found again.
-/

import NewApi.TaskOnce

set_option autoImplicit false

namespace NewApi

/-- An open task is not complete, which the selections would take for its end. -/
def Task.Supervised (t : Task) : Prop := t.status.isDone = false → t.progress ≠ "100%"

instance (t : Task) : Decidable t.Supervised := inferInstanceAs (Decidable (_ → _))

variable {t : Task} {tbl : TaskTable} {cfg : TaskConfig}

theorem Task.isUnfinished_of_supervised (h : t.Supervised) (hopen : t.status.isDone = false) :
    t.isUnfinished = true := by
  have hprogress := h hopen
  simp only [TaskStatus.isDone, Bool.or_eq_false_iff, decide_eq_false_iff_not] at hopen
  simp only [Task.isUnfinished, Bool.and_eq_true, decide_eq_true_eq]
  tauto

/-! ### Selections -/

/-- The selection finds every unfinished row, if it is not cut off. -/
theorem Task.mem_selected {limit : ℕ} (ht : t ∈ tbl.rows) (hlimit : tbl.rows.length ≤ limit)
    (hunfinished : t.isUnfinished = true) :
    t ∈ getAllUnFinishSyncTasks none limit tbl := by
  unfold getAllUnFinishSyncTasks
  rw [List.take_of_length_le]
  · rw [List.mem_insertionSort]
    exact List.mem_filter.2 ⟨ht, hunfinished⟩
  · rw [List.length_insertionSort]
    exact Nat.le_trans (List.length_filter_le _ _) hlimit

/-- The selection of tasks that have timed out finds every unfinished row that is old enough. -/
theorem Task.mem_timedOut {limit : ℕ} {cutoffUnix : ℤ} (ht : t ∈ tbl.rows)
    (hlimit : tbl.rows.length ≤ limit) (hunfinished : t.isUnfinished = true)
    (hold : t.submitTime < cutoffUnix) :
    t ∈ getTimedOutUnfinishedTasks none cutoffUnix limit tbl := by
  unfold getTimedOutUnfinishedTasks
  rw [List.take_of_length_le]
  · rw [List.mem_insertionSort]
    refine List.mem_filter.2 ⟨ht, ?_⟩
    simp only [hunfinished, hold, decide_true, Bool.and_self]
  · rw [List.length_insertionSort]
    exact Nat.le_trans (List.length_filter_le _ _) hlimit

/-- Without an unfinished row nothing is selected. -/
theorem selections_eq_nil (h : ∀ t ∈ tbl.rows, t.isUnfinished = false) (cutoffUnix : ℤ) (limit : ℕ) :
    getAllUnFinishSyncTasks none limit tbl = [] ∧
      getTimedOutUnfinishedTasks none cutoffUnix limit tbl = [] := by
  have hnone : tbl.rows.filter Task.isUnfinished = [] := by
    rw [List.filter_eq_nil_iff]
    intro t ht
    rw [h t ht]
    decide
  have hnone' : (tbl.rows.filter fun t => t.isUnfinished && t.submitTime < cutoffUnix) = [] := by
    rw [List.filter_eq_nil_iff]
    intro t ht
    rw [h t ht]
    simp
  constructor
  · rw [getAllUnFinishSyncTasks, hnone, List.insertionSort_nil, List.take_nil]
  · rw [getTimedOutUnfinishedTasks, hnone', List.insertionSort_nil, List.take_nil]

/-! ### Reports -/

/-- The report an answer comes to. -/
def VideoResponse.report (r : VideoResponse) : Option TaskInfo := r.taskResult.bind r.readError

/-- The statuses of a report that leave a video task open. -/
def openStatuses : List TaskStatus := [taskStatusSubmitted, taskStatusQueued, taskStatusInProgress]

/-- **A report that leaves a task open does not make it complete.** -/
def Action.Attended (s : System) : Action → Prop
  | .poll n (.visit answer) =>
    ∀ v ∈ (s.pollers n).nextVisit, ∀ r ∈ answer, ∀ taskResult ∈ r.report,
      taskResult.status ∈ openStatuses → taskResult.progress ≠ "100%"
  | .poll n (.item _) =>
    ∀ v ∈ (s.pollers n).nextItem, taskNeedsUpdate v.2 v.1 = true →
      TaskStatus.isDone (if v.1.status ≠ "" then v.1.status else v.2.status) = false →
        v.1.failReason = "" ∧ v.2.progress ≠ "100%"
  | .fetch n report _ =>
    ∀ t ∈ s.fetches n, ∀ ti ∈ report,
      TaskStatus.isDone (if ti.status ≠ "" then ti.status else t.status) = false →
        (if ti.progress ≠ "" then ti.progress else t.progress) ≠ "100%"
  | _ => True

/-- The status of a report that is known is one of those that leave a task open, or its end. -/
theorem status_of_applyTaskInfo {now : ℤ} {taskResult : TaskInfo} {task updated : Task}
    (h : applyTaskInfo cfg now taskResult task = some updated) :
    updated.status = taskResult.status ∧
      (TaskStatus.isDone taskResult.status = true ∨
        taskResult.status ∈ openStatuses ∧ updated.progress ≠ "100%") := by
  have hprogresses : progressSubmitted ≠ "100%" ∧ progressQueued ≠ "100%" ∧
      progressInProgress ≠ "100%" := by decide
  unfold applyTaskInfo at h
  by_cases hsubmitted : taskResult.status = taskStatusSubmitted
  · rw [if_pos hsubmitted] at h
    obtain rfl := Option.some.inj h
    exact ⟨rfl, .inr ⟨by simp [openStatuses, hsubmitted], hprogresses.1⟩⟩
  rw [if_neg hsubmitted] at h
  by_cases hqueued : taskResult.status = taskStatusQueued
  · rw [if_pos hqueued] at h
    obtain rfl := Option.some.inj h
    exact ⟨rfl, .inr ⟨by simp [openStatuses, hqueued], hprogresses.2.1⟩⟩
  rw [if_neg hqueued] at h
  by_cases hprogress : taskResult.status = taskStatusInProgress
  · rw [if_pos hprogress] at h
    obtain rfl := Option.some.inj h
    exact ⟨rfl, .inr ⟨by simp [openStatuses, hprogress], hprogresses.2.2⟩⟩
  rw [if_neg hprogress] at h
  by_cases hsuccess : taskResult.status = taskStatusSuccess
  · rw [if_pos hsuccess] at h
    obtain rfl := Option.some.inj h
    exact ⟨rfl, .inl (by simp [TaskStatus.isDone, hsuccess])⟩
  rw [if_neg hsuccess] at h
  by_cases hfailure : taskResult.status = taskStatusFailure
  · rw [if_pos hfailure] at h
    obtain rfl := Option.some.inj h
    exact ⟨rfl, .inl (by simp [TaskStatus.isDone, hfailure])⟩
  rw [if_neg hfailure] at h
  cases h

/-- What a report that is known makes of a task. -/
theorem supervised_applyProgress {now : ℤ} {taskResult : TaskInfo} {task updated : Task}
    (h : applyTaskInfo cfg now taskResult task = some updated)
    (hattended : taskResult.status ∈ openStatuses → taskResult.progress ≠ "100%") :
    (applyProgress taskResult updated).Supervised := by
  intro hopen
  obtain ⟨hstatus, hcases⟩ := status_of_applyTaskInfo h
  rw [(applyProgress_spec taskResult updated).1, hstatus] at hopen
  rcases hcases with hdone | ⟨hknown, hprogress⟩
  · rw [hdone] at hopen
    cases hopen
  · have hfailure : taskResult.status ≠ taskStatusFailure := by
      intro heq
      rw [heq] at hopen
      exact absurd hopen (by decide)
    unfold applyProgress
    simp only [if_neg hfailure]
    split
    · exact hattended hknown
    · exact hprogress

/-- Billing writes no task. -/
theorem billVideoTask_tasks (cfg : TaskConfig) (r : VideoResponse) (taskResult : TaskInfo)
    (quota : ℤ) (bill : Bool) (t : Task) (st : TaskStore) :
    (billVideoTask cfg r taskResult quota bill t st).2.tasks = st.tasks := by
  unfold billVideoTask
  by_cases hsettle : bill = true ∧ taskResult.status = taskStatusSuccess
  · rw [if_pos hsettle]
    obtain ⟨_, _, _, _, htasks, _⟩ := settleTaskBillingOnComplete_spec cfg.billing r.billing
      r.adjusted r.priceByTokens t taskResult st
    exact htasks
  · rw [if_neg hsettle]
    split
    · exact refundTaskQuota_tasks cfg.billing r.billing t st
    · rfl

/-- A video task that is written after a visit is what a report has made of it. -/
theorem written_of_updateVideoSingleTask {answer : Option VideoResponse} {row : Task}
    {st : TaskStore} (h : row ∈ (updateVideoSingleTask cfg answer t st).2.tasks.rows) :
    row ∈ st.tasks.rows ∨ ∃ r taskResult task updated, answer = some r ∧
      r.report = some taskResult ∧ applyTaskInfo cfg r.now taskResult task = some updated ∧
        row = applyProgress taskResult updated := by
  unfold updateVideoSingleTask at h
  cases answer with
  | none => exact .inl h
  | some r =>
    simp only at h
    cases hresult : r.taskResult with
    | none =>
      rw [hresult] at h
      exact .inl h
    | some taskResult =>
      simp only [hresult] at h
      cases hread : r.readError taskResult with
      | none =>
        rw [hread] at h
        exact .inl h
      | some taskResult' =>
        simp only [hread] at h
        cases hupdated : applyTaskInfo cfg r.now taskResult' { t with data := r.body } with
        | none =>
          rw [hupdated] at h
          exact .inl h
        | some updated =>
          simp only [hupdated] at h
          have hreport : r.report = some taskResult' := by
            rw [VideoResponse.report, hresult, Option.bind_some, hread]
          rw [billVideoTask_tasks] at h
          have hcases : row ∈ st.tasks.rows ∨
              row = applyProgress taskResult' updated := by
            rcases persistVideoTask_cases r.write t.snapshot
                (applyProgress taskResult' updated) st with
              hlost | ⟨-, -, -, hwon⟩ | ⟨-, hsame | hwrite⟩
            · rw [hlost] at h
              exact .inl h
            · rw [hwon] at h
              exact (TaskTable.mem_cas h).symm
            · rw [hsame] at h
              exact .inl h
            · rw [hwrite] at h
              exact (TaskTable.mem_cas h).symm
          rcases hcases with hold | hnew
          · exact .inl hold
          · exact .inr ⟨r, taskResult', _, updated, rfl, hreport, hupdated, hnew⟩

/-- A Suno task that is written is what its report has made of it. -/
theorem written_of_updateSunoTask {env : SunoEnv} {item : SunoDataResponse} {row : Task}
    {st : TaskStore} (h : row ∈ (updateSunoTask cfg env item t st).2.tasks.rows) :
    row ∈ st.tasks.rows ∨ taskNeedsUpdate t item = true ∧ row = item.written t := by
  rcases updateSunoTask_cases cfg env item t st with
    ⟨-, hsame⟩ | ⟨-, -, hlost⟩ | ⟨hneeds, -, hwrite⟩
  · rw [hsame] at h
    exact .inl h
  · rw [hlost, sunoRefunded_tasks] at h
    exact .inl h
  · rw [hwrite] at h
    rcases TaskTable.mem_save h with hnew | hold
    · exact .inr ⟨hneeds, hnew⟩
    · exact .inl hold

/-- What a Suno report makes of a task. -/
theorem supervised_written {item : SunoDataResponse}
    (hattended : TaskStatus.isDone (if item.status ≠ "" then item.status else t.status) = false →
      item.failReason = "" ∧ t.progress ≠ "100%") :
    (item.written t).Supervised := by
  intro hopen
  have hstatus : (item.written t).status = if item.status ≠ "" then item.status else t.status := rfl
  rw [hstatus] at hopen
  obtain ⟨hreason, hprogress⟩ := hattended hopen
  have hfails : ¬ (item.fails (item.apply t) = true ∨ item.status = taskStatusSuccess) := by
    rintro (hfails | hsuccess)
    · rw [SunoDataResponse.fails, hreason] at hfails
      have hfailure : (item.apply t).status = taskStatusFailure := by simpa using hfails
      have heq : (if item.status ≠ "" then item.status else t.status) = taskStatusFailure :=
        hfailure
      rw [heq] at hopen
      exact absurd hopen (by decide)
    · have hne : item.status ≠ "" := by
        rw [hsuccess]
        decide
      rw [if_pos hne, hsuccess] at hopen
      exact absurd hopen (by decide)
  have heq : (item.written t).progress = t.progress := by
    simp only [SunoDataResponse.written, if_neg hfails]
    rfl
  rw [heq]
  exact hprogress

/-- **One action keeps open tasks where they are found**, if it is attended. -/
theorem supervised_step (s : System) (a : Action) (h : ∀ row ∈ s.store.tasks.rows, row.Supervised)
    (hattended : a.Attended s) :
    ∀ row ∈ (step cfg s a).store.tasks.rows, row.Supervised := by
  have hdone : ∀ row : Task, row.status = taskStatusFailure → row.Supervised := by
    intro row hstatus hopen
    rw [hstatus] at hopen
    exact absurd hopen (by decide)
  have hbulk : ∀ fault ids failReason,
      ∀ row ∈ (s.store.bulkFail fault ids failReason).tasks.rows, row.Supervised := by
    intro fault ids failReason row hrow
    rcases bulkFail_cases fault ids failReason s.store with hsame | ⟨tasks, hupdate, hrows⟩
    · rw [hsame] at hrow
      exact h row hrow
    · rw [hrows] at hrow
      obtain ⟨old, hold, hcases⟩ := TaskTable.mem_bulkUpdate hupdate hrow
      rcases hcases with hsame | hfailed
      · rw [hsame]
        exact h old hold
      · rw [hfailed]
        exact hdone _ rfl
  intro row hrow
  cases a with
  | poll n a =>
    cases a with
    | start query => exact h row hrow
    | platform platform bulk =>
      simp only [step, pollStep] at hrow
      split at hrow
      · exact h row hrow
      · split at hrow
        · exact h row hrow
        · exact hbulk _ _ _ row hrow
    | channel channelId answer =>
      simp only [step, pollStep] at hrow
      split at hrow
      · exact h row hrow
      · split at hrow
        · exact h row hrow
        · cases answer with
          | lookupFailed bulk => exact hbulk _ _ _ row hrow
          | failed => exact h row hrow
          | found items =>
            dsimp only at hrow
            split at hrow
            · exact h row hrow
            · exact h row hrow
    | visit answer =>
      simp only [step, pollStep] at hrow
      cases hnext : (s.pollers n).nextVisit with
      | none =>
        rw [hnext] at hrow
        exact h row hrow
      | some v =>
        rw [hnext] at hrow
        rcases written_of_updateVideoSingleTask hrow with
          hold | ⟨r, taskResult, task, updated, hr, hreport, hupdated, hnew⟩
        · exact h row hold
        · rw [hnew]
          exact supervised_applyProgress hupdated (hattended v hnext r hr taskResult hreport)
    | item env =>
      simp only [step, pollStep] at hrow
      cases hitems : (s.pollers n).items with
      | nil =>
        rw [hitems] at hrow
        exact h row hrow
      | cons item items =>
        simp only [hitems] at hrow
        cases htask : (s.pollers n).task item.taskId with
        | none =>
          rw [htask] at hrow
          exact h row hrow
        | some t =>
          simp only [htask] at hrow
          have hnext : (s.pollers n).nextItem = some (item, t) := by
            simp only [Poller.nextItem, hitems, htask, Option.map_some]
          rcases written_of_updateSunoTask hrow with hold | ⟨hneeds, hnew⟩
          · exact h row hold
          · rw [hnew]
            exact supervised_written (hattended (item, t) hnext hneeds)
  | sweepStart n now query => exact h row hrow
  | sweep n env =>
    simp only [step] at hrow
    cases hsweep : s.sweeps n with
    | nil =>
      rw [hsweep] at hrow
      exact h row hrow
    | cons t tasks =>
      simp only [hsweep] at hrow
      have hwritten : row ∈ (s.store.tasks.cas t.status (t.timedOut cfg env.now)).rows →
          row.Supervised := by
        intro hcas
        rcases TaskTable.mem_cas hcas with hnew | hold
        · exact hdone row (by rw [hnew]; rfl)
        · exact h row hold
      rcases sweepTask_cases cfg env t s.store with hsame | ⟨-, hswept⟩
      · rw [hsame] at hrow
        exact h row hrow
      · rw [hswept] at hrow
        split at hrow
        · exact hwritten hrow
        · rw [refundTaskQuota_tasks] at hrow
          exact hwritten hrow
  | fetchStart n userId taskId => exact h row hrow
  | fetch n report write =>
    simp only [step] at hrow
    cases hfetch : s.fetches n with
    | none =>
      rw [hfetch] at hrow
      exact h row hrow
    | some t =>
      simp only [hfetch] at hrow
      rcases tryRealtimeFetch_cases cfg report write t s.store with hsame | ⟨ti, hti, _, hwrite⟩
      · rw [hsame] at hrow
        exact h row hrow
      · rw [hwrite] at hrow
        rcases TaskTable.mem_cas hrow with hnew | hold
        · rw [hnew]
          intro hopen
          exact hattended t hfetch ti hti hopen
        · exact h row hold

/-! ### Supervision -/

/-- **Every open task is found again.**  Whatever the upstream services report and however pollers,
sweepers and requests interleave: in a run of attended actions from rows of which no open one is
complete, every row whose status is neither SUCCESS nor FAILURE is selected for the next round, and
for being swept once it is old enough. -/
theorem open_task_is_found (cfg : TaskConfig) (tasks : TaskTable) (w : World) (as : List Action)
    (hstart : ∀ row ∈ tasks.rows, row.Supervised)
    (hattended : Transition.Along (step cfg) (fun s a => a.Attended s) (System.start tasks w) as) :
    let tbl := (Transition.run (step cfg) (System.start tasks w) as).store.tasks
    ∀ row ∈ tbl.rows, row.status.isDone = false → ∀ limit, tbl.rows.length ≤ limit →
      row ∈ getAllUnFinishSyncTasks none limit tbl ∧
        ∀ cutoffUnix, row.submitTime < cutoffUnix →
          row ∈ getTimedOutUnfinishedTasks none cutoffUnix limit tbl := by
  intro tbl row hrow hopen limit hlimit
  have hsupervised : ∀ row ∈ tbl.rows, row.Supervised :=
    @Transition.run_invariant System Action (step cfg) (fun s a => a.Attended s)
      (fun s => ∀ row ∈ s.store.tasks.rows, row.Supervised) supervised_step _ _ hstart hattended
  have hunfinished := Task.isUnfinished_of_supervised (hsupervised row hrow) hopen
  refine ⟨Task.mem_selected hrow hlimit hunfinished, ?_⟩
  intro cutoffUnix hold
  exact Task.mem_timedOut hrow hlimit hunfinished hold

/-- The answer that a task is running, with a text for its progress. -/
def runningAnswer (progress : String) : Option VideoResponse :=
  some { parsed := some { status := "IN_PROGRESS", progress := progress }, now := 1800000100 }

/-- A Suno report of a running task that gives a reason for a failure. -/
def failingReport : SunoDataResponse where
  taskId := "job"
  status := "IN_PROGRESS"
  failReason := "flagged"

/-- A running task that has come to 80% is selected again. -/
theorem open_task_is_found_running :
    let tbl := (Transition.run (step pollingConfig) (System.start (oneTask "50") emptyWorld)
      (toChannel 0 "50" [] ++ [Action.poll 0 (.visit (runningAnswer "80%"))])).store.tasks
    ∀ row ∈ tbl.rows, row ∈ getAllUnFinishSyncTasks none 1000 tbl := by
  intro tbl row hrow
  have hattended : Transition.Along (step pollingConfig) (fun s a => a.Attended s)
      (System.start (oneTask "50") emptyWorld)
      (toChannel 0 "50" [] ++ [Action.poll 0 (.visit (runningAnswer "80%"))]) := by
    refine ⟨trivial, trivial, trivial, ?_, trivial⟩
    intro v _ r hr taskResult hreport _
    obtain rfl := Option.some.inj hr
    obtain rfl := Option.some.inj hreport
    decide
  have hopen : row.status.isDone = false := by
    revert row
    decide
  exact (open_task_is_found pollingConfig (oneTask "50") emptyWorld _ (by decide) hattended row hrow
    hopen 1000 (by decide)).1

/-- **Open tasks that are not found any more.**  A video task is reported as running with a progress
of "100%", and a Suno task as running with a reason for a failure: both rows have the status
IN_PROGRESS, and neither selection finds them. -/
theorem complete_but_open :
    let video := (Transition.run (step pollingConfig) (System.start (oneTask "50") emptyWorld)
      (toChannel 0 "50" [] ++ [Action.poll 0 (.visit (runningAnswer "100%"))])).store.tasks
    let suno := (Transition.run (step pollingConfig) (System.start (oneTask "suno") emptyWorld)
      (toChannel 0 "suno" [failingReport] ++ [Action.poll 0 (.item {})])).store.tasks
    (video.rows.map fun row => (row.status, row.progress)) = [("IN_PROGRESS", "100%")] ∧
      (suno.rows.map fun row => (row.status, row.progress)) = [("IN_PROGRESS", "100%")] ∧
      ∀ cutoffUnix limit,
        (getAllUnFinishSyncTasks none limit video = [] ∧
          getTimedOutUnfinishedTasks none cutoffUnix limit video = []) ∧
        getAllUnFinishSyncTasks none limit suno = [] ∧
          getTimedOutUnfinishedTasks none cutoffUnix limit suno = [] := by
  intro video suno
  have hvideo : ∀ row ∈ video.rows, row.isUnfinished = false := by decide
  have hsuno : ∀ row ∈ suno.rows, row.isUnfinished = false := by decide
  refine ⟨by decide, by decide, ?_⟩
  intro cutoffUnix limit
  exact ⟨selections_eq_nil hvideo cutoffUnix limit, selections_eq_nil hsuno cutoffUnix limit⟩

end NewApi

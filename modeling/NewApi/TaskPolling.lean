/-
**Polling tasks.**

Every node polls: it sweeps tasks that have timed out, loads the unfinished tasks, groups them by
platform, and for each platform asks the upstream services channel by channel how the tasks are
doing.  Video tasks are visited one by one; Suno tasks are reported in a batch.  Besides, a user who
asks for a video may make the program fetch its state at once.

A poller works on the copies it has loaded.  Within a platform it finds them by their id at the
upstream service: of two tasks with one such id only the later is kept, and it is visited once for
each of them.

The system is the store and the memories of any number of pollers, sweepers and requests.  One
action handles one task, so the nodes interleave between any two tasks.  A poller may start over at
any time, as it does when its process is restarted.

Main definitions:

* `NewApi.sweepTask`, `NewApi.updateVideoSingleTask`, `NewApi.updateSunoTask`,
  `NewApi.tryRealtimeFetch` — what is done about one task;
* `NewApi.Poller`, `NewApi.pollStep` — a round of polling;
* `NewApi.System`, `NewApi.Action`, `NewApi.step` — all nodes together.
-/

import NewApi.TaskBilling

set_option autoImplicit false

namespace NewApi

/-- The settings polling reads. -/
structure TaskConfig where
  billing : BillingConfig
  serverAddress : String
  taskTimeoutMinutes : ℤ
  taskQueryLimit : ℕ

/-! ### Sweeping -/

def legacyTaskCutoff : ℤ := 1740182400

/-- A task of the time before refunds were introduced. -/
def Task.isLegacy (t : Task) : Bool := 0 < t.submitTime && t.submitTime < legacyTaskCutoff

/-- The task as a sweep writes it. -/
def Task.timedOut (cfg : TaskConfig) (now : ℤ) (t : Task) : Task :=
  { t with
    status := taskStatusFailure
    progress := "100%"
    finishTime := now
    failReason :=
      if t.isLegacy then "任务超时（旧系统遗留任务，不进行退款，请联系管理员）"
      else "任务超时（" ++ toString cfg.taskTimeoutMinutes ++ "分钟）" }

/-- What sweeping one task is given: the time, and the outcomes of its statements. -/
structure SweepEnv where
  now : ℤ
  write : Fault := none
  billing : TaskBillingEnv := {}
deriving DecidableEq, Repr

/-- Fail a task that has timed out, and refund it if this call won the update. -/
def sweepTask (cfg : TaskConfig) (env : SweepEnv) (task : Task) (st : TaskStore) : TaskStore :=
  match st.tasks.updateWithStatus env.write task.status (task.timedOut cfg env.now) with
  | .error _ => st
  | .ok (won, tasks) =>
    let st := { st with tasks := tasks }
    if won && !task.isLegacy && task.quota ≠ 0 then
      refundTaskQuota cfg.billing env.billing (task.timedOut cfg env.now) st
    else st

/-! ### Video tasks -/

/-- A task as another server of this kind reports it. -/
structure NewApiTask where
  status : String
  failReason : String
  progress : String
deriving DecidableEq, Repr

/-- The report on a task in that form; such a server does not tell the result's address, in whose
place the reason for a failure is read. -/
def NewApiTask.taskInfo (t : NewApiTask) : TaskInfo where
  status := t.status
  reason := t.failReason
  url := t.failReason
  progress := t.progress

/-- An upstream service's answer about one task, as the program reads it: in the form of another
server of this kind, by the platform's adaptor, and as an error with a code; further the document
that is kept, the time, the adaptor's price and the one of the tokens used, and the outcomes of the
statements. -/
structure VideoResponse where
  newApi : Option NewApiTask := none
  parsed : Option TaskInfo := none
  errorBody : Option (Option String) := none
  body : List UInt8 := []
  now : ℤ
  adjusted : ℤ := 0
  priceByTokens : Option ℤ := none
  write : Fault := none
  billing : TaskBillingEnv := {}
deriving DecidableEq, Repr

/-- The report on the task, if the answer can be read. -/
def VideoResponse.taskResult (r : VideoResponse) : Option TaskInfo :=
  match r.newApi with
  | some t => some t.taskInfo
  | none => r.parsed

def failTaskInfo (reason : String) : TaskInfo := { status := "FAILURE", reason := reason }

/-- A report without a status is a failure, if the answer is an error; an error that asks for fewer
requests is no report at all. -/
def VideoResponse.readError (r : VideoResponse) (taskResult : TaskInfo) : Option TaskInfo :=
  if taskResult.status = "" then
    match r.errorBody with
    | none => some taskResult
    | some none => some (failTaskInfo "upstream returned unrecognized message")
    | some (some code) =>
      if code = "429" then none else some (failTaskInfo "upstream returned error")
  else some taskResult

def buildProxyURL (cfg : TaskConfig) (taskID : String) : String :=
  cfg.serverAddress ++ "/v1/videos/" ++ taskID ++ "/content"

/-- The address of a result: a document that contains it is served by the program itself. -/
def resultURL (cfg : TaskConfig) (url taskID : String) : String :=
  if hasPrefix url "data:" then buildProxyURL cfg taskID
  else if url ≠ "" then url
  else buildProxyURL cfg taskID

/-- Bring a task up to date with a report; a status that is not known is an error. -/
def applyTaskInfo (cfg : TaskConfig) (now : ℤ) (taskResult : TaskInfo) (task : Task) :
    Option Task :=
  let task := { task with status := taskResult.status }
  if taskResult.status = taskStatusSubmitted then some { task with progress := progressSubmitted }
  else if taskResult.status = taskStatusQueued then some { task with progress := progressQueued }
  else if taskResult.status = taskStatusInProgress then
    some { task with
      progress := progressInProgress
      startTime := if task.startTime = 0 then now else task.startTime }
  else if taskResult.status = taskStatusSuccess then
    some { task with
      progress := progressComplete
      finishTime := if task.finishTime = 0 then now else task.finishTime
      privateData := { task.privateData with
        resultUrl := resultURL cfg taskResult.url task.taskId } }
  else if taskResult.status = taskStatusFailure then
    some { task with
      progress := progressComplete
      finishTime := if task.finishTime = 0 then now else task.finishTime
      failReason := taskResult.reason }
  else none

/-- The progress of a report replaces the one its status stands for; a failed task is complete. -/
def applyProgress (taskResult : TaskInfo) (task : Task) : Task :=
  let progress :=
    if taskResult.status = taskStatusFailure then progressComplete else taskResult.progress
  if progress ≠ "" then { task with progress := progress } else task

/-- Write a task that was updated, and say whether it may be billed.  The status is compared with
the one of the copy before the update; only a task that has just ended is written under the
condition that this call wins. -/
def persistVideoTask (fault : Fault) (snap : TaskSnapshot) (task : Task) (st : TaskStore) :
    Bool × TaskStore :=
  if task.status.isDone ∧ snap.status ≠ task.status then
    match st.tasks.updateWithStatus fault snap.status task with
    | .error _ => (false, st)
    | .ok (won, tasks) => (won, { st with tasks := tasks })
  else if snap ≠ task.snapshot then
    match st.tasks.updateWithStatus fault snap.status task with
    | .error _ => (true, st)
    | .ok (_, tasks) => (true, { st with tasks := tasks })
  else (true, st)

/-- Bill a visited task if it may be billed: settle it when it has succeeded, refund it when it has
failed.  The charge is the one the copy had when the visit began. -/
def billVideoTask (cfg : TaskConfig) (r : VideoResponse) (taskResult : TaskInfo) (quota : ℤ)
    (bill : Bool) (task : Task) (st : TaskStore) : Task × TaskStore :=
  if bill ∧ taskResult.status = taskStatusSuccess then
    settleTaskBillingOnComplete cfg.billing r.billing r.adjusted r.priceByTokens task taskResult st
  else if bill ∧ taskResult.status = taskStatusFailure ∧ quota ≠ 0 then
    (task, refundTaskQuota cfg.billing r.billing task st)
  else (task, st)

/-- Visit a video task: the poller's copy and the store afterwards. -/
def updateVideoSingleTask (cfg : TaskConfig) (answer : Option VideoResponse) (task : Task)
    (st : TaskStore) : Task × TaskStore :=
  match answer with
  | none => (task, st)
  | some r =>
    match r.taskResult with
    | none => (task, st)
    | some taskResult =>
      let snap := task.snapshot
      let task := { task with data := r.body }
      match r.readError taskResult with
      | none => (task, st)
      | some taskResult =>
        match applyTaskInfo cfg r.now taskResult task with
        | none => ({ task with status := taskResult.status }, st)
        | some updated =>
          let task' := applyProgress taskResult updated
          let (bill, st') := persistVideoTask r.write snap task' st
          billVideoTask cfg r taskResult task.quota bill task' st'

/-! ### Suno tasks -/

/-- A Suno task as the upstream service reports it. -/
structure SunoDataResponse where
  taskId : String
  status : String := ""
  failReason : String := ""
  submitTime : ℤ := 0
  startTime : ℤ := 0
  finishTime : ℤ := 0
  data : List UInt8 := []
deriving DecidableEq, Repr

/-- White space between the tokens of a document. -/
def isJsonSpace (b : UInt8) : Bool := b = 0x20 || b = 0x09 || b = 0x0A || b = 0x0D

/-- The digit of a nibble in the escape sequences of documents. -/
def hexDigit (b : UInt8) : UInt8 := if b < 10 then 0x30 + b else 0x57 + b

/-- A document without white space outside its strings, and with the characters that have a
meaning in a web page escaped. -/
def compactJson : Bool → List UInt8 → List UInt8
  | _, [] => []
  | true, 0x5C :: b :: rest => 0x5C :: b :: compactJson true rest
  | inString, 0xE2 :: 0x80 :: b :: rest =>
    if b = 0xA8 ∨ b = 0xA9 then
      0x5C :: 0x75 :: 0x32 :: 0x30 :: 0x32 :: hexDigit (b &&& 0x0F) :: compactJson inString rest
    else 0xE2 :: 0x80 :: b :: compactJson inString rest
  | inString, b :: rest =>
    if b = 0x22 then b :: compactJson (!inString) rest
    else if b = 0x3C ∨ b = 0x3E ∨ b = 0x26 then
      0x5C :: 0x75 :: 0x30 :: 0x30 :: hexDigit (b >>> 4) :: hexDigit (b &&& 0x0F) ::
        compactJson inString rest
    else if !inString && isJsonSpace b then compactJson inString rest
    else b :: compactJson inString rest

/-- The bytes of a document as they are written; no document is written as `null`. -/
def marshalData (data : List UInt8) : List UInt8 :=
  if data = [] then [0x6E, 0x75, 0x6C, 0x6C] else compactJson false data

/-- The bytes of a document in ascending order. -/
def sortedData (data : List UInt8) : List UInt8 := (marshalData data).insertionSort (· ≤ ·)

/-- Whether a report says something new about a task. -/
def taskNeedsUpdate (oldTask : Task) (newTask : SunoDataResponse) : Bool :=
  if oldTask.submitTime ≠ newTask.submitTime then true
  else if oldTask.startTime ≠ newTask.startTime then true
  else if oldTask.finishTime ≠ newTask.finishTime then true
  else if oldTask.status ≠ newTask.status then true
  else if oldTask.failReason ≠ newTask.failReason then true
  else if oldTask.status.isDone ∧ oldTask.progress ≠ "100%" then true
  else sortedData oldTask.data ≠ sortedData newTask.data

/-- The fields of a report that are not empty replace those of the task. -/
def SunoDataResponse.apply (item : SunoDataResponse) (task : Task) : Task :=
  { task with
    status := if item.status ≠ "" then item.status else task.status
    failReason := if item.failReason ≠ "" then item.failReason else task.failReason
    submitTime := if item.submitTime ≠ 0 then item.submitTime else task.submitTime
    startTime := if item.startTime ≠ 0 then item.startTime else task.startTime
    finishTime := if item.finishTime ≠ 0 then item.finishTime else task.finishTime }

/-- Whether a report makes a task, which is up to date with it, a failed one. -/
def SunoDataResponse.fails (item : SunoDataResponse) (task : Task) : Bool :=
  item.failReason ≠ "" || task.status = taskStatusFailure

/-- The outcomes of the statements that handle one report. -/
structure SunoEnv where
  write : Fault := none
  billing : TaskBillingEnv := {}
deriving DecidableEq, Repr

/-- The task as the report makes the poller write it. -/
def SunoDataResponse.written (item : SunoDataResponse) (task : Task) : Task :=
  let task := item.apply task
  { task with
    progress :=
      if item.fails task ∨ item.status = taskStatusSuccess then "100%" else task.progress
    data := item.data }

/-- Handle the report on a Suno task: the poller's copy and the store afterwards.  A task that has
failed is refunded first and written then. -/
def updateSunoTask (cfg : TaskConfig) (env : SunoEnv) (item : SunoDataResponse) (task : Task)
    (st : TaskStore) : Task × TaskStore :=
  if taskNeedsUpdate task item = false then (task, st)
  else
    let st :=
      if item.fails (item.apply task) then
        refundTaskQuota cfg.billing env.billing { item.apply task with progress := "100%" } st
      else st
    match st.tasks.update env.write (item.written task) with
    | .error _ => (item.written task, st)
    | .ok tasks => (item.written task, { st with tasks := tasks })

/-! ### Fetching at a user's request -/

/-- The task as a fetch updates it. -/
def fetched (cfg : TaskConfig) (ti : TaskInfo) (task : Task) : Task :=
  let status := if ti.status ≠ "" then ti.status else task.status
  { task with
    status := status
    progress := if ti.progress ≠ "" then ti.progress else task.progress
    privateData := { task.privateData with
      resultUrl :=
        if hasPrefix ti.url "data:" then task.privateData.resultUrl
        else if ti.url ≠ "" then ti.url
        else if status = taskStatusSuccess then buildProxyURL cfg task.taskId
        else task.privateData.resultUrl } }

/-- Fetch the state of a task: there is a report if the task's channel is of a kind that supports
this and its service answers.  The task is written if it has changed, and never billed. -/
def tryRealtimeFetch (cfg : TaskConfig) (report : Option TaskInfo) (fault : Fault) (task : Task)
    (st : TaskStore) : TaskStore :=
  match report with
  | none => st
  | some ti =>
    let task' := fetched cfg ti task
    if task.snapshot ≠ task'.snapshot then
      match st.tasks.updateWithStatus fault task.status task' with
      | .error _ => st
      | .ok (_, tasks) => { st with tasks := tasks }
    else st

/-! ### A round of polling -/

/-- Add `v` to the list kept for `k`. -/
def appendTo {κ β : Type*} [DecidableEq κ] (k : κ) (v : β) (m : List (κ × List β)) :
    List (κ × List β) :=
  Rows.save Prod.fst (k, ((Rows.first Prod.fst k m).elim [] Prod.snd) ++ [v]) m

/-- The memory of a poller: the tasks of the platforms it has not come to, its copies of the
current platform's tasks by their ids at the upstream service, the channels it has not come to,
and what is left of the current channel, tasks to visit or reports to handle. -/
structure Poller where
  platformTask : List (TaskPlatform × List Task) := []
  platform : TaskPlatform := ""
  taskM : List (String × Task) := []
  taskChannelM : List (ℤ × List String) := []
  taskIds : List String := []
  items : List SunoDataResponse := []
deriving DecidableEq, Repr

namespace Poller

/-- The copy of the task with an id at the upstream service. -/
def task (u : String) (p : Poller) : Option Task := (Rows.first Prod.fst u p.taskM).map Prod.snd

def setTask (u : String) (t : Task) (p : Poller) : Poller :=
  { p with taskM := Rows.save Prod.fst (u, t) p.taskM }

/-- The copy to be visited next, and its key. -/
def nextVisit (p : Poller) : Option (String × Task) :=
  match p.taskIds with
  | [] => none
  | u :: _ => (p.task u).map fun t => (u, t)

/-- The report to be handled next, and the copy it is about. -/
def nextItem (p : Poller) : Option (SunoDataResponse × Task) :=
  match p.items with
  | [] => none
  | item :: _ => (p.task item.taskId).map fun t => (item, t)

end Poller

/-- The copies of a platform's tasks by their ids at the upstream service; a later task takes the
place of an earlier one with the same id. -/
def buildTaskM (tasks : List Task) : List (String × Task) :=
  (tasks.filter fun t => t.getUpstreamTaskID ≠ "").foldl
    (fun m t => Rows.save Prod.fst (t.getUpstreamTaskID, t) m) []

/-- The upstream ids of a platform's tasks by channel, each as often as there are tasks with it. -/
def buildTaskChannelM (tasks : List Task) : List (ℤ × List String) :=
  (tasks.filter fun t => t.getUpstreamTaskID ≠ "").foldl
    (fun m t => appendTo t.channelId t.getUpstreamTaskID m) []

/-- The ids of a platform's tasks that have no id at the upstream service. -/
def nullTaskIds (tasks : List Task) : List ℤ :=
  (tasks.filter fun t => t.getUpstreamTaskID = "").map Task.id

/-- How it goes with a channel: it is not found, the work on it ends with an error, or its tasks
are visited; Suno's come with the reports of the batch. -/
inductive ChannelAnswer where
  | lookupFailed (bulk : Fault)
  | failed
  | found (items : List SunoDataResponse)
deriving DecidableEq, Repr

inductive PollAction where
  | start (query : Fault)
  | platform (platform : TaskPlatform) (bulk : Fault)
  | channel (channelId : ℤ) (answer : ChannelAnswer)
  | visit (answer : Option VideoResponse)
  | item (env : SunoEnv)
deriving DecidableEq, Repr

/-- The reason written for tasks whose channel is not found. -/
def channelFailReason (platform : TaskPlatform) (channelId : ℤ) : String :=
  if platform = taskPlatformSuno then
    "获取渠道信息失败，请联系管理员，渠道ID：" ++ toString channelId
  else "Failed to get channel info, channel ID: " ++ toString channelId

/-- Fail the rows with the given ids; an error changes nothing and is logged. -/
def TaskStore.bulkFail (fault : Fault) (ids : List ℤ) (failReason : Option String)
    (st : TaskStore) : TaskStore :=
  match st.tasks.bulkUpdate fault ids failReason with
  | .error _ => st
  | .ok tasks => { st with tasks := tasks }

/-- The ids of the tasks of a channel that is not found. -/
def Poller.failedIDs (taskIds : List String) (p : Poller) : List ℤ :=
  taskIds.filterMap fun u => (p.task u).map Task.id

/-- Start on a platform whose tasks are `tasks`. -/
def Poller.enter (platform : TaskPlatform) (tasks : List Task) (p : Poller) : Poller where
  platformTask := p.platformTask.filter fun g => g.1 ≠ platform
  platform := platform
  taskM := buildTaskM tasks
  taskChannelM := if platform = taskPlatformMidjourney then [] else buildTaskChannelM tasks

/-- One action of a poller.  An action that is not the poller's turn changes nothing.  A report on
a task the poller has no copy of ends its process. -/
def pollStep (cfg : TaskConfig) (p : Poller) (st : TaskStore) : PollAction → Poller × TaskStore
  | .start query =>
    let allTasks := getAllUnFinishSyncTasks query cfg.taskQueryLimit st.tasks
    ({ platformTask := allTasks.foldl (fun m t => appendTo t.platform t m) [] }, st)
  | .platform platform bulk =>
    if p.taskChannelM ≠ [] ∨ p.taskIds ≠ [] ∨ p.items ≠ [] then (p, st)
    else
      match Rows.first Prod.fst platform p.platformTask with
      | none => (p, st)
      | some (_, tasks) => (p.enter platform tasks, st.bulkFail bulk (nullTaskIds tasks) none)
  | .channel channelId answer =>
    if p.taskIds ≠ [] ∨ p.items ≠ [] then (p, st)
    else
      match Rows.first Prod.fst channelId p.taskChannelM with
      | none => (p, st)
      | some (_, taskIds) =>
        let p' := { p with taskChannelM := p.taskChannelM.filter fun c => c.1 ≠ channelId }
        match answer with
        | .lookupFailed bulk =>
          (p', st.bulkFail bulk (p.failedIDs taskIds)
            (some (channelFailReason p.platform channelId)))
        | .failed => (p', st)
        | .found items =>
          if p.platform = taskPlatformSuno then ({ p' with items := items }, st)
          else ({ p' with taskIds := taskIds }, st)
  | .visit answer =>
    match p.nextVisit with
    | none => ({ p with taskIds := p.taskIds.tail }, st)
    | some (u, t) =>
      let (t', st') := updateVideoSingleTask cfg answer t st
      ({ p with taskIds := p.taskIds.tail }.setTask u t', st')
  | .item env =>
    match p.items with
    | [] => (p, st)
    | item :: items =>
      match p.task item.taskId with
      | none => ({}, st)
      | some t =>
        let (t', st') := updateSunoTask cfg env item t st
        ({ p with items := items }.setTask item.taskId t', st')

/-! ### All nodes together -/

/-- The store, and the memories of pollers, sweepers and requests. -/
structure System where
  store : TaskStore
  pollers : ℕ → Poller
  sweeps : ℕ → List Task
  fetches : ℕ → Option Task

inductive Action where
  | poll (n : ℕ) (a : PollAction)
  | sweepStart (n : ℕ) (now : ℤ) (query : Fault)
  | sweep (n : ℕ) (env : SweepEnv)
  | fetchStart (n : ℕ) (userId : ℤ) (taskId : String)
  | fetch (n : ℕ) (report : Option TaskInfo) (write : Fault)
deriving DecidableEq, Repr

/-- The tasks a sweep handles at most. -/
def taskSweepLimit : ℕ := 100

def step (cfg : TaskConfig) (s : System) : Action → System
  | .poll n a =>
    let (p, st) := pollStep cfg (s.pollers n) s.store a
    { s with store := st, pollers := Function.update s.pollers n p }
  | .sweepStart n now query =>
    let cutoff := now - cfg.taskTimeoutMinutes * 60
    let tasks :=
      if cfg.taskTimeoutMinutes ≤ 0 then []
      else getTimedOutUnfinishedTasks query cutoff taskSweepLimit s.store.tasks
    { s with sweeps := Function.update s.sweeps n tasks }
  | .sweep n env =>
    match s.sweeps n with
    | [] => s
    | t :: tasks =>
      { s with
        store := sweepTask cfg env t s.store
        sweeps := Function.update s.sweeps n tasks }
  | .fetchStart n userId taskId =>
    { s with fetches := Function.update s.fetches n (getByTaskId userId taskId s.store.tasks) }
  | .fetch n report write =>
    match s.fetches n with
    | none => s
    | some t =>
      { s with
        store := tryRealtimeFetch cfg report write t s.store
        fetches := Function.update s.fetches n none }

/-- The system before anything has been loaded. -/
def System.start (tasks : TaskTable) (w : World) : System where
  store := { tasks := tasks, world := w, events := [] }
  pollers := fun _ => {}
  sweeps := fun _ => []
  fetches := fun _ => none

end NewApi

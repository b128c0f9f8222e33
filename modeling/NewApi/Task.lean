/-
**Asynchronous tasks and their table.**

A task is charged when it is submitted and runs at an upstream service; its row is updated as the
service reports.  Three statements write rows.  `TaskTable.updateWithStatus` is a compare-and-set:
it writes only if the row still has the status the caller last saw, and says whether it did.
`TaskTable.update` writes the caller's copy whatever the row holds by now, and
`TaskTable.bulkUpdate` changes some columns of the rows with the given ids, whatever they hold.

Main definitions:

* `NewApi.Task`, `NewApi.TaskSnapshot` — a task, and the part of it that polling compares;
* `NewApi.TaskTable` — the rows, with distinct ids;
* `NewApi.TaskTable.updateWithStatus`, `NewApi.TaskTable.update`, `NewApi.TaskTable.bulkUpdate` —
  the writes;
* `NewApi.getAllUnFinishSyncTasks`, `NewApi.getTimedOutUnfinishedTasks` — the selections.

Main results:

* `NewApi.TaskTable.get_cas`, `NewApi.TaskTable.get_update`, `NewApi.TaskTable.get_bulkUpdate` —
  **what a row is after each write**;
* `NewApi.mem_getAllUnFinishSyncTasks`, `NewApi.mem_getTimedOutUnfinishedTasks` — only unfinished
  rows are selected.
-/

import NewApi.Lib.Rows
import NewApi.BillingSession

set_option autoImplicit false

namespace NewApi

/-! ### Statuses -/

/-- A status is a text: an upstream service may report one that is none of those named here. -/
abbrev TaskStatus := String

def taskStatusNotStart : TaskStatus := "NOT_START"

def taskStatusSubmitted : TaskStatus := "SUBMITTED"

def taskStatusQueued : TaskStatus := "QUEUED"

def taskStatusInProgress : TaskStatus := "IN_PROGRESS"

def taskStatusFailure : TaskStatus := "FAILURE"

def taskStatusSuccess : TaskStatus := "SUCCESS"

/-- Whether a task with this status has ended. -/
def TaskStatus.isDone (status : TaskStatus) : Bool :=
  status = taskStatusSuccess || status = taskStatusFailure

@[simp] theorem isDone_failure : TaskStatus.isDone taskStatusFailure = true := by decide

@[simp] theorem isDone_success : TaskStatus.isDone taskStatusSuccess = true := by decide

theorem TaskStatus.isDone_iff {status : TaskStatus} :
    status.isDone = true ↔ status = taskStatusSuccess ∨ status = taskStatusFailure := by
  simp [TaskStatus.isDone]

theorem failure_ne_success : taskStatusFailure ≠ taskStatusSuccess := by decide

abbrev TaskPlatform := String

def taskPlatformSuno : TaskPlatform := "suno"

def taskPlatformMidjourney : TaskPlatform := "mj"

def progressSubmitted : String := "10%"

def progressQueued : String := "20%"

def progressInProgress : String := "30%"

def progressComplete : String := "100%"

/-! ### Tasks -/

/-- The part of the submission's billing parameters that ends up deciding a settlement. -/
structure TaskBillingContext where
  perCallBilling : Bool
deriving DecidableEq, Repr

/-- What a task keeps to itself: its id at the upstream service, its result, and what it was
charged to. -/
structure TaskPrivateData where
  upstreamTaskId : String := ""
  resultUrl : String := ""
  billingSource : String := ""
  subscriptionId : ℤ := 0
  tokenId : ℤ := 0
  billingContext : Option TaskBillingContext := none
deriving DecidableEq, Repr

/-- A task.  The data are the bytes of a document; a task without data has no bytes. -/
structure Task where
  id : ℤ
  taskId : String
  platform : TaskPlatform
  userId : ℤ
  channelId : ℤ
  quota : ℤ
  status : TaskStatus
  failReason : String := ""
  submitTime : ℤ := 0
  startTime : ℤ := 0
  finishTime : ℤ := 0
  progress : String := "0%"
  privateData : TaskPrivateData := {}
  data : List UInt8 := []
deriving DecidableEq, Repr

/-- The id the upstream service knows the task by; old tasks have only their own. -/
def Task.getUpstreamTaskID (t : Task) : String :=
  if t.privateData.upstreamTaskId ≠ "" then t.privateData.upstreamTaskId else t.taskId

/-- The part of a task that polling compares to see whether there is something to write. -/
structure TaskSnapshot where
  status : TaskStatus
  progress : String
  startTime : ℤ
  finishTime : ℤ
  failReason : String
  resultUrl : String
  data : List UInt8
deriving DecidableEq, Repr

def Task.snapshot (t : Task) : TaskSnapshot where
  status := t.status
  progress := t.progress
  startTime := t.startTime
  finishTime := t.finishTime
  failReason := t.failReason
  resultUrl := t.privateData.resultUrl
  data := t.data

/-- What no update of a task changes: who it is, and what it was charged to. -/
def Task.SameAs (t t' : Task) : Prop :=
  t'.id = t.id ∧ t'.taskId = t.taskId ∧ t'.platform = t.platform ∧ t'.userId = t.userId ∧
    t'.channelId = t.channelId ∧
    { t'.privateData with resultUrl := t.privateData.resultUrl } = t.privateData

theorem Task.SameAs.refl (t : Task) : t.SameAs t := ⟨rfl, rfl, rfl, rfl, rfl, rfl⟩

theorem Task.SameAs.trans {t u v : Task} (h : t.SameAs u) (h' : u.SameAs v) : t.SameAs v := by
  obtain ⟨hid, htask, hplatform, huser, hchannel, hprivate⟩ := h
  obtain ⟨hid', htask', hplatform', huser', hchannel', hprivate'⟩ := h'
  refine ⟨hid'.trans hid, htask'.trans htask, hplatform'.trans hplatform, huser'.trans huser,
    hchannel'.trans hchannel, ?_⟩
  rw [← hprivate, ← hprivate']

/-! ### The table -/

/-- The rows of the table of tasks; their ids are its primary key. -/
structure TaskTable where
  rows : List Task
  nodup : (rows.map Task.id).Nodup

namespace TaskTable

/-- The row with an id. -/
def get (id : ℤ) (tbl : TaskTable) : Option Task := Rows.first Task.id id tbl.rows

variable {tbl : TaskTable} {r t : Task} {id : ℤ} {fromStatus : TaskStatus}

theorem get_of_mem (h : r ∈ tbl.rows) : tbl.get r.id = some r :=
  Rows.first_of_mem tbl.nodup h

theorem mem_of_get (h : tbl.get id = some r) :
    r ∈ tbl.rows := Rows.mem_of_first h

theorem id_of_get (h : tbl.get id = some r) : r.id = id :=
  Rows.key_of_first h

/-- Change the rows that `p` selects, without changing an id. -/
def change (p : Task → Bool) (f : Task → Task) (hf : ∀ r, p r = true → (f r).id = r.id)
    (tbl : TaskTable) : TaskTable where
  rows := Rows.update p f tbl.rows
  nodup := by
    have hkeys : (Rows.update p f tbl.rows).map Task.id = tbl.rows.map Task.id := by
      rw [Rows.update, List.map_map]
      refine List.map_congr_left fun r _ => ?_
      simp only [Function.comp]
      split
      · rename_i hp
        exact hf r hp
      · rfl
    rw [hkeys]
    exact tbl.nodup

/-- A row after a change. -/
theorem get_change {p : Task → Bool} {f : Task → Task} (hf : ∀ r, p r = true → (f r).id = r.id)
    (id : ℤ) (tbl : TaskTable) :
    (tbl.change p f hf).get id = (tbl.get id).map fun r => if p r then f r else r := by
  obtain ⟨rows, hnd⟩ := tbl
  simp only [get, change, Rows.first, Rows.update]
  clear hnd
  induction rows with
  | nil => rfl
  | cons r rows ih =>
    have hkeep : (if p r then f r else r).id = r.id := by
      split
      · rename_i hp
        exact hf r hp
      · rfl
    rw [List.map_cons, List.find?_cons, List.find?_cons, hkeep]
    split
    · rfl
    · exact ih

/-- Whether the row of `t` has the status `fromStatus`. -/
def hasStatus (fromStatus : TaskStatus) (t : Task) (tbl : TaskTable) : Bool :=
  tbl.rows.any fun r => r.id = t.id && r.status = fromStatus

/-- Write all columns of `t` to its row if that has the status `fromStatus`. -/
def cas (fromStatus : TaskStatus) (t : Task) (tbl : TaskTable) : TaskTable :=
  tbl.change (fun r => r.id = t.id && r.status = fromStatus) (fun _ => t) (by
    intro r hr
    simp only [Bool.and_eq_true, decide_eq_true_eq] at hr
    exact hr.1.symm)

/-- The compare-and-set: whether this caller won the update, and the rows afterwards. -/
def updateWithStatus (fault : Fault) (fromStatus : TaskStatus) (t : Task) (tbl : TaskTable) :
    Except String (Bool × TaskTable) :=
  guardFault fault (.ok (tbl.hasStatus fromStatus t, tbl.cas fromStatus t))

/-- Write all columns of `t`, whatever its row holds; a row that is not there is inserted. -/
def save (t : Task) (tbl : TaskTable) : TaskTable where
  rows := Rows.save Task.id t tbl.rows
  nodup := Rows.nodup_save tbl.nodup

def update (fault : Fault) (t : Task) (tbl : TaskTable) : Except String TaskTable :=
  guardFault fault (.ok (tbl.save t))

/-- The columns a bulk update sets: the failure of a task, perhaps with a reason. -/
def failed (failReason : Option String) (r : Task) : Task :=
  { r with
    failReason := failReason.getD r.failReason
    status := taskStatusFailure
    progress := progressComplete }

theorem failed_id (failReason : Option String) (r : Task) : (failed failReason r).id = r.id := rfl

/-- Fail the rows with the given ids, whatever they hold. -/
def bulkUpdate (fault : Fault) (ids : List ℤ) (failReason : Option String) (tbl : TaskTable) :
    Except String TaskTable :=
  if ids = [] then .ok tbl
  else guardFault fault
    (.ok (tbl.change (fun r => decide (r.id ∈ ids)) (failed failReason)
      fun r _ => failed_id failReason r))

/-! ### What a row is after a write -/

theorem hasStatus_iff :
    tbl.hasStatus fromStatus t = true ↔ ∃ r, tbl.get t.id = some r ∧ r.status = fromStatus := by
  simp only [hasStatus, List.any_eq_true, Bool.and_eq_true, decide_eq_true_eq]
  constructor
  · rintro ⟨r, hr, hid, hstatus⟩
    exact ⟨r, hid ▸ get_of_mem hr, hstatus⟩
  · rintro ⟨r, hget, hstatus⟩
    exact ⟨r, mem_of_get hget, id_of_get hget, hstatus⟩

/-- A compare-and-set leaves the other rows alone. -/
theorem get_cas_of_ne (h : t.id ≠ id) : (tbl.cas fromStatus t).get id = tbl.get id := by
  rw [cas, get_change]
  cases hget : tbl.get id with
  | none => rfl
  | some r =>
    have hid := id_of_get hget
    have : r.id ≠ t.id := by
      rw [hid]
      exact h.symm
    simp [this]

/-- The row a compare-and-set is about: written, or left alone when its status has changed. -/
theorem get_cas (fromStatus : TaskStatus) (t : Task) (tbl : TaskTable) :
    (tbl.cas fromStatus t).get t.id =
      if tbl.hasStatus fromStatus t then some t else tbl.get t.id := by
  rw [cas, get_change]
  cases hget : tbl.get t.id with
  | none =>
    have : ¬ tbl.hasStatus fromStatus t = true := by
      rw [hasStatus_iff, hget]
      rintro ⟨r, hr, _⟩
      exact absurd hr (by simp)
    simp [this]
  | some r =>
    have hid := id_of_get hget
    by_cases hstatus : r.status = fromStatus
    · have : tbl.hasStatus fromStatus t = true := hasStatus_iff.2 ⟨r, hget, hstatus⟩
      simp [this, hid, hstatus]
    · have : ¬ tbl.hasStatus fromStatus t = true := by
        rw [hasStatus_iff, hget]
        rintro ⟨r', hr', hs⟩
        exact hstatus (Option.some.inj hr' ▸ hs)
      simp [this, hstatus]

theorem get_save (t : Task) (tbl : TaskTable) : (tbl.save t).get t.id = some t :=
  Rows.first_save_self t tbl.rows

theorem get_save_of_ne (h : t.id ≠ id) :
    (tbl.save t).get id = tbl.get id := Rows.first_save_of_ne h

/-- A row after a bulk update that is carried out. -/
theorem get_bulkUpdate {fault : Fault} {ids : List ℤ} {failReason : Option String}
    {tbl' : TaskTable} (h : tbl.bulkUpdate fault ids failReason = .ok tbl') (id : ℤ) :
    tbl'.get id = (tbl.get id).map fun r => if r.id ∈ ids then failed failReason r else r := by
  unfold bulkUpdate at h
  split at h
  · rename_i hnil
    rw [← Except.ok.inj h, hnil]
    simp
  · obtain ⟨_, h⟩ := guardFault_eq_ok.1 h
    rw [← Except.ok.inj h, get_change]
    simp

/-- Every row after a compare-and-set is the row written or an old one. -/
theorem mem_cas (h : r ∈ (tbl.cas fromStatus t).rows) : r = t ∨ r ∈ tbl.rows := by
  obtain ⟨x, hx, rfl⟩ := List.mem_map.1 h
  split
  · exact Or.inl rfl
  · exact Or.inr hx

theorem mem_save (h : r ∈ (tbl.save t).rows) :
    r = t ∨ r ∈ tbl.rows := by
  rcases Rows.mem_save h with rfl | ⟨hr, _⟩
  · exact Or.inl rfl
  · exact Or.inr hr

/-- Every row after a bulk update is an old one, or one of those failed. -/
theorem mem_bulkUpdate {fault : Fault} {ids : List ℤ} {failReason : Option String}
    {tbl' : TaskTable} (h : tbl.bulkUpdate fault ids failReason = .ok tbl') (hr : r ∈ tbl'.rows) :
    ∃ x ∈ tbl.rows, r = x ∨ r = failed failReason x := by
  unfold bulkUpdate at h
  split at h
  · rw [← Except.ok.inj h] at hr
    exact ⟨r, hr, Or.inl rfl⟩
  · obtain ⟨_, h⟩ := guardFault_eq_ok.1 h
    rw [← Except.ok.inj h] at hr
    obtain ⟨x, hx, rfl⟩ := List.mem_map.1 hr
    refine ⟨x, hx, ?_⟩
    split
    · exact Or.inr rfl
    · exact Or.inl rfl

end TaskTable

/-! ### Selections -/

/-- Whether the row is still to be looked after. -/
def Task.isUnfinished (t : Task) : Bool :=
  t.progress ≠ "100%" && t.status ≠ taskStatusFailure && t.status ≠ taskStatusSuccess

/-- The unfinished tasks, the oldest first; none when the query fails. -/
def getAllUnFinishSyncTasks (fault : Fault) (limit : ℕ) (tbl : TaskTable) : List Task :=
  match fault with
  | some _ => []
  | none => ((tbl.rows.filter Task.isUnfinished).insertionSort fun a b => a.id ≤ b.id).take limit

/-- The unfinished tasks submitted before `cutoffUnix`, those submitted first at the front. -/
def getTimedOutUnfinishedTasks (fault : Fault) (cutoffUnix : ℤ) (limit : ℕ) (tbl : TaskTable) :
    List Task :=
  match fault with
  | some _ => []
  | none => ((tbl.rows.filter fun t => t.isUnfinished && t.submitTime < cutoffUnix).insertionSort
      fun a b => a.submitTime ≤ b.submitTime).take limit

/-- The first row of a user with a task id. -/
def getByTaskId (userId : ℤ) (taskId : String) (tbl : TaskTable) : Option Task :=
  if taskId = "" then none else tbl.rows.find? fun t => t.userId = userId && t.taskId = taskId

theorem Task.isDone_of_isUnfinished {t : Task} (h : t.isUnfinished = true) :
    t.status.isDone = false := by
  simp only [Task.isUnfinished, Bool.and_eq_true, decide_eq_true_eq] at h
  simp [TaskStatus.isDone, h.1.2, h.2]

theorem mem_getAllUnFinishSyncTasks {fault : Fault} {limit : ℕ} {tbl : TaskTable} {t : Task}
    (h : t ∈ getAllUnFinishSyncTasks fault limit tbl) : t ∈ tbl.rows ∧ t.isUnfinished = true := by
  cases fault with
  | some e => simp [getAllUnFinishSyncTasks] at h
  | none =>
    have hmem := List.mem_of_mem_take h
    rw [List.mem_insertionSort] at hmem
    exact List.mem_filter.1 hmem

theorem mem_getTimedOutUnfinishedTasks {fault : Fault} {cutoffUnix : ℤ} {limit : ℕ}
    {tbl : TaskTable} {t : Task} (h : t ∈ getTimedOutUnfinishedTasks fault cutoffUnix limit tbl) :
    t ∈ tbl.rows ∧ t.isUnfinished = true := by
  cases fault with
  | some e => simp [getTimedOutUnfinishedTasks] at h
  | none =>
    have hmem := List.mem_of_mem_take h
    rw [List.mem_insertionSort, List.mem_filter, Bool.and_eq_true] at hmem
    exact ⟨hmem.1, hmem.2.1⟩

theorem mem_of_getByTaskId {userId : ℤ} {taskId : String} {tbl : TaskTable} {t : Task}
    (h : getByTaskId userId taskId tbl = some t) : t ∈ tbl.rows := by
  unfold getByTaskId at h
  split at h
  · exact absurd h (by simp)
  · exact List.mem_of_find?_eq_some h

end NewApi

/-
**The refunds of Midjourney tasks.**

A poller reads the tasks whose progress is not "100%" and sorts them by channel.  A task without an
upstream identifier is closed as failed, and so are the tasks of a channel that is not found.  For
every other channel the poller asks the upstream and goes through the items of the answer: it copies
an item into the task it has read, closes the task if it has failed, and writes it back if the status
of the row is still the one it has seen.  If the write goes through and the task has failed, its
quota is given back.

The guard compares the status only, and closing a task may leave the status as it was.  A row that
has been closed can then be closed and refunded once more, by a second item or by another poller
that has read the row before.  What is closed without an item is not refunded at all, and an item
about a task that has not been asked for stops the program.  Apart from this the refunds are exact.

The write of a row and the refund after it are one step here.

Main definitions:

* `NewApi.Midjourney`, `NewApi.MidjourneyDto` — a task and an item about it;
* `NewApi.checkMjTaskNeedUpdate`, `NewApi.Midjourney.settle` — what an item makes of a task;
* `NewApi.midjourneyStep` — the steps of any number of pollers;
* `NewApi.MjExact` — what is to hold at any time;
* `NewApi.MjCareful` — the steps at which the guard is enough.

Main results:

* `NewApi.midjourney_refunds_exact` — **runs of careful steps refund exactly**;
* `NewApi.midjourney_refunds_wrong` — a lost refund, a double refund and a panic.
-/

import Mathlib
import NewApi.Lib.Transition

set_option autoImplicit false

namespace NewApi

/-! ### Tasks and items -/

/-- What is credited to a user when the quota of a task is given back. -/
structure MjRefund where
  taskId : ℤ
  userId : ℤ
  quota : ℤ
deriving DecidableEq, Repr

/-- A row of the Midjourney tasks. -/
structure Midjourney where
  id : ℤ
  code : ℤ := 1
  userId : ℤ
  mjId : String
  promptEn : String := ""
  state : String := ""
  submitTime : ℤ
  startTime : ℤ := 0
  finishTime : ℤ := 0
  imageUrl : String := ""
  videoUrl : String := ""
  videoUrls : String := ""
  status : String
  progress : String
  failReason : String := ""
  channelId : ℤ
  quota : ℤ
  buttons : String := ""
  properties : String := ""
deriving DecidableEq, Repr

/-- An item of the upstream's answer.  Buttons and properties are given by their JSON text. -/
structure MidjourneyDto where
  mjId : String
  promptEn : String := ""
  state : String := ""
  submitTime : ℤ
  startTime : ℤ := 0
  finishTime : ℤ := 0
  imageUrl : String := ""
  videoUrl : String := ""
  videoUrls : List String := []
  status : String
  progress : String
  failReason : String := ""
  buttons : Option String := none
  properties : Option String := none
deriving DecidableEq, Repr

namespace Midjourney

/-- The refund of a task. -/
def refund (task : Midjourney) : MjRefund := ⟨task.id, task.userId, task.quota⟩

/-- The task is finished. -/
def Finished (task : Midjourney) : Prop := task.progress = "100%"

instance instDecidableFinished (task : Midjourney) : Decidable task.Finished :=
  inferInstanceAs (Decidable (_ = _))

/-- The task looks like one that has been closed because it failed. -/
def ClosedAsFailed (task : Midjourney) : Prop :=
  task.Finished ∧ (task.failReason ≠ "" ∨ task.status = "FAILURE")

instance instDecidableClosedAsFailed (task : Midjourney) : Decidable task.ClosedAsFailed :=
  inferInstanceAs (Decidable (_ ∧ _))

/-- There is nothing to give back for the task, or it has been closed with status FAILURE before. -/
def Settled (task : Midjourney) : Prop :=
  task.quota = 0 ∨ task.Finished ∧ task.status = "FAILURE"

instance instDecidableSettled (task : Midjourney) : Decidable task.Settled :=
  inferInstanceAs (Decidable (_ ∨ _))

end Midjourney

variable (marshal : List String → String)

/-! ### What an item makes of a task -/

/-- An item about an unfinished task that is older than an hour is a failure. -/
def MidjourneyDto.timeOut (responseItem : MidjourneyDto) (task : Midjourney) (now : ℤ) :
    MidjourneyDto :=
  let useTime := now - task.submitTime
  if useTime > 3600000 ∧ task.progress ≠ "100%" then
    { responseItem with failReason := "上游任务超时（超过1小时）", status := "FAILURE" }
  else responseItem

/-- Whether an item says something new about the task. -/
def checkMjTaskNeedUpdate (oldTask : Midjourney) (newTask : MidjourneyDto) : Bool :=
  oldTask.code != 1
  || oldTask.progress != newTask.progress
  || oldTask.promptEn != newTask.promptEn
  || oldTask.state != newTask.state
  || oldTask.submitTime != newTask.submitTime
  || oldTask.startTime != newTask.startTime
  || oldTask.finishTime != newTask.finishTime
  || oldTask.imageUrl != newTask.imageUrl
  || oldTask.status != newTask.status
  || oldTask.failReason != newTask.failReason
  || oldTask.finishTime != newTask.finishTime
  || (oldTask.progress != "100%" && newTask.failReason != "")
  || oldTask.videoUrl != newTask.videoUrl
  || (if newTask.videoUrls ≠ [] then oldTask.videoUrls != marshal newTask.videoUrls
      else oldTask.videoUrls != "")

/-- The task with the fields of an item. -/
def Midjourney.receive (task : Midjourney) (responseItem : MidjourneyDto) : Midjourney :=
  { task with
    code := 1
    progress := responseItem.progress
    promptEn := responseItem.promptEn
    state := responseItem.state
    submitTime := responseItem.submitTime
    startTime := responseItem.startTime
    finishTime := responseItem.finishTime
    imageUrl := responseItem.imageUrl
    status := responseItem.status
    failReason := responseItem.failReason
    properties := responseItem.properties.getD task.properties
    buttons := responseItem.buttons.getD task.buttons
    videoUrl := responseItem.videoUrl
    videoUrls := if responseItem.videoUrls ≠ [] then marshal responseItem.videoUrls else "" }

/-- Whether a task that has received an item has failed. -/
def Midjourney.BuildFailed (task : Midjourney) (responseItem : MidjourneyDto) : Prop :=
  (task.progress ≠ "100%" ∧ responseItem.failReason ≠ "") ∨
    (task.progress = "100%" ∧ task.status = "FAILURE")

instance Midjourney.instDecidableBuildFailed (task : Midjourney) (responseItem : MidjourneyDto) :
    Decidable (task.BuildFailed responseItem) :=
  inferInstanceAs (Decidable (_ ∨ _))

/-- The task as it is written back. -/
def Midjourney.settle (task : Midjourney) (responseItem : MidjourneyDto) : Midjourney :=
  let task := task.receive marshal responseItem
  if task.BuildFailed responseItem then { task with progress := "100%" } else task

/-- Whether the quota of a task is to be given back after an item. -/
def Midjourney.shouldReturnQuota (task : Midjourney) (responseItem : MidjourneyDto) : Prop :=
  (task.receive marshal responseItem).BuildFailed responseItem ∧ task.quota ≠ 0

instance Midjourney.instDecidableShouldReturnQuota (task : Midjourney)
    (responseItem : MidjourneyDto) : Decidable (task.shouldReturnQuota marshal responseItem) :=
  inferInstanceAs (Decidable (_ ∧ _))

/-! ### The statements of the database -/

def getAllUnFinishTasks (rows : List Midjourney) : List Midjourney :=
  rows.filter fun row => row.progress ≠ "100%"

/-- Whether the guarded write of a task reaches a row. -/
def Midjourney.Reaches (task : Midjourney) (fromStatus : String) (row : Midjourney) : Prop :=
  row.id = task.id ∧ row.status = fromStatus

instance Midjourney.instDecidableReaches (task : Midjourney) (fromStatus : String)
    (row : Midjourney) : Decidable (task.Reaches fromStatus row) :=
  inferInstanceAs (Decidable (_ ∧ _))

/-- Writes all columns of a task if the status of its row is still `fromStatus`. -/
def Midjourney.updateWithStatus (task : Midjourney) (fromStatus : String)
    (rows : List Midjourney) : Bool × List Midjourney :=
  (rows.any fun row => task.Reaches fromStatus row,
    rows.map fun row => if task.Reaches fromStatus row then task else row)

def mjBulkUpdate (mjIds : List String) (params : Midjourney → Midjourney)
    (rows : List Midjourney) : List Midjourney :=
  rows.map fun row => if row.mjId ∈ mjIds then params row else row

def mjBulkUpdateByTaskIds (taskIds : List ℤ) (params : Midjourney → Midjourney)
    (rows : List Midjourney) : List Midjourney :=
  rows.map fun row => if row.id ∈ taskIds then params row else row

/-- The calls to the database that fail in a step. -/
structure MjFaults where
  write : Bool := false
  credit : Bool := false
deriving DecidableEq

/-- The credits after the quota of a refund is given back, which a negative quota refuses. -/
def increaseMjQuota (credits : List MjRefund) (refund : MjRefund) (fault : Bool) :
    List MjRefund :=
  if refund.quota < 0 ∨ fault then credits else credits ++ [refund]

/-! ### The rounds of a poller -/

/-- What a poller has in hand: the tasks it has read, what is left to do of them, and the items of
the answer it is going through. -/
structure MjRound where
  taskM : String → Option Midjourney := fun _ => none
  nullTaskIds : List ℤ := []
  channels : List ℤ := []
  taskChannelM : ℤ → List String := fun _ => []
  responseItems : List MidjourneyDto := []

namespace MjRound

/-- Sorts in a task that has been read. -/
def add (round : MjRound) (task : Midjourney) : MjRound :=
  if task.mjId = "" then { round with nullTaskIds := round.nullTaskIds ++ [task.id] }
  else
    { round with
      taskM := Function.update round.taskM task.mjId (some task)
      channels := if task.channelId ∈ round.channels then round.channels
        else round.channels ++ [task.channelId]
      taskChannelM := Function.update round.taskChannelM task.channelId
        (round.taskChannelM task.channelId ++ [task.mjId]) }

/-- The round about the tasks that have been read. -/
def start (tasks : List Midjourney) : MjRound := tasks.foldl add {}

/-- The round has been gone through. -/
def Over (round : MjRound) : Prop :=
  round.nullTaskIds = [] ∧ round.channels = [] ∧ round.responseItems = []

instance instDecidableOver (round : MjRound) : Decidable round.Over :=
  inferInstanceAs (Decidable (_ ∧ _))

/-- The channel is one that can be taken next. -/
def Next (round : MjRound) (channelId : ℤ) : Prop :=
  round.nullTaskIds = [] ∧ round.responseItems = [] ∧ channelId ∈ round.channels

instance instDecidableNext (round : MjRound) (channelId : ℤ) : Decidable (round.Next channelId) :=
  inferInstanceAs (Decidable (_ ∧ _))

end MjRound

/-- What becomes of the request to a channel. -/
inductive MjAnswer
  /-- The channel is not found. -/
  | missing
  /-- The channel has no base URL. -/
  | noBaseURL
  /-- The request fails, or its answer cannot be read. -/
  | noResponse
  | response (items : List MidjourneyDto)

structure MjState where
  rows : List Midjourney
  pollers : ℕ → MjRound := fun _ => {}
  credits : List MjRefund := []
  panicked : Bool := false

/-- The steps of a poller. -/
inductive MjAction
  | read
  | nullTasks (ok : Bool)
  | channel (channelId : ℤ) (answer : MjAnswer) (ok : Bool)
  | item (now : ℤ) (faults : MjFaults)

namespace MjState

def setRound (s : MjState) (p : ℕ) (round : MjRound) : MjState :=
  { s with pollers := Function.update s.pollers p round }

/-- A poller takes the next channel of its round. -/
def channel (s : MjState) (p : ℕ) (channelId : ℤ) (answer : MjAnswer) (ok : Bool) : MjState :=
  let round := s.pollers p
  let taskIds := round.taskChannelM channelId
  let round := { round with channels := round.channels.erase channelId }
  match answer with
  | .missing =>
    let rows := if ok then mjBulkUpdate taskIds (fun row =>
      { row with
        failReason := s!"获取渠道信息失败，请联系管理员，渠道ID：{channelId}"
        status := "FAILURE"
        progress := "100%" }) s.rows else s.rows
    { s with rows }.setRound p round
  | .noBaseURL => { s with panicked := true }
  | .noResponse => s.setRound p round
  | .response items => s.setRound p { round with responseItems := items }

/-- A poller writes back a task with an item about it. -/
def write (s : MjState) (task : Midjourney) (responseItem : MidjourneyDto) (faults : MjFaults) :
    MjState :=
  let result := (task.settle marshal responseItem).updateWithStatus task.status s.rows
  if faults.write then s
  else if result.1 ∧ task.shouldReturnQuota marshal responseItem then
    { s with
      rows := result.2
      credits := increaseMjQuota s.credits task.refund faults.credit }
  else { s with rows := result.2 }

/-- A poller goes through an item. -/
def item (s : MjState) (p : ℕ) (responseItem : MidjourneyDto) (rest : List MidjourneyDto)
    (now : ℤ) (faults : MjFaults) : MjState :=
  let round := { s.pollers p with responseItems := rest }
  match round.taskM responseItem.mjId with
  -- the fields of a nil task are read
  | none => { s with panicked := true }
  | some task =>
    let responseItem := responseItem.timeOut task now
    if ¬ checkMjTaskNeedUpdate marshal task responseItem then s.setRound p round
    else
      -- the task of the round is changed whether or not the write goes through
      let taskM := Function.update round.taskM responseItem.mjId
        (some (task.settle marshal responseItem))
      (s.write marshal task responseItem faults).setRound p { round with taskM }

end MjState

/-- The next step of a poller. -/
def midjourneyStep (s : MjState) : ℕ × MjAction → MjState
  | (p, a) =>
    if s.panicked then s else
    let round := s.pollers p
    match a with
    | .read =>
      if round.Over then s.setRound p (MjRound.start (getAllUnFinishTasks s.rows)) else s
    | .nullTasks ok =>
      let rows := if ok then mjBulkUpdateByTaskIds round.nullTaskIds (fun row =>
        { row with status := "FAILURE", progress := "100%" }) s.rows else s.rows
      { s with rows }.setRound p { round with nullTaskIds := [] }
    | .channel channelId answer ok =>
      if round.Next channelId then s.channel p channelId answer ok else s
    | .item now faults =>
      match round.responseItems with
      | [] => s
      | responseItem :: rest => s.item marshal p responseItem rest now faults

/-- What is to hold at any time: the pollers are running, each task has been refunded at most once,
only quotas of tasks have been given back, and that of every task closed with status FAILURE has. -/
structure MjExact (s : MjState) : Prop where
  running : s.panicked = false
  once : ∀ row ∈ s.rows, s.credits.countP (·.taskId = row.id) ≤ 1
  owed : ∀ refund ∈ s.credits, ∃ row ∈ s.rows, row.refund = refund
  refunded : ∀ row ∈ s.rows, row.Finished → row.status = "FAILURE" → row.quota ≠ 0 →
    row.refund ∈ s.credits

/-! ### Careful steps -/

/-- A write that is careful with a row it reaches: a refund is given, and not for a row that looks
closed as failed; a row that looks so keeps looking so. -/
structure CarefulWrite (task : Midjourney) (responseItem : MidjourneyDto) (faults : MjFaults)
    (row : Midjourney) : Prop where
  credit : task.shouldReturnQuota marshal responseItem →
    0 ≤ task.quota ∧ faults.credit = false ∧ ¬ row.ClosedAsFailed
  closed : row.ClosedAsFailed → task.quota ≠ 0 → (task.settle marshal responseItem).ClosedAsFailed

instance CarefulWrite.instDecidable (task : Midjourney) (responseItem : MidjourneyDto)
    (faults : MjFaults) (row : Midjourney) :
    Decidable (CarefulWrite marshal task responseItem faults row) :=
  decidable_of_iff
    ((task.shouldReturnQuota marshal responseItem →
        0 ≤ task.quota ∧ faults.credit = false ∧ ¬ row.ClosedAsFailed) ∧
      (row.ClosedAsFailed → task.quota ≠ 0 → (task.settle marshal responseItem).ClosedAsFailed))
    ⟨fun h => ⟨h.1, h.2⟩, fun h => ⟨h.credit, h.closed⟩⟩

/-- A careful step takes no rows out of hand without an item, knows the task of its item and the
base URL of its channel, and is careful with the row it writes. -/
def MjCareful (s : MjState) : ℕ × MjAction → Prop
  | (_, .read) => True
  | (p, .nullTasks ok) =>
    ok → ∀ row ∈ s.rows, row.id ∈ (s.pollers p).nullTaskIds → row.Settled
  | (p, .channel channelId answer ok) => (s.pollers p).Next channelId →
      match answer with
      | .missing =>
        ok → ∀ row ∈ s.rows, row.mjId ∈ (s.pollers p).taskChannelM channelId → row.Settled
      | .noBaseURL => False
      | _ => True
  | (p, .item now faults) =>
    match (s.pollers p).responseItems with
    | [] => True
    | responseItem :: _ =>
      match (s.pollers p).taskM responseItem.mjId with
      | none => False
      | some task =>
        checkMjTaskNeedUpdate marshal task (responseItem.timeOut task now) →
          faults.write = false → ∀ row ∈ s.rows, task.Reaches task.status row →
            CarefulWrite marshal task (responseItem.timeOut task now) faults row

instance MjCareful.instDecidable : ∀ (s : MjState) (a : ℕ × MjAction),
    Decidable (MjCareful marshal s a)
  | _, (_, .read) => .isTrue trivial
  | _, (_, .nullTasks _) => inferInstanceAs (Decidable (_ → _))
  | _, (_, .channel _ .missing _) => inferInstanceAs (Decidable (_ → _ → _))
  | _, (_, .channel _ .noBaseURL _) => inferInstanceAs (Decidable (_ → False))
  | _, (_, .channel _ .noResponse _) => .isTrue fun _ => trivial
  | _, (_, .channel _ (.response _) _) => .isTrue fun _ => trivial
  | s, (p, .item now faults) => by
      simp only [MjCareful]
      split
      · exact .isTrue trivial
      · split
        · exact .isFalse id
        · infer_instance

/-! ### Lemmas about the statements -/

section

variable {marshal}

@[simp] theorem Midjourney.settle_refund (task : Midjourney) (responseItem : MidjourneyDto) :
    (task.settle marshal responseItem).refund = task.refund := by
  simp only [Midjourney.settle]
  split <;> rfl

@[simp] theorem Midjourney.settle_id (task : Midjourney) (responseItem : MidjourneyDto) :
    (task.settle marshal responseItem).id = task.id :=
  congrArg MjRefund.taskId (task.settle_refund responseItem)

/-- A task that is closed because it has failed looks so. -/
theorem Midjourney.settle_closedAsFailed {task : Midjourney} {responseItem : MidjourneyDto}
    (h : (task.receive marshal responseItem).BuildFailed responseItem) :
    (task.settle marshal responseItem).ClosedAsFailed := by
  rw [Midjourney.settle, if_pos h]
  refine ⟨rfl, ?_⟩
  rcases h with ⟨_, hreason⟩ | ⟨_, hstatus⟩
  · exact .inl hreason
  · exact .inr hstatus

/-- Only a task that has failed is written back as finished with status FAILURE. -/
theorem Midjourney.buildFailed_of_settle {task : Midjourney} {responseItem : MidjourneyDto}
    (hfinished : (task.settle marshal responseItem).Finished)
    (hstatus : (task.settle marshal responseItem).status = "FAILURE") :
    (task.receive marshal responseItem).BuildFailed responseItem := by
  by_contra hnot
  rw [Midjourney.settle, if_neg hnot] at hfinished hstatus
  exact hnot (.inr ⟨hfinished, hstatus⟩)

/-- The tasks of a round are among those it has been started with. -/
theorem MjRound.mem_of_taskM {tasks : List Midjourney} {round : MjRound} {key : String}
    {task : Midjourney} (h : (tasks.foldl MjRound.add round).taskM key = some task) :
    task ∈ tasks ∨ round.taskM key = some task := by
  induction tasks generalizing round with
  | nil => exact .inr h
  | cons head tasks ih =>
    rcases ih h with htail | hround
    · exact .inl (List.mem_cons_of_mem head htail)
    · by_cases hnull : head.mjId = ""
      · exact .inr (by simpa [MjRound.add, hnull] using hround)
      · simp only [MjRound.add, if_neg hnull, Function.update_apply] at hround
        split at hround
        · have heq : head = task := Option.some.inj hround
          exact .inl (heq ▸ List.mem_cons_self)
        · exact .inr hround

theorem mem_increaseMjQuota {credits : List MjRefund} {refund : MjRefund} {fault : Bool}
    (hquota : 0 ≤ refund.quota) (hfault : fault = false) :
    increaseMjQuota credits refund fault = credits ++ [refund] := by
  simp [increaseMjQuota, not_lt.mpr hquota, hfault]

end

/-! ### The invariant -/

/-- What careful steps keep of a state, where `refunds` are those the rows ask for: the tasks in the
pollers' hands are those of the rows, and a refund has been given for a row that looks closed as
failed. -/
structure MjInv (refunds : List MjRefund) (s : MjState) : Prop where
  running : s.panicked = false
  rows : s.rows.map Midjourney.refund = refunds
  known : ∀ p key task, (s.pollers p).taskM key = some task → task.refund ∈ refunds
  nodup : (s.credits.map MjRefund.taskId).Nodup
  credited : ∀ refund ∈ s.credits, ∃ row ∈ s.rows,
    row.refund = refund ∧ row.quota ≠ 0 ∧ row.ClosedAsFailed
  refunded : ∀ row ∈ s.rows, row.Finished → row.status = "FAILURE" → row.quota ≠ 0 →
    row.refund ∈ s.credits

namespace MjInv

variable {marshal} {refunds : List MjRefund} {s : MjState}

theorem start {rows : List Midjourney} (hunfinished : ∀ row ∈ rows, ¬ row.Finished) :
    MjInv (rows.map Midjourney.refund) { rows } where
  running := rfl
  rows := rfl
  known _ _ _ h := by cases h
  nodup := List.nodup_nil
  credited _ h := by cases h
  refunded row hrow hfinished := absurd hfinished (hunfinished row hrow)

theorem exact (h : MjInv refunds s) : MjExact s where
  running := h.running
  once row _ := by
    have hcount := List.nodup_iff_count_le_one.mp h.nodup row.id
    simpa [List.count, List.countP_map, Function.comp_def, beq_eq_decide] using hcount
  owed refund hrefund := by
    obtain ⟨row, hrow, heq, -⟩ := h.credited refund hrefund
    exact ⟨row, hrow, heq⟩
  refunded := h.refunded

/-- A round with known tasks can be put in the place of a poller's. -/
theorem setRound (h : MjInv refunds s) (p : ℕ) {round : MjRound}
    (hround : ∀ key task, round.taskM key = some task → task.refund ∈ refunds) :
    MjInv refunds (s.setRound p round) where
  running := h.running
  rows := h.rows
  nodup := h.nodup
  credited := h.credited
  refunded := h.refunded
  known q key task htask := by
    by_cases hq : q = p
    · subst hq
      refine hround key task ?_
      simpa [MjState.setRound] using htask
    · refine h.known q key task ?_
      simpa [MjState.setRound, hq] using htask

theorem refund_mem (h : MjInv refunds s) {row : Midjourney} (hrow : row ∈ s.rows) :
    row.refund ∈ refunds := by
  rw [← h.rows]
  exact List.mem_map_of_mem hrow

/-- The identifier of a task tells its refund. -/
theorem refund_eq (hids : (refunds.map MjRefund.taskId).Nodup) {x y : MjRefund}
    (hx : x ∈ refunds) (hy : y ∈ refunds) (hid : x.taskId = y.taskId) : x = y :=
  List.inj_on_of_nodup_map hids hx hy hid

/-- No two rows have one identifier. -/
theorem row_eq (hids : (refunds.map MjRefund.taskId).Nodup) (h : MjInv refunds s)
    {row row' : Midjourney} (hrow : row ∈ s.rows) (hrow' : row' ∈ s.rows) (hid : row.id = row'.id) :
    row = row' := by
  have hnodup : (s.rows.map Midjourney.id).Nodup := by
    have hmap : s.rows.map Midjourney.id = refunds.map MjRefund.taskId := by
      rw [← h.rows, List.map_map]
      rfl
    rwa [hmap]
  exact List.inj_on_of_nodup_map hnodup hrow hrow' hid

/-- The rows are changed, and credits given, by a statement that keeps what the rows ask for. -/
theorem change (h : MjInv refunds s) {f : Midjourney → Midjourney} {credits : List MjRefund}
    (hkeeps : ∀ row ∈ s.rows, (f row).refund = row.refund)
    (hnodup : (credits.map MjRefund.taskId).Nodup)
    (hcredited : ∀ refund ∈ credits, ∃ row ∈ s.rows,
      row.refund = refund ∧ row.quota ≠ 0 ∧ (f row).ClosedAsFailed)
    (hrefunded : ∀ row ∈ s.rows, (f row).Finished → (f row).status = "FAILURE" → row.quota ≠ 0 →
      row.refund ∈ credits) :
    MjInv refunds { s with rows := s.rows.map f, credits } where
  running := h.running
  known := h.known
  nodup := hnodup
  rows := by
    rw [← h.rows, List.map_map]
    exact List.map_congr_left hkeeps
  credited refund hrefund := by
    obtain ⟨row, hrow, heq, hquota, hclosed⟩ := hcredited refund hrefund
    have hsame := hkeeps row hrow
    refine ⟨f row, List.mem_map_of_mem hrow, hsame.trans heq, ?_, hclosed⟩
    rwa [show (f row).quota = row.quota from congrArg MjRefund.quota hsame]
  refunded row' hrow' hfinished hstatus hquota := by
    obtain ⟨row, hrow, rfl⟩ := List.mem_map.mp hrow'
    have hsame := hkeeps row hrow
    rw [show (f row).quota = row.quota from congrArg MjRefund.quota hsame] at hquota
    rw [hsame]
    exact hrefunded row hrow hfinished hstatus hquota

/-- Rows that are settled can be closed with status FAILURE. -/
theorem bulk (h : MjInv refunds s) {hit : Midjourney → Prop} [DecidablePred hit]
    {params : Midjourney → Midjourney} (hkeeps : ∀ row, (params row).refund = row.refund)
    (hfinished : ∀ row, (params row).Finished) (hstatus : ∀ row, (params row).status = "FAILURE")
    (hhit : ∀ row ∈ s.rows, hit row → row.Settled) :
    MjInv refunds { s with rows := s.rows.map fun row => if hit row then params row else row } := by
  refine h.change (fun row _ => ?_) h.nodup (fun refund hrefund => ?_)
    (fun row hrow hrowfinished hrowstatus hquota => ?_)
  · split
    · exact hkeeps row
    · rfl
  · obtain ⟨row, hrow, heq, hquota, hclosed⟩ := h.credited refund hrefund
    refine ⟨row, hrow, heq, hquota, ?_⟩
    split
    · exact ⟨hfinished row, .inr (hstatus row)⟩
    · exact hclosed
  · split at hrowfinished
    · rename_i hrowhit
      rcases hhit row hrow hrowhit with hzero | ⟨hdone, hfailure⟩
      · exact absurd hzero hquota
      · exact h.refunded row hrow hdone hfailure hquota
    · rename_i hnot
      rw [if_neg hnot] at hrowstatus
      exact h.refunded row hrow hrowfinished hrowstatus hquota

/-- A careful write refunds a task that it closes as failed, and no task twice. -/
theorem write (hids : (refunds.map MjRefund.taskId).Nodup) (h : MjInv refunds s)
    {task : Midjourney} {responseItem : MidjourneyDto} {faults : MjFaults}
    (htask : task.refund ∈ refunds)
    (hcareful : faults.write = false → ∀ row ∈ s.rows, task.Reaches task.status row →
      CarefulWrite marshal task responseItem faults row) :
    MjInv refunds (s.write marshal task responseItem faults) := by
  by_cases hfault : faults.write = true
  · rw [MjState.write, if_pos hfault]
    exact h
  have hcareful := hcareful (by simpa using hfault)
  have hreaches (row : Midjourney) :
      (task.settle marshal responseItem).Reaches task.status row ↔ task.Reaches task.status row := by
    simp [Midjourney.Reaches]
  have hsame : ∀ row ∈ s.rows, task.Reaches task.status row → row.refund = task.refund :=
    fun row hrow hreach => refund_eq hids (h.refund_mem hrow) htask hreach.1
  have hkeeps : ∀ row ∈ s.rows,
      (if task.Reaches task.status row then task.settle marshal responseItem else row).refund
        = row.refund := by
    intro row hrow
    split
    · rename_i hreach
      rw [hsame row hrow hreach, Midjourney.settle_refund]
    · rfl
  simp only [MjState.write, Midjourney.updateWithStatus, hreaches, if_neg hfault]
  by_cases hrefund : (s.rows.any fun row => task.Reaches task.status row) = true ∧
      task.shouldReturnQuota marshal responseItem
  · -- the row that is reached does not look closed as failed, so it has not been refunded
    rw [if_pos hrefund]
    obtain ⟨hwon, hshould⟩ := hrefund
    obtain ⟨row₀, hrow₀, hreach₀⟩ : ∃ row ∈ s.rows, task.Reaches task.status row := by
      simpa using hwon
    obtain ⟨hquota, hcredit, hopen⟩ := (hcareful row₀ hrow₀ hreach₀).credit hshould
    have hfresh : ∀ refund ∈ s.credits, refund.taskId ≠ task.id := by
      intro refund hmem hid
      obtain ⟨row, hrow, rfl, -, hclosed⟩ := h.credited refund hmem
      have heq : row = row₀ := row_eq hids h hrow hrow₀ (hid.trans hreach₀.1.symm)
      exact hopen (heq ▸ hclosed)
    rw [mem_increaseMjQuota hquota hcredit]
    refine h.change hkeeps ?_ ?_ ?_
    · rw [List.map_append, List.nodup_append]
      refine ⟨h.nodup, List.nodup_singleton _, ?_⟩
      intro x hx y hy
      obtain ⟨refund, hmem, rfl⟩ := List.mem_map.mp hx
      rw [List.mem_map] at hy
      obtain ⟨refund', hmem', rfl⟩ := hy
      rw [List.mem_singleton.mp hmem']
      exact hfresh refund hmem
    · intro refund hmem
      rcases List.mem_append.mp hmem with hold | hnew
      · obtain ⟨row, hrow, heq, hnonzero, hclosed⟩ := h.credited refund hold
        refine ⟨row, hrow, heq, hnonzero, ?_⟩
        split
        · exact Midjourney.settle_closedAsFailed hshould.1
        · exact hclosed
      · have heq := hsame row₀ hrow₀ hreach₀
        refine ⟨row₀, hrow₀, heq.trans (List.mem_singleton.mp hnew).symm, ?_, ?_⟩
        · rw [show row₀.quota = task.quota from congrArg MjRefund.quota heq]
          exact hshould.2
        · rw [if_pos hreach₀]
          exact Midjourney.settle_closedAsFailed hshould.1
    · intro row hrow hfinished hstatus hnonzero
      by_cases hreach : task.Reaches task.status row
      · rw [hsame row hrow hreach]
        exact List.mem_append_right _ List.mem_cons_self
      · rw [if_neg hreach] at hfinished hstatus
        exact List.mem_append_left _ (h.refunded row hrow hfinished hstatus hnonzero)
  · rw [if_neg hrefund]
    refine h.change hkeeps h.nodup ?_ ?_
    · intro refund hmem
      obtain ⟨row, hrow, heq, hnonzero, hclosed⟩ := h.credited refund hmem
      refine ⟨row, hrow, heq, hnonzero, ?_⟩
      split
      · rename_i hreach
        refine (hcareful row hrow hreach).closed hclosed ?_
        rwa [← show row.quota = task.quota from congrArg MjRefund.quota (hsame row hrow hreach)]
      · exact hclosed
    · intro row hrow hfinished hstatus hnonzero
      by_cases hreach : task.Reaches task.status row
      · -- a task written back as finished with status FAILURE has failed, so it is refunded
        rw [if_pos hreach] at hfinished hstatus
        refine absurd ⟨?_, Midjourney.buildFailed_of_settle hfinished hstatus, ?_⟩ hrefund
        · exact List.any_eq_true.mpr ⟨row, hrow, by simpa using hreach⟩
        · rwa [← show row.quota = task.quota from congrArg MjRefund.quota (hsame row hrow hreach)]
      · rw [if_neg hreach] at hfinished hstatus
        exact h.refunded row hrow hfinished hstatus hnonzero

/-- The tasks of a started round are those of the rows. -/
theorem known_start (h : MjInv refunds s) (key : String) (task : Midjourney)
    (htask : (MjRound.start (getAllUnFinishTasks s.rows)).taskM key = some task) :
    task.refund ∈ refunds := by
  rcases MjRound.mem_of_taskM htask with hmem | hnone
  · exact h.refund_mem (List.mem_of_mem_filter hmem)
  · cases hnone

/-- A poller takes a channel carefully. -/
theorem channel (h : MjInv refunds s) {p : ℕ} {channelId : ℤ} {answer : MjAnswer} {ok : Bool}
    (hcareful : match answer with
      | .missing =>
        ok → ∀ row ∈ s.rows, row.mjId ∈ (s.pollers p).taskChannelM channelId → row.Settled
      | .noBaseURL => False
      | _ => True) :
    MjInv refunds (s.channel p channelId answer ok) := by
  cases answer with
  | missing =>
    refine setRound ?_ p (h.known p)
    cases ok with
    | false => exact h
    | true =>
      exact h.bulk (fun _ => rfl) (fun _ => rfl) (fun _ => rfl) (hcareful rfl)
  | noBaseURL => exact hcareful.elim
  | noResponse => exact h.setRound p (h.known p)
  | response items => exact h.setRound p (h.known p)

/-- A poller goes through an item carefully. -/
theorem item (hids : (refunds.map MjRefund.taskId).Nodup) (h : MjInv refunds s) {p : ℕ}
    {responseItem : MidjourneyDto} {rest : List MidjourneyDto} {now : ℤ} {faults : MjFaults}
    {task : Midjourney} (htask : (s.pollers p).taskM responseItem.mjId = some task)
    (hcareful : checkMjTaskNeedUpdate marshal task (responseItem.timeOut task now) →
      faults.write = false → ∀ row ∈ s.rows, task.Reaches task.status row →
        CarefulWrite marshal task (responseItem.timeOut task now) faults row) :
    MjInv refunds (s.item marshal p responseItem rest now faults) := by
  have hrefund := h.known p _ _ htask
  simp only [MjState.item, htask]
  split
  · exact h.setRound p (h.known p)
  · rename_i hneed
    have hwrite := h.write hids hrefund (hcareful (by simpa using hneed))
    refine hwrite.setRound p fun key task' htask' => ?_
    simp only [Function.update_apply] at htask'
    split at htask'
    · rw [← Option.some.inj htask', Midjourney.settle_refund]
      exact hrefund
    · exact h.known p key task' htask'

/-- Careful steps keep the invariant. -/
theorem step (hids : (refunds.map MjRefund.taskId).Nodup) (s : MjState) (a : ℕ × MjAction)
    (h : MjInv refunds s) (hcareful : MjCareful marshal s a) :
    MjInv refunds (midjourneyStep marshal s a) := by
  obtain ⟨p, a⟩ := a
  rw [midjourneyStep, if_neg (by simp [h.running])]
  cases a with
  | read =>
    dsimp only
    split
    · exact h.setRound p h.known_start
    · exact h
  | nullTasks ok =>
    refine setRound ?_ p (h.known p)
    cases ok with
    | false => exact h
    | true =>
      exact h.bulk (fun _ => rfl) (fun _ => rfl) (fun _ => rfl) (hcareful rfl)
  | channel channelId answer ok =>
    dsimp only
    split
    · rename_i hnext
      exact h.channel (hcareful hnext)
    · exact h
  | item now faults =>
    dsimp only
    cases hitems : (s.pollers p).responseItems with
    | nil => exact h
    | cons responseItem rest =>
      simp only [MjCareful, hitems] at hcareful
      cases htask : (s.pollers p).taskM responseItem.mjId with
      | none => simp [htask] at hcareful
      | some task => exact h.item hids htask (by simpa [htask] using hcareful)

end MjInv

/-! ### The refunds -/

/-- **Refunds are exact in runs of careful steps.**  Whatever unfinished tasks there are and however
the steps of the pollers interleave: no poller stops, no task is refunded twice, and a task that is
closed with status FAILURE has been refunded. -/
theorem midjourney_refunds_exact {rows : List Midjourney} {as : List (ℕ × MjAction)}
    (hids : (rows.map Midjourney.id).Nodup) (hunfinished : ∀ row ∈ rows, ¬ row.Finished)
    (has : Transition.Along (midjourneyStep marshal) (MjCareful marshal) { rows } as) :
    MjExact (Transition.run (midjourneyStep marshal) { rows } as) := by
  have hrefunds : ((rows.map Midjourney.refund).map MjRefund.taskId).Nodup := by
    rw [List.map_map]
    exact hids
  exact (Transition.run_invariant (MjInv.step hrefunds) (MjInv.start hunfinished) has).exact

/-- A task of quota 100 in progress. -/
def mjTask (mjId : String) : Midjourney :=
  { id := 1, userId := 7, mjId, submitTime := 0, status := "IN_PROGRESS", progress := "50%",
    channelId := 3, quota := 100 }

/-- An item that gives a reason for a failure. -/
def mjItem (mjId status : String) : MidjourneyDto :=
  { mjId, submitTime := 0, status, progress := "50%", failReason := "banned" }

/-- Two pollers have read a task and get an item that says FAILURE: one of them refunds the task. -/
theorem midjourney_refunds_exact_pollers :
    MjExact (Transition.run (midjourneyStep fun _ => "[]") { rows := [mjTask "m"] }
      [(0, .read), (1, .read), (0, .channel 3 (.response [mjItem "m" "FAILURE"]) true),
        (1, .channel 3 (.response [mjItem "m" "FAILURE"]) true), (0, .item 1 {}), (1, .item 1 {})]) :=
  midjourney_refunds_exact _ (by decide) (by decide) (by decide)

/-- **Refunds are not exact in general.**  An item about a task that has not been asked for stops
the poller; a task without an upstream identifier is closed and not refunded; and two pollers both
refund a task whose failure leaves the status as it was. -/
theorem midjourney_refunds_wrong :
    ¬ MjExact (Transition.run (midjourneyStep fun _ => "[]") { rows := [mjTask "m"] }
        [(0, .read), (0, .channel 3 (.response [mjItem "other" "FAILURE"]) true), (0, .item 1 {})]) ∧
    ¬ MjExact (Transition.run (midjourneyStep fun _ => "[]") { rows := [mjTask ""] }
        [(0, .read), (0, .nullTasks true)]) ∧
    ¬ MjExact (Transition.run (midjourneyStep fun _ => "[]") { rows := [mjTask "m"] }
        [(0, .read), (1, .read), (0, .channel 3 (.response [mjItem "m" "IN_PROGRESS"]) true),
          (1, .channel 3 (.response [mjItem "m" "IN_PROGRESS"]) true), (0, .item 1 {}),
          (1, .item 1 {})]) := by
  refine ⟨fun h => absurd h.running (by decide), fun h => ?_, fun h => ?_⟩
  · have hrow := h.refunded { mjTask "" with status := "FAILURE", progress := "100%" }
      (by decide) rfl rfl (by decide)
    exact absurd hrow (by decide)
  · have honce := h.once { mjTask "m" with progress := "100%", failReason := "banned" }
      (by decide)
    exact absurd honce (by decide)

end NewApi

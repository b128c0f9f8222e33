/-
**The subscription tables and the transactions that write them.**

A user buys subscriptions to plans.  A request charges one of them before it is sent on
(`preConsumeUserSubscription`), which leaves a record under its request id; settling the request
changes the used amount by a difference (`postConsumeUserSubscriptionDelta`), and a request that
fails is refunded through its record (`refundSubscriptionPreConsume`).  Two periodic sweeps reset
the used amounts that are due and expire the subscriptions that have ended.  A plan may name a
group the user is moved to while the subscription lasts, and ending a subscription may move the
user back.

Every operation takes the outcome of each of its database statements as an argument.  A
transaction either returns the new tables or an error, and then the tables are as before.  The
refund is the exception: the transaction that changes the used amount is not the one that marks
the record, so the first can commit and the second fail.

The columns are 64-bit integers.  What charges, settles and refunds takes what a column keeps of a
sum as an argument: `wrap64` is what the program does (the names that end in `64`), and the plain
names keep the sums as they are, which is what a ledger of them is about.

Main definitions:

* `NewApi.UserSubscription`, `NewApi.SubscriptionPreConsumeRecord`, `NewApi.Tables` — the tables;
* `NewApi.createUserSubscriptionFromPlanTx`, `NewApi.downgradeUserGroupForSubscriptionTx`,
  `NewApi.adminInvalidateUserSubscription`, `NewApi.adminDeleteUserSubscription`,
  `NewApi.expireDueSubscriptions` — buying and ending;
* `NewApi.resetOutcome`, `NewApi.maybeResetUserSubscriptionWithPlanTx`,
  `NewApi.resetDueSubscriptions` — the periodic reset;
* `NewApi.preConsumeUserSubscription`, `NewApi.postConsumeUserSubscriptionDelta`,
  `NewApi.refundSubscriptionPreConsume` — charging, settling and refunding.
-/

import NewApi.Lib.Rows
import NewApi.SubscriptionPlan

set_option autoImplicit false

namespace NewApi

/-! ### The tables -/

inductive SubscriptionStatus where
  | active
  | expired
  | cancelled
deriving DecidableEq, Repr

/-- A subscription of a user. -/
structure UserSubscription where
  id : ℤ
  userId : ℤ
  planId : ℤ
  amountTotal : ℤ
  amountUsed : ℤ
  startTime : ℤ
  endTime : ℤ
  status : SubscriptionStatus
  source : String
  lastResetTime : ℤ
  nextResetTime : ℤ
  upgradeGroup : String
  prevUserGroup : String
deriving DecidableEq, Repr

inductive RecordStatus where
  | consumed
  | refunded
deriving DecidableEq, Repr

/-- What a request charged, kept under its request id. -/
structure SubscriptionPreConsumeRecord where
  id : ℤ
  requestId : String
  userId : ℤ
  userSubscriptionId : ℤ
  preConsumed : ℤ
  status : RecordStatus
deriving DecidableEq, Repr

/-- The rows the subscription code reads and writes, with the keys the next rows will get. -/
structure Tables where
  subs : List UserSubscription
  records : List SubscriptionPreConsumeRecord
  userGroup : ℤ → String
  nextSubId : ℤ
  nextRecordId : ℤ

/-- The tables without a row, every user being in the group `group` gives. -/
def Tables.empty (group : ℤ → String) : Tables where
  subs := []
  records := []
  userGroup := group
  nextSubId := 1
  nextRecordId := 1

namespace Tables

/-- The subscription with the given id. -/
def sub (t : Tables) (id : ℤ) : Option UserSubscription := Rows.first (·.id) id t.subs

/-- The record of a request. -/
def record (t : Tables) (requestId : String) : Option SubscriptionPreConsumeRecord :=
  Rows.first (·.requestId) requestId t.records

/-- The used amount of a subscription, `0` when it does not exist. -/
def amountUsed (t : Tables) (id : ℤ) : ℤ := ((t.sub id).map (·.amountUsed)).getD 0

/-- Write all columns of a subscription. -/
def saveSub (t : Tables) (s : UserSubscription) : Tables :=
  { t with subs := Rows.save (·.id) s t.subs }

/-- Write all columns of a record. -/
def saveRecord (t : Tables) (r : SubscriptionPreConsumeRecord) : Tables :=
  { t with records := Rows.save (·.id) r t.records }

/-- Insert a subscription under the next key. -/
def createSub (t : Tables) (s : UserSubscription) : Tables :=
  { t with subs := t.subs ++ [{ s with id := t.nextSubId }], nextSubId := t.nextSubId + 1 }

/-- Insert a record under the next key; the request id has a unique index. -/
def createRecord (fault : Fault) (r : SubscriptionPreConsumeRecord) (t : Tables) :
    Except String Tables :=
  guardFault fault
    (match t.record r.requestId with
      | some _ => .error "duplicated key not allowed"
      | none => .ok { t with
          records := t.records ++ [{ r with id := t.nextRecordId }]
          nextRecordId := t.nextRecordId + 1 })

/-- Write the group of a user. -/
def setUserGroup (t : Tables) (userId : ℤ) (group : String) : Tables :=
  { t with userGroup := Function.update t.userGroup userId group }

end Tables

/-- The outcome of the statements of a transaction that reads a row, writes it and commits. -/
structure TxFaults where
  first : Fault := none
  save : Fault := none
  commit : Fault := none
deriving DecidableEq, Repr

/-- The text for a row that does not exist. -/
def recordNotFound : String := "record not found"

/-- A plan is looked up by a positive id, in the cache or in its table. -/
def getSubscriptionPlanById (plans : ℤ → Except String SubscriptionPlan) (id : ℤ) :
    Except String SubscriptionPlan :=
  if id ≤ 0 then .error "invalid plan id" else plans id

/-! ### Buying a subscription -/

/-- The outcome of the statements of a purchase; `rest` is what the caller's transaction does
after the subscription has been created. -/
structure PurchaseFaults where
  count : Fault := none
  groupRead : Fault := none
  groupWrite : Fault := none
  create : Fault := none
  rest : Fault := none
deriving DecidableEq, Repr

/-- The group of a user. -/
def getUserGroupByIdTx (fault : Fault) (userId : ℤ) (t : Tables) : Except String String :=
  if userId ≤ 0 then .error "invalid userId" else guardFault fault (.ok (t.userGroup userId))

/-- Move the buyer to the plan's group; the group that was left is the second result. -/
def upgradeUserGroupTx (faults : PurchaseFaults) (userId : ℤ) (upgradeGroup : String)
    (t : Tables) : Except String (Tables × String) :=
  if upgradeGroup = "" then .ok (t, "")
  else
    match getUserGroupByIdTx faults.groupRead userId t with
    | .error e => .error e
    | .ok currentGroup =>
      if currentGroup = upgradeGroup then .ok (t, "")
      else guardFault faults.groupWrite (.ok (t.setUserGroup userId upgradeGroup, currentGroup))

/-- How many subscriptions to a plan a user has had. -/
def countUserSubscriptionsByPlan (userId planId : ℤ) (t : Tables) : ℕ :=
  (t.subs.filter fun s => s.userId = userId ∧ s.planId = planId).length

/-- Whether the plan's purchase limit lets the user buy it once more. -/
def checkPurchaseLimit (fault : Fault) (userId : ℤ) (plan : SubscriptionPlan) (t : Tables) :
    Except String Unit :=
  if 0 < plan.maxPurchasePerUser then
    guardFault fault
      (if plan.maxPurchasePerUser ≤ countUserSubscriptionsByPlan userId plan.id t then
        .error "已达到该套餐购买上限"
      else .ok ())
  else .ok ()

/-- The row a purchase at `now` creates. -/
def newUserSubscription (loc : Location) (now : ℤ) (userId : ℤ) (plan : SubscriptionPlan)
    (source : String) (endUnix : ℤ) (prevGroup : String) : UserSubscription :=
  let nextReset := calcNextResetTime loc now plan endUnix
  { id := 0
    userId := userId
    planId := plan.id
    amountTotal := plan.totalAmount
    amountUsed := 0
    startTime := now
    endTime := endUnix
    status := .active
    source := source
    lastResetTime := if 0 < nextReset then now else 0
    nextResetTime := nextReset
    upgradeGroup := trimSpace plan.upgradeGroup
    prevUserGroup := prevGroup }

/-- Create a subscription from a plan inside the caller's transaction. -/
def createUserSubscriptionFromPlanTx (loc : Location) (now : ℤ) (faults : PurchaseFaults)
    (userId : ℤ) (plan : SubscriptionPlan) (source : String) (t : Tables) :
    Except String Tables :=
  if plan.id = 0 then .error "invalid plan"
  else if userId ≤ 0 then .error "invalid user id"
  else
    match checkPurchaseLimit faults.count userId plan t with
    | .error e => .error e
    | .ok () =>
      match calcPlanEndTime loc now plan with
      | .error e => .error e
      | .ok endUnix =>
        match upgradeUserGroupTx faults userId (trimSpace plan.upgradeGroup) t with
        | .error e => .error e
        | .ok (t, prevGroup) =>
          guardFault faults.create
            (.ok (t.createSub
              (newUserSubscription loc now userId plan source endUnix prevGroup)))

/-- A purchase or a bind: the transaction around `createUserSubscriptionFromPlanTx`. -/
def purchaseSubscription (loc : Location) (now : ℤ) (faults : PurchaseFaults) (userId : ℤ)
    (plan : SubscriptionPlan) (source : String) (t : Tables) : Fault × Tables :=
  match createUserSubscriptionFromPlanTx loc now faults userId plan source t with
  | .error e => (some e, t)
  | .ok t' =>
    match faults.rest with
    | some e => (some e, t)
    | none => (none, t')

/-! ### Ending a subscription -/

/-- The outcome of the statements that move a user back to a group. -/
structure DowngradeFaults where
  groupRead : Fault := none
  activeRead : Fault := none
  groupWrite : Fault := none
deriving DecidableEq, Repr

/-- The subscriptions that keep a user in an upgraded group at `now`. -/
def liveUpgrades (t : Tables) (userId now : ℤ) : List UserSubscription :=
  t.subs.filter fun s =>
    s.userId = userId ∧ s.status = .active ∧ now < s.endTime ∧ s.upgradeGroup ≠ ""

/-- Move the user of an ended subscription back to the group it recorded, unless another upgraded
subscription is still running.  A look-up that fails counts as finding none. -/
def downgradeUserGroupForSubscriptionTx (faults : DowngradeFaults) (sub : UserSubscription)
    (now : ℤ) (t : Tables) : Except String (String × Tables) :=
  let upgradeGroup := trimSpace sub.upgradeGroup
  if upgradeGroup = "" then .ok ("", t)
  else
    match getUserGroupByIdTx faults.groupRead sub.userId t with
    | .error e => .error e
    | .ok currentGroup =>
      if currentGroup ≠ upgradeGroup then .ok ("", t)
      else if faults.activeRead = none ∧
          ((liveUpgrades t sub.userId now).filter fun s => s.id ≠ sub.id) ≠ [] then .ok ("", t)
      else
        let prevGroup := trimSpace sub.prevUserGroup
        if prevGroup = "" ∨ prevGroup = currentGroup then .ok ("", t)
        else guardFault faults.groupWrite (.ok (prevGroup, t.setUserGroup sub.userId prevGroup))

/-- The outcome of the statements of an administrator's ending a subscription. -/
structure AdminFaults where
  first : Fault := none
  write : Fault := none
  downgrade : DowngradeFaults := {}
  commit : Fault := none
deriving DecidableEq, Repr

/-- The row with the columns that cancelling it at `now` updates. -/
def UserSubscription.cancelAt (now : ℤ) (sub : UserSubscription) : UserSubscription :=
  { sub with status := .cancelled, endTime := now }

/-- Cancel a subscription and end it now. -/
def adminInvalidateUserSubscription (now : ℤ) (faults : AdminFaults) (userSubscriptionId : ℤ)
    (t : Tables) : Except String String × Tables :=
  if userSubscriptionId ≤ 0 then (.error "invalid userSubscriptionId", t)
  else
    match guardFault faults.first (.ok (t.sub userSubscriptionId)) with
    | .error e => (.error e, t)
    | .ok none => (.error recordNotFound, t)
    | .ok (some sub) =>
      let sub := sub.cancelAt now
      match guardFault faults.write
          (downgradeUserGroupForSubscriptionTx faults.downgrade sub now (t.saveSub sub)) with
      | .error e => (.error e, t)
      | .ok (target, t') =>
        match faults.commit with
        | some e => (.error e, t)
        | none => (.ok target, t')

/-- Delete a subscription; the group is moved back before the row is removed. -/
def adminDeleteUserSubscription (now : ℤ) (faults : AdminFaults) (userSubscriptionId : ℤ)
    (t : Tables) : Except String String × Tables :=
  if userSubscriptionId ≤ 0 then (.error "invalid userSubscriptionId", t)
  else
    match guardFault faults.first (.ok (t.sub userSubscriptionId)) with
    | .error e => (.error e, t)
    | .ok none => (.error recordNotFound, t)
    | .ok (some sub) =>
      match downgradeUserGroupForSubscriptionTx faults.downgrade sub now t with
      | .error e => (.error e, t)
      | .ok (target, t') =>
        match faults.write.or faults.commit with
        | some e => (.error e, t)
        | none =>
          (.ok target, { t' with subs := t'.subs.filter fun s => s.id ≠ userSubscriptionId })

/-! ### Expiring subscriptions -/

/-- The outcome of the statements of one user's part of a sweep. -/
structure ExpireFaults where
  update : Fault := none
  activeRead : Fault := none
  expiredRead : Fault := none
  groupRead : Fault := none
  groupWrite : Fault := none
  commit : Fault := none
deriving DecidableEq, Repr

/-- Whether a subscription is active and has ended. -/
def UserSubscription.isDue (s : UserSubscription) (now : ℤ) : Bool :=
  s.status = .active ∧ 0 < s.endTime ∧ s.endTime ≤ now

/-- Mark the ended subscriptions of a user as expired. -/
def markExpired (userId now : ℤ) (t : Tables) : Tables :=
  { t with
    subs := Rows.update (fun s => s.userId = userId && s.isDue now)
      (fun s => { s with status := .expired }) t.subs }

/-- The user's upgraded subscription that expired with the latest end, the latest row first. -/
def lastExpiredUpgrade (t : Tables) (userId : ℤ) : Option UserSubscription :=
  ((t.subs.filter fun s => s.userId = userId ∧ s.status = .expired ∧ s.upgradeGroup ≠ "")
    |>.insertionSort fun a b => b.endTime < a.endTime ∨ (b.endTime = a.endTime ∧ b.id ≤ a.id)).head?

/-- Expire one user's ended subscriptions and move the user back if no upgraded one is left. -/
def expireUserTx (now : ℤ) (faults : ExpireFaults) (userId : ℤ) (t : Tables) :
    Except String Tables :=
  guardFault faults.update
    (let t := markExpired userId now t
    if faults.activeRead = none ∧ liveUpgrades t userId now ≠ [] then .ok t
    else
      match guardFault faults.expiredRead (.ok (lastExpiredUpgrade t userId)) with
      | .error _ => .ok t
      | .ok none => .ok t
      | .ok (some lastExpired) =>
        let upgradeGroup := trimSpace lastExpired.upgradeGroup
        let prevGroup := trimSpace lastExpired.prevUserGroup
        if upgradeGroup = "" ∨ prevGroup = "" then .ok t
        else
          match getUserGroupByIdTx faults.groupRead userId t with
          | .error e => .error e
          | .ok currentGroup =>
            if currentGroup ≠ upgradeGroup ∨ currentGroup = prevGroup then .ok t
            else guardFault faults.groupWrite (.ok (t.setUserGroup userId prevGroup)))

/-- What a sweep is given: the time, the outcome of its statements, and the order in which the
set of users is gone through. -/
structure ExpireEnv where
  now : ℤ
  query : Fault := none
  order : List ℤ := []
  user : ℤ → ExpireFaults := fun _ => {}

/-- The batch limit of a sweep. -/
def sweepLimit (limit : ℤ) : ℕ := if limit ≤ 0 then 200 else limit.toNat

/-- The users of a batch: those in `order` first, then the others. -/
def batchUsers (order : List ℤ) (subs : List UserSubscription) : List ℤ :=
  let users := ((subs.map (·.userId)).filter fun u => 0 < u).dedup
  order.dedup.filter (· ∈ users) ++ users.filter (· ∉ order)

/-- Expire the users' subscriptions one user after the other; the first error ends the sweep. -/
def expireUsers (env : ExpireEnv) : List ℤ → ℤ → Tables → (ℤ × Fault) × Tables
  | [], count, t => ((count, none), t)
  | userId :: rest, count, t =>
    let expired := (t.subs.filter fun s => s.userId = userId && s.isDue env.now).length
    let count := if (env.user userId).update = none then count + expired else count
    match expireUserTx env.now (env.user userId) userId t with
    | .error e => ((count, some e), t)
    | .ok t' =>
      match (env.user userId).commit with
      | some e => ((count, some e), t)
      | none => expireUsers env rest count t'

/-- The users of a sweep's batch: those of the first `limit` rows that are due. -/
def dueUsers (env : ExpireEnv) (limit : ℤ) (t : Tables) : List ℤ :=
  let due := (t.subs.filter fun s => s.isDue env.now).insertionSort
    fun a b => a.endTime < b.endTime ∨ (a.endTime = b.endTime ∧ a.id ≤ b.id)
  batchUsers env.order (due.take (sweepLimit limit))

/-- Expire the subscriptions that have ended, at most `limit` rows' users in a batch. -/
def expireDueSubscriptions (env : ExpireEnv) (limit : ℤ) (t : Tables) : (ℤ × Fault) × Tables :=
  match env.query with
  | some e => ((0, some e), t)
  | none => expireUsers env (dueUsers env limit t) 0 t

/-! ### The periodic reset -/

/-- The loop that finds the last reset that is due: whether one was, the instant it fell on and
the one after it; `none` when `fuel` rounds were not enough. -/
def resetLoop (loc : Location) (plan : SubscriptionPlan) (endTime now : ℤ) :
    ℕ → Bool → ℤ → ℤ → Option (Bool × ℤ × ℤ)
  | 0, _, _, _ => none
  | fuel + 1, advanced, base, next =>
    if 0 < next ∧ next ≤ now then
      resetLoop loc plan endTime now fuel true next (calcNextResetTime loc next plan endTime)
    else some (advanced, base, next)

/-- What a due check does to a subscription. -/
inductive ResetOutcome where
  | keep
  | schedule (base next : ℤ)
  | reset (base next : ℤ)
  | hang
deriving DecidableEq, Repr

/-- Whether the used amount is set to zero. -/
def ResetOutcome.isReset : ResetOutcome → Bool
  | .reset _ _ => true
  | _ => false

/-- What the due check finds for `sub` at `now`. -/
def resetOutcome (loc : Location) (fuel : ℕ) (sub : UserSubscription) (plan : SubscriptionPlan)
    (now : ℤ) : ResetOutcome :=
  if 0 < sub.nextResetTime ∧ now < sub.nextResetTime then .keep
  else if normalizeResetPeriod plan.quotaResetPeriod = .never then .keep
  else
    let baseUnix := if sub.lastResetTime ≤ 0 then sub.startTime else sub.lastResetTime
    match resetLoop loc plan sub.endTime now fuel false baseUnix
        (calcNextResetTime loc baseUnix plan sub.endTime) with
    | none => .hang
    | some (advanced, base, next) =>
      if advanced then .reset base next
      else if sub.nextResetTime = 0 ∧ 0 < next then .schedule base next
      else .keep

/-- The row the due check leaves. -/
def ResetOutcome.apply (o : ResetOutcome) (sub : UserSubscription) : UserSubscription :=
  match o with
  | .keep => sub
  | .hang => sub
  | .schedule base next => { sub with nextResetTime := next, lastResetTime := base }
  | .reset base next => { sub with amountUsed := 0, lastResetTime := base, nextResetTime := next }

/-- Reset a subscription whose reset is due; the row as it is afterwards is the first result. -/
def maybeResetUserSubscriptionWithPlanTx (loc : Location) (fuel : ℕ) (saveFault : Fault)
    (sub : UserSubscription) (plan : SubscriptionPlan) (now : ℤ) (t : Tables) :
    Except Failure (UserSubscription × Tables) :=
  let o := resetOutcome loc fuel sub plan now
  match o with
  | .keep => .ok (sub, t)
  | .hang => .error .hang
  | .schedule _ _ => guardFault (saveFault.map .err) (.ok (o.apply sub, t.saveSub (o.apply sub)))
  | .reset _ _ => guardFault (saveFault.map .err) (.ok (o.apply sub, t.saveSub (o.apply sub)))

/-- What a reset sweep is given. -/
structure ResetEnv where
  now : ℤ
  plans : ℤ → Except String SubscriptionPlan
  fuel : ℕ
  query : Fault := none
  sub : ℤ → TxFaults := fun _ => {}

/-- Whether a sweep at `now` picks the subscription. -/
def UserSubscription.isResetDue (s : UserSubscription) (now : ℤ) : Bool :=
  0 < s.nextResetTime ∧ s.nextResetTime ≤ now

/-- Reset one subscription of a sweep: whether it was counted, and the tables afterwards. -/
def resetOne (loc : Location) (env : ResetEnv) (id : ℤ) (plan : SubscriptionPlan) (t : Tables) :
    (Bool × Option Failure) × Tables :=
  let faults := env.sub id
  match guardFault faults.first
      (.ok (t.subs.find? fun s => s.id = id && s.isResetDue env.now)) with
  | .error _ => ((false, none), t)
  | .ok none => ((false, faults.commit.map .err), t)
  | .ok (some locked) =>
    match maybeResetUserSubscriptionWithPlanTx loc env.fuel faults.save locked plan env.now t with
    | .error e => ((false, some e), t)
    | .ok (_, t') =>
      match faults.commit with
      | some e => ((true, some (.err e)), t)
      | none => ((true, none), t')

/-- Reset the subscriptions of a batch one after the other; the first error ends the sweep. -/
def resetSubs (loc : Location) (env : ResetEnv) :
    List UserSubscription → ℕ → Tables → (ℕ × Option Failure) × Tables
  | [], count, t => ((count, none), t)
  | sub :: rest, count, t =>
    match getSubscriptionPlanById env.plans sub.planId with
    | .error _ => resetSubs loc env rest count t
    | .ok plan =>
      match resetOne loc env sub.id plan t with
      | ((counted, e), t') =>
        let count := if counted then count + 1 else count
        match e with
        | some e => ((count, some e), t')
        | none => resetSubs loc env rest count t'

/-- Reset the active subscriptions whose reset is due, at most `limit` in a batch. -/
def resetDueSubscriptions (loc : Location) (env : ResetEnv) (limit : ℤ) (t : Tables) :
    (ℕ × Option Failure) × Tables :=
  match env.query with
  | some e => ((0, some (.err e)), t)
  | none =>
    let due := (t.subs.filter fun s => s.isResetDue env.now && s.status = .active).insertionSort
      fun a b => a.nextResetTime ≤ b.nextResetTime
    resetSubs loc env (due.take (sweepLimit limit)) 0 t

/-! ### Charging a request -/

/-- What a pre-consume returns. -/
structure SubscriptionPreConsumeResult where
  userSubscriptionId : ℤ
  preConsumed : ℤ
  amountTotal : ℤ
  amountUsedBefore : ℤ
  amountUsedAfter : ℤ
deriving DecidableEq, Repr

/-- What a pre-consume is given: the time, the plans as they are found, and the outcome of its
statements. -/
structure PreConsumeEnv where
  now : ℤ
  plans : ℤ → Except String SubscriptionPlan
  fuel : ℕ
  existing : Fault := none
  existingSub : Fault := none
  subs : Fault := none
  reset : ℤ → Fault := fun _ => none
  create : Fault := none
  save : Fault := none
  commit : Fault := none

/-- A request that already has a record is not charged again. -/
def preConsumeExisting (fault : Fault) (existing : SubscriptionPreConsumeRecord) (t : Tables) :
    Except Failure SubscriptionPreConsumeResult :=
  if existing.status = .refunded then
    .error (.err "subscription pre-consume already refunded")
  else
    guardFault (fault.map .err)
      (match t.sub existing.userSubscriptionId with
        | none => .error (.err recordNotFound)
        | some sub => .ok
            { userSubscriptionId := sub.id
              preConsumed := existing.preConsumed
              amountTotal := sub.amountTotal
              amountUsedBefore := sub.amountUsed
              amountUsedAfter := sub.amountUsed })

/-- Charge the subscription that was picked and keep the record of it; `keep` is what a column
keeps of a sum. -/
def chargeSubIn (keep : ℤ → ℤ) (env : PreConsumeEnv) (requestId : String) (userId amount : ℤ)
    (sub : UserSubscription) (t : Tables) :
    Except Failure (SubscriptionPreConsumeResult × Tables) :=
  let record : SubscriptionPreConsumeRecord :=
    { id := 0
      requestId := requestId
      userId := userId
      userSubscriptionId := sub.id
      preConsumed := amount
      status := .consumed }
  match t.createRecord env.create record with
  | .error e =>
    -- another caller may have inserted the record of this request in the meantime
    match t.record requestId with
    | none => .error (.err e)
    | some dup =>
      if dup.status = .refunded then
        .error (.err "subscription pre-consume already refunded")
      else .ok
        ({ userSubscriptionId := sub.id
           preConsumed := dup.preConsumed
           amountTotal := sub.amountTotal
           amountUsedBefore := sub.amountUsed
           amountUsedAfter := sub.amountUsed }, t)
  | .ok t =>
    guardFault (env.save.map .err)
      (.ok
        ({ userSubscriptionId := sub.id
           preConsumed := amount
           amountTotal := sub.amountTotal
           amountUsedBefore := sub.amountUsed
           amountUsedAfter := keep (sub.amountUsed + amount) },
          t.saveSub { sub with amountUsed := keep (sub.amountUsed + amount) }))

/-- The charge whose sums are kept as they are. -/
def chargeSub := chargeSubIn fun x => x

/-- Try the user's subscriptions in turn; each is reset first if its reset is due. -/
def scanSubsIn (keep : ℤ → ℤ) (loc : Location) (env : PreConsumeEnv) (requestId : String)
    (userId amount : ℤ) :
    List UserSubscription → Tables → Except Failure (SubscriptionPreConsumeResult × Tables)
  | [], _ => .error (.err ("subscription quota insufficient, need=" ++ toString amount))
  | candidate :: rest, t =>
    match getSubscriptionPlanById env.plans candidate.planId with
    | .error e => .error (.err e)
    | .ok plan =>
      match maybeResetUserSubscriptionWithPlanTx loc env.fuel (env.reset candidate.id)
          candidate plan env.now t with
      | .error e => .error e
      | .ok (sub, t) =>
        if 0 < sub.amountTotal ∧ keep (sub.amountTotal - sub.amountUsed) < amount then
          scanSubsIn keep loc env requestId userId amount rest t
        else chargeSubIn keep env requestId userId amount sub t

/-- The scan whose sums are kept as they are. -/
def scanSubs := scanSubsIn fun x => x

/-- The active subscriptions of a user, the one that ends first in front. -/
def activeSubs (userId now : ℤ) (t : Tables) : List UserSubscription :=
  (t.subs.filter fun s => s.userId = userId ∧ s.status = .active ∧ now < s.endTime).insertionSort
    fun a b => a.endTime < b.endTime ∨ (a.endTime = b.endTime ∧ a.id ≤ b.id)

/-- The body of the pre-consume transaction. -/
def preConsumeTxIn (keep : ℤ → ℤ) (loc : Location) (env : PreConsumeEnv) (requestId : String)
    (userId amount : ℤ) (t : Tables) : Except Failure (SubscriptionPreConsumeResult × Tables) :=
  guardFault (env.existing.map .err)
    (match t.record requestId with
      | some existing => (preConsumeExisting env.existingSub existing t).map (·, t)
      | none =>
        if env.subs ≠ none ∨ activeSubs userId env.now t = [] then
          .error (.err "no active subscription")
        else scanSubsIn keep loc env requestId userId amount (activeSubs userId env.now t) t)

/-- The body of the transaction with the sums kept as they are. -/
def preConsumeTx := preConsumeTxIn fun x => x

/-- Charge `amount` to one of the user's active subscriptions, once for each request id. -/
def preConsumeUserSubscriptionIn (keep : ℤ → ℤ) (loc : Location) (env : PreConsumeEnv)
    (requestId : String) (userId : ℤ) (_modelName : String) (_quotaType amount : ℤ) (t : Tables) :
    Except Failure SubscriptionPreConsumeResult × Tables :=
  if userId ≤ 0 then (.error (.err "invalid userId"), t)
  else if trimSpace requestId = "" then (.error (.err "requestId is empty"), t)
  else if amount ≤ 0 then (.error (.err "amount must be > 0"), t)
  else
    match preConsumeTxIn keep loc env requestId userId amount t with
    | .error e => (.error e, t)
    | .ok (res, t') =>
      match env.commit with
      | some e => (.error (.err e), t)
      | none => (.ok res, t')

/-- The pre-consume whose sums are kept as they are. -/
def preConsumeUserSubscription := preConsumeUserSubscriptionIn fun x => x

/-- The pre-consume as the program runs it: the columns are 64-bit integers. -/
def preConsumeUserSubscription64 := preConsumeUserSubscriptionIn wrap64

/-! ### Settling and refunding a request -/

/-- Change the used amount of a subscription by `delta`; it does not go below zero. -/
def postConsumeUserSubscriptionDeltaIn (keep : ℤ → ℤ) (faults : TxFaults)
    (userSubscriptionId delta : ℤ) (t : Tables) : Except String Tables :=
  if userSubscriptionId ≤ 0 then .error "invalid userSubscriptionId"
  else if delta = 0 then .ok t
  else
    guardFault faults.first
      (match t.sub userSubscriptionId with
        | none => .error recordNotFound
        | some sub =>
          let newUsed :=
            if keep (sub.amountUsed + delta) < 0 then 0 else keep (sub.amountUsed + delta)
          if 0 < sub.amountTotal ∧ sub.amountTotal < newUsed then
            .error ("subscription used exceeds total, used=" ++ toString newUsed ++ " total="
              ++ toString sub.amountTotal)
          else
            guardFault (faults.save.or faults.commit)
              (.ok (t.saveSub { sub with amountUsed := newUsed })))

/-- The change of the used amount whose sums are kept as they are. -/
def postConsumeUserSubscriptionDelta := postConsumeUserSubscriptionDeltaIn fun x => x

/-- The change of the used amount as the program runs it. -/
def postConsumeUserSubscriptionDelta64 := postConsumeUserSubscriptionDeltaIn wrap64

/-- The outcome of the statements of a refund; `inner` is the transaction of the used amount. -/
structure RefundFaults where
  first : Fault := none
  inner : TxFaults := {}
  save : Fault := none
  commit : Fault := none
deriving DecidableEq, Repr

/-- Mark the record of a refunded request; nothing is written when a statement fails. -/
def markRefunded (faults : RefundFaults) (record : SubscriptionPreConsumeRecord) (t : Tables) :
    Fault × Tables :=
  match faults.save.or faults.commit with
  | some e => (some e, t)
  | none => (none, t.saveRecord { record with status := .refunded })

/-- Give back what a request charged.  The used amount is changed in a transaction of its own,
which stays committed when the record cannot be marked afterwards. -/
def refundSubscriptionPreConsumeIn (keep : ℤ → ℤ) (faults : RefundFaults) (requestId : String)
    (t : Tables) : Fault × Tables :=
  if trimSpace requestId = "" then (some "requestId is empty", t)
  else
    match guardFault faults.first (.ok (t.record requestId)) with
    | .error e => (some e, t)
    | .ok none => (some recordNotFound, t)
    | .ok (some record) =>
      if record.status = .refunded then (faults.commit, t)
      else if record.preConsumed ≤ 0 then markRefunded faults record t
      else
        match postConsumeUserSubscriptionDeltaIn keep faults.inner record.userSubscriptionId
            (-record.preConsumed) t with
        | .error e => (some e, t)
        | .ok t' => markRefunded faults record t'

/-- The refund whose sums are kept as they are. -/
def refundSubscriptionPreConsume := refundSubscriptionPreConsumeIn fun x => x

/-- The refund as the program runs it. -/
def refundSubscriptionPreConsume64 := refundSubscriptionPreConsumeIn wrap64

/-- Try a refund up to three times, until it reports no error. -/
def refundWithRetry (attempt : ℕ → Tables → Fault × Tables) : ℕ → ℕ → Fault → Tables → Fault × Tables
  | 0, _, lastErr, t => (lastErr, t)
  | left + 1, i, _, t =>
    match attempt i t with
    | (none, t') => (none, t')
    | (some e, t') => refundWithRetry attempt left (i + 1) (some e) t'

/-- The number of attempts of a refund. -/
def refundMaxAttempts : ℕ := 3

end NewApi

/-
**Subscription orders and purchases, one statement at a time.**

A subscription is bought in two ways.  A payment gateway reports that an order has been paid, and
`CompleteSubscriptionOrder` creates the subscription and writes the order as successful; or
`PurchaseSubscriptionWithBalance` takes the price from the user's quota.  Both go through
`CreateUserSubscriptionFromPlanTx`, which checks the purchase limit of the plan and moves the user
to the group the plan sells.  `ExpireSubscriptionOrder` gives an order up.  Each call is one
transaction.  Its reads ask for row locks in a way the database library ignores, so they take
none.  Each statement of each call is a step of its own here, and the calls interleave as they
like.

Main definitions:

* `NewApi.SubscriptionOrder`, `NewApi.OrderCall` — an order, and a call;
* `NewApi.OrderSystem`, `NewApi.subOrderStep` — the tables and the calls, and one statement;
* `NewApi.OrderMove` — the things one statement can do;
* `NewApi.Formed` — every call is in a state that goes with what it was asked to do.

Main results:

* `NewApi.orderStep_move` — **one statement does one of these things**;
* `NewApi.Formed.move` — no statement takes a call to a state that is not its own.
-/

import NewApi.Lib.ReadCommitted
import NewApi.Lib.Transition
import NewApi.Subscription
import NewApi.TopUp

set_option autoImplicit false

namespace NewApi

open ReadCommitted

/-! ### Plans and prices -/

/-- A plan with its price.  Prices are the decimals they print as. -/
structure PricedPlan extends SubscriptionPlan where
  priceAmount : ℚ
  enabled : Bool
deriving DecidableEq, Repr

/-- What the calls read besides the tables: the plans, the quota one unit of money buys, and the
time zone of the server. -/
structure OrderConfig where
  plans : ℤ → Option PricedPlan
  quotaPerUnit : ℚ
  location : Location
  plan_id : ∀ id plan, plans id = some plan → plan.id = id

/-- A shop with a single plan. -/
def OrderConfig.ofPlan (plan : PricedPlan) (quotaPerUnit : ℚ) (location : Location) :
    OrderConfig where
  plans id := if id = plan.id then some plan else none
  quotaPerUnit := quotaPerUnit
  location := location
  plan_id id plan' h := by
    split at h
    · rename_i hid
      cases h
      exact hid.symm
    · cases h

/-- The quota a price stands for. -/
def OrderConfig.priceQuota (cfg : OrderConfig) (priceAmount : ℚ) : ℤ :=
  if priceAmount ≤ 0 then 0 else ⌈priceAmount * cfg.quotaPerUnit⌉

def calcSubscriptionBalanceQuota (cfg : OrderConfig) (priceAmount : ℚ) : Except String ℤ :=
  if priceAmount ≤ 0 then .ok 0
  else if cfg.quotaPerUnit ≤ 0 then .error "额度单位配置错误"
  else .ok (intPart ⌈priceAmount * cfg.quotaPerUnit⌉)

def OrderConfig.getSubscriptionPlanById (cfg : OrderConfig) (id : ℤ) : Except String PricedPlan :=
  if id ≤ 0 then .error "invalid plan id"
  else
    match cfg.plans id with
    | none => .error "record not found"
    | some plan => .ok plan

/-! ### Orders -/

def paymentMethodBalance : String := "balance"

def paymentProviderBalance : String := "balance"

def errSubscriptionOrderNotFound : String := "subscription order not found"

def errSubscriptionOrderStatusInvalid : String := "subscription order status invalid"

/-- An order, under its trade number. -/
structure SubscriptionOrder where
  userId : ℤ
  planId : ℤ
  money : ℚ
  paymentMethod : String
  paymentProvider : String
  status : String
  createTime : ℤ
  completeTime : ℤ
  providerPayload : String
deriving DecidableEq, Repr

/-- The top-up that shows an order in the user's list of payments, under its trade number. -/
structure OrderTopUp where
  userId : ℤ
  amount : ℤ
  money : ℚ
  paymentMethod : String
  createTime : ℤ
  completeTime : ℤ
  status : String
deriving DecidableEq, Repr

/-- The columns of a user that these calls read or write. -/
structure OrderUser where
  quota : ℤ
  group : String
deriving DecidableEq, Repr

/-- The order as `CompleteSubscriptionOrder` writes it. -/
def SubscriptionOrder.complete (order : SubscriptionOrder) (now : ℤ)
    (providerPayload actualPaymentMethod : String) : SubscriptionOrder :=
  { order with
    status := topUpStatusSuccess
    completeTime := now
    providerPayload := if providerPayload ≠ "" then providerPayload else order.providerPayload
    paymentMethod :=
      if actualPaymentMethod ≠ "" then actualPaymentMethod else order.paymentMethod }

/-- The order as `ExpireSubscriptionOrder` writes it. -/
def SubscriptionOrder.expire (order : SubscriptionOrder) (now : ℤ) : SubscriptionOrder :=
  { order with status := topUpStatusExpired, completeTime := now }

/-- The top-up of an order that has none, or what becomes of the one it has. -/
def upsertTopUp (order : SubscriptionOrder) (now : ℤ) : Option OrderTopUp → Except String OrderTopUp
  | none =>
    .ok
      { userId := order.userId
        amount := 0
        money := order.money
        paymentMethod := order.paymentMethod
        createTime := order.createTime
        completeTime := now
        status := topUpStatusSuccess }
  | some topUp =>
    if topUp.paymentMethod ≠ "" ∧ topUp.paymentMethod ≠ order.paymentMethod then
      .error errPaymentMethodMismatch
    else
      .ok
        { topUp with
          money := order.money
          paymentMethod := order.paymentMethod
          createTime := if topUp.createTime = 0 then order.createTime else topUp.createTime
          completeTime := now
          status := topUpStatusSuccess }

/-! ### Calls -/

/-- A call.  The trade number of a purchase is drawn at random. -/
inductive OrderCall where
  | complete (tradeNo providerPayload expectedPaymentProvider actualPaymentMethod : String)
  | expire (tradeNo expectedPaymentProvider : String)
  | purchase (userId planId : ℤ) (tradeNo : String)
deriving DecidableEq, Repr

def OrderCall.tradeNo : OrderCall → String
  | .complete tradeNo _ _ _ => tradeNo
  | .expire tradeNo _ => tradeNo
  | .purchase _ _ tradeNo => tradeNo

def OrderCall.isPurchase : OrderCall → Bool
  | .purchase _ _ _ => true
  | _ => false

/-- What a subscription is created for: the user, the plan and the source of the subscription, and
the order that is completed or the quota that is paid. -/
structure Buying where
  userId : ℤ
  plan : PricedPlan
  source : String
  order : Option SubscriptionOrder
  requiredQuota : ℤ
deriving DecidableEq, Repr

/-- How far a call has come, named after its next statement: the quota is taken, the
subscriptions of the plan are counted, the user's group is read, the group is written, the
subscription is inserted, the top-up is read, the top-up is written, the order of a purchase is
inserted, the order is written, the transaction is committed. -/
inductive OrderState where
  | start
  | paying (buying : Buying)
  | counting (buying : Buying)
  | grouping (buying : Buying) (endUnix now : ℤ)
  | upgrading (buying : Buying) (endUnix now : ℤ) (prevGroup : String)
  | inserting (buying : Buying) (sub : UserSubscription)
  | finding (buying : Buying) (order : SubscriptionOrder) (sub : UserSubscription)
  | recording (order : SubscriptionOrder) (sub : UserSubscription) (topUp : Option OrderTopUp)
  | ordering (buying : Buying) (sub : UserSubscription)
  | saving (order : SubscriptionOrder) (sub : Option UserSubscription)
  | saved (order : SubscriptionOrder) (sub : Option UserSubscription)
  | done (result : Except String Unit)

/-- The tables and the calls; a row that is not there is `none`.  `subs` are the subscriptions
that have been committed, each with the call that created it, if one of these calls has.  A call
inserts one subscription at most, and keeps it until it commits. -/
structure OrderSystem (ι : Type*) where
  orders : Database String ι (Option SubscriptionOrder)
  topUps : Database String ι (Option OrderTopUp)
  users : Database ℤ ι (Option OrderUser)
  subs : List (Option ι × UserSubscription)
  state : ι → OrderState

/-- The next statement of a call, at a time, and the error it fails with. -/
structure SubOrderAction (ι : Type*) where
  caller : ι
  now : ℤ
  fault : Fault

section Step

variable {ι : Type*} [DecidableEq ι]

namespace OrderSystem

/-- The call `i` has come to `state`. -/
def goTo (i : ι) (state : OrderState) (s : OrderSystem ι) : OrderSystem ι :=
  { s with state := Function.update s.state i state }

/-- The transaction of the call `i` is rolled back, and the call fails. -/
def abort (i : ι) (err : String) (s : OrderSystem ι) : OrderSystem ι :=
  { s with
    orders := s.orders.rollback i
    topUps := s.topUps.rollback i
    users := s.users.rollback i
    state := Function.update s.state i (.done (.error err)) }

/-- The transaction of the call `i` is committed. -/
def commit (i : ι) (sub : Option UserSubscription) (s : OrderSystem ι) : OrderSystem ι where
  orders := s.orders.commit i
  topUps := s.topUps.commit i
  users := s.users.commit i
  subs := s.subs ++ (sub.map fun sub => (some i, sub)).toList
  state := Function.update s.state i (.done (.ok ()))

/-- The call `i` writes an order and comes to its commit. -/
def saveOrder (i : ι) (tradeNo : String) (order : SubscriptionOrder)
    (sub : Option UserSubscription) (s : OrderSystem ι) : OrderSystem ι :=
  { s with
    orders := s.orders.write i tradeNo fun _ => some order
    state := Function.update s.state i (.saved order sub) }

/-- The call `i` writes a top-up. -/
def saveTopUp (i : ι) (tradeNo : String) (topUp : OrderTopUp) (state : OrderState)
    (s : OrderSystem ι) : OrderSystem ι :=
  { s with
    topUps := s.topUps.write i tradeNo fun _ => some topUp
    state := Function.update s.state i state }

/-- The call `i` changes a user. -/
def changeUser (i : ι) (userId : ℤ) (f : OrderUser → OrderUser) (state : OrderState)
    (s : OrderSystem ι) : OrderSystem ι :=
  { s with
    users := s.users.write i userId (Option.map f)
    state := Function.update s.state i state }

end OrderSystem

def countSubscriptions (userId planId : ℤ) (s : OrderSystem ι) : ℕ :=
  (s.subs.filter fun c => c.2.userId = userId ∧ c.2.planId = planId).length

variable (cfg : OrderConfig) (calls : ι → OrderCall)

/-- `CompleteSubscriptionOrder`, up to the creation of the subscription: the order is read and
checked. -/
def completeSelect (tradeNo expectedPaymentProvider : String) (s : OrderSystem ι)
    (a : SubOrderAction ι) : OrderSystem ι :=
  if tradeNo = "" then s.goTo a.caller (.done (.error "tradeNo is empty"))
  else if a.fault ≠ none then s.abort a.caller errSubscriptionOrderNotFound
  else
    match s.orders.view a.caller tradeNo with
    | none => s.abort a.caller errSubscriptionOrderNotFound
    | some order =>
      if expectedPaymentProvider ≠ "" ∧ order.paymentProvider ≠ expectedPaymentProvider then
        s.abort a.caller errPaymentMethodMismatch
      else if order.status = topUpStatusSuccess then s.goTo a.caller (.done (.ok ()))
      else if order.status ≠ topUpStatusPending then
        s.abort a.caller errSubscriptionOrderStatusInvalid
      else
        match cfg.getSubscriptionPlanById order.planId with
        | .error e => s.abort a.caller e
        | .ok plan => s.goTo a.caller (.counting ⟨order.userId, plan, "order", some order, 0⟩)

/-- `ExpireSubscriptionOrder`, up to its write: the order is read and checked. -/
def expireSelect (tradeNo expectedPaymentProvider : String) (s : OrderSystem ι)
    (a : SubOrderAction ι) : OrderSystem ι :=
  if tradeNo = "" then s.goTo a.caller (.done (.error "tradeNo is empty"))
  else if a.fault ≠ none then s.abort a.caller errSubscriptionOrderNotFound
  else
    match s.orders.view a.caller tradeNo with
    | none => s.abort a.caller errSubscriptionOrderNotFound
    | some order =>
      if expectedPaymentProvider ≠ "" ∧ order.paymentProvider ≠ expectedPaymentProvider then
        s.abort a.caller errPaymentMethodMismatch
      else if order.status ≠ topUpStatusPending then s.goTo a.caller (.done (.ok ()))
      else s.goTo a.caller (.saving (order.expire a.now) none)

/-- `PurchaseSubscriptionWithBalance`, up to the payment: the plan and the user are read and
checked. -/
def purchaseSelect (userId planId : ℤ) (s : OrderSystem ι) (a : SubOrderAction ι) : OrderSystem ι :=
  if userId ≤ 0 ∨ planId ≤ 0 then
    s.goTo a.caller (.done (.error "invalid userId or planId"))
  else
    match cfg.getSubscriptionPlanById planId with
    | .error e => s.abort a.caller e
    | .ok plan =>
      if plan.enabled = false then s.abort a.caller "套餐未启用"
      else if plan.priceAmount < 0 then s.abort a.caller "套餐价格不能为负数"
      else
        match calcSubscriptionBalanceQuota cfg plan.priceAmount, a.fault with
        | .error e, _ => s.abort a.caller e
        | .ok _, some e => s.abort a.caller e
        | .ok requiredQuota, none =>
          match s.users.view a.caller userId with
          | none => s.abort a.caller "record not found"
          | some user =>
            if 0 < requiredQuota ∧ user.quota < requiredQuota then
              s.abort a.caller "余额不足"
            else
              s.goTo a.caller
                (.paying ⟨userId, plan, paymentMethodBalance, none, requiredQuota⟩)

/-- The count and the checks with which `CreateUserSubscriptionFromPlanTx` begins. -/
def countPurchases (buying : Buying) (s : OrderSystem ι) (a : SubOrderAction ι) : OrderSystem ι :=
  let plan := buying.plan
  if plan.id = 0 then s.abort a.caller "invalid plan"
  else if buying.userId ≤ 0 then s.abort a.caller "invalid user id"
  else if 0 < plan.maxPurchasePerUser ∧ a.fault ≠ none then
    s.abort a.caller (a.fault.getD "")
  else if 0 < plan.maxPurchasePerUser ∧
      plan.maxPurchasePerUser ≤ countSubscriptions buying.userId plan.id s then
    s.abort a.caller "已达到该套餐购买上限"
  else
    match calcPlanEndTime cfg.location a.now plan.toSubscriptionPlan with
    | .error e => s.abort a.caller e
    | .ok endUnix => s.goTo a.caller (.grouping buying endUnix a.now)

/-- The subscription a call is about to insert. -/
def Buying.sub (buying : Buying) (endUnix now : ℤ) (prevGroup : String) : UserSubscription :=
  newUserSubscription cfg.location now buying.userId buying.plan.toSubscriptionPlan buying.source
    endUnix prevGroup

/-- The read of the user's group. -/
def readGroup (buying : Buying) (endUnix now : ℤ) (s : OrderSystem ι) (a : SubOrderAction ι) :
    OrderSystem ι :=
  let upgradeGroup := trimSpace buying.plan.upgradeGroup
  if upgradeGroup = "" then s.goTo a.caller (.inserting buying (buying.sub cfg endUnix now ""))
  else
    match a.fault with
    | some e => s.abort a.caller e
    | none =>
      let currentGroup := ((s.users.view a.caller buying.userId).map (·.group)).getD ""
      if currentGroup = upgradeGroup then
        s.goTo a.caller (.inserting buying (buying.sub cfg endUnix now ""))
      else s.goTo a.caller (.upgrading buying endUnix now currentGroup)

/-- The write of the user's group.  Nothing is written for a user that is not there. -/
def writeGroup (buying : Buying) (endUnix now : ℤ) (prevGroup : String) (s : OrderSystem ι)
    (a : SubOrderAction ι) : OrderSystem ι :=
  let next := OrderState.inserting buying (buying.sub cfg endUnix now prevGroup)
  match a.fault with
  | some e => s.abort a.caller e
  | none =>
    if s.users.view a.caller buying.userId = none then s.goTo a.caller next
    else if s.users.Free a.caller buying.userId then
      s.changeUser a.caller buying.userId
        (fun user => { user with group := trimSpace buying.plan.upgradeGroup }) next
    else s

/-- What follows the insertion of the subscription: the caller's part of the transaction. -/
def Buying.afterInsert (buying : Buying) (sub : UserSubscription) : OrderState :=
  match buying.order with
  | some order => .finding buying order sub
  | none => .ordering buying sub

/-- The write of the top-up.  A second row of one trade number is refused. -/
def recordTopUp (tradeNo providerPayload actualPaymentMethod : String) (order : SubscriptionOrder)
    (sub : UserSubscription) (topUp : Option OrderTopUp) (s : OrderSystem ι) (a : SubOrderAction ι) :
    OrderSystem ι :=
  match upsertTopUp order a.now topUp, a.fault with
  | .error e, _ => s.abort a.caller e
  | .ok _, some e => s.abort a.caller e
  | .ok written, none =>
    if ¬ s.topUps.Free a.caller tradeNo then s
    else if topUp = none ∧ s.topUps.view a.caller tradeNo ≠ none then
      s.abort a.caller "duplicate key"
    else
      s.saveTopUp a.caller tradeNo written
        (.saving (order.complete a.now providerPayload actualPaymentMethod) (some sub))

/-- The order a purchase inserts. -/
def Buying.paidOrder (buying : Buying) (now : ℤ) : SubscriptionOrder where
  userId := buying.userId
  planId := buying.plan.id
  money := buying.plan.priceAmount
  paymentMethod := paymentMethodBalance
  paymentProvider := paymentProviderBalance
  status := topUpStatusSuccess
  createTime := now
  completeTime := now
  providerPayload := "charged_quota=" ++ toString buying.requiredQuota

/-- The next statement of a call.  A write waits while another transaction has the row. -/
def subOrderStep (s : OrderSystem ι) (a : SubOrderAction ι) : OrderSystem ι :=
  let i := a.caller
  let tradeNo := (calls i).tradeNo
  match s.state i with
  | .start =>
    match calls i with
    | .complete tradeNo _ provider _ => completeSelect cfg tradeNo provider s a
    | .expire tradeNo provider => expireSelect tradeNo provider s a
    | .purchase userId planId _ => purchaseSelect cfg userId planId s a
  | .paying buying =>
    if buying.requiredQuota ≤ 0 then s.goTo i (.counting buying)
    else
      match a.fault with
      | some e => s.abort i e
      | none =>
        if s.users.Free i buying.userId then
          s.changeUser i buying.userId
            (fun user => { user with quota := user.quota - buying.requiredQuota })
            (.counting buying)
        else s
  | .counting buying => countPurchases cfg buying s a
  | .grouping buying endUnix now => readGroup cfg buying endUnix now s a
  | .upgrading buying endUnix now prevGroup => writeGroup cfg buying endUnix now prevGroup s a
  | .inserting buying sub =>
    match a.fault with
    | some e => s.abort i e
    | none => s.goTo i (buying.afterInsert sub)
  | .finding _ order sub =>
    match a.fault with
    | some e => s.abort i e
    | none => s.goTo i (.recording order sub (s.topUps.view i tradeNo))
  | .recording order sub topUp =>
    match calls i with
    | .complete tradeNo payload _ method => recordTopUp tradeNo payload method order sub topUp s a
    | _ => s
  | .ordering buying sub =>
    match a.fault with
    | some e => s.abort i e
    | none =>
      if ¬ s.orders.Free i tradeNo then s
      else if s.orders.view i tradeNo ≠ none then s.abort i "duplicate key"
      else s.saveOrder i tradeNo (buying.paidOrder a.now) (some sub)
  | .saving order sub =>
    match a.fault with
    | some e => s.abort i e
    | none => if s.orders.Free i tradeNo then s.saveOrder i tradeNo order sub else s
  | .saved _ sub =>
    match a.fault with
    | some e => s.abort i e
    | none => s.commit i sub
  | .done _ => s

/-- The tables before any call. -/
def OrderSystem.init (orders : String → Option SubscriptionOrder)
    (topUps : String → Option OrderTopUp) (users : ℤ → Option OrderUser)
    (subs : List UserSubscription) : OrderSystem ι where
  orders := .ofRows orders
  topUps := .ofRows topUps
  users := .ofRows users
  subs := subs.map fun sub => (none, sub)
  state _ := .start

end Step

/-! ### One statement -/

/-- What a call creates a subscription for is what it was asked to. -/
def Buying.For (cfg : OrderConfig) (buying : Buying) : OrderCall → Prop
  | .complete _ _ _ _ => cfg.plans buying.plan.id = some buying.plan ∧ buying.source = "order" ∧
      ∃ order, buying.order = some order
  | .expire _ _ => False
  | .purchase userId planId _ => cfg.plans planId = some buying.plan ∧ buying.userId = userId ∧
      calcSubscriptionBalanceQuota cfg buying.plan.priceAmount = .ok buying.requiredQuota ∧
      buying.source = paymentMethodBalance ∧ buying.order = none

/-- A call that has come to its end. -/
def OrderState.isDone : OrderState → Bool
  | .done _ => true
  | _ => false

section Move

variable {ι : Type*} [DecidableEq ι] {cfg : OrderConfig} {calls : ι → OrderCall}
  {s : OrderSystem ι}

/-- What one statement can do. -/
inductive OrderMove (cfg : OrderConfig) (calls : ι → OrderCall) (s : OrderSystem ι)
    (a : SubOrderAction ι) : OrderSystem ι → Prop
  | stay : OrderMove cfg calls s a s
  | abort (err : String) (hopen : (s.state a.caller).isDone = false) :
      OrderMove cfg calls s a (s.abort a.caller err)
  | refuse (result : Except String Unit) (hstate : s.state a.caller = .start) :
      OrderMove cfg calls s a (s.goTo a.caller (.done result))
  | complete (buying : Buying) (hstate : s.state a.caller = .start)
      (hfor : buying.For cfg (calls a.caller))
      (hcall : (calls a.caller).isPurchase = false) :
      OrderMove cfg calls s a (s.goTo a.caller (.counting buying))
  | expire (order : SubscriptionOrder) (hstate : s.state a.caller = .start)
      (hcall : ∃ tradeNo provider, calls a.caller = .expire tradeNo provider) :
      OrderMove cfg calls s a (s.goTo a.caller (.saving (order.expire a.now) none))
  | purchase (buying : Buying) (hstate : s.state a.caller = .start)
      (hfor : buying.For cfg (calls a.caller))
      (hcall : (calls a.caller).isPurchase = true) :
      OrderMove cfg calls s a (s.goTo a.caller (.paying buying))
  | free (buying : Buying) (hstate : s.state a.caller = .paying buying)
      (hquota : buying.requiredQuota ≤ 0) :
      OrderMove cfg calls s a (s.goTo a.caller (.counting buying))
  | pay (buying : Buying) (hstate : s.state a.caller = .paying buying)
      (hquota : 0 < buying.requiredQuota) (hfree : s.users.Free a.caller buying.userId) :
      OrderMove cfg calls s a (s.changeUser a.caller buying.userId
        (fun user => { user with quota := user.quota - buying.requiredQuota })
        (.counting buying))
  | count (buying : Buying) (endUnix : ℤ) (hstate : s.state a.caller = .counting buying) :
      OrderMove cfg calls s a (s.goTo a.caller (.grouping buying endUnix a.now))
  | readGroup (buying : Buying) (endUnix now : ℤ) (prevGroup : String)
      (hstate : s.state a.caller = .grouping buying endUnix now) :
      OrderMove cfg calls s a (s.goTo a.caller (.upgrading buying endUnix now prevGroup))
  | keepGroup (buying : Buying) (endUnix now : ℤ) (prevGroup : String)
      (hstate : s.state a.caller = .grouping buying endUnix now ∨
        s.state a.caller = .upgrading buying endUnix now prevGroup) :
      OrderMove cfg calls s a
        (s.goTo a.caller (.inserting buying (buying.sub cfg endUnix now prevGroup)))
  | writeGroup (buying : Buying) (endUnix now : ℤ) (prevGroup : String)
      (hstate : s.state a.caller = .upgrading buying endUnix now prevGroup)
      (hfree : s.users.Free a.caller buying.userId)
      (huser : s.users.view a.caller buying.userId ≠ none) :
      OrderMove cfg calls s a (s.changeUser a.caller buying.userId
        (fun user => { user with group := trimSpace buying.plan.upgradeGroup })
        (.inserting buying (buying.sub cfg endUnix now prevGroup)))
  | insert (buying : Buying) (sub : UserSubscription)
      (hstate : s.state a.caller = .inserting buying sub) :
      OrderMove cfg calls s a (s.goTo a.caller (buying.afterInsert sub))
  | find (buying : Buying) (order : SubscriptionOrder) (sub : UserSubscription)
      (topUp : Option OrderTopUp) (hstate : s.state a.caller = .finding buying order sub) :
      OrderMove cfg calls s a (s.goTo a.caller (.recording order sub topUp))
  | record (order : SubscriptionOrder) (sub : UserSubscription) (topUp : Option OrderTopUp)
      (tradeNo payload method : String) (written : OrderTopUp)
      (hstate : s.state a.caller = .recording order sub topUp) :
      OrderMove cfg calls s a (s.saveTopUp a.caller tradeNo written
        (.saving (order.complete a.now payload method) (some sub)))
  | order (buying : Buying) (sub : UserSubscription)
      (hstate : s.state a.caller = .ordering buying sub)
      (hfree : s.orders.Free a.caller (calls a.caller).tradeNo)
      (hview : s.orders.view a.caller (calls a.caller).tradeNo = none) :
      OrderMove cfg calls s a (s.saveOrder a.caller (calls a.caller).tradeNo
        (buying.paidOrder a.now) (some sub))
  | save (order : SubscriptionOrder) (sub : Option UserSubscription)
      (hstate : s.state a.caller = .saving order sub)
      (hfree : s.orders.Free a.caller (calls a.caller).tradeNo) :
      OrderMove cfg calls s a (s.saveOrder a.caller (calls a.caller).tradeNo order sub)
  | commit (order : SubscriptionOrder) (sub : Option UserSubscription)
      (hstate : s.state a.caller = .saved order sub) (hfault : a.fault = none) :
      OrderMove cfg calls s a (s.commit a.caller sub)

theorem plan_of_getSubscriptionPlanById {id : ℤ} {plan : PricedPlan}
    (h : cfg.getSubscriptionPlanById id = .ok plan) : cfg.plans id = some plan := by
  unfold OrderConfig.getSubscriptionPlanById at h
  split at h
  · cases h
  · split at h
    · cases h
    · rename_i plan' hplan
      cases h
      exact hplan

variable {a : SubOrderAction ι} {tradeNo : String} {buying : Buying}

theorem completeSelect_move {payload provider method : String} (hstate : s.state a.caller = .start)
    (hcall : calls a.caller = .complete tradeNo payload provider method) :
    OrderMove cfg calls s a (completeSelect cfg tradeNo provider s a) := by
  simp only [completeSelect]
  split
  · exact .refuse _ hstate
  · split
    · exact .abort _ (by rw [hstate]; rfl)
    · split
      · exact .abort _ (by rw [hstate]; rfl)
      · rename_i order hview
        split
        · exact .abort _ (by rw [hstate]; rfl)
        · split
          · exact .refuse _ hstate
          · split
            · exact .abort _ (by rw [hstate]; rfl)
            · split
              · exact .abort _ (by rw [hstate]; rfl)
              · rename_i plan hplan
                have hplan : cfg.plans order.planId = some plan :=
                  plan_of_getSubscriptionPlanById hplan
                have hid : plan.id = order.planId := cfg.plan_id _ _ hplan
                refine .complete _ hstate ?_ ?_
                · rw [hcall]
                  exact ⟨hid.symm ▸ hplan, rfl, order, rfl⟩
                · rw [hcall]
                  rfl

theorem expireSelect_move {provider : String} (hstate : s.state a.caller = .start)
    (hcall : calls a.caller = .expire tradeNo provider) :
    OrderMove cfg calls s a (expireSelect tradeNo provider s a) := by
  simp only [expireSelect]
  split
  · exact .refuse _ hstate
  · split
    · exact .abort _ (by rw [hstate]; rfl)
    · split
      · exact .abort _ (by rw [hstate]; rfl)
      · rename_i order hview
        split
        · exact .abort _ (by rw [hstate]; rfl)
        · split
          · exact .refuse _ hstate
          · exact .expire order hstate ⟨tradeNo, provider, hcall⟩

theorem purchaseSelect_move {userId planId : ℤ} (hstate : s.state a.caller = .start)
    (hcall : calls a.caller = .purchase userId planId tradeNo) :
    OrderMove cfg calls s a (purchaseSelect cfg userId planId s a) := by
  simp only [purchaseSelect]
  split
  · exact .refuse _ hstate
  · split
    · exact .abort _ (by rw [hstate]; rfl)
    · rename_i plan hplan
      split
      · exact .abort _ (by rw [hstate]; rfl)
      · split
        · exact .abort _ (by rw [hstate]; rfl)
        · split
          · exact .abort _ (by rw [hstate]; rfl)
          · exact .abort _ (by rw [hstate]; rfl)
          · rename_i requiredQuota hquota _
            split
            · exact .abort _ (by rw [hstate]; rfl)
            · split
              · exact .abort _ (by rw [hstate]; rfl)
              · refine .purchase _ hstate ?_ ?_
                · rw [hcall]
                  exact ⟨plan_of_getSubscriptionPlanById hplan, rfl, hquota, rfl, rfl⟩
                · rw [hcall]
                  rfl

theorem countPurchases_move (hstate : s.state a.caller = .counting buying) :
    OrderMove cfg calls s a (countPurchases cfg buying s a) := by
  simp only [countPurchases]
  split
  · exact .abort _ (by rw [hstate]; rfl)
  · split
    · exact .abort _ (by rw [hstate]; rfl)
    · split
      · exact .abort _ (by rw [hstate]; rfl)
      · split
        · exact .abort _ (by rw [hstate]; rfl)
        · split
          · exact .abort _ (by rw [hstate]; rfl)
          · exact .count buying _ hstate

theorem readGroup_move {endUnix now : ℤ} (hstate : s.state a.caller = .grouping buying endUnix now) :
    OrderMove cfg calls s a (readGroup cfg buying endUnix now s a) := by
  simp only [readGroup]
  split
  · exact .keepGroup buying endUnix now "" (.inl hstate)
  · split
    · exact .abort _ (by rw [hstate]; rfl)
    · split
      · exact .keepGroup buying endUnix now "" (.inl hstate)
      · exact .readGroup buying endUnix now _ hstate

theorem writeGroup_move {endUnix now : ℤ} {prevGroup : String}
    (hstate : s.state a.caller = .upgrading buying endUnix now prevGroup) :
    OrderMove cfg calls s a (writeGroup cfg buying endUnix now prevGroup s a) := by
  simp only [writeGroup]
  split
  · exact .abort _ (by rw [hstate]; rfl)
  · split
    · exact .keepGroup buying endUnix now prevGroup (.inr hstate)
    · rename_i huser
      split
      · rename_i hfree
        exact .writeGroup buying endUnix now prevGroup hstate hfree huser
      · exact .stay

theorem recordTopUp_move {order : SubscriptionOrder} {sub : UserSubscription}
    {topUp : Option OrderTopUp} (tradeNo payload method : String)
    (hstate : s.state a.caller = .recording order sub topUp) :
    OrderMove cfg calls s a (recordTopUp tradeNo payload method order sub topUp s a) := by
  simp only [recordTopUp]
  split
  · exact .abort _ (by rw [hstate]; rfl)
  · exact .abort _ (by rw [hstate]; rfl)
  · split
    · exact .stay
    · split
      · exact .abort _ (by rw [hstate]; rfl)
      · exact .record order sub topUp tradeNo payload method _ hstate

/-- **One statement of a call does one of these things.** -/
theorem orderStep_move (a : SubOrderAction ι) :
    OrderMove cfg calls s a (subOrderStep cfg calls s a) := by
  simp only [subOrderStep]
  cases hstate : s.state a.caller with
  | start =>
    cases hcall : calls a.caller with
    | complete tradeNo payload provider method => exact completeSelect_move hstate hcall
    | expire tradeNo provider => exact expireSelect_move hstate hcall
    | purchase userId planId tradeNo => exact purchaseSelect_move hstate hcall
  | paying buying =>
    simp only
    split
    · rename_i hquota
      exact .free buying hstate hquota
    · rename_i hquota
      cases a.fault with
      | some e => exact .abort e (by rw [hstate]; rfl)
      | none =>
        simp only
        split
        · rename_i hfree
          exact .pay buying hstate (not_le.1 hquota) hfree
        · exact .stay
  | counting buying => exact countPurchases_move hstate
  | grouping buying endUnix now => exact readGroup_move hstate
  | upgrading buying endUnix now prevGroup => exact writeGroup_move hstate
  | inserting buying sub =>
    cases a.fault with
    | some e => exact .abort e (by rw [hstate]; rfl)
    | none => exact .insert buying sub hstate
  | finding buying order sub =>
    cases a.fault with
    | some e => exact .abort e (by rw [hstate]; rfl)
    | none => exact .find buying order sub _ hstate
  | recording order sub topUp =>
    cases calls a.caller with
    | complete tradeNo payload provider method =>
      exact recordTopUp_move tradeNo payload method hstate
    | expire tradeNo provider => exact .stay
    | purchase userId planId tradeNo => exact .stay
  | ordering buying sub =>
    cases a.fault with
    | some e => exact .abort e (by rw [hstate]; rfl)
    | none =>
      simp only
      split
      · exact .stay
      · rename_i hfree
        split
        · exact .abort _ (by rw [hstate]; rfl)
        · rename_i hview
          exact .order buying sub hstate (not_not.1 hfree) (not_not.1 hview)
  | saving order sub =>
    cases a.fault with
    | some e => exact .abort e (by rw [hstate]; rfl)
    | none =>
      simp only
      split
      · rename_i hfree
        exact .save order sub hstate hfree
      · exact .stay
  | saved order sub =>
    cases hfault : a.fault with
    | some e => exact .abort e (by rw [hstate]; rfl)
    | none => exact .commit order sub hstate hfault
  | done result => exact .stay

/-! ### What a call has at hand -/

/-- The subscription goes to the buyer, is one to the plan and tells how it was bought. -/
def Buying.Made (buying : Buying) (sub : UserSubscription) : Prop :=
  sub.userId = buying.userId ∧ sub.planId = buying.plan.id ∧ sub.source = buying.source

theorem Buying.made_sub (buying : Buying) (endUnix now : ℤ) (prevGroup : String) :
    buying.Made (buying.sub cfg endUnix now prevGroup) := ⟨rfl, rfl, rfl⟩

/-- The order a call is about to write or has written, and the subscription it has inserted. -/
def Written (cfg : OrderConfig) (call : OrderCall) (order : SubscriptionOrder) :
    Option UserSubscription → Prop
  | some sub => order.status = topUpStatusSuccess ∧
      ∃ buying : Buying, buying.For cfg call ∧ buying.Made sub
  | none => order.status = topUpStatusExpired ∧ ∃ tradeNo provider, call = .expire tradeNo provider

/-- The state of a call goes with what it was asked to do. -/
def OrderState.For (cfg : OrderConfig) (call : OrderCall) : OrderState → Prop
  | .start => True
  | .paying buying => buying.For cfg call ∧ call.isPurchase = true
  | .counting buying => buying.For cfg call
  | .grouping buying _ _ => buying.For cfg call
  | .upgrading buying _ _ _ => buying.For cfg call
  | .inserting buying sub => buying.For cfg call ∧ buying.Made sub
  | .finding buying order sub => buying.For cfg call ∧ buying.Made sub ∧ buying.order = some order
  | .recording order sub _ =>
    ∃ buying : Buying, buying.For cfg call ∧ buying.Made sub ∧ buying.order = some order
  | .ordering buying sub => buying.For cfg call ∧ buying.Made sub
  | .saving order sub => Written cfg call order sub ∧ call.isPurchase = false
  | .saved order sub => Written cfg call order sub
  | .done _ => True

theorem Buying.For.isPurchase_of_order {call : OrderCall} {order : SubscriptionOrder}
    (h : buying.For cfg call) (horder : buying.order = some order) :
    call.isPurchase = false := by
  cases call with
  | complete tradeNo payload provider method => rfl
  | expire tradeNo provider => rfl
  | purchase userId planId tradeNo =>
    obtain ⟨-, -, -, -, hnone⟩ := h
    rw [hnone] at horder
    cases horder

theorem Buying.For.afterInsert {call : OrderCall} {sub : UserSubscription}
    (h : buying.For cfg call) (hmade : buying.Made sub) :
    (buying.afterInsert sub).For cfg call := by
  unfold Buying.afterInsert
  cases horder : buying.order with
  | some order => exact ⟨h, hmade, horder⟩
  | none => exact ⟨h, hmade⟩

/-- Every call is in a state that goes with what it was asked to do. -/
def Formed (cfg : OrderConfig) (calls : ι → OrderCall) (s : OrderSystem ι) : Prop :=
  ∀ i, (s.state i).For cfg (calls i)

theorem Formed.of_update {s' : OrderSystem ι} {i : ι} {state : OrderState}
    (h : Formed cfg calls s) (hstate : s'.state = Function.update s.state i state)
    (hfor : state.For cfg (calls i)) : Formed cfg calls s' := by
  intro j
  rw [hstate]
  by_cases hj : j = i
  · subst hj
    rwa [Function.update_self]
  · rw [Function.update_of_ne hj]
    exact h j

theorem Formed.move {s' : OrderSystem ι} (h : Formed cfg calls s)
    (hmove : OrderMove cfg calls s a s') : Formed cfg calls s' := by
  have hi : (s.state a.caller).For cfg (calls a.caller) := h a.caller
  cases hmove with
  | stay => exact h
  | abort err hopen => exact h.of_update rfl trivial
  | refuse result hstate => exact h.of_update rfl trivial
  | complete buying hstate hfor hcall => exact h.of_update rfl hfor
  | expire order hstate hcall =>
    obtain ⟨tradeNo, provider, hcall⟩ := hcall
    refine h.of_update rfl ⟨⟨rfl, tradeNo, provider, hcall⟩, ?_⟩
    rw [hcall]
    rfl
  | purchase buying hstate hfor hcall => exact h.of_update rfl ⟨hfor, hcall⟩
  | free buying hstate hquota =>
    rw [hstate] at hi
    exact h.of_update rfl hi.1
  | pay buying hstate hquota hfree =>
    rw [hstate] at hi
    exact h.of_update rfl hi.1
  | count buying endUnix hstate =>
    rw [hstate] at hi
    exact h.of_update rfl hi
  | readGroup buying endUnix now prevGroup hstate =>
    rw [hstate] at hi
    exact h.of_update rfl hi
  | keepGroup buying endUnix now prevGroup hstate =>
    have hfor : buying.For cfg (calls a.caller) := by
      rcases hstate with hstate | hstate
      all_goals
        rw [hstate] at hi
        exact hi
    exact h.of_update rfl ⟨hfor, buying.made_sub endUnix now prevGroup⟩
  | writeGroup buying endUnix now prevGroup hstate hfree huser =>
    rw [hstate] at hi
    exact h.of_update rfl ⟨hi, buying.made_sub endUnix now prevGroup⟩
  | insert buying sub hstate =>
    rw [hstate] at hi
    exact h.of_update rfl (hi.1.afterInsert hi.2)
  | find buying order sub topUp hstate =>
    rw [hstate] at hi
    exact h.of_update rfl ⟨buying, hi⟩
  | record order sub topUp tradeNo payload method written hstate =>
    rw [hstate] at hi
    obtain ⟨buying, hfor, hmade, horder⟩ := hi
    exact h.of_update rfl ⟨⟨rfl, buying, hfor, hmade⟩, hfor.isPurchase_of_order horder⟩
  | order buying sub hstate hfree hview =>
    rw [hstate] at hi
    exact h.of_update rfl ⟨rfl, buying, hi.1, hi.2⟩
  | save order sub hstate hfree =>
    rw [hstate] at hi
    exact h.of_update rfl hi.1
  | commit order sub hstate hfault => exact h.of_update rfl trivial

end Move

end NewApi

/-
**Top-up orders and the calls that complete them.**

A user buys quota: an order is written with status `pending`, a payment gateway reports the
payment, and the report completes the order and adds the quota to the user.  Each of the five
gateways has its own callback, and an administrator can complete an order by hand.  Five of these
six calls read the order, check it, write its status and add the quota in one transaction
(`completeOrder`); `epayNotify` does the same with two writes of its own.
`updatePendingTopUpStatus` ends an order without a payment.

The amount of an order is a 64-bit integer and its money a double, as the program has them.  Two
things are not the program's own and are parameters: the decimal number that the decimal library
reads off a double, and what the database stores when a double is added to the quota column.

Main definitions:

* `NewApi.TopUp`, `NewApi.TopUpStore` — an order; the orders, the users and the credits so far;
* `NewApi.TopUpConfig` — the parameters;
* `NewApi.CompletionPath`, `NewApi.completeOrder` — what the transactional calls have in common;
* `NewApi.recharge`, `NewApi.rechargeCreem`, `NewApi.rechargeWaffo`,
  `NewApi.rechargeWaffoPancake`, `NewApi.manualCompleteTopUp` — these calls;
* `NewApi.epayNotify`, `NewApi.updatePendingTopUpStatus` — the other two.

Main results:

* `NewApi.completeOrder_of_ready`, `NewApi.completeOrder_of_not_ready` — **a transactional call
  does all or nothing, and what decides which**;
* `NewApi.epayNotify_of_ready`, `NewApi.epayNotify_of_not_ready` — the same of `epayNotify`.
-/

import NewApi.Lib.Rows
import NewApi.Common

set_option autoImplicit false

namespace NewApi

/-! ### Orders and users -/

def topUpStatusPending : String := "pending"

def topUpStatusSuccess : String := "success"

def topUpStatusFailed : String := "failed"

def topUpStatusExpired : String := "expired"

def paymentProviderEpay : String := "epay"

def paymentProviderStripe : String := "stripe"

def paymentProviderCreem : String := "creem"

def paymentProviderWaffo : String := "waffo"

def paymentProviderWaffoPancake : String := "waffo_pancake"

/-- A top-up order.  Its trade number is unique, so the row a call reads is the row it writes. -/
structure TopUp where
  tradeNo : String
  userId : ℤ
  amount : Int64
  money : Float
  paymentMethod : String
  paymentProvider : String
  completeTime : ℤ
  status : String
deriving DecidableEq, Repr

/-- The columns of a user that completing an order reads or writes.  The quota is an integer
except where the database has stored the sum of an integer and a double as it is. -/
structure TopUpUser where
  id : ℤ
  quota : ℚ
  email : String
  stripeCustomer : String
deriving DecidableEq, Repr

/-- A credit: the order it was made for, the user it went to and what it added. -/
structure Credit where
  tradeNo : String
  userId : ℤ
  amount : ℚ
deriving DecidableEq, Repr

/-- The orders and the users that are not deleted.  The program does not keep `credits`, the
statements that added the quota of an order to a user, in the order they took effect. -/
structure TopUpStore where
  topUps : List TopUp
  users : List TopUpUser
  credits : List Credit
deriving DecidableEq, Repr

namespace TopUpStore

def order (s : TopUpStore) (tradeNo : String) : Option TopUp :=
  Rows.first (·.tradeNo) tradeNo s.topUps

def user (s : TopUpStore) (id : ℤ) : Option TopUpUser := Rows.first (·.id) id s.users

/-- The status of an order. -/
def status (s : TopUpStore) (tradeNo : String) : Option String := (s.order tradeNo).map (·.status)

/-- The quota of a user. -/
def quota (s : TopUpStore) (id : ℤ) : Option ℚ := (s.user id).map (·.quota)

/-- Whether the quota of an order has been added to its user. -/
def Credited (s : TopUpStore) (tradeNo : String) : Prop := tradeNo ∈ s.credits.map (·.tradeNo)

instance (s : TopUpStore) (tradeNo : String) : Decidable (s.Credited tradeNo) := by
  unfold Credited
  infer_instance

def saveTopUp (topUp : TopUp) (s : TopUpStore) : TopUpStore :=
  { s with topUps := Rows.save (·.tradeNo) topUp s.topUps }

@[simp] theorem order_saveTopUp (topUp : TopUp) (s : TopUpStore) :
    (s.saveTopUp topUp).order topUp.tradeNo = some topUp := Rows.first_save_self topUp s.topUps

theorem order_saveTopUp_of_ne {topUp : TopUp} {t : String} (s : TopUpStore)
    (h : topUp.tradeNo ≠ t) : (s.saveTopUp topUp).order t = s.order t :=
  Rows.first_save_of_ne h

@[simp] theorem user_saveTopUp (topUp : TopUp) (s : TopUpStore) (id : ℤ) :
    (s.saveTopUp topUp).user id = s.user id := rfl

@[simp] theorem quota_saveTopUp (topUp : TopUp) (s : TopUpStore) (id : ℤ) :
    (s.saveTopUp topUp).quota id = s.quota id := rfl

@[simp] theorem credits_saveTopUp (topUp : TopUp) (s : TopUpStore) :
    (s.saveTopUp topUp).credits = s.credits := rfl

/-- The row of a user is written with the quota of an order added. -/
def credit (user : TopUpUser) (c : Credit) (s : TopUpStore) : TopUpStore :=
  { s with users := Rows.save (·.id) user s.users, credits := s.credits ++ [c] }

@[simp] theorem user_credit (user : TopUpUser) (c : Credit) (s : TopUpStore) :
    (s.credit user c).user user.id = some user := Rows.first_save_self user s.users

theorem user_credit_of_ne {user : TopUpUser} {id : ℤ} (c : Credit) (s : TopUpStore)
    (h : user.id ≠ id) : (s.credit user c).user id = s.user id :=
  Rows.first_save_of_ne h

theorem tradeNo_of_order {s : TopUpStore} {t : String} {o : TopUp} (h : s.order t = some o) :
    o.tradeNo = t := by
  unfold order at h
  exact Rows.key_of_first h

theorem id_of_user {s : TopUpStore} {id : ℤ} {u : TopUpUser} (h : s.user id = some u) :
    u.id = id := by
  unfold user at h
  exact Rows.key_of_first h

end TopUpStore

/-! ### Amounts of quota -/

/-- What one unit of an amount is worth, the decimal library and the database.

`newFromFloat` is the decimal number the library reads off a double; all the program relies on is
that a positive double gives a positive number.  `addDouble q x` is what the quota column holds
after `quota + x` has been written to a column that held `q`, or the error of that statement:
databases round the sum to an integer or store it as it is. -/
structure TopUpConfig where
  quotaPerUnit : Float
  newFromFloat : Float → ℚ
  addDouble : ℚ → Float → Except String ℚ
  newFromFloat_pos : ∀ x : Float, 0 < x → 0 < newFromFloat x

/-- The integer part of a decimal, as the library returns it: cut off after the point, and of the
integer the 64 low bits. -/
def intPart (d : ℚ) : ℤ := wrap64 (d.num.tdiv d.den)

/-- What an order adds to a quota: an integer, or a double. -/
inductive Increment where
  | int (n : ℤ)
  | double (x : Float)
deriving DecidableEq, Repr

/-- The quota column after an increment. -/
def TopUpConfig.add (cfg : TopUpConfig) (quota : ℚ) : Increment → Except String ℚ
  | .int n => .ok (quota + n)
  | .double x => cfg.addDouble quota x

/-- The amount of an order in units of quota, computed in decimals. -/
def TopUpConfig.amountQuota (cfg : TopUpConfig) (topUp : TopUp) : ℤ :=
  intPart (topUp.amount.toInt * cfg.newFromFloat cfg.quotaPerUnit)

/-- The money of an order in units of quota, computed in decimals. -/
def TopUpConfig.moneyQuota (cfg : TopUpConfig) (topUp : TopUp) : ℤ :=
  intPart (cfg.newFromFloat topUp.money * cfg.newFromFloat cfg.quotaPerUnit)

/-! ### Transactions -/

/-- The statements of one call that may fail. -/
structure TopUpFaults where
  start : Fault := none
  read : Fault := none
  save : Fault := none
  readUser : Fault := none
  credit : Fault := none
  commit : Fault := none
deriving DecidableEq, Repr

/-- A transaction: an error, also one of the statements that open and close it, leaves the tables
as they were. -/
def inTransaction {σ : Type*} (start commit : Fault) (body : σ → Except String σ) (s : σ) :
    Except String Unit × σ :=
  match guardFault start (body s) with
  | .error e => (.error e, s)
  | .ok s' =>
    match commit with
    | some e => (.error e, s)
    | none => (.ok (), s')

theorem inTransaction_of_ok {σ : Type*} {body : σ → Except String σ} {s s' : σ}
    (h : body s = .ok s') : inTransaction none none body s = (.ok (), s') := by
  simp [inTransaction, h]

/-- A transaction changes the tables only if nothing failed. -/
theorem inTransaction_cases {σ : Type*} (start commit : Fault) (body : σ → Except String σ)
    (s : σ) : (inTransaction start commit body s).2 = s ∨
      (start = none ∧ commit = none ∧ body s = .ok (inTransaction start commit body s).2) := by
  unfold inTransaction
  cases start with
  | some e => exact Or.inl rfl
  | none =>
    rw [guardFault_none]
    cases hb : body s with
    | error e => exact Or.inl rfl
    | ok s' =>
      cases commit with
      | some e => exact Or.inl rfl
      | none => exact Or.inr ⟨rfl, rfl, rfl⟩

/-! ### Completing an order in a transaction -/

def errPaymentMethodMismatch : String := "payment method mismatch"

def errTopUpNotFound : String := "topup not found"

def errTopUpStatusInvalid : String := "topup status invalid"

/-- In what the transactional calls differ. -/
structure CompletionPath where
  /-- The error for an empty trade number. -/
  emptyText : String
  /-- The provider the order must have, if that is checked. -/
  provider : Option String
  /-- Whether completing a completed order is no error. -/
  idempotent : Bool
  /-- The error for an order that is not pending. -/
  statusText : String
  /-- What the order adds to the quota. -/
  increment : TopUp → Increment
  /-- Whether an order with nothing to add is refused. -/
  refuses : TopUp → Bool
  /-- Whether the user is read before the quota is added. -/
  readsUser : Bool
  /-- What is written to the user besides the quota. -/
  touch : TopUpUser → TopUpUser
  /-- The error that replaces every error of the transaction, if there is one. -/
  failText : Option String

/-- The order as the calls that keep the time write it. -/
def TopUp.complete (now : ℤ) (topUp : TopUp) : TopUp :=
  { topUp with completeTime := now, status := topUpStatusSuccess }

@[simp] theorem TopUp.complete_tradeNo (topUp : TopUp) (now : ℤ) :
    (topUp.complete now).tradeNo = topUp.tradeNo := rfl

@[simp] theorem TopUp.complete_status (topUp : TopUp) (now : ℤ) :
    (topUp.complete now).status = topUpStatusSuccess := rfl

/-- Add to the quota of the order's user.  An update that finds no row is no error. -/
def creditUser (cfg : TopUpConfig) (increment : Increment) (touch : TopUpUser → TopUpUser)
    (topUp : TopUp) (s : TopUpStore) : Except String TopUpStore :=
  match s.user topUp.userId with
  | none => .ok s
  | some user => do
      let quota ← cfg.add user.quota increment
      .ok (s.credit { touch user with id := user.id, quota := quota }
        ⟨topUp.tradeNo, topUp.userId, quota - user.quota⟩)

/-- The error of reading the user, for the calls that do. -/
def CompletionPath.userFault (p : CompletionPath) (faults : TopUpFaults) (topUp : TopUp)
    (s : TopUpStore) : Fault :=
  if p.readsUser then
    match faults.readUser, s.user topUp.userId with
    | some e, _ => some e
    | none, none => some "record not found"
    | none, some _ => none
  else none

/-- The transaction of a completing call. -/
def CompletionPath.body (cfg : TopUpConfig) (p : CompletionPath) (faults : TopUpFaults) (now : ℤ)
    (tradeNo : String) (s : TopUpStore) : Except String TopUpStore :=
  match guardFault faults.read (.ok (s.order tradeNo)) with
  | .error _ => .error "充值订单不存在"
  | .ok none => .error "充值订单不存在"
  | .ok (some topUp) =>
    if p.provider.any (· ≠ topUp.paymentProvider) then .error errPaymentMethodMismatch
    else if p.idempotent && topUp.status = topUpStatusSuccess then .ok s
    else if topUp.status ≠ topUpStatusPending then .error p.statusText
    else if p.refuses topUp then .error "无效的充值额度"
    else
      guardFault faults.save <|
        guardFault (p.userFault faults topUp s) <|
          guardFault faults.credit <|
            creditUser cfg (p.increment topUp) p.touch topUp
              (s.saveTopUp (topUp.complete now))

/-- A completing call. -/
def completeOrder (cfg : TopUpConfig) (p : CompletionPath) (faults : TopUpFaults) (now : ℤ)
    (tradeNo : String) (s : TopUpStore) : Except String Unit × TopUpStore :=
  if tradeNo = "" then (.error p.emptyText, s)
  else
    match inTransaction faults.start faults.commit (p.body cfg faults now tradeNo) s with
    | (.ok (), s') => (.ok (), s')
    | (.error e, s') => (.error (p.failText.getD e), s')

/-- The completion of a Stripe order: the money times the quota per unit, as doubles. -/
def rechargePath (cfg : TopUpConfig) (customerId : String) : CompletionPath where
  emptyText := "未提供支付单号"
  provider := some paymentProviderStripe
  idempotent := false
  statusText := "充值订单状态错误"
  increment topUp := .double (topUp.money * cfg.quotaPerUnit)
  refuses _ := false
  readsUser := false
  touch user := { user with stripeCustomer := customerId }
  failText := some "充值失败，请稍后重试"

def recharge (cfg : TopUpConfig) (faults : TopUpFaults) (now : ℤ)
    (referenceId customerId : String) (s : TopUpStore) : Except String Unit × TopUpStore :=
  completeOrder cfg (rechargePath cfg customerId) faults now referenceId s

/-- The completion of a Creem order: the amount is the quota.  The customer's address is kept if
the user has none. -/
def rechargeCreemPath (customerEmail : String) : CompletionPath where
  emptyText := "未提供支付单号"
  provider := some paymentProviderCreem
  idempotent := false
  statusText := "充值订单状态错误"
  increment topUp := .int topUp.amount.toInt
  refuses _ := false
  readsUser := decide (customerEmail ≠ "")
  touch user :=
    if customerEmail ≠ "" ∧ user.email = "" then { user with email := customerEmail } else user
  failText := some "充值失败，请稍后重试"

def rechargeCreem (cfg : TopUpConfig) (faults : TopUpFaults) (now : ℤ)
    (referenceId customerEmail : String) (s : TopUpStore) : Except String Unit × TopUpStore :=
  completeOrder cfg (rechargeCreemPath customerEmail) faults now referenceId s

/-- The completion of an order of one of the two Waffo gateways. -/
def waffoPath (cfg : TopUpConfig) (provider : String) : CompletionPath where
  emptyText := "未提供支付单号"
  provider := some provider
  idempotent := true
  statusText := "充值订单状态错误"
  increment topUp := .int (cfg.amountQuota topUp)
  refuses topUp := decide (cfg.amountQuota topUp ≤ 0)
  readsUser := false
  touch user := user
  failText := some "充值失败，请稍后重试"

def rechargeWaffo (cfg : TopUpConfig) (faults : TopUpFaults) (now : ℤ) (tradeNo : String)
    (s : TopUpStore) : Except String Unit × TopUpStore :=
  completeOrder cfg (waffoPath cfg paymentProviderWaffo) faults now tradeNo s

def rechargeWaffoPancake (cfg : TopUpConfig) (faults : TopUpFaults) (now : ℤ) (tradeNo : String)
    (s : TopUpStore) : Except String Unit × TopUpStore :=
  completeOrder cfg (waffoPath cfg paymentProviderWaffoPancake) faults now tradeNo s

/-- The quota of an order completed by hand: for Stripe from the money, otherwise from the
amount. -/
def TopUpConfig.manualQuota (cfg : TopUpConfig) (topUp : TopUp) : ℤ :=
  if topUp.paymentProvider = paymentProviderStripe then cfg.moneyQuota topUp
  else cfg.amountQuota topUp

/-- The completion of any order by an administrator. -/
def manualCompletePath (cfg : TopUpConfig) : CompletionPath where
  emptyText := "未提供订单号"
  provider := none
  idempotent := true
  statusText := "订单状态不是待支付，无法补单"
  increment topUp := .int (cfg.manualQuota topUp)
  refuses topUp := decide (cfg.manualQuota topUp ≤ 0)
  readsUser := false
  touch user := user
  failText := none

def manualCompleteTopUp (cfg : TopUpConfig) (faults : TopUpFaults) (now : ℤ) (tradeNo : String)
    (s : TopUpStore) : Except String Unit × TopUpStore :=
  completeOrder cfg (manualCompletePath cfg) faults now tradeNo s

/-! ### The other two calls -/

/-- The order as the report of a payment by Epay writes it, with the method that was used. -/
def TopUp.report (type : String) (topUp : TopUp) : TopUp :=
  { topUp with paymentMethod := type, status := topUpStatusSuccess }

@[simp] theorem TopUp.report_tradeNo (topUp : TopUp) (type : String) :
    (topUp.report type).tradeNo = topUp.tradeNo := rfl

@[simp] theorem TopUp.report_status (topUp : TopUp) (type : String) :
    (topUp.report type).status = topUpStatusSuccess := rfl

/-- The report of a payment by Epay.  The status and the quota are two statements of their own:
the first is not undone when the second fails. -/
def epayNotify (cfg : TopUpConfig) (faults : TopUpFaults) (tradeNo type : String)
    (s : TopUpStore) : TopUpStore :=
  match guardFault faults.read (.ok (s.order tradeNo)) with
  | .error _ => s
  | .ok none => s
  | .ok (some topUp) =>
    if topUp.paymentProvider ≠ paymentProviderEpay then s
    else if topUp.status = topUpStatusPending then
      match guardFault faults.save (.ok (s.saveTopUp (topUp.report type))) with
      | .error _ => s
      | .ok s' =>
        let quotaToAdd := cfg.amountQuota topUp
        -- a negative amount is refused before the statement is sent
        if quotaToAdd < 0 then s'
        else
          match guardFault faults.credit (creditUser cfg (.int quotaToAdd) id topUp s') with
          | .error _ => s'
          | .ok s'' => s''
    else s

def TopUp.withStatus (status : String) (topUp : TopUp) : TopUp := { topUp with status := status }

@[simp] theorem TopUp.withStatus_tradeNo (topUp : TopUp) (status : String) :
    (topUp.withStatus status).tradeNo = topUp.tradeNo := rfl

/-- The transaction of ending a pending order.  An empty provider is not checked. -/
def updatePendingBody (faults : TopUpFaults)
    (tradeNo expectedPaymentProvider targetStatus : String) (s : TopUpStore) :
    Except String TopUpStore :=
  match guardFault faults.read (.ok (s.order tradeNo)) with
  | .error _ => .error errTopUpNotFound
  | .ok none => .error errTopUpNotFound
  | .ok (some topUp) =>
    if expectedPaymentProvider ≠ "" ∧ topUp.paymentProvider ≠ expectedPaymentProvider then
      .error errPaymentMethodMismatch
    else if topUp.status ≠ topUpStatusPending then .error errTopUpStatusInvalid
    else guardFault faults.save (.ok (s.saveTopUp (topUp.withStatus targetStatus)))

/-- End a pending order without a payment. -/
def updatePendingTopUpStatus (faults : TopUpFaults)
    (tradeNo expectedPaymentProvider targetStatus : String) (s : TopUpStore) :
    Except String Unit × TopUpStore :=
  if tradeNo = "" then (.error "未提供支付单号", s)
  else
    inTransaction faults.start faults.commit
      (updatePendingBody faults tradeNo expectedPaymentProvider targetStatus) s

/-! ### What a call does -/

/-- What completing an order does to the tables: the order has succeeded, its user, if there is
one, has the quota and nothing else is changed. -/
structure Completed (cfg : TopUpConfig) (increment : Increment) (topUp : TopUp)
    (s s' : TopUpStore) : Prop where
  status : s'.status topUp.tradeNo = some topUpStatusSuccess
  others : ∀ t, t ≠ topUp.tradeNo → s'.order t = s.order t
  uncredited : s.user topUp.userId = none → s'.users = s.users ∧ s'.credits = s.credits
  credited : ∀ user, s.user topUp.userId = some user →
    ∃ quota, cfg.add user.quota increment = .ok quota ∧ s'.quota topUp.userId = some quota ∧
      (∀ id, id ≠ topUp.userId → s'.quota id = s.quota id) ∧
      s'.credits = s.credits ++ [⟨topUp.tradeNo, topUp.userId, quota - user.quota⟩]

variable {s s' : TopUpStore} {topUp : TopUp} {cfg : TopUpConfig} {increment : Increment}
  {touch : TopUpUser → TopUpUser} {p : CompletionPath} {faults : TopUpFaults} {now : ℤ}
  {tradeNo type : String}

theorem status_of_order {t : String} (h : s.order t = some topUp) :
    s.status t = some topUp.status := by
  rw [TopUpStore.status, h]
  rfl

/-- Adding the quota after the order has been written completes the order. -/
theorem completed_of_creditUser {topUp' : TopUp} (htrade : topUp'.tradeNo = topUp.tradeNo)
    (hstatus : topUp'.status = topUpStatusSuccess)
    (h : creditUser cfg increment touch topUp (s.saveTopUp topUp') = .ok s') :
    Completed cfg increment topUp s s' := by
  have hself : (s.saveTopUp topUp').status topUp.tradeNo = some topUpStatusSuccess := by
    have horder : (s.saveTopUp topUp').order topUp.tradeNo = some topUp' := by
      rw [← htrade]
      exact TopUpStore.order_saveTopUp topUp' s
    rw [status_of_order horder, hstatus]
  have hothers : ∀ t, t ≠ topUp.tradeNo → (s.saveTopUp topUp').order t = s.order t := by
    intro t ht
    exact TopUpStore.order_saveTopUp_of_ne s (htrade ▸ ht.symm)
  rw [creditUser, TopUpStore.user_saveTopUp] at h
  cases hu : s.user topUp.userId with
  | none =>
    rw [hu] at h
    cases h
    refine ⟨hself, hothers, fun _ => ⟨rfl, rfl⟩, fun user hsome => ?_⟩
    exact absurd (hu.symm.trans hsome) (by simp)
  | some user =>
    simp only [hu] at h
    cases ha : cfg.add user.quota increment with
    | error e =>
      rw [ha] at h
      cases h
    | ok quota =>
      rw [ha] at h
      cases h
      have hid : user.id = topUp.userId := TopUpStore.id_of_user hu
      refine ⟨hself, hothers, fun hnone => absurd (hu.symm.trans hnone) (by simp), ?_⟩
      intro user' hu'
      obtain rfl : user = user' := Option.some.inj (hu.symm.trans hu')
      refine ⟨quota, ha, ?_, ?_, rfl⟩
      · rw [TopUpStore.quota, ← hid]
        exact congrArg _ (TopUpStore.user_credit _ _ _)
      · intro id hne
        rw [TopUpStore.quota]
        exact congrArg _ (TopUpStore.user_credit_of_ne _ _ fun he => hne (by rw [← he, ← hid]))

/-- The checks of a completing call pass, and none of its statements fails. -/
structure CompletionPath.Ready (cfg : TopUpConfig) (p : CompletionPath) (faults : TopUpFaults)
    (tradeNo : String) (s : TopUpStore) (topUp : TopUp) : Prop where
  named : tradeNo ≠ ""
  found : s.order tradeNo = some topUp
  provider : ∀ q ∈ p.provider, topUp.paymentProvider = q
  pending : topUp.status = topUpStatusPending
  accepted : p.refuses topUp = false
  start : faults.start = none
  read : faults.read = none
  save : faults.save = none
  user : p.userFault faults topUp s = none
  credit : faults.credit = none
  stored : ∀ user, s.user topUp.userId = some user →
    ∃ quota, cfg.add user.quota (p.increment topUp) = .ok quota
  commit : faults.commit = none

theorem pending_ne_success : topUpStatusPending ≠ topUpStatusSuccess := by decide

/-- The transaction of a completing call succeeds on a pending order only when it is ready; on a
completed one it may succeed and change nothing. -/
theorem CompletionPath.body_cases (h : p.body cfg faults now tradeNo s = .ok s') :
    s' = s ∨ ∃ topUp, s.order tradeNo = some topUp ∧ (∀ q ∈ p.provider, topUp.paymentProvider = q) ∧
      topUp.status = topUpStatusPending ∧ p.refuses topUp = false ∧ faults.read = none ∧
      faults.save = none ∧ p.userFault faults topUp s = none ∧ faults.credit = none ∧
      creditUser cfg (p.increment topUp) p.touch topUp (s.saveTopUp (topUp.complete now))
        = .ok s' := by
  unfold CompletionPath.body at h
  cases hread : faults.read with
  | some e => simp [hread] at h
  | none =>
    cases ho : s.order tradeNo with
    | none => simp [hread, ho] at h
    | some topUp =>
      simp only [hread, ho, guardFault_none] at h
      split at h
      · cases h
      · rename_i hprov
        split at h
        · cases h
          exact Or.inl rfl
        · split at h
          · cases h
          · rename_i hpend
            split at h
            · cases h
            · rename_i href
              obtain ⟨hsave, h⟩ := guardFault_eq_ok.1 h
              obtain ⟨huser, h⟩ := guardFault_eq_ok.1 h
              obtain ⟨hcredit, h⟩ := guardFault_eq_ok.1 h
              refine Or.inr ⟨topUp, rfl, ?_, not_not.1 hpend, by simpa using href, rfl, hsave,
                huser, hcredit, h⟩
              intro q hq
              have hnot : ¬ q ≠ topUp.paymentProvider := by
                intro hne
                exact hprov (by rw [Option.mem_def.1 hq]; simpa using hne)
              exact (not_not.1 hnot).symm

theorem add_of_creditUser {topUp' : TopUp}
    (h : creditUser cfg increment touch topUp (s.saveTopUp topUp') = .ok s') :
    ∀ user, s.user topUp.userId = some user →
      ∃ quota, cfg.add user.quota increment = .ok quota := by
  intro user hu
  rw [creditUser, TopUpStore.user_saveTopUp, hu] at h
  cases ha : cfg.add user.quota increment with
  | error e => simp [ha, bind, Except.bind] at h
  | ok quota => exact ⟨quota, rfl⟩

theorem creditUser_eq_ok
    (h : ∀ user, s.user topUp.userId = some user → ∃ quota, cfg.add user.quota increment = .ok quota) :
    ∃ s', creditUser cfg increment touch topUp s = .ok s' := by
  unfold creditUser
  cases hu : s.user topUp.userId with
  | none => exact ⟨s, rfl⟩
  | some user =>
    obtain ⟨quota, hq⟩ := h user hu
    simp only [hq]
    exact ⟨_, rfl⟩

/-- **A completing call that is ready completes the order.** -/
theorem completeOrder_of_ready (h : p.Ready cfg faults tradeNo s topUp) :
    Completed cfg (p.increment topUp) topUp s (completeOrder cfg p faults now tradeNo s).2 := by
  obtain ⟨s', hs'⟩ : ∃ s', creditUser cfg (p.increment topUp) p.touch topUp
      (s.saveTopUp (topUp.complete now)) = .ok s' := creditUser_eq_ok h.stored
  have hbody : p.body cfg faults now tradeNo s = .ok s' := by
    have hprov : ¬ p.provider.any (· ≠ topUp.paymentProvider) = true := by
      intro hany
      obtain ⟨q, hq, hne⟩ := (Option.any_eq_true _ _).1 hany
      have hne : q ≠ topUp.paymentProvider := by simpa using hne
      exact hne (h.provider q hq).symm
    have hrep : ¬ (p.idempotent && topUp.status = topUpStatusSuccess) = true := by
      rw [h.pending]
      simp [pending_ne_success]
    rw [CompletionPath.body, h.read, h.found]
    simp only [guardFault_none]
    rw [if_neg hprov, if_neg hrep, if_neg (not_not.2 h.pending), if_neg (by simp [h.accepted]),
      h.save, h.user, h.credit]
    exact hs'
  have hcall : (completeOrder cfg p faults now tradeNo s).2 = s' := by
    rw [completeOrder, if_neg h.named, h.start, h.commit, inTransaction_of_ok hbody]
  rw [hcall]
  exact completed_of_creditUser (topUp.complete_tradeNo now) (topUp.complete_status now) hs'

/-- **A completing call that is not ready changes nothing.** -/
theorem completeOrder_of_not_ready (h : ∀ topUp, ¬ p.Ready cfg faults tradeNo s topUp) :
    (completeOrder cfg p faults now tradeNo s).2 = s := by
  unfold completeOrder
  split
  · rfl
  · rename_i hname
    have hsnd : ∀ r : Except String Unit × TopUpStore,
        (match r with
          | (.ok (), s') => ((.ok () : Except String Unit), s')
          | (.error e, s') => (.error (p.failText.getD e), s')).2 = r.2 := by
      rintro ⟨_ | _, s'⟩ <;> rfl
    rw [hsnd]
    rcases inTransaction_cases faults.start faults.commit (p.body cfg faults now tradeNo) s with
      heq | ⟨hstart, hcommit, hbody⟩
    · exact heq
    · rcases CompletionPath.body_cases hbody with heq | ⟨topUp, ho, hprov, hpend, href, hread, hsave,
        huser, hcredit, hwrite⟩
      · exact heq
      · refine absurd ?_ (h topUp)
        exact ⟨hname, ho, hprov, hpend, href, hstart, hread, hsave, huser, hcredit,
          add_of_creditUser hwrite, hcommit⟩

/-- The report of a payment by Epay gets as far as writing the order. -/
structure EpayReady (faults : TopUpFaults) (tradeNo : String) (s : TopUpStore) (topUp : TopUp) :
    Prop where
  found : s.order tradeNo = some topUp
  provider : topUp.paymentProvider = paymentProviderEpay
  pending : topUp.status = topUpStatusPending
  read : faults.read = none
  save : faults.save = none

/-- The order as the report of a payment by Epay writes it. -/
theorem epayNotify_eq (h : EpayReady faults tradeNo s topUp) :
    epayNotify cfg faults tradeNo type s =
      let s' := s.saveTopUp (topUp.report type)
      if cfg.amountQuota topUp < 0 then s'
      else
        match guardFault faults.credit (creditUser cfg (.int (cfg.amountQuota topUp)) id topUp s')
          with
        | .error _ => s'
        | .ok s'' => s'' := by
  rw [epayNotify, h.read, h.found]
  simp only [guardFault_none, h.save]
  rw [if_neg (not_not.2 h.provider), if_pos h.pending]

/-- **The report completes the order if the amount is not negative and the quota is written.** -/
theorem epayNotify_of_ready (h : EpayReady faults tradeNo s topUp)
    (hamount : 0 ≤ cfg.amountQuota topUp) (hcredit : faults.credit = none) :
    Completed cfg (.int (cfg.amountQuota topUp)) topUp s
      (epayNotify cfg faults tradeNo type s) := by
  rw [epayNotify_eq h, hcredit]
  simp only [guardFault_none]
  rw [if_neg (not_lt.2 hamount)]
  have hstored : ∀ user, (s.saveTopUp (topUp.report type)).user topUp.userId = some user →
      ∃ quota, cfg.add user.quota (.int (cfg.amountQuota topUp)) = .ok quota := by
    intro user _
    exact ⟨_, rfl⟩
  obtain ⟨s', hs'⟩ : ∃ s', creditUser cfg (.int (cfg.amountQuota topUp)) id topUp
      (s.saveTopUp (topUp.report type)) = .ok s' := creditUser_eq_ok hstored
  rw [hs']
  exact completed_of_creditUser (topUp.report_tradeNo type) (topUp.report_status type) hs'

/-- **Otherwise the order has succeeded and nothing was credited.** -/
theorem epayNotify_of_not_credited (h : EpayReady faults tradeNo s topUp)
    (hno : cfg.amountQuota topUp < 0 ∨ faults.credit ≠ none) :
    epayNotify cfg faults tradeNo type s = s.saveTopUp (topUp.report type) := by
  rw [epayNotify_eq h]
  by_cases hneg : cfg.amountQuota topUp < 0
  · simp only [hneg, if_true]
  · cases hc : faults.credit with
    | none => exact absurd hc (hno.resolve_left hneg)
    | some e => simp [hneg]

/-- **A report that does not get as far as writing the order changes nothing.** -/
theorem epayNotify_of_not_ready (h : ∀ topUp, ¬ EpayReady faults tradeNo s topUp) :
    epayNotify cfg faults tradeNo type s = s := by
  unfold epayNotify
  cases hread : faults.read with
  | some e => rfl
  | none =>
    cases ho : s.order tradeNo with
    | none => rfl
    | some topUp =>
      simp only [guardFault_none]
      split
      · rfl
      · rename_i hprov
        split
        · rename_i hpend
          cases hsave : faults.save with
          | some e => rfl
          | none => exact absurd ⟨ho, not_not.1 hprov, hpend, hread, hsave⟩ (h topUp)
        · rfl

/-- Ending an order without a payment gives a pending order its new status, or nothing changes. -/
theorem updatePendingTopUpStatus_cases (faults : TopUpFaults)
    (tradeNo expectedPaymentProvider targetStatus : String) (s : TopUpStore) :
    (updatePendingTopUpStatus faults tradeNo expectedPaymentProvider targetStatus s).2 = s ∨
      ∃ topUp, s.order tradeNo = some topUp ∧ topUp.status = topUpStatusPending ∧
        (expectedPaymentProvider = "" ∨ topUp.paymentProvider = expectedPaymentProvider) ∧
        (updatePendingTopUpStatus faults tradeNo expectedPaymentProvider targetStatus s).2 =
          s.saveTopUp (topUp.withStatus targetStatus) := by
  unfold updatePendingTopUpStatus
  split
  · exact Or.inl rfl
  · rcases inTransaction_cases faults.start faults.commit
      (updatePendingBody faults tradeNo expectedPaymentProvider targetStatus) s with
      heq | ⟨-, -, hbody⟩
    · exact Or.inl heq
    · generalize (inTransaction faults.start faults.commit (updatePendingBody faults tradeNo
        expectedPaymentProvider targetStatus) s).2 = s' at hbody ⊢
      unfold updatePendingBody at hbody
      cases hread : faults.read with
      | some e => simp [hread] at hbody
      | none =>
        cases ho : s.order tradeNo with
        | none => simp [hread, ho] at hbody
        | some topUp =>
          simp only [hread, ho, guardFault_none] at hbody
          split at hbody
          · cases hbody
          · rename_i hprov
            split at hbody
            · cases hbody
            · rename_i hpend
              obtain ⟨hsave, hwrite⟩ := guardFault_eq_ok.1 hbody
              cases hwrite
              exact Or.inr ⟨topUp, rfl, not_not.1 hpend, by tauto, rfl⟩

end NewApi

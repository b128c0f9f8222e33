/-
**Billing sessions: charging a request before, settling or refunding it afterwards.**

A request is charged an estimate before it is sent on.  The charge is taken from the key the
request came with (the token) and from a funding source, which is the user's wallet or one of
their subscriptions.  The session remembers what was taken.  It can raise the charge while the
request runs (`BillingSession.reserve`), replace it by the actual amount (`BillingSession.settle`)
or give it back (`BillingSession.refund`); giving back happens in a job that runs later.

`newBillingSession` chooses the funding source by the user's preference, and falls back from one
source to the other when the first has too little.

The world is what these functions read and write: quotas of users and tokens and the subscription
tables.  A quota counts the changes that are queued for a batch as made.  Look-ups of quotas may be
answered from a cache, so their answers are arguments, as are the outcomes of all statements.

Main definitions:

* `NewApi.World`, `NewApi.changeQuota` — quotas, and the guarded changes of them;
* `NewApi.WalletFunding`, `NewApi.SubscriptionFunding`, `NewApi.FundingSource` — funding sources;
* `NewApi.BillingSession` — the session, with its operations;
* `NewApi.newBillingSession` — opening a session.
-/

import NewApi.Subscription

set_option autoImplicit false

namespace NewApi

/-! ### Quotas -/

/-- The settings the billing code reads. -/
structure BillingConfig where
  batchUpdateEnabled : Bool
  trustQuota : ℤ
  formatQuota : ℤ → String
  loc : Location

/-- The quotas of users and tokens and the subscription tables. -/
structure World where
  userQuota : ℤ → ℤ
  tokenRemain : ℤ → ℤ
  store : Tables

/-- Add `x` to a user's quota. -/
def World.addUserQuota (id x : ℤ) (w : World) : World :=
  { w with userQuota := Function.update w.userQuota id (w.userQuota id + x) }

/-- Add `x` to a token's remaining quota. -/
def World.addTokenQuota (id x : ℤ) (w : World) : World :=
  { w with tokenRemain := Function.update w.tokenRemain id (w.tokenRemain id + x) }

/-- A change of a quota by an amount that must not be negative.  A change that is queued for a
batch does not fail. -/
def changeQuota (cfg : BillingConfig) (fault : Fault) (quota : ℤ) (write : World → World)
    (w : World) : Except String World :=
  if quota < 0 then .error "quota 不能为负数！"
  else guardFault (if cfg.batchUpdateEnabled then none else fault) (.ok (write w))

def increaseUserQuota (cfg : BillingConfig) (fault : Fault) (id quota : ℤ) (w : World) :
    Except String World := changeQuota cfg fault quota (World.addUserQuota id quota) w

def decreaseUserQuota (cfg : BillingConfig) (fault : Fault) (id quota : ℤ) (w : World) :
    Except String World := changeQuota cfg fault quota (World.addUserQuota id (-quota)) w

def increaseTokenQuota (cfg : BillingConfig) (fault : Fault) (tokenId quota : ℤ) (w : World) :
    Except String World := changeQuota cfg fault quota (World.addTokenQuota tokenId quota) w

def decreaseTokenQuota (cfg : BillingConfig) (fault : Fault) (tokenId quota : ℤ) (w : World) :
    Except String World := changeQuota cfg fault quota (World.addTokenQuota tokenId (-quota)) w

/-! ### The request -/

def billingSourceWallet : String := "wallet"

def billingSourceSubscription : String := "subscription"

/-- What the billing code reads of a request, and the fields it keeps for the log. -/
structure RelayInfo where
  userId : ℤ
  requestId : String
  originModelName : String
  tokenId : ℤ
  tokenKey : String
  tokenUnlimited : Bool
  isPlayground : Bool
  forcePreConsume : Bool
  billingPreference : String
  userQuota : ℤ
  finalPreConsumedQuota : ℤ
  billingSource : String
  subscriptionId : ℤ
  subscriptionPreConsumed : ℤ
  subscriptionPostDelta : ℤ
  subscriptionAmountTotal : ℤ
  subscriptionAmountUsedAfterPreConsume : ℤ
  subscriptionPlanId : ℤ
  subscriptionPlanTitle : String
deriving DecidableEq, Repr

/-- The remaining quota a look-up of the token answers, and the outcome of the update. -/
structure TokenEnv where
  read : Except String ℤ
  write : Fault := none

/-- Charge the token, unless the request comes from the playground. -/
def preConsumeTokenQuota (cfg : BillingConfig) (env : TokenEnv) (relayInfo : RelayInfo)
    (quota : ℤ) (w : World) : Except String World :=
  if quota < 0 then .error "quota 不能为负数！"
  else if relayInfo.isPlayground then .ok w
  else
    match env.read with
    | .error e => .error e
    | .ok remainQuota =>
      if relayInfo.tokenUnlimited = false ∧ remainQuota < quota then
        .error ("token quota is not enough, token remain quota: " ++ cfg.formatQuota remainQuota
          ++ ", need quota: " ++ cfg.formatQuota quota)
      else decreaseTokenQuota cfg env.write relayInfo.tokenId quota w

/-! ### Funding sources -/

/-- The user's wallet as a funding source. -/
structure WalletFunding where
  userId : ℤ
  consumed : ℤ
deriving DecidableEq, Repr

/-- One of the user's subscriptions as a funding source; it is chosen by the pre-consume. -/
structure SubscriptionFunding where
  requestId : String
  userId : ℤ
  modelName : String
  amount : ℤ
  subscriptionId : ℤ
  preConsumed : ℤ
  amountTotal : ℤ
  amountUsedAfter : ℤ
  planId : ℤ
  planTitle : String
deriving DecidableEq, Repr

inductive FundingSource where
  | wallet (f : WalletFunding)
  | subscription (f : SubscriptionFunding)
deriving DecidableEq, Repr

namespace FundingSource

/-- The name of the source. -/
def source : FundingSource → String
  | .wallet _ => billingSourceWallet
  | .subscription _ => billingSourceSubscription

/-- What the pre-consume of a funding source is given: the outcome of the wallet's update, the
environment of the subscription's transaction, and the plan as the look-up for the log finds it. -/
structure PreConsumeFaults where
  user : Fault := none
  sub : PreConsumeEnv
  planInfo : Option (ℤ × String) := none

/-- Take the amount from the source.  A subscription takes its own amount instead. -/
def preConsume (cfg : BillingConfig) (env : PreConsumeFaults) (amount : ℤ) (funding : FundingSource)
    (w : World) : Except Failure FundingSource × World :=
  match funding with
  | .wallet f =>
    if amount ≤ 0 then (.ok (.wallet f), w)
    else
      match decreaseUserQuota cfg env.user f.userId amount w with
      | .error e => (.error (.err e), w)
      | .ok w' => (.ok (.wallet { f with consumed := amount }), w')
  | .subscription f =>
    match preConsumeUserSubscription cfg.loc env.sub f.requestId f.userId f.modelName 0 f.amount
        w.store with
    | (.error e, store) => (.error e, { w with store := store })
    | (.ok res, store) =>
      let info := env.planInfo.getD (f.planId, f.planTitle)
      (.ok (.subscription { f with
        subscriptionId := res.userSubscriptionId
        preConsumed := res.preConsumed
        amountTotal := res.amountTotal
        amountUsedAfter := res.amountUsedAfter
        planId := info.1
        planTitle := info.2 }), { w with store := store })

/-- The outcome of the statements of one change of a funding source. -/
structure ChangeFaults where
  user : Fault := none
  sub : TxFaults := {}
deriving DecidableEq, Repr

/-- Change a subscription's used amount in the world. -/
def postConsume (faults : TxFaults) (subscriptionId delta : ℤ) (w : World) :
    Except String World :=
  (postConsumeUserSubscriptionDelta faults subscriptionId delta w.store).map
    fun store => { w with store := store }

/-- Take `delta` more from the source, or give it back when it is negative. -/
def settle (cfg : BillingConfig) (faults : ChangeFaults) (delta : ℤ) (funding : FundingSource)
    (w : World) : Except String World :=
  match funding with
  | .wallet f =>
    if delta = 0 then .ok w
    else if 0 < delta then decreaseUserQuota cfg faults.user f.userId delta w
    else increaseUserQuota cfg faults.user f.userId (-delta) w
  | .subscription f =>
    if delta = 0 then .ok w else postConsume faults.sub f.subscriptionId delta w

/-- The outcome of the statements of a refund, for each attempt in the case of a subscription. -/
structure RefundEnv where
  user : Fault := none
  sub : ℕ → RefundFaults := fun _ => {}

/-- Give back what the source was charged before the request was sent on. -/
def refund (cfg : BillingConfig) (env : RefundEnv) (funding : FundingSource) (w : World) :
    Fault × World :=
  match funding with
  | .wallet f =>
    if f.consumed ≤ 0 then (none, w)
    else
      match increaseUserQuota cfg env.user f.userId f.consumed w with
      | .error e => (some e, w)
      | .ok w' => (none, w')
  | .subscription f =>
    if f.preConsumed ≤ 0 then (none, w)
    else
      match refundWithRetry (fun i => refundSubscriptionPreConsume (env.sub i) f.requestId)
          refundMaxAttempts 0 none w.store with
      | (e, store) => (e, { w with store := store })

end FundingSource

/-! ### The session -/

/-- A billing session. -/
structure BillingSession where
  relayInfo : RelayInfo
  funding : FundingSource
  preConsumedQuota : ℤ
  tokenConsumed : ℤ
  extraReserved : ℤ
  trusted : Bool
  fundingSettled : Bool
  settled : Bool
  refunded : Bool
deriving DecidableEq, Repr

/-- A session that has not charged anything yet. -/
def BillingSession.start (relayInfo : RelayInfo) (funding : FundingSource) : BillingSession where
  relayInfo := relayInfo
  funding := funding
  preConsumedQuota := 0
  tokenConsumed := 0
  extraReserved := 0
  trusted := false
  fundingSettled := false
  settled := false
  refunded := false

namespace BillingSession

/-- Bring the request's fields up to date with the session. -/
def syncRelayInfo (s : BillingSession) : BillingSession :=
  let info := { s.relayInfo with
    finalPreConsumedQuota := s.preConsumedQuota
    billingSource := s.funding.source }
  match s.funding with
  | .subscription sub => { s with
      relayInfo := { info with
        subscriptionId := sub.subscriptionId
        subscriptionPreConsumed := sub.preConsumed + s.extraReserved
        subscriptionPostDelta := 0
        subscriptionAmountTotal := sub.amountTotal
        subscriptionAmountUsedAfterPreConsume := sub.amountUsedAfter + s.extraReserved
        subscriptionPlanId := sub.planId
        subscriptionPlanTitle := sub.planTitle } }
  | .wallet _ => { s with
      relayInfo := { info with
        subscriptionId := 0
        subscriptionPreConsumed := 0 } }

/-- The outcome of the statements of a settlement. -/
structure SettleFaults where
  funding : FundingSource.ChangeFaults := {}
  token : Fault := none
deriving DecidableEq, Repr

/-- Charge the token the difference, or give it back when it is negative. -/
def settleToken (cfg : BillingConfig) (fault : Fault) (delta : ℤ) (relayInfo : RelayInfo)
    (w : World) : Except String World :=
  if relayInfo.isPlayground then .ok w
  else if 0 < delta then decreaseTokenQuota cfg fault relayInfo.tokenId delta w
  else increaseTokenQuota cfg fault relayInfo.tokenId (-delta) w

/-- The request's fields after a difference has been taken from the funding source. -/
def settledInfo (delta : ℤ) (s : BillingSession) : RelayInfo :=
  if s.funding.source = billingSourceSubscription then
    { s.relayInfo with subscriptionPostDelta := s.relayInfo.subscriptionPostDelta + delta }
  else s.relayInfo

/-- Replace the charge by the actual amount.  When the token cannot be adjusted after the funding
source has been, the session counts as settled and the error is returned. -/
def settle (cfg : BillingConfig) (faults : SettleFaults) (actualQuota : ℤ) (s : BillingSession)
    (w : World) : (Fault × BillingSession) × World :=
  if s.settled then ((none, s), w)
  else
    let delta := actualQuota - s.preConsumedQuota
    if delta = 0 then ((none, { s with settled := true }), w)
    else
      match (if s.fundingSettled then .ok w else s.funding.settle cfg faults.funding delta w) with
      | .error e => ((some e, s), w)
      | .ok w =>
        let s' := { s with
          relayInfo := s.settledInfo delta
          fundingSettled := true
          settled := true }
        match settleToken cfg faults.token delta s.relayInfo w with
        | .error e => ((some e, s'), w)
        | .ok w => ((none, s'), w)

/-- Whether there is a charge to give back. -/
def needsRefund (s : BillingSession) : Bool :=
  if s.settled || s.refunded || s.fundingSettled then false
  else if 0 < s.tokenConsumed then true
  else
    match s.funding with
    | .subscription sub => 0 < sub.preConsumed
    | .wallet _ => false

/-- What the job of a refund has copied from the session. -/
structure RefundJob where
  tokenId : ℤ
  isPlayground : Bool
  tokenConsumed : ℤ
  extraReserved : ℤ
  subscriptionId : ℤ
deriving DecidableEq, Repr

/-- Start giving the charge back; the work is left to the job. -/
def refund (s : BillingSession) : BillingSession × Option RefundJob :=
  if s.settled || s.refunded || !s.needsRefund then (s, none)
  else ({ s with refunded := true }, some
    { tokenId := s.relayInfo.tokenId
      isPlayground := s.relayInfo.isPlayground
      tokenConsumed := s.tokenConsumed
      extraReserved := s.extraReserved
      subscriptionId := s.relayInfo.subscriptionId })

/-- The outcome of the statements of the job. -/
structure JobEnv where
  funding : FundingSource.RefundEnv := {}
  extra : TxFaults := {}
  token : Fault := none

/-- The job of a refund: the funding source, what was reserved on top of a subscription's charge,
and the token.  An error in one of them is logged and the job goes on. -/
def RefundJob.run (cfg : BillingConfig) (env : JobEnv) (funding : FundingSource) (job : RefundJob)
    (w : World) : World :=
  let w := (funding.refund cfg env.funding w).2
  let w :=
    if 0 < job.extraReserved ∧ funding.source = billingSourceSubscription ∧
        0 < job.subscriptionId then
      match FundingSource.postConsume env.extra job.subscriptionId (-job.extraReserved) w with
      | .error _ => w
      | .ok w' => w'
    else w
  if 0 < job.tokenConsumed ∧ job.isPlayground = false then
    match increaseTokenQuota cfg env.token job.tokenId job.tokenConsumed w with
    | .error _ => w
    | .ok w' => w'
  else w

/-- The text that wraps an error of a subscription. -/
def subscriptionInsufficient (e : String) : NewAPIError :=
  newErrorWithStatusCode ("订阅额度不足或未配置订阅: " ++ e) .insufficientUserQuota statusForbidden

/-- Take `delta` more from the funding source. -/
def reserveFunding (cfg : BillingConfig) (faults : FundingSource.ChangeFaults) (delta : ℤ)
    (funding : FundingSource) (w : World) : Except NewAPIError (FundingSource × World) :=
  match funding with
  | .wallet f =>
    match decreaseUserQuota cfg faults.user f.userId delta w with
    | .error e => .error (newError e .updateDataError)
    | .ok w' => .ok (.wallet { f with consumed := f.consumed + delta }, w')
  | .subscription f =>
    match FundingSource.postConsume faults.sub f.subscriptionId delta w with
    | .error e => .error (subscriptionInsufficient e)
    | .ok w' => .ok (.subscription f, w')

/-- Take back `reserveFunding`; an error is logged. -/
def rollbackFundingReserve (cfg : BillingConfig) (faults : FundingSource.ChangeFaults) (delta : ℤ)
    (funding : FundingSource) (w : World) : FundingSource × World :=
  match funding with
  | .wallet f =>
    match increaseUserQuota cfg faults.user f.userId delta w with
    | .error _ => (.wallet f, w)
    | .ok w' => (.wallet { f with consumed := f.consumed - delta }, w')
  | .subscription f =>
    match FundingSource.postConsume faults.sub f.subscriptionId (-delta) w with
    | .error _ => (.subscription f, w)
    | .ok w' => (.subscription f, w')

/-- Take `delta` more from the token. -/
def reserveToken (cfg : BillingConfig) (env : TokenEnv) (relayInfo : RelayInfo) (delta : ℤ)
    (w : World) : Except NewAPIError World :=
  if delta ≤ 0 ∨ relayInfo.isPlayground = true then .ok w
  else
    match preConsumeTokenQuota cfg env relayInfo delta w with
    | .error e => .error (newErrorWithStatusCode e .preConsumeTokenQuotaFailed statusForbidden)
    | .ok w' => .ok w'

/-- What raising the charge is given. -/
structure ReserveEnv where
  funding : FundingSource.ChangeFaults := {}
  token : TokenEnv
  rollback : FundingSource.ChangeFaults := {}

/-- Raise the charge to `targetQuota`, if it is lower. -/
def reserve (cfg : BillingConfig) (env : ReserveEnv) (targetQuota : ℤ) (s : BillingSession)
    (w : World) : (Option NewAPIError × BillingSession) × World :=
  if s.settled ∨ s.refunded ∨ s.trusted ∨ targetQuota ≤ s.preConsumedQuota then ((none, s), w)
  else
    let delta := targetQuota - s.preConsumedQuota
    match reserveFunding cfg env.funding delta s.funding w with
    | .error e => ((some e, s), w)
    | .ok (funding, w) =>
      match reserveToken cfg env.token s.relayInfo delta w with
      | .error e =>
        let back := rollbackFundingReserve cfg env.rollback delta funding w
        ((some e, { s with funding := back.1 }), back.2)
      | .ok w =>
        ((none, syncRelayInfo { s with
          funding := funding
          preConsumedQuota := s.preConsumedQuota + delta
          tokenConsumed := s.tokenConsumed + delta
          extraReserved := s.extraReserved + delta }), w)

/-! ### Opening a session -/

/-- Whether a user with a large quota is not charged in advance. -/
def shouldTrust (cfg : BillingConfig) (tokenQuota : ℤ) (s : BillingSession) : Bool :=
  if s.relayInfo.forcePreConsume then false
  else if cfg.trustQuota ≤ 0 then false
  else if !(s.relayInfo.tokenUnlimited || cfg.trustQuota < tokenQuota) then false
  else
    match s.funding with
    | .wallet _ => cfg.trustQuota < s.relayInfo.userQuota
    -- a subscription needs a positive amount for its record
    | .subscription _ => false

/-- Opening a session fails with an error, or never returns. -/
inductive OpenFailure where
  | error (e : NewAPIError)
  | hang
deriving DecidableEq, Repr

/-- What one attempt to open a session is given. -/
structure AttemptEnv where
  tokenQuota : ℤ
  token : TokenEnv
  funding : FundingSource.PreConsumeFaults
  rollback : Fault := none

/-- The error for a funding source that refused. -/
def fundingError (e : String) : NewAPIError :=
  if contains e "no active subscription" ∨ contains e "subscription quota insufficient" then
    subscriptionInsufficient e
  else newError e .updateDataError

/-- The second step of opening a session: charge the funding source.  When it refuses, what the
token was charged is given back. -/
def preConsumeFunding (cfg : BillingConfig) (env : AttemptEnv) (effectiveQuota : ℤ)
    (s : BillingSession) (w : World) : Except OpenFailure BillingSession × World :=
  match s.funding.preConsume cfg env.funding effectiveQuota w with
  | (.error .hang, w) => (.error .hang, w)
  | (.error (.err e), w) =>
    if 0 < s.tokenConsumed ∧ s.relayInfo.isPlayground = false then
      match increaseTokenQuota cfg env.rollback s.relayInfo.tokenId s.tokenConsumed w with
      | .error _ => (.error (.error (fundingError e)), w)
      | .ok w' => (.error (.error (fundingError e)), w')
    else (.error (.error (fundingError e)), w)
  | (.ok funding, w) =>
    (.ok (syncRelayInfo { s with funding := funding, preConsumedQuota := effectiveQuota }), w)

/-- Charge the token and then the funding source. -/
def preConsume (cfg : BillingConfig) (env : AttemptEnv) (quota : ℤ) (s : BillingSession)
    (w : World) : Except OpenFailure BillingSession × World :=
  let trusted := s.shouldTrust cfg env.tokenQuota
  let s := { s with trusted := s.trusted || trusted }
  let effectiveQuota := if trusted then 0 else quota
  if 0 < effectiveQuota then
    match preConsumeTokenQuota cfg env.token s.relayInfo effectiveQuota w with
    | .error e =>
      (.error (.error (newErrorWithStatusCode e .preConsumeTokenQuotaFailed statusForbidden)), w)
    | .ok w => preConsumeFunding cfg env effectiveQuota { s with tokenConsumed := effectiveQuota } w
  else s.preConsumeFunding cfg env effectiveQuota w

end BillingSession

/-- The billing preference, the default standing in for whatever is not one. -/
def normalizeBillingPreference (pref : String) : String :=
  if trimSpace pref ∈ ["subscription_first", "wallet_first", "subscription_only", "wallet_only"] then
    trimSpace pref
  else "subscription_first"

/-- Whether the user has a subscription that is active and has not ended. -/
def hasActiveUserSubscription (fault : Fault) (userId now : ℤ) (t : Tables) : Except String Bool :=
  if userId ≤ 0 then .error "invalid userId"
  else guardFault fault (.ok
    (t.subs.any fun s => s.userId = userId ∧ s.status = .active ∧ now < s.endTime))

/-- What opening a session is given: the user's quota as the look-up answers, the look-up for
active subscriptions, and the two attempts. -/
structure OpenEnv where
  userQuota : Except String ℤ
  now : ℤ
  active : Fault := none
  wallet : BillingSession.AttemptEnv
  subscription : BillingSession.AttemptEnv

/-- Open a session on the wallet.  The request keeps the quota that was looked up, also when the
attempt fails afterwards. -/
def tryWallet (cfg : BillingConfig) (env : OpenEnv) (preConsumedQuota : ℤ) (relayInfo : RelayInfo)
    (w : World) : (Except BillingSession.OpenFailure BillingSession × World) × RelayInfo :=
  match env.userQuota with
  | .error e => ((.error (.error (newError e .queryDataError)), w), relayInfo)
  | .ok userQuota =>
    if userQuota ≤ 0 then
      ((.error (.error (newErrorWithStatusCode
        ("用户额度不足, 剩余额度: " ++ cfg.formatQuota userQuota)
        .insufficientUserQuota statusForbidden)), w), relayInfo)
    else if userQuota - preConsumedQuota < 0 then
      ((.error (.error (newErrorWithStatusCode
        ("预扣费额度失败, 用户剩余额度: " ++ cfg.formatQuota userQuota ++ ", 需要预扣费额度: "
          ++ cfg.formatQuota preConsumedQuota)
        .insufficientUserQuota statusForbidden)), w), relayInfo)
    else
      let relayInfo := { relayInfo with userQuota := userQuota }
      let session := BillingSession.start relayInfo
        (.wallet { userId := relayInfo.userId, consumed := 0 })
      (session.preConsume cfg env.wallet preConsumedQuota w, relayInfo)

/-- Open a session on a subscription; it is charged at least one unit. -/
def trySubscription (cfg : BillingConfig) (env : OpenEnv) (preConsumedQuota : ℤ)
    (relayInfo : RelayInfo) (w : World) :
    Except BillingSession.OpenFailure BillingSession × World :=
  let subConsume := if preConsumedQuota ≤ 0 then 1 else preConsumedQuota
  let session := BillingSession.start relayInfo
    (.subscription
      { requestId := relayInfo.requestId
        userId := relayInfo.userId
        modelName := relayInfo.originModelName
        amount := subConsume
        subscriptionId := 0
        preConsumed := 0
        amountTotal := 0
        amountUsedAfter := 0
        planId := 0
        planTitle := "" })
  session.preConsume cfg env.subscription subConsume w

/-- Open a session for a request, on the funding source the user prefers. -/
def newBillingSession (cfg : BillingConfig) (env : OpenEnv) (relayInfo : Option RelayInfo)
    (preConsumedQuota : ℤ) (w : World) :
    Except BillingSession.OpenFailure BillingSession × World :=
  match relayInfo with
  | none => (.error (.error (newError "relayInfo is nil" .invalidRequest)), w)
  | some relayInfo =>
    let pref := normalizeBillingPreference relayInfo.billingPreference
    if pref = "subscription_only" then trySubscription cfg env preConsumedQuota relayInfo w
    else if pref = "wallet_only" then (tryWallet cfg env preConsumedQuota relayInfo w).1
    else if pref = "wallet_first" then
      match tryWallet cfg env preConsumedQuota relayInfo w with
      | ((.error (.error e), w), relayInfo) =>
        if e.errorCode = .insufficientUserQuota then
          trySubscription cfg env preConsumedQuota relayInfo w
        else (.error (.error e), w)
      | (r, _) => r
    else
      match hasActiveUserSubscription env.active relayInfo.userId env.now w.store with
      | .error e => (.error (.error (newError e .queryDataError)), w)
      | .ok false => (tryWallet cfg env preConsumedQuota relayInfo w).1
      | .ok true =>
        match trySubscription cfg env preConsumedQuota relayInfo w with
        | (.error (.error e), w) =>
          if e.errorCode = .insufficientUserQuota then
            (tryWallet cfg env preConsumedQuota relayInfo w).1
          else (.error (.error e), w)
        | r => r

end NewApi

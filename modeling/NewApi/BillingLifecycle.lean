/-
**A billing session from its opening to its end.**

After a session has been opened its methods can be called in any order, the job of a refund runs
some time later, and other requests change the world in between.  Next to the session two numbers
are kept: what its own code has taken from the funding source and from the token, measured by the
balances before and after each call.

The session is a hold on an amount (`Hold`): reserving changes the amount, settling captures the
actual amount, refunding releases it.  Every call whose compensating updates succeed is a step of
the hold, and the amount of the hold is what has been taken.  What holds of every hold therefore
holds of the session: it is either settled or refunded.

There is one exception.  Settling does not look at `refunded`, and a session that is settled after
it has been refunded takes the difference to an amount that has been given back.

Main definitions:

* `NewApi.BillingOp`, `NewApi.BillingState`, `NewApi.billingStep` — the calls and what they do;
* `NewApi.Regular`, `NewApi.Compensated` — calls whose compensating updates succeed;
* `NewApi.Holds` — **the session as a hold**.

Main results:

* `NewApi.billingStep_holds` — a call is a step of the hold;
* `NewApi.session_conserves_quota` — what has been taken before, after settling, after refunding;
* `NewApi.settle_refund_exclusive` — settling and refunding exclude each other.
-/

import NewApi.BillingOpening
import NewApi.Lib.Hold

set_option autoImplicit false

namespace NewApi

open BillingSession
open Transition (run Along)

/-! ### Calls -/

/-- A call of a method, a run of the job of a refund, or other requests changing the world. -/
inductive BillingOp where
  | settle (faults : SettleFaults) (actualQuota : ℤ)
  | refund
  | runJob (env : JobEnv)
  | reserve (env : ReserveEnv) (targetQuota : ℤ)
  | others (world : World)

/-- A session in the world, with the jobs that have not run yet.  The last three fields record what
the session's own code has taken from the funding source and from the token, and the amount the
session has been settled at. -/
structure BillingState where
  world : World
  session : BillingSession
  jobs : List RefundJob
  fundingTaken : ℤ
  tokenTaken : ℤ
  settledAs : Option ℤ

/-- The state after the session's code has left `session` and `world`. -/
def BillingState.move (s : BillingState) (session : BillingSession) (world : World) :
    BillingState :=
  { s with
    world := world
    session := session
    fundingTaken := s.fundingTaken
      + (s.session.funding.balance s.world - s.session.funding.balance world)
    tokenTaken := s.tokenTaken + (s.world.tokenRemain s.session.relayInfo.tokenId
      - world.tokenRemain s.session.relayInfo.tokenId) }

/-- The state after a call. -/
def billingStep (cfg : BillingConfig) (s : BillingState) : BillingOp → BillingState
  | .settle faults actualQuota =>
    let r := s.session.settle cfg faults actualQuota s.world
    { s.move r.1.2 r.2 with
      settledAs := if s.session.settled then s.settledAs
        else if r.1.2.settled then some actualQuota else none }
  | .refund =>
    let r := s.session.refund
    { s with session := r.1, jobs := s.jobs ++ r.2.toList }
  | .runJob env =>
    match s.jobs with
    | [] => s
    | job :: rest =>
      { s.move s.session (job.run cfg env s.session.funding s.world) with jobs := rest }
  | .reserve env targetQuota =>
    let r := s.session.reserve cfg env targetQuota s.world
    s.move r.1.2 r.2
  | .others world => { s with world := world }

/-- What opening the session has taken from the funding source: the used amount of a subscription
counts from its reset, if it was due. -/
def openingTaken (cfg : BillingConfig) (env : OpenEnv) (relayInfo : RelayInfo)
    (session : BillingSession) (w w' : World) : ℤ :=
  match session.funding with
  | .wallet f => w.userQuota f.userId - w'.userQuota f.userId
  | .subscription f => w'.store.amountUsed f.subscriptionId -
      if resetByPreConsume cfg.loc env.subscription.funding.sub relayInfo.userId f.subscriptionId
        f.subscriptionId w.store then 0
      else w.store.amountUsed f.subscriptionId

/-- The state after a session has been opened. -/
def openedState (cfg : BillingConfig) (env : OpenEnv) (relayInfo : RelayInfo)
    (session : BillingSession) (w w' : World) : BillingState where
  world := w'
  session := session
  jobs := []
  fundingTaken := openingTaken cfg env relayInfo session w w'
  tokenTaken := w.tokenRemain relayInfo.tokenId - w'.tokenRemain relayInfo.tokenId
  settledAs := none

/-- Open a session and start to follow it. -/
def openBilling (cfg : BillingConfig) (env : OpenEnv) (relayInfo : RelayInfo) (quota : ℤ)
    (w : World) : Option BillingState :=
  match newBillingSession cfg env (some relayInfo) quota w with
  | (.ok session, w') => some (openedState cfg env relayInfo session w w')
  | _ => none

@[simp] theorem BillingState.move_self (s : BillingState) : s.move s.session s.world = s := by
  simp [BillingState.move]

/-! ### Conditions on calls -/

/-- The record of the session's request is the same in both worlds. -/
def SameRecord (funding : FundingSource) (w w' : World) : Prop :=
  match funding with
  | .wallet _ => True
  | .subscription f => w'.store.record f.requestId = w.store.record f.requestId

/-- A session that has been refunded is not settled, a subscription's used amount is not cut at
zero, and compensating updates of the funding source succeed; the job of a refund is made at all
or, where that is admitted, not at all.  Other requests leave the session's record alone. -/
def Regular (cfg : BillingConfig) (mayFail : Prop) (s : BillingState) : BillingOp → Prop
  | .settle _ actualQuota => s.session.settled = true ∨ (s.session.refunded = false ∧
      s.session.funding.Covers (actualQuota - s.session.preConsumedQuota) s.world)
  | .refund => True
  | .runJob env => s.jobs = [] ∨ s.session.PaysBack cfg env s.world ∨
      (mayFail ∧ s.session.PaysNothing cfg env s.world)
  | .reserve env _ => env.RollsBack cfg s.session.funding
  | .others world => StoreInv world.store ∧ SameRecord s.session.funding s.world world

/-- The token is given back when the job of a refund runs. -/
def TokenSafe (cfg : BillingConfig) : BillingOp → Prop
  | .runJob env => cfg.Reliable env.token
  | _ => True

/-- All compensating updates succeed. -/
def Compensated (cfg : BillingConfig) (s : BillingState) (op : BillingOp) : Prop :=
  Regular cfg False s op ∧ TokenSafe cfg op

/-! ### The session as a hold -/

/-- The hold a session is in. -/
inductive Holds (s : BillingState) : Hold ℤ → Prop
  | held {a : ℤ} : s.session.settled = false → s.session.refunded = false →
      s.session.fundingSettled = false → s.settledAs = none → s.jobs = [] →
      s.session.Counted s.world → s.session.preConsumedQuota = a → s.fundingTaken = a →
      Holds s (.held a)
  | captured {a : ℤ} : s.session.settled = true → s.session.refunded = false → s.jobs = [] →
      s.settledAs = some a → s.fundingTaken = a → Holds s (.captured a)
  | releasing {a : ℤ} : s.session.settled = false → s.session.refunded = true →
      s.jobs = [s.session.refundJob] → s.session.Counted s.world →
      s.session.preConsumedQuota = a → s.fundingTaken = a → Holds s (.releasing a)
  | released : s.session.settled = false → s.session.refunded = true → s.jobs = [] →
      s.fundingTaken = 0 → Holds s .released
  | kept {a : ℤ} : s.session.settled = false → s.session.refunded = true → s.jobs = [] →
      s.session.preConsumedQuota = a → s.fundingTaken = a → Holds s (.kept a)

/-- The amount of the hold is what has been taken. -/
theorem Holds.net {s : BillingState} {h : Hold ℤ} (hs : Holds s h) : s.fundingTaken = h.net := by
  cases hs <;> assumption

/-- Until the session is settled, what has been taken from the token is what has been taken from
the funding source; the playground's token is never charged. -/
def TokenFollows (s : BillingState) : Prop :=
  s.session.settled = false →
    s.tokenTaken = if s.session.relayInfo.isPlayground then 0 else s.fundingTaken

/-- What is said about one step: the store invariant is kept, the session is in a state the hold
can get to, and the token follows if it is given back. -/
structure StepHolds (mayFail : Prop) (hold : Hold ℤ) (tokenSafe : Prop) (s s' : BillingState) :
    Prop where
  store : StoreInv s'.world.store
  simulates : ∃ hold', Hold.Reach mayFail hold hold' ∧ Holds s' hold'
  token : tokenSafe → TokenFollows s → TokenFollows s'
  playground : s'.session.relayInfo.isPlayground = s.session.relayInfo.isPlayground
  tokenId : s'.session.relayInfo.tokenId = s.session.relayInfo.tokenId

theorem StepHolds.same {mayFail tokenSafe : Prop} {hold : Hold ℤ} {s : BillingState}
    (hinv : StoreInv s.world.store) (h : Holds s hold) : StepHolds mayFail hold tokenSafe s s :=
  ⟨hinv, ⟨hold, .refl, h⟩, fun _ ht => ht, rfl, rfl⟩

/-! ### One step -/

/-- What the session has charged depends only on the records of the world. -/
theorem BillingSession.Counted.of_sameRecord {s : BillingSession} {w w' : World} (h : s.Counted w)
    (hsame : SameRecord s.funding w w') : s.Counted w' := by
  obtain ⟨hpre, htoken, hextra, hfunding⟩ := h
  refine ⟨hpre, htoken, hextra, ?_⟩
  cases hf : s.funding with
  | wallet f =>
    rw [hf] at hfunding
    exact hfunding
  | subscription f =>
    rw [hf] at hfunding hsame
    obtain ⟨hsum, hpos, hid, record, hrecord, hrest⟩ := hfunding
    exact ⟨hsum, hpos, hid, record, (show w'.store.record f.requestId = _ from hsame).trans
      hrecord, hrest⟩

theorem sameRecord_of_records {funding : FundingSource} {w w' : World}
    (h : w'.store.records = w.store.records) : SameRecord funding w w' := by
  cases funding with
  | wallet f => trivial
  | subscription f => simp only [SameRecord, Tables.record, h]

theorem BillingSession.Counted.raised {s : BillingSession} {w : World} {delta : ℤ} (h : s.Counted w)
    (hdelta : 0 < delta) : (s.raised delta).Counted w := by
  obtain ⟨hpre, htoken, hextra, hfunding⟩ := h
  unfold BillingSession.raised Counted
  simp only [syncRelayInfo_preConsumedQuota, syncRelayInfo_tokenConsumed,
    syncRelayInfo_extraReserved, syncRelayInfo_funding]
  refine ⟨by omega, by omega, by omega, ?_⟩
  cases hf : s.funding with
  | wallet f =>
    rw [hf] at hfunding
    simp only [FundingSource.raise]
    omega
  | subscription f =>
    rw [hf] at hfunding
    obtain ⟨hsum, hpos, hid, hrecord⟩ := hfunding
    simp only [FundingSource.raise]
    exact ⟨by omega, hpos, syncRelayInfo_subscriptionId _ rfl, hrecord⟩

@[simp] theorem balance_takeToken (funding : FundingSource) (relayInfo : RelayInfo) (x : ℤ)
    (w : World) : funding.balance (relayInfo.takeToken x w) = funding.balance w := by
  cases funding <;> simp [FundingSource.balance]

/-- What a charge of the token takes from it. -/
theorem remain_takeToken (relayInfo : RelayInfo) (x : ℤ) (w : World) :
    (relayInfo.takeToken x w).tokenRemain relayInfo.tokenId
      = w.tokenRemain relayInfo.tokenId - if relayInfo.isPlayground then 0 else x := by
  cases hplay : relayInfo.isPlayground with
  | true => simp [RelayInfo.takeToken_playground relayInfo x w hplay]
  | false => simp [RelayInfo.takeToken_remain relayInfo x w hplay]

/-- Settling a held session fails and changes nothing, or captures the actual amount; the token
follows when no error is returned. -/
theorem settle_held {cfg : BillingConfig} {faults : SettleFaults} {actualQuota a : ℤ}
    {s : BillingState} (hinv : StoreInv s.world.store) (h : Holds s (.held a))
    (hcovers : s.session.funding.Covers (actualQuota - s.session.preConsumedQuota) s.world) :
    ((s.session.settle cfg faults actualQuota s.world).1.1 ≠ none ∧
      billingStep cfg s (.settle faults actualQuota) = s) ∨
    (Holds (billingStep cfg s (.settle faults actualQuota)) (.captured actualQuota) ∧
      StoreInv (billingStep cfg s (.settle faults actualQuota)).world.store ∧
      SettledFrom s.session (billingStep cfg s (.settle faults actualQuota)).session ∧
      ((s.session.settle cfg faults actualQuota s.world).1.1 = none →
        (billingStep cfg s (.settle faults actualQuota)).tokenTaken = s.tokenTaken
          + if s.session.relayInfo.isPlayground then 0
            else actualQuota - s.session.preConsumedQuota)) := by
  cases h with
  | held hsettled hrefunded hfunding hnone hjobs hcounted hpre htaken =>
    rcases settle_cases cfg faults hsettled hfunding hcovers with
      ⟨e, he⟩ | ⟨session, w₁, hfrom, htakes, ⟨e, hresult⟩ | hresult⟩
    · refine Or.inl ⟨by simp [he], ?_⟩
      simp only [billingStep, he, BillingState.move_self, hsettled, Bool.false_eq_true, if_false]
      rw [← hnone]
    · refine Or.inr ⟨?_, ?_, ?_, ?_⟩
      all_goals simp only [billingStep, hresult, BillingState.move]
      · refine Holds.captured hfrom.settled (hfrom.refunded.trans hrefunded) hjobs ?_ ?_
        · simp [hsettled, hfrom.settled]
        · simp only [htakes.balance]
          omega
      · exact Writes.inv hinv htakes.writes
      · exact hfrom
      · simp
    · refine Or.inr ⟨?_, ?_, ?_, ?_⟩
      all_goals simp only [billingStep, hresult, BillingState.move]
      · refine Holds.captured hfrom.settled (hfrom.refunded.trans hrefunded) hjobs ?_ ?_
        · simp [hsettled, hfrom.settled]
        · simp only [balance_takeToken, htakes.balance]
          omega
      · rw [RelayInfo.takeToken_store]
        exact Writes.inv hinv htakes.writes
      · exact hfrom
      · intro _
        rw [remain_takeToken, htakes.token]
        omega

/-- A session that is settled is not changed by its methods. -/
theorem settle_of_captured {cfg : BillingConfig} {faults : SettleFaults} {actualQuota : ℤ}
    {s : BillingState} (h : s.session.settled = true) :
    billingStep cfg s (.settle faults actualQuota) = s := by
  simp only [billingStep, settle_of_settled h, BillingState.move_self, h, if_true]

/-- A refund of a session that is settled or refunded does nothing. -/
theorem refund_of_closed {cfg : BillingConfig} {s : BillingState}
    (h : s.session.settled = true ∨ s.session.refunded = true) :
    billingStep cfg s .refund = s := by
  rcases s.session.refund_cases with ⟨hsame, _⟩ | ⟨hsettled, hrefunded, _, _⟩
  · simp [billingStep, hsame]
  · rcases h with h | h
    · rw [hsettled] at h
      simp at h
    · rw [hrefunded] at h
      simp at h

theorem reserve_of_closed {cfg : BillingConfig} {env : ReserveEnv} {targetQuota : ℤ}
    {s : BillingState} (h : s.session.settled = true ∨ s.session.refunded = true) :
    billingStep cfg s (.reserve env targetQuota) = s := by
  simp only [billingStep, BillingSession.reserve_of_closed h, BillingState.move_self]

theorem runJob_of_nil {cfg : BillingConfig} {env : JobEnv} {s : BillingState} (h : s.jobs = []) :
    billingStep cfg s (.runJob env) = s := by
  simp only [billingStep, h]

/-- A refund of a held session does nothing when nothing has been charged, or promises the
release. -/
theorem refund_held (cfg : BillingConfig) {a : ℤ} {s : BillingState} (h : Holds s (.held a)) :
    (billingStep cfg s .refund = s ∧ a = 0) ∨
    (Holds (billingStep cfg s .refund) (.releasing a) ∧
      (billingStep cfg s .refund).session = { s.session with refunded := true } ∧
      (billingStep cfg s .refund).world = s.world ∧
      (billingStep cfg s .refund).fundingTaken = s.fundingTaken ∧
      (billingStep cfg s .refund).tokenTaken = s.tokenTaken) := by
  cases h with
  | held hsettled hrefunded hfunding hnone hjobs hcounted hpre htaken =>
    rcases s.session.refund_cases with ⟨hsame, hwhy⟩ | ⟨_, _, _, hstart⟩
    · refine Or.inl ⟨by simp [billingStep, hsame], ?_⟩
      have hneeds : s.session.needsRefund = false := by
        rcases hwhy with hwhy | hwhy | hwhy
        · rw [hsettled] at hwhy
          simp at hwhy
        · rw [hrefunded] at hwhy
          simp at hwhy
        · exact hwhy
      obtain ⟨hpos, htoken, _, _⟩ := hcounted
      simp only [needsRefund, hsettled, hrefunded, hfunding, Bool.or_self, Bool.false_eq_true,
        if_false] at hneeds
      split_ifs at hneeds with hcharged
      omega
    · refine Or.inr ⟨?_, by simp [billingStep, hstart], by simp [billingStep],
        by simp [billingStep], by simp [billingStep]⟩
      simp only [billingStep, hstart, hjobs, Option.toList_some, List.nil_append]
      exact Holds.releasing hsettled rfl rfl hcounted hpre htaken

/-- The job of a refund makes the release, or leaves the amount taken. -/
theorem runJob_releasing {cfg : BillingConfig} {mayFail : Prop} {env : JobEnv} {a : ℤ}
    {s : BillingState} (hinv : StoreInv s.world.store) (h : Holds s (.releasing a))
    (hop : s.session.PaysBack cfg env s.world ∨ (mayFail ∧ s.session.PaysNothing cfg env s.world)) :
    StepHolds mayFail (.releasing a) (cfg.Reliable env.token ∧ ¬ mayFail) s
      (billingStep cfg s (.runJob env)) := by
  cases h with
  | releasing hsettled hrefunded hjobs hcounted hpre htaken =>
    have htoken : s.session.tokenConsumed = s.session.preConsumedQuota := hcounted.2.1
    have hpos : 0 ≤ s.session.tokenConsumed := by
      have := hcounted.1
      omega
    obtain ⟨hrun, hreliable⟩ := run_token cfg env s.world hpos
    have hbalance : s.session.funding.balance (s.session.refundJob.run cfg env s.session.funding
        s.world) = s.session.funding.balance
          (giveBackFunding cfg env s.session.funding s.session.refundJob s.world) := by
      rcases hrun with hrun | hrun <;> simp [hrun]
    have hstore : (s.session.refundJob.run cfg env s.session.funding s.world).store
        = (giveBackFunding cfg env s.session.funding s.session.refundJob s.world).store := by
      rcases hrun with hrun | hrun <;> simp [hrun]
    rcases hop with hpays | ⟨hfail, hnothing⟩
    · obtain ⟨hback, hremain, hwrites⟩ := giveBackFunding_paysBack hinv hcounted hpays
      refine ⟨?_, ⟨.released, .single (.payBack a), ?_⟩, fun hsafe hfollows _ => ?_, ?_, ?_⟩
      all_goals simp only [billingStep, hjobs, BillingState.move]
      · rw [hstore]
        exact Writes.inv hinv hwrites
      · refine Holds.released hsettled hrefunded rfl ?_
        simp only
        omega
      · have hfollows := hfollows hsettled
        rw [hbalance, hback, hreliable hsafe.1]
        have htake := remain_takeToken s.session.relayInfo (-s.session.tokenConsumed)
          (giveBackFunding cfg env s.session.funding s.session.refundJob s.world)
        rw [htake, hremain]
        split_ifs at hfollows ⊢ <;> omega
    · have hsame := giveBackFunding_paysNothing hinv hcounted hnothing
      rw [hsame] at hbalance hstore
      refine ⟨?_, ⟨.kept a, .single (.fail a hfail), ?_⟩, fun hsafe => absurd hfail hsafe.2, ?_,
        ?_⟩
      all_goals simp only [billingStep, hjobs, BillingState.move]
      · rw [hstore]
        exact hinv
      · refine Holds.kept hsettled hrefunded rfl hpre ?_
        simp only
        omega

/-- A reservation of a held session changes the amount of the hold. -/
theorem reserve_held {cfg : BillingConfig} {mayFail tokenSafe : Prop} {env : ReserveEnv}
    {targetQuota a : ℤ} {s : BillingState} (hinv : StoreInv s.world.store) (h : Holds s (.held a))
    (hroll : env.RollsBack cfg s.session.funding) :
    StepHolds mayFail (.held a) tokenSafe s (billingStep cfg s (.reserve env targetQuota)) := by
  cases h with
  | held hsettled hrefunded hfunding hnone hjobs hcounted hpre htaken =>
    rcases reserve_cases targetQuota hinv hroll with
      ⟨hsession, htakes⟩ | ⟨delta, w₁, hdelta, htakes, hresult⟩
    · have hbalance := htakes.balance
      refine ⟨?_, ⟨.held a, .refl, ?_⟩, fun _ hfollows _ => ?_, ?_, ?_⟩
      all_goals simp only [billingStep, BillingState.move, hsession]
      · exact Writes.inv hinv htakes.writes
      · refine Holds.held hsettled hrefunded hfunding hnone hjobs
          (hcounted.of_sameRecord (sameRecord_of_records htakes.records)) hpre ?_
        simp only
        omega
      · have hfollows := hfollows hsettled
        rw [htakes.token, hbalance]
        split_ifs at hfollows ⊢ <;> omega
    · have hbalance := htakes.balance
      refine ⟨?_, ⟨.held (a + delta), .single (.change a (a + delta)), ?_⟩,
        fun _ hfollows _ => ?_, ?_, ?_⟩
      all_goals simp only [billingStep, BillingState.move, hresult]
      · rw [RelayInfo.takeToken_store]
        exact Writes.inv hinv htakes.writes
      · have hcounted' : s.session.Counted (s.session.relayInfo.takeToken delta w₁) := by
          refine hcounted.of_sameRecord (sameRecord_of_records ?_)
          rw [RelayInfo.takeToken_store]
          exact htakes.records
        refine Holds.held ?_ ?_ ?_ hnone hjobs (hcounted'.raised hdelta) ?_ ?_
        · simp [BillingSession.raised, hsettled]
        · simp [BillingSession.raised, hrefunded]
        · simp [BillingSession.raised, hfunding]
        · simp [BillingSession.raised, hpre]
        · simp only [balance_takeToken]
          omega
      · have hfollows := hfollows hsettled
        rw [remain_takeToken, htakes.token]
        simp only [balance_takeToken, BillingSession.raised, syncRelayInfo_isPlayground]
        split_ifs at hfollows ⊢ <;> omega
      · simp [BillingSession.raised]
      · simp [BillingSession.raised]

/-- Other requests do not concern the hold. -/
theorem others_holds {cfg : BillingConfig} {world : World} {hold : Hold ℤ} {s : BillingState}
    (h : Holds s hold) (hsame : SameRecord s.session.funding s.world world) :
    Holds (billingStep cfg s (.others world)) hold := by
  cases h with
  | held hsettled hrefunded hfunding hnone hjobs hcounted hpre htaken =>
    exact Holds.held hsettled hrefunded hfunding hnone hjobs (hcounted.of_sameRecord hsame) hpre
      htaken
  | captured hsettled hrefunded hjobs hat htaken =>
    exact Holds.captured hsettled hrefunded hjobs hat htaken
  | releasing hsettled hrefunded hjobs hcounted hpre htaken =>
    exact Holds.releasing hsettled hrefunded hjobs (hcounted.of_sameRecord hsame) hpre htaken
  | released hsettled hrefunded hjobs htaken =>
    exact Holds.released hsettled hrefunded hjobs htaken
  | kept hsettled hrefunded hjobs hpre htaken =>
    exact Holds.kept hsettled hrefunded hjobs hpre htaken

/-- A session that is not held any more is settled or refunded. -/
theorem Holds.closed {s : BillingState} {hold : Hold ℤ} (h : Holds s hold) :
    (∃ a, hold = .held a) ∨ s.session.settled = true ∨
      (s.session.settled = false ∧ s.session.refunded = true) := by
  cases h with
  | held => exact Or.inl ⟨_, rfl⟩
  | captured hsettled => exact Or.inr (Or.inl hsettled)
  | releasing hsettled hrefunded => exact Or.inr (Or.inr ⟨hsettled, hrefunded⟩)
  | released hsettled hrefunded => exact Or.inr (Or.inr ⟨hsettled, hrefunded⟩)
  | kept hsettled hrefunded => exact Or.inr (Or.inr ⟨hsettled, hrefunded⟩)

/-- Only a session whose release is promised has a job. -/
theorem Holds.job {s : BillingState} {hold : Hold ℤ} (h : Holds s hold) :
    s.jobs = [] ∨ ∃ a, hold = .releasing a := by
  cases h with
  | held _ _ _ _ hjobs => exact Or.inl hjobs
  | captured _ _ hjobs => exact Or.inl hjobs
  | releasing => exact Or.inr ⟨_, rfl⟩
  | released _ _ hjobs => exact Or.inl hjobs
  | kept _ _ hjobs => exact Or.inl hjobs

/-- **A call is a step of the hold.** -/
theorem billingStep_holds {cfg : BillingConfig} {mayFail : Prop} {hold : Hold ℤ}
    {s : BillingState} {op : BillingOp} (hinv : StoreInv s.world.store) (h : Holds s hold)
    (hop : Regular cfg mayFail s op) :
    StepHolds mayFail hold (TokenSafe cfg op ∧ ¬ mayFail) s (billingStep cfg s op) := by
  cases op with
  | settle faults actualQuota =>
    rcases h.closed with ⟨a, rfl⟩ | hsettled | ⟨hsettled, hrefunded⟩
    · have hcovers : s.session.funding.Covers (actualQuota - s.session.preConsumedQuota)
          s.world := by
        rcases hop with hsettled | hop
        · cases h with
          | held hunsettled =>
            rw [hunsettled] at hsettled
            simp at hsettled
        · exact hop.2
      rcases settle_held hinv h hcovers with ⟨_, hsame⟩ | ⟨hcaptured, hinv', hfrom, _⟩
      · rw [hsame]
        exact .same hinv h
      · refine ⟨hinv', ⟨_, .single (.capture a actualQuota), hcaptured⟩, fun _ _ hunsettled => ?_,
          hfrom.isPlayground, hfrom.tokenId⟩
        rw [hfrom.settled] at hunsettled
        simp at hunsettled
    · rw [settle_of_captured hsettled]
      exact .same hinv h
    · rcases hop with hop | hop
      · rw [hsettled] at hop
        simp at hop
      · rw [hrefunded] at hop
        simp at hop
  | refund =>
    rcases h.closed with ⟨a, rfl⟩ | hclosed
    · rcases refund_held cfg h with ⟨hsame, _⟩ | ⟨hreleasing, hsession, hworld, htaken, htoken⟩
      · rw [hsame]
        exact .same hinv h
      · refine ⟨by rw [hworld]; exact hinv, ⟨_, .single (.release a), hreleasing⟩,
          fun _ hfollows hunsettled => ?_, by rw [hsession], by rw [hsession]⟩
        rw [hsession] at hunsettled ⊢
        rw [htoken, htaken]
        exact hfollows hunsettled
    · rw [refund_of_closed (hclosed.imp_right And.right)]
      exact .same hinv h
  | runJob env =>
    rcases h.job with hnil | ⟨a, rfl⟩
    · rw [runJob_of_nil hnil]
      exact .same hinv h
    · rcases hop with hnil | hop
      · rw [runJob_of_nil hnil]
        exact .same hinv h
      · exact runJob_releasing hinv h hop
  | reserve env targetQuota =>
    rcases h.closed with ⟨a, rfl⟩ | hclosed
    · exact reserve_held hinv h hop
    · rw [reserve_of_closed (hclosed.imp_right And.right)]
      exact .same hinv h
  | others world =>
    exact ⟨hop.1, ⟨hold, .refl, others_holds h hop.2⟩, fun _ hfollows => hfollows, rfl, rfl⟩

/-- A session that is settled has been captured and is not refunded. -/
theorem Holds.of_settled {s : BillingState} {hold : Hold ℤ} (h : Holds s hold)
    (hsettled : s.session.settled = true) :
    (∃ a, hold = .captured a ∧ s.fundingTaken = a) ∧ s.session.refunded = false := by
  cases h with
  | held hunsettled => simp [hsettled] at hunsettled
  | captured _ hrefunded _ _ htaken => exact ⟨⟨_, rfl, htaken⟩, hrefunded⟩
  | releasing hunsettled => simp [hsettled] at hunsettled
  | released hunsettled => simp [hsettled] at hunsettled
  | kept hunsettled => simp [hsettled] at hunsettled

/-- The release of a session that is refunded has been promised. -/
theorem Holds.promised {s : BillingState} {hold : Hold ℤ} (h : Holds s hold)
    (hrefunded : s.session.refunded = true) : hold.Promised := by
  cases h with
  | held _ hrefunded' => simp [hrefunded] at hrefunded'
  | captured _ hrefunded' => simp [hrefunded] at hrefunded'
  | releasing => trivial
  | released => trivial
  | kept => trivial

/-- A session whose release has been promised is not settled. -/
theorem Holds.unsettled {s : BillingState} {hold : Hold ℤ} (h : Holds s hold)
    (hpromised : hold.Promised) : s.session.settled = false := by
  cases h with
  | held hsettled => exact hsettled
  | captured => exact hpromised.elim
  | releasing hsettled => exact hsettled
  | released hsettled => exact hsettled
  | kept hsettled => exact hsettled

/-! ### Opening -/

@[simp] theorem openedSession_isPlayground (relayInfo : RelayInfo) (trusted : Bool) (quota : ℤ)
    (funding : FundingSource) :
    (openedSession relayInfo trusted quota funding).relayInfo.isPlayground
      = relayInfo.isPlayground := by
  simp [openedSession, start]

/-- What is said of the state after an opening. -/
structure OpenedHolds (cfg : BillingConfig) (env : OpenEnv) (relayInfo : RelayInfo)
    (session : BillingSession) (w w' : World) : Prop where
  store : StoreInv w'.store
  holds : Holds (openedState cfg env relayInfo session w w') (.held session.preConsumedQuota)
  playground : session.relayInfo.isPlayground = relayInfo.isPlayground
  token : env.RollsBack cfg → TokenFollows (openedState cfg env relayInfo session w w')
  untouched : env.RollsBack cfg → relayInfo.isPlayground = true → w'.tokenRemain = w.tokenRemain

theorem WalletOpened.opened {cfg : BillingConfig} {env : OpenEnv} {relayInfo : RelayInfo}
    {quota : ℤ} {w w₀ w' : World} {session : BillingSession} (hinv : StoreInv w.store)
    (hquota : 0 ≤ quota) (hleft : w.Left (env.RollsBack cfg) w₀)
    (h : WalletOpened relayInfo quota session w₀ w') :
    OpenedHolds cfg env relayInfo session w w' := by
  obtain ⟨hstore, huser, hworld⟩ := hleft
  obtain ⟨userQuota, trusted, rfl, rfl⟩ := h
  have hcharged : 0 ≤ (if trusted = true then 0 else quota) := by split <;> omega
  refine ⟨?_, ?_, by simp, fun hroll _ => ?_, fun hroll hplay => ?_⟩
  · simpa [hstore] using hinv
  · refine Holds.held ?_ ?_ ?_ rfl rfl ?_ rfl ?_
    all_goals simp only [openedState]
    · simp
    · simp
    · simp
    · simp only [Counted, openedSession_preConsumedQuota, openedSession_tokenConsumed,
        openedSession_extraReserved, openedSession_funding]
      exact ⟨hcharged, max_eq_right hcharged, le_rfl, max_eq_right hcharged⟩
    · simp only [openingTaken, openedSession_funding, openedSession_preConsumedQuota,
        World.addUserQuota_self, RelayInfo.takeToken_userQuota, huser, max_eq_right hcharged]
      omega
  · obtain rfl := hworld hroll
    simp only [openedState, openingTaken, openedSession_funding, openedSession_isPlayground,
      World.addUserQuota_self, World.addUserQuota_tokenRemain, RelayInfo.takeToken_userQuota,
      remain_takeToken, max_eq_right hcharged]
    split <;> omega
  · obtain rfl := hworld hroll
    simp [RelayInfo.takeToken_playground _ _ _ hplay]

theorem SubscriptionChosen.opened {cfg : BillingConfig} {env : OpenEnv} {relayInfo : RelayInfo}
    {quota : ℤ} {w w₀ w' : World} {session : BillingSession} (hinv : StoreInv w.store)
    (hfresh : w.store.record relayInfo.requestId = none) (hleft : w.Left (env.RollsBack cfg) w₀)
    (h : SubscriptionChosen cfg env.subscription.funding relayInfo quota session w₀ w') :
    OpenedHolds cfg env relayInfo session w w' := by
  obtain ⟨hstore, huser, hworld⟩ := hleft
  obtain ⟨userQuota, f, res, rfl, hanswer, rfl, hrequest, hid, hpreConsumed⟩ := h
  have hpos := subscriptionQuota_pos quota
  rw [RelayInfo.takeToken_store, hstore] at hanswer ⊢
  -- the request had no record, so a subscription has been charged
  obtain ⟨_, _, ⟨existing, hex, _⟩ | ⟨_, ⟨hscan⟩⟩⟩ := preConsume_ok hinv.subIds hanswer
  · have hsome : w.store.record relayInfo.requestId = some existing := hex
    rw [hfresh] at hsome
    simp at hsome
  · obtain ⟨hres, record, hrecord, hstatus, hrecordId, hrecordAmount⟩ := hscan.record
    have hamount : f.preConsumed = subscriptionQuota quota := hpreConsumed.trans hres
    have hused := hscan.amountUsed f.subscriptionId
    rw [if_pos hid.symm, ← hid] at hused
    have htaken : openingTaken cfg env relayInfo
        (openedSession { relayInfo with userQuota := userQuota } false (subscriptionQuota quota)
          (.subscription f)) w
        { relayInfo.takeToken (subscriptionQuota quota) w₀ with
          store := (preConsumeUserSubscription cfg.loc env.subscription.funding.sub
            (newSubscriptionFunding relayInfo quota).requestId
            (newSubscriptionFunding relayInfo quota).userId
            (newSubscriptionFunding relayInfo quota).modelName 0
            (newSubscriptionFunding relayInfo quota).amount w.store).2 }
        = subscriptionQuota quota := by
      simp only [openingTaken, openedSession_funding]
      rw [hused]
      exact add_sub_cancel_left _ _
    refine ⟨@Writes.inv True _ _ hinv (preConsume_writes hinv), ?_, by simp, fun hroll _ => ?_,
      fun hroll hplay => ?_⟩
    · refine Holds.held ?_ ?_ ?_ rfl rfl ?_ rfl ?_
      all_goals simp only [openedState]
      · simp
      · simp
      · simp
      · simp only [Counted, openedSession_preConsumedQuota, openedSession_tokenConsumed,
          openedSession_extraReserved, openedSession_funding, Bool.false_eq_true, if_false]
        refine ⟨hpos.le, max_eq_right hpos.le, le_rfl, by omega, by omega, ?_, record, ?_, hstatus,
          hrecordId.trans hid.symm, hrecordAmount.trans hamount.symm⟩
        · exact syncRelayInfo_subscriptionId _ rfl
        · rw [hrequest]
          exact hrecord
      · rw [htaken]
        simp
    · obtain rfl := hworld hroll
      simp only [openedState, htaken, openedSession_isPlayground, remain_takeToken]
      split <;> omega
    · obtain rfl := hworld hroll
      simp [RelayInfo.takeToken_playground _ _ _ hplay]

/-- A session that has been opened for a request without a record, for an amount that is not
negative, is a hold on that amount. -/
theorem openBilling_opened {cfg : BillingConfig} {env : OpenEnv} {relayInfo : RelayInfo}
    {quota : ℤ} {w : World} {start : BillingState} (hinv : StoreInv w.store)
    (hfresh : w.store.record relayInfo.requestId = none) (hquota : 0 ≤ quota)
    (hopen : openBilling cfg env relayInfo quota w = some start) :
    start = openedState cfg env relayInfo start.session w start.world ∧
      OpenedHolds cfg env relayInfo start.session w start.world := by
  have hcases : Opens cfg env relayInfo quota w
      (newBillingSession cfg env (some relayInfo) quota w) := newBillingSession_cases
  unfold openBilling at hopen
  rcases hcases with ⟨e, w₁, herr, _⟩ | hhang | ⟨session, w₀, w', hleft, hok, hopened⟩
  · simp [herr] at hopen
  · cases hr : newBillingSession cfg env (some relayInfo) quota w with
    | mk r w₁ =>
      rw [hr] at hhang hopen
      obtain rfl : r = .error .hang := hhang
      simp at hopen
  · obtain rfl : openedState cfg env relayInfo session w w' = start := by simpa [hok] using hopen
    refine ⟨rfl, ?_⟩
    rcases hopened with hopened | hopened
    · exact hopened.opened hinv hquota hleft
    · exact hopened.opened hinv hfresh hleft

/-! ### Runs -/

/-- A run of regular calls is a run of the hold. -/
theorem run_holds {cfg : BillingConfig} {mayFail : Prop} {hold : Hold ℤ} {s : BillingState}
    {ops : List BillingOp} (hinv : StoreInv s.world.store) (h : Holds s hold)
    (hops : Along (billingStep cfg) (Regular cfg mayFail) s ops) :
    StoreInv (run (billingStep cfg) s ops).world.store ∧
      ∃ hold', Hold.Reach mayFail hold hold' ∧ Holds (run (billingStep cfg) s ops) hold' := by
  have hstep : ∀ s op, (StoreInv s.world.store ∧ ∃ hold', Hold.Reach mayFail hold hold' ∧
      Holds s hold') → Regular cfg mayFail s op →
      (StoreInv (billingStep cfg s op).world.store ∧ ∃ hold', Hold.Reach mayFail hold hold' ∧
        Holds (billingStep cfg s op) hold') := by
    rintro s op ⟨hinv, hold', hreach, hs⟩ hop
    obtain ⟨hinv', ⟨hold'', hreach', hs'⟩, _, _, _⟩ := billingStep_holds hinv hs hop
    exact ⟨hinv', hold'', hreach.trans hreach', hs'⟩
  exact Transition.run_invariant hstep ⟨hinv, hold, .refl, h⟩ hops

/-- What compensated calls keep: the session is a hold that has not failed to be released, and the
token follows. -/
def Conserved (playground : Bool) (s : BillingState) : Prop :=
  StoreInv s.world.store ∧ (∃ hold, (∀ a, hold ≠ .kept a) ∧ Holds s hold) ∧ TokenFollows s ∧
    s.session.relayInfo.isPlayground = playground

theorem billingStep_conserved {cfg : BillingConfig} {playground : Bool} (s : BillingState)
    (op : BillingOp) (h : Conserved playground s) (hop : Compensated cfg s op) :
    Conserved playground (billingStep cfg s op) := by
  obtain ⟨hinv, ⟨hold, hkept, hs⟩, hfollows, hplay⟩ := h
  obtain ⟨hinv', ⟨hold', hreach, hs'⟩, htoken, hplay', _⟩ := billingStep_holds hinv hs hop.1
  refine ⟨hinv', ⟨hold', fun a ha => ?_, hs'⟩, htoken ⟨hop.2, not_false⟩ hfollows,
    hplay'.trans hplay⟩
  rw [ha] at hreach
  rcases Hold.reach_kept hreach with heq | hfail
  · exact hkept a heq
  · exact hfail

/-- An open session is held. -/
theorem Holds.of_open {s : BillingState} {hold : Hold ℤ} (h : Holds s hold)
    (hsettled : s.session.settled = false) (hrefunded : s.session.refunded = false) :
    hold = .held s.session.preConsumedQuota := by
  cases h with
  | held _ _ _ _ _ _ hpre => rw [hpre]
  | captured hsettled' => simp [hsettled] at hsettled'
  | releasing _ hrefunded' => simp [hrefunded] at hrefunded'
  | released _ hrefunded' => simp [hrefunded] at hrefunded'
  | kept _ hrefunded' => simp [hrefunded] at hrefunded'

/-- Once a session is settled nothing but other requests changes anything. -/
theorem billingStep_settled {cfg : BillingConfig} {s : BillingState} (op : BillingOp)
    (hsettled : s.session.settled = true) (hjobs : s.jobs = []) :
    ∃ world, billingStep cfg s op = { s with world := world } := by
  cases op with
  | settle faults actualQuota => exact ⟨s.world, settle_of_captured hsettled⟩
  | refund => exact ⟨s.world, refund_of_closed (Or.inl hsettled)⟩
  | runJob env => exact ⟨s.world, runJob_of_nil hjobs⟩
  | reserve env targetQuota => exact ⟨s.world, reserve_of_closed (Or.inl hsettled)⟩
  | others world => exact ⟨world, rfl⟩

theorem run_settled {cfg : BillingConfig} {s : BillingState} (ops : List BillingOp)
    (hsettled : s.session.settled = true) (hjobs : s.jobs = []) :
    ∃ world, run (billingStep cfg) s ops = { s with world := world } := by
  have hstep : ∀ s' op, (∃ world, s' = { s with world := world }) →
      ∃ world, billingStep cfg s' op = { s with world := world } := by
    rintro s' op ⟨world, rfl⟩
    exact billingStep_settled (s := { s with world := world }) op hsettled hjobs
  exact Transition.run_invariant_always hstep ⟨s.world, rfl⟩ ops

/-- A call that has a part in giving the charge back. -/
def BillingOp.GivesBack : BillingOp → Prop
  | .refund => True
  | .runJob _ => True
  | .others _ => True
  | _ => False

/-- A refund has been asked for: nothing had been charged, or the release is promised. -/
def Refunding (s : BillingState) : Prop :=
  StoreInv s.world.store ∧ TokenFollows s ∧ ∃ hold, Holds s hold ∧
    (hold = .held 0 ∨ (∃ a, hold = .releasing a) ∨ hold = .released)

theorem billingStep_refunding {cfg : BillingConfig} (s : BillingState) (op : BillingOp)
    (h : Refunding s) (hop : Compensated cfg s op ∧ op.GivesBack) :
    Refunding (billingStep cfg s op) := by
  obtain ⟨hinv, hfollows, hold, hs, hcase⟩ := h
  obtain ⟨hinv', ⟨hold', hreach, hs'⟩, htoken, _, _⟩ := billingStep_holds hinv hs hop.1.1
  have hfollows' := htoken ⟨hop.1.2, not_false⟩ hfollows
  rcases hcase with rfl | ⟨a, rfl⟩ | rfl
  · -- nothing has been charged, and no reservation comes in between
    cases op with
    | settle faults actualQuota => exact hop.2.elim
    | reserve env targetQuota => exact hop.2.elim
    | refund =>
      rcases refund_held cfg hs with ⟨hsame, _⟩ | ⟨hreleasing, _⟩
      · rw [hsame]
        exact ⟨hinv, hfollows, _, hs, Or.inl rfl⟩
      · exact ⟨hinv', hfollows', _, hreleasing, Or.inr (Or.inl ⟨0, rfl⟩)⟩
    | runJob env =>
      have hnil : s.jobs = [] := by
        rcases hs.job with hnil | ⟨a, ha⟩
        · exact hnil
        · simp at ha
      rw [runJob_of_nil hnil]
      exact ⟨hinv, hfollows, _, hs, Or.inl rfl⟩
    | others world => exact ⟨hinv', hfollows', _, others_holds hs hop.1.1.2, Or.inl rfl⟩
  · rcases Hold.reach_releasing hreach with rfl | rfl | ⟨hfail, _⟩
    · exact ⟨hinv', hfollows', _, hs', Or.inr (Or.inl ⟨a, rfl⟩)⟩
    · exact ⟨hinv', hfollows', _, hs', Or.inr (Or.inr rfl)⟩
    · exact hfail.elim
  · rw [Hold.released_final hreach] at hs'
    exact ⟨hinv', hfollows', _, hs', Or.inr (Or.inr rfl)⟩

/-- When the job has run nothing is taken any more. -/
theorem Refunding.taken {s : BillingState} (h : Refunding s) (hjobs : s.jobs = []) :
    s.fundingTaken = 0 ∧ s.tokenTaken = 0 := by
  obtain ⟨_, hfollows, hold, hs, hcase⟩ := h
  have hzero : s.session.settled = false ∧ s.fundingTaken = 0 := by
    rcases hcase with rfl | ⟨a, rfl⟩ | rfl
    · cases hs with
      | held hsettled _ _ _ _ _ _ htaken => exact ⟨hsettled, htaken⟩
    · cases hs with
      | releasing _ _ hjob =>
        rw [hjobs] at hjob
        simp at hjob
    · cases hs with
      | released hsettled _ _ htaken => exact ⟨hsettled, htaken⟩
  refine ⟨hzero.2, ?_⟩
  rw [hfollows hzero.1, hzero.2, ite_self]

/-- A refund of a session that has not been settled. -/
theorem refunding_of_refund {cfg : BillingConfig} {playground : Bool} {s : BillingState}
    (h : Conserved playground s) (hsettled : s.session.settled = false) :
    Refunding (billingStep cfg s .refund) := by
  have hop : Compensated cfg s .refund := ⟨trivial, trivial⟩
  obtain ⟨hinv', _, hfollows', _⟩ := billingStep_conserved s .refund h hop
  obtain ⟨hinv, ⟨hold, hkept, hs⟩, hfollows, _⟩ := h
  cases hold with
  | held a =>
    rcases refund_held cfg hs with ⟨hsame, rfl⟩ | ⟨hreleasing, _⟩
    · rw [hsame]
      exact ⟨hinv, hfollows, _, hs, Or.inl rfl⟩
    · exact ⟨hinv', hfollows', _, hreleasing, Or.inr (Or.inl ⟨a, rfl⟩)⟩
  | captured a =>
    cases hs with
    | captured hsettled' => simp [hsettled] at hsettled'
  | releasing a =>
    have hrefunded : s.session.refunded = true := by
      cases hs with
      | releasing _ hrefunded => exact hrefunded
    rw [refund_of_closed (Or.inr hrefunded)]
    exact ⟨hinv, hfollows, _, hs, Or.inr (Or.inl ⟨a, rfl⟩)⟩
  | released =>
    have hrefunded : s.session.refunded = true := by
      cases hs with
      | released _ hrefunded => exact hrefunded
    rw [refund_of_closed (Or.inr hrefunded)]
    exact ⟨hinv, hfollows, _, hs, Or.inr (Or.inr rfl)⟩
  | kept a => exact absurd rfl (hkept a)

/-- The session's own calls leave the tokens alone in the playground. -/
theorem billingStep_playground {cfg : BillingConfig} {mayFail : Prop} {hold : Hold ℤ}
    {s : BillingState} {op : BillingOp} (hinv : StoreInv s.world.store) (h : Holds s hold)
    (hop : Regular cfg mayFail s op) (hplay : s.session.relayInfo.isPlayground = true)
    (hown : ∀ world, op ≠ .others world) :
    (billingStep cfg s op).world.tokenRemain = s.world.tokenRemain := by
  cases op with
  | others world => exact absurd rfl (hown world)
  | refund => rfl
  | settle faults actualQuota =>
    rcases h.closed with ⟨a, rfl⟩ | hsettled | ⟨hsettled, hrefunded⟩
    · cases h with
      | held hsettled hrefunded hfunding _ _ _ _ _ =>
        have hcovers : s.session.funding.Covers (actualQuota - s.session.preConsumedQuota)
            s.world := by
          rcases hop with hop | hop
          · simp [hsettled] at hop
          · exact hop.2
        rcases settle_cases cfg faults hsettled hfunding hcovers with
          ⟨e, he⟩ | ⟨session, w₁, _, htakes, ⟨e, hresult⟩ | hresult⟩
        · simp [billingStep, BillingState.move, he]
        · simp [billingStep, BillingState.move, hresult, htakes.token]
        · simp [billingStep, BillingState.move, hresult,
            RelayInfo.takeToken_playground _ _ _ hplay, htakes.token]
    · rw [settle_of_captured hsettled]
    · rcases hop with hop | hop
      · simp [hsettled] at hop
      · simp [hrefunded] at hop
  | runJob env =>
    rcases h.job with hnil | ⟨a, rfl⟩
    · rw [runJob_of_nil hnil]
    · cases h with
      | releasing hsettled hrefunded hjobs hcounted hpre htaken =>
        have hpos : 0 ≤ s.session.tokenConsumed := by
          have := hcounted.1
          have := hcounted.2.1
          omega
        have hrun := (run_token cfg env s.world hpos).1
        rw [RelayInfo.takeToken_playground _ _ _ hplay, or_self] at hrun
        simp only [billingStep, BillingState.move, hjobs, hrun]
        rcases hop with hnil | hpays | ⟨_, hnothing⟩
        · simp [hnil] at hjobs
        · exact (giveBackFunding_paysBack hinv hcounted hpays).2.1
        · rw [giveBackFunding_paysNothing hinv hcounted hnothing]
  | reserve env targetQuota =>
    rcases reserve_cases targetQuota hinv hop with ⟨_, htakes⟩ | ⟨delta, w₁, _, htakes, hresult⟩
    · exact htakes.token
    · simp [billingStep, BillingState.move, hresult, RelayInfo.takeToken_playground _ _ _ hplay,
        htakes.token]

/-- **A billing session conserves quota.**  A session is opened for a request without a record and
for an amount that is not negative, and all compensating updates succeed.  Before it is settled or
refunded what has been taken from the funding source and from the token is what the session has
pre-consumed; after the settlement, if it returned no error, it is the actual amount, whatever
follows; after a refund, once its job has run, it is nothing.  The playground's token is never
changed. -/
theorem session_conserves_quota (cfg : BillingConfig) (env : OpenEnv) (relayInfo : RelayInfo)
    (quota : ℤ) (w : World) (start : BillingState) (hinv : StoreInv w.store)
    (hfresh : w.store.record relayInfo.requestId = none) (hquota : 0 ≤ quota)
    (hroll : env.RollsBack cfg) (hopen : openBilling cfg env relayInfo quota w = some start)
    (ops : List BillingOp) (hops : Along (billingStep cfg) (Compensated cfg) start ops) :
    let s := run (billingStep cfg) start ops
    let token : ℤ → ℤ := fun x => if relayInfo.isPlayground then 0 else x
    (s.session.settled = false → s.session.refunded = false →
      s.fundingTaken = s.session.preConsumedQuota ∧
        s.tokenTaken = token s.session.preConsumedQuota) ∧
    (∀ faults actualQuota more, s.session.settled = false →
      (s.session.settle cfg faults actualQuota s.world).1.1 = none →
      Along (billingStep cfg) (Compensated cfg) s (.settle faults actualQuota :: more) →
      let s' := run (billingStep cfg) s (.settle faults actualQuota :: more)
      s'.fundingTaken = actualQuota ∧ s'.tokenTaken = token actualQuota) ∧
    (∀ more, s.session.settled = false → (∀ op ∈ more, op.GivesBack) →
      Along (billingStep cfg) (Compensated cfg) s (.refund :: more) →
      let s' := run (billingStep cfg) s (.refund :: more)
      s'.jobs = [] → s'.fundingTaken = 0 ∧ s'.tokenTaken = 0) ∧
    (relayInfo.isPlayground = true → start.world.tokenRemain = w.tokenRemain ∧
      ∀ op, Compensated cfg s op → (∀ world, op ≠ .others world) →
        (billingStep cfg s op).world.tokenRemain = s.world.tokenRemain) := by
  intro s token
  obtain ⟨hstart, hopened⟩ := openBilling_opened hinv hfresh hquota hopen
  have hconserved : Conserved relayInfo.isPlayground s := by
    refine Transition.run_invariant billingStep_conserved ?_ hops
    rw [hstart]
    exact ⟨hopened.store, ⟨_, by simp, hopened.holds⟩, hopened.token hroll, hopened.playground⟩
  have hconserved' := hconserved
  obtain ⟨hstore, ⟨hold, _, hs⟩, hfollows, hplay⟩ := hconserved'
  refine ⟨fun hsettled hrefunded => ?_, fun faults actualQuota more hsettled hnone halong => ?_,
    fun more hsettled hmore halong => ?_, fun hplayground => ⟨?_, fun op hop hown => ?_⟩⟩
  · have htaken := hs.net
    rw [hs.of_open hsettled hrefunded] at htaken
    rw [hfollows hsettled, hplay, htaken]
    exact ⟨rfl, rfl⟩
  · have hop := halong.1.1
    rcases hop with hop | ⟨hrefunded, hcovers⟩
    · simp [hsettled] at hop
    · have hheld := hs.of_open hsettled hrefunded
      rw [hheld] at hs
      have htaken := hs.net
      rcases settle_held hstore hs hcovers with ⟨herr, _⟩ | ⟨hcaptured, _, hfrom, htoken⟩
      · exact absurd hnone herr
      · have hjobs : (billingStep cfg s (.settle faults actualQuota)).jobs = [] := by
          cases hcaptured with
          | captured _ _ hjobs => exact hjobs
        obtain ⟨world, hfrozen⟩ := run_settled more hfrom.settled hjobs
        rw [Transition.run_cons, hfrozen]
        refine ⟨hcaptured.net, ?_⟩
        simp only
        rw [htoken hnone, hfollows hsettled, hplay, htaken]
        simp only [Hold.net, token]
        split_ifs <;> omega
  · intro s' hjobs
    have hrefunding : Refunding (billingStep cfg s .refund) :=
      refunding_of_refund hconserved hsettled
    have hend : Refunding (run (billingStep cfg) (billingStep cfg s .refund) more) :=
      Transition.run_invariant billingStep_refunding hrefunding
        (Transition.along_and_forall halong.2 hmore)
    exact hend.taken hjobs
  · exact hopened.untouched hroll hplayground
  · exact billingStep_playground hstore hs hop.1 (hplay.trans hplayground) hown

/-- A session of 100 on the wallet. -/
def walletStart : BillingState :=
  (openBilling plainConfig plainOpen (plainRequest "wallet_only") 100
    (plainWorld (Tables.empty fun _ => "default"))).get (by decide)

theorem openBilling_walletStart :
    openBilling plainConfig plainOpen (plainRequest "wallet_only") 100
      (plainWorld (Tables.empty fun _ => "default")) = some walletStart :=
  (Option.some_get _).symm

/-- A session whose token could not be charged the difference answers a second settlement without
an error, and a request that has a record is not charged again. -/
theorem session_not_conserved :
    let s := run (billingStep plainConfig) walletStart
      [.settle { token := some "database is locked" } 150]
    let repeated := openBilling plainConfig plainOpen (plainRequest "subscription_only") 100
      (plainWorld chargedStore)
    (walletStart.session.settle plainConfig { token := some "database is locked" } 150
        walletStart.world).1.1 = some "database is locked" ∧
      (s.session.settle plainConfig {} 150 s.world).1.1 = none ∧
      (billingStep plainConfig s (.settle {} 150)).tokenTaken = 100 ∧
      repeated.map (fun s => (s.session.preConsumedQuota, s.fundingTaken, s.tokenTaken))
        = some (100, 0, 100) := by
  decide

/-- A session is opened for 100, raised to 150 and settled at 70. -/
theorem session_conserves_quota_raised :
    let s := run (billingStep plainConfig) walletStart
      [.reserve { token := { read := .ok 900 } } 150, .settle {} 70]
    s.fundingTaken = 70 ∧ s.tokenTaken = 70 := by
  refine (session_conserves_quota plainConfig plainOpen (plainRequest "wallet_only") 100
    (plainWorld (Tables.empty fun _ => "default")) walletStart (StoreInv.empty _) (by decide)
    (by decide) (by decide) openBilling_walletStart
    [.reserve { token := { read := .ok 900 } } 150] ⟨⟨?_, trivial⟩, trivial⟩).2.1 {} 70 [] ?_ ?_
    ⟨⟨Or.inr ⟨?_, ?_⟩, trivial⟩, trivial⟩
  · exact Or.inr rfl
  · decide
  · decide
  · decide
  · decide

/-- **Settling and refunding exclude each other.**  A session is opened for a request without a
record and for an amount that is not negative, and every call is regular.  Then it is never both
settled and refunded, what has been taken from the funding source is what the session has
pre-consumed, or what it has been settled at, or nothing, and this stays so: a settled session is
not refunded later and keeps its amount, and a refunded session is not settled later. -/
theorem settle_refund_exclusive (cfg : BillingConfig) (env : OpenEnv) (relayInfo : RelayInfo)
    (quota : ℤ) (w : World) (start : BillingState) (hinv : StoreInv w.store)
    (hfresh : w.store.record relayInfo.requestId = none) (hquota : 0 ≤ quota)
    (hopen : openBilling cfg env relayInfo quota w = some start) (ops : List BillingOp)
    (hops : Along (billingStep cfg) (Regular cfg True) start ops) :
    let s := run (billingStep cfg) start ops
    ¬ (s.session.settled = true ∧ s.session.refunded = true) ∧
    (s.fundingTaken = s.session.preConsumedQuota ∨ s.settledAs = some s.fundingTaken ∨
      s.fundingTaken = 0) ∧
    ∀ more, Along (billingStep cfg) (Regular cfg True) s more →
      let s' := run (billingStep cfg) s more
      (s.session.settled = true →
        s'.fundingTaken = s.fundingTaken ∧ s'.session.refunded = false) ∧
      (s.session.refunded = true → s'.session.settled = false) := by
  intro s
  obtain ⟨hstart, hopened⟩ := openBilling_opened hinv hfresh hquota hopen
  have hholds : Holds start (.held start.session.preConsumedQuota) := by
    rw [hstart]
    exact hopened.holds
  obtain ⟨hstore, hold, _, hs⟩ := run_holds hopened.store hholds hops
  refine ⟨?_, ?_, fun more hmore => ?_⟩
  · rintro ⟨hsettled, hrefunded⟩
    rw [(hs.of_settled hsettled).2] at hrefunded
    simp at hrefunded
  · cases hs with
    | held _ _ _ _ _ _ hpre htaken => exact Or.inl (htaken.trans hpre.symm)
    | captured _ _ _ hat htaken => exact Or.inr (Or.inl (by rw [hat, htaken]))
    | releasing _ _ _ _ hpre htaken => exact Or.inl (htaken.trans hpre.symm)
    | released _ _ _ htaken => exact Or.inr (Or.inr htaken)
    | kept _ _ _ hpre htaken => exact Or.inl (htaken.trans hpre.symm)
  · obtain ⟨_, hold', hreach, hs'⟩ := run_holds hstore hs hmore
    refine ⟨fun hsettled => ?_, fun hrefunded => ?_⟩
    · obtain ⟨⟨a, rfl, htaken⟩, _⟩ := hs.of_settled hsettled
      rw [Hold.captured_final hreach] at hs'
      cases hs' with
      | captured _ hrefunded _ _ htaken' => exact ⟨htaken'.trans htaken.symm, hrefunded⟩
    · exact hs'.unsettled ((hs.promised hrefunded).reach hreach)

/-- A session that is settled after its charge has been given back. -/
theorem settled_after_refund :
    let s := run (billingStep plainConfig) walletStart [.refund, .runJob {}, .settle {} 30]
    s.session.settled = true ∧ s.session.refunded = true ∧ s.session.preConsumedQuota = 100 ∧
      s.settledAs = some 30 ∧ s.fundingTaken = -70 := by
  decide

/-- A session that is refunded, and whose job fails. -/
theorem settle_refund_exclusive_jobFails :
    let s := run (billingStep plainConfig) walletStart
      [.refund, .runJob { funding := { user := some "database is locked" } }]
    ¬ (s.session.settled = true ∧ s.session.refunded = true) ∧ s.fundingTaken = 100 := by
  refine ⟨(settle_refund_exclusive plainConfig plainOpen (plainRequest "wallet_only") 100
    (plainWorld (Tables.empty fun _ => "default")) walletStart (StoreInv.empty _) (by decide)
    (by decide) openBilling_walletStart
    [.refund, .runJob { funding := { user := some "database is locked" } }]
    ⟨trivial, Or.inr (Or.inr ⟨trivial, ?_⟩), trivial⟩).1, ?_⟩
  · decide
  · decide

end NewApi

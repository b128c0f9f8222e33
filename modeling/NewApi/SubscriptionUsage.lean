/-
**What the used amount of a subscription stands for.**

A subscription has one used amount.  Pre-consumes charge it, settlements and refunds change it
without going below zero, and the periodic reset sets it to zero, also while requests charged
before are still running.  The subscription does not keep which period a request belongs to, so a
late settlement or refund is taken from the new period.  This module keeps a ledger next to the
tables and shows that the used amount is exactly what the ledger says: the net charges of the
requests of the period, the late changes, and what was cut off at zero.

Main definitions:

* `NewApi.UsageOp`, `NewApi.usageStep` — the transactions that change the used amount;
* `NewApi.ledgerStep` — what they do to the ledger of a subscription;
* `NewApi.UsageRegular` — an operation concerns a request of the period and stays above zero.

Main results:

* `NewApi.usageStep_ledger` — a step moves the used amount as it moves the ledger;
* `NewApi.usage_eq_ledger` — **the used amount is the balance of the ledger**.
-/

import NewApi.Lib.Ledger
import NewApi.SubscriptionRefund

set_option autoImplicit false

namespace NewApi

open Transition (run Along)

/-! ### Transactions -/

/-- The transactions that change used amounts; a settlement is made on behalf of a request. -/
inductive UsageOp where
  | purchase (now : ℤ) (faults : PurchaseFaults) (userId : ℤ) (plan : SubscriptionPlan)
      (source : String)
  | preConsume (env : PreConsumeEnv) (requestId : String) (userId : ℤ) (modelName : String)
      (quotaType amount : ℤ)
  | settle (requestId : String) (faults : TxFaults) (delta : ℤ)
  | refund (faults : RefundFaults) (requestId : String)
  | reset (env : ResetEnv) (userSubscriptionId : ℤ) (plan : SubscriptionPlan)

/-- The tables after a transaction; a settlement changes the subscription of the request's
record. -/
def usageStep (loc : Location) (t : Tables) : UsageOp → Tables
  | .purchase now faults userId plan source =>
    storeStep loc t (.purchase now faults userId plan source)
  | .preConsume env requestId userId modelName quotaType amount =>
    storeStep loc t (.preConsume env requestId userId modelName quotaType amount)
  | .settle requestId faults delta =>
    match t.record requestId with
    | none => t
    | some record => storeStep loc t (.postConsume faults record.userSubscriptionId delta)
  | .refund faults requestId => storeStep loc t (.refund faults requestId)
  | .reset env id plan => (resetOne loc env id plan t).2

/-! ### The ledger of a subscription -/

/-- Whether the due check of a pre-consume resets a candidate. -/
def resetsCandidate (loc : Location) (env : PreConsumeEnv) (c : UserSubscription) : Bool :=
  match getSubscriptionPlanById env.plans c.planId with
  | .error _ => false
  | .ok plan => (resetOutcome loc env.fuel c plan env.now).isReset

/-- The candidates that are tried until the one with the given id is charged. -/
def triedSubs (id : ℤ) : List UserSubscription → List UserSubscription
  | [] => []
  | c :: rest => if c.id = id then [c] else c :: triedSubs id rest

/-- Whether a pre-consume that charges `charged` resets the subscription `id`. -/
def resetByPreConsume (loc : Location) (env : PreConsumeEnv) (userId charged id : ℤ)
    (t : Tables) : Bool :=
  (triedSubs charged (activeSubs userId env.now t)).any fun c =>
    c.id = id && resetsCandidate loc env c

/-- Whether a transaction of a sweep resets the subscription. -/
def resetBySweep (loc : Location) (env : ResetEnv) (id : ℤ) (plan : SubscriptionPlan)
    (t : Tables) : Bool :=
  (resetOne loc env id plan t).1 = (true, none) &&
    match t.sub id with
    | none => false
    | some sub => (resetOutcome loc env.fuel sub plan env.now).isReset

/-- What a transaction does to the ledger of the subscription `id`. -/
def ledgerStep (loc : Location) (id : ℤ) (t : Tables) (l : Ledger String ℤ) :
    UsageOp → Ledger String ℤ
  | .purchase _ _ _ _ _ => l
  | .preConsume env requestId userId modelName quotaType amount =>
    match (preConsumeUserSubscription loc env requestId userId modelName quotaType amount t).1 with
    | .error _ => l
    | .ok res =>
      if t.record requestId = none then
        let l := if resetByPreConsume loc env userId res.userSubscriptionId id t then .reset
          else l
        if res.userSubscriptionId = id then l.charge requestId amount else l
      else l
  | .settle requestId faults delta =>
    match t.record requestId with
    | none => l
    | some record =>
      if record.userSubscriptionId = id then
        match postConsumeUserSubscriptionDelta faults id delta t with
        | .error _ => l
        | .ok _ => l.change requestId delta
      else l
  | .refund faults requestId =>
    match t.record requestId with
    | none => l
    | some record =>
      if record.userSubscriptionId = id ∧ record.status = .consumed ∧ t.sub id ≠ none ∧
          faults.Pays then
        l.change requestId (-record.preConsumed)
      else l
  | .reset env id' plan => if id' = id ∧ resetBySweep loc env id plan t then .reset else l

/-! ### What transactions do to the used amounts -/

theorem ResetOutcome.apply_used (o : ResetOutcome) (s : UserSubscription) :
    (o.apply s).amountUsed = if o.isReset then 0 else s.amountUsed := by cases o <;> rfl

variable {loc : Location} {t : Tables} {id : ℤ}

/-- The due check changes the used amount of its subscription only, and only by a reset. -/
theorem maybeReset_amountUsed {fuel : ℕ} {fault : Fault} {c sub : UserSubscription}
    {plan : SubscriptionPlan} {now : ℤ} {t' : Tables} (hc : t.sub c.id = some c)
    (h : maybeResetUserSubscriptionWithPlanTx loc fuel fault c plan now t = .ok (sub, t')) (id : ℤ) :
    t'.amountUsed id =
      if c.id = id ∧ (resetOutcome loc fuel c plan now).isReset then 0 else t.amountUsed id := by
  obtain ⟨_, _, hself, hother⟩ := maybeReset_sub hc h
  by_cases he : c.id = id
  · subst he
    rw [Tables.amountUsed_of_sub hself, Tables.amountUsed_of_sub hc, (maybeReset_ok h).1,
      ResetOutcome.apply_used]
    simp
  · simp only [Tables.amountUsed, hother id (Ne.symm he), he, false_and, if_false]

/-- The candidates passed over are reset if they are due, and that is all. -/
theorem Scanned.amountUsed {env : PreConsumeEnv} {amount : ℤ} {passed : List UserSubscription}
    {t₁ : Tables} (h : Scanned loc env amount passed t t₁)
    (hrows : ∀ c ∈ passed, t.sub c.id = some c) (hnd : (passed.map (·.id)).Nodup) (id : ℤ) :
    t₁.amountUsed id =
      if passed.any fun c => c.id = id && resetsCandidate loc env c then 0
      else t.amountUsed id := by
  induction h with
  | nil t => simp
  | @cons c sub rest plan t t₁ t₂ hplan hreset hless hscan ih =>
    rw [List.map_cons, List.nodup_cons] at hnd
    have hc := hrows c List.mem_cons_self
    obtain ⟨_, _, _, hother⟩ := maybeReset_sub hc hreset
    have hrest : ∀ c' ∈ rest, t₁.sub c'.id = some c' := by
      intro c' hc'
      rw [hother c'.id fun he => hnd.1 (he ▸ List.mem_map.2 ⟨c', hc', rfl⟩)]
      exact hrows c' (List.mem_cons_of_mem c hc')
    have hone : resetsCandidate loc env c = (resetOutcome loc env.fuel c plan env.now).isReset := by
      simp [resetsCandidate, hplan]
    rw [ih hrest hnd.2, maybeReset_amountUsed hc hreset, List.any_cons, ← hone]
    by_cases hany : (rest.any fun c => c.id = id && resetsCandidate loc env c) = true
    · simp [hany]
    · simp [hany]

theorem triedSubs_append {passed rest : List UserSubscription} {c : UserSubscription}
    (h : c.id ∉ passed.map (·.id)) : triedSubs c.id (passed ++ c :: rest) = passed ++ [c] := by
  induction passed with
  | nil => simp [triedSubs]
  | cons x passed ih =>
    rw [List.map_cons, List.mem_cons, not_or] at h
    simp only [List.cons_append, triedSubs, if_neg (Ne.symm h.1), ih h.2]

/-- A pre-consume that charges a subscription resets those it tried that are due, and adds the
amount to the one it charges. -/
theorem ScanCharged.amountUsed {env : PreConsumeEnv} {requestId : String} {userId amount : ℤ}
    {res : SubscriptionPreConsumeResult} {t' : Tables}
    (h : ScanCharged loc env requestId userId amount res t t') (id : ℤ) :
    t'.amountUsed id =
      (if resetByPreConsume loc env userId res.userSubscriptionId id t then 0
        else t.amountUsed id) + (if res.userSubscriptionId = id then amount else 0) := by
  obtain ⟨passed, c, sub, plan, before, after, hscanned, hrows, hnd, hnot, hfound, _, hreset, _,
    ⟨_, hres, htables⟩, rest, horder, hplan⟩ := h
  obtain ⟨hid, _, hself, _⟩ := maybeReset_sub hfound hreset
  have hresId : res.userSubscriptionId = c.id := by rw [hres]; exact hid
  have hone : resetsCandidate loc env c = (resetOutcome loc env.fuel c plan env.now).isReset := by
    simp [resetsCandidate, hplan]
  -- the row that is charged has what the due check left in it
  have hafter : t'.amountUsed id = after.amountUsed id + (if c.id = id then amount else 0) := by
    rw [htables]
    by_cases he : c.id = id
    · subst he
      rw [if_pos rfl, Tables.amountUsed_of_sub hself, ← hid]
      exact Tables.saveSub_amountUsed_self _ { sub with amountUsed := sub.amountUsed + amount }
    · rw [if_neg he, add_zero]
      exact Tables.saveSub_amountUsed_of_ne (by simpa [hid] using he)
  have hany : resetByPreConsume loc env userId c.id id t =
      ((passed.any fun c => c.id = id && resetsCandidate loc env c) ||
        (decide (c.id = id) && resetsCandidate loc env c)) := by
    rw [resetByPreConsume, horder, triedSubs_append hnot, List.any_append]
    simp
  rw [hresId, hafter, maybeReset_amountUsed hfound hreset, hscanned.amountUsed hrows hnd, hany,
    ← hone]
  by_cases he : c.id = id
  · by_cases hr : resetsCandidate loc env c = true <;> simp [he, hr]
  · simp [he]

/-! ### One step -/

theorem usageStep_writes (hinv : StoreInv t) (op : UsageOp) :
    Writes t (usageStep loc t op) := by
  cases op with
  | purchase now faults userId plan source => exact purchase_writes loc now faults userId plan source t
  | preConsume env requestId userId modelName quotaType amount => exact preConsume_writes hinv
  | settle requestId faults delta =>
    simp only [usageStep]
    split
    · exact .refl
    · exact storeStep_writes hinv _
  | refund faults requestId => exact refund_writes faults requestId t
  | reset env id plan => exact resetOne_writes loc env id plan t

theorem StoreInv.amountUsed_nonneg (h : StoreInv t) (id : ℤ) :
    0 ≤ t.amountUsed id := by
  cases hs : t.sub id with
  | none => simp [Tables.amountUsed, hs]
  | some s =>
    rw [Tables.amountUsed_of_sub hs]
    exact (h.usage s (Tables.sub_mem hs).1).1

/-- Buying a subscription changes no used amount. -/
theorem purchase_amountUsed {now : ℤ} {faults : PurchaseFaults} {userId : ℤ}
    {plan : SubscriptionPlan} {source : String} (hinv : StoreInv t) (id : ℤ) :
    (purchaseSubscription loc now faults userId plan source t).2.amountUsed id
      = t.amountUsed id := by
  have hnew : ∀ (t₀ : Tables) (s : UserSubscription), t₀.subs = t.subs →
      t₀.nextSubId = t.nextSubId → s.amountUsed = 0 →
      (t₀.createSub s).amountUsed id = t.amountUsed id := by
    intro t₀ s hsubs hnext hzero
    have hsame : t₀.sub = t.sub := by funext x; simp only [Tables.sub, hsubs]
    by_cases he : t.nextSubId = id
    · -- the id is handed out for the first time
      have hnone : t₀.sub t₀.nextSubId = none := by
        rw [hsame, hnext]
        refine Rows.first_eq_none.2 fun x hx hk => ?_
        have := (hinv.subIdsLt x hx).2
        omega
      rw [← he, ← hnext, Tables.amountUsed_of_sub (Tables.createSub_sub_self s hnone)]
      simp only [Tables.amountUsed, ← hsame, hnone, Option.map_none, Option.getD_none, hzero]
    · simp only [Tables.amountUsed, Tables.createSub_sub_of_ne s (hnext ▸ he), hsame]
  rcases purchase_cases loc now faults userId plan source t with hsame | hok
  · rw [hsame]
  · obtain ⟨endUnix, prevGroup, _, ⟨_, _, ht⟩ | ⟨_, _, _, ht⟩⟩ := create_ok hok
    · rw [ht]
      exact hnew t _ rfl rfl rfl
    · rw [ht]
      exact hnew _ _ rfl rfl rfl

/-- A step moves the used amount as it moves the ledger. -/
theorem usageStep_ledger {l : Ledger String ℤ} (hinv : StoreInv t)
    (h : t.amountUsed id = l.balance) (op : UsageOp) :
    (usageStep loc t op).amountUsed id = (ledgerStep loc id t l op).balance := by
  cases op with
  | purchase now faults userId plan source =>
    exact (purchase_amountUsed hinv id).trans h
  | preConsume env requestId userId modelName quotaType amount =>
    simp only [usageStep, storeStep, ledgerStep]
    cases hres : (preConsumeUserSubscription loc env requestId userId modelName quotaType amount
        t).1 with
    | error e =>
      rw [preConsume_error hres]
      exact h
    | ok res =>
      obtain ⟨_, _, ⟨existing, hex, _, ht⟩ | ⟨hfresh, ⟨hscan⟩⟩⟩ :=
        preConsume_ok hinv.subIds hres
      · rw [ht]
        simp only [hex, reduceCtorEq, if_false]
        exact h
      · rw [hscan.amountUsed id]
        simp only [hfresh, if_true]
        by_cases hreset : resetByPreConsume loc env userId res.userSubscriptionId id t = true
        · simp only [hreset, if_true]
          by_cases hid : res.userSubscriptionId = id
          · simp only [if_pos hid, Ledger.balance_charge, Ledger.balance_reset]
          · simp only [if_neg hid, Ledger.balance_reset, add_zero]
        · simp only [hreset, Bool.false_eq_true, if_false]
          by_cases hid : res.userSubscriptionId = id
          · simp only [if_pos hid, Ledger.balance_charge, h]
          · simp only [if_neg hid, h, add_zero]
  | settle requestId faults delta =>
    simp only [usageStep, ledgerStep]
    cases hrecord : t.record requestId with
    | none => exact h
    | some record =>
      simp only [storeStep]
      cases hpost : postConsumeUserSubscriptionDelta faults record.userSubscriptionId delta t with
      | error e =>
        by_cases hid : record.userSubscriptionId = id
        · rw [← hid, hpost, hid]
          simpa using h
        · simpa [hid] using h
      | ok t' =>
        by_cases hid : record.userSubscriptionId = id
        · subst hid
          simp only [hpost, if_true, Ledger.balance_change, ← h]
          rcases postConsume_ok hpost with ⟨rfl, rfl⟩ | ⟨sub, hsub, _, rfl⟩
          · have := hinv.amountUsed_nonneg record.userSubscriptionId
            omega
          · rw [Tables.amountUsed_of_sub hsub, ← (Tables.sub_mem hsub).2]
            exact Tables.saveSub_amountUsed_self t
              { sub with amountUsed := max 0 (sub.amountUsed + delta) }
        · simp only [hid, if_false, ← h]
          rcases postConsume_ok hpost with ⟨_, rfl⟩ | ⟨sub, hsub, _, rfl⟩
          · rfl
          · refine Tables.saveSub_amountUsed_of_ne ?_
            simpa [(Tables.sub_mem hsub).2] using hid
  | refund faults requestId =>
    simp only [usageStep, storeStep, ledgerStep]
    cases hrecord : t.record requestId with
    | none =>
      rcases refund_cases faults requestId t with hsame | ⟨record, hfound, _⟩
      · rw [hsame]
        exact h
      · rw [hrecord] at hfound
        simp at hfound
    | some record =>
      by_cases hopen : record.status = .consumed ∧
          t.sub record.userSubscriptionId ≠ none ∧ faults.Pays
      · obtain ⟨hstatus, hsome, hpays⟩ := hopen
        obtain ⟨sub, hsub⟩ := Option.ne_none_iff_exists'.1 hsome
        have hsubId : (refundedSub record sub).id = record.userSubscriptionId :=
          (Tables.sub_mem hsub).2
        have hpaid : (refundSubscriptionPreConsume faults requestId t).2.amountUsed id
            = (t.saveSub (refundedSub record sub)).amountUsed id := by
          rw [refund_pays hinv hrecord hstatus hsub hpays]
          split <;> rfl
        rw [hpaid]
        by_cases hid : record.userSubscriptionId = id
        · subst hid
          simp only [hstatus, hsome, hpays, ne_eq, not_false_eq_true, and_self, if_true,
            Ledger.balance_change, ← h]
          rw [Tables.amountUsed_of_sub hsub, ← hsubId]
          exact Tables.saveSub_amountUsed_self t (refundedSub record sub)
        · simp only [hid, false_and, if_false, ← h]
          exact Tables.saveSub_amountUsed_of_ne (by rw [hsubId]; exact hid)
      · have hclosed : record.status = .refunded ∨ t.sub record.userSubscriptionId = none ∨
            ¬ faults.Pays := by
          cases hstatus : record.status with
          | refunded => exact Or.inl rfl
          | consumed =>
            by_cases hnone : t.sub record.userSubscriptionId = none
            · exact Or.inr (Or.inl hnone)
            · exact Or.inr (Or.inr fun hpays => hopen ⟨hstatus, hnone, hpays⟩)
        rw [refund_same hinv hrecord hclosed]
        simp only
        rw [if_neg, h]
        rintro ⟨rfl, hrest⟩
        exact hopen hrest
  | reset env id' plan =>
    simp only [usageStep, ledgerStep]
    rcases resetOne_cases loc env id' plan t with ⟨hsame, hcount⟩ |
      ⟨locked, sub, t', hmem, hid', hreset, hone⟩
    · rw [hsame, if_neg, h]
      rintro ⟨rfl, hby⟩
      simp only [resetBySweep, Bool.and_eq_true, decide_eq_true_eq] at hby
      exact hcount hby.1
    · have hlocked : t.sub locked.id = some locked := hinv.sub_of_mem hmem
      rw [hone]
      simp only
      rw [maybeReset_amountUsed hlocked hreset, hid']
      by_cases hid : id' = id
      · subst hid
        have hby : resetBySweep loc env id' plan t
            = (resetOutcome loc env.fuel locked plan env.now).isReset := by
          rw [hid'] at hlocked
          simp [resetBySweep, hone, hlocked]
        rw [hby]
        by_cases hr : (resetOutcome loc env.fuel locked plan env.now).isReset = true
        · simp [hr]
        · simp [hr, h]
      · simp [hid, h]

/-! ### Runs -/

/-- The tables and the ledger of a subscription next to them. -/
structure UsageState where
  tables : Tables
  ledger : Ledger String ℤ

/-- Nobody has a subscription yet. -/
def usageStart (group : ℤ → String) : UsageState where
  tables := Tables.empty group
  ledger := .reset

/-- A transaction moves the tables and the ledger. -/
def usageLedgerStep (loc : Location) (id : ℤ) (s : UsageState) (op : UsageOp) : UsageState where
  tables := usageStep loc s.tables op
  ledger := ledgerStep loc id s.tables s.ledger op

/-- A settlement or a refund concerns a request that was charged to the subscription since its
last reset, and leaves the used amount above zero without being cut. -/
def UsageRegular (id : ℤ) (s : UsageState) (op : UsageOp) : Prop :=
  match op with
  | .settle requestId _ delta =>
    ∀ record, s.tables.record requestId = some record → record.userSubscriptionId = id →
      Accounts.Has requestId s.ledger.accounts ∧ 0 ≤ s.tables.amountUsed id + delta
  | .refund _ requestId =>
    ∀ record, s.tables.record requestId = some record → record.userSubscriptionId = id →
      record.status = .consumed →
      Accounts.Has requestId s.ledger.accounts ∧
        0 ≤ s.tables.amountUsed id + -record.preConsumed
  | _ => True

/-- The store's invariant, and the used amount is the balance of the ledger. -/
def UsageInv (id : ℤ) (s : UsageState) : Prop :=
  StoreInv s.tables ∧ s.tables.amountUsed id = s.ledger.balance

theorem usageStart_inv (group : ℤ → String) (id : ℤ) : UsageInv id (usageStart group) :=
  ⟨StoreInv.empty group, by simp [usageStart, Tables.amountUsed, Tables.sub, Tables.empty,
    Rows.first]⟩

theorem usageLedgerStep_inv (s : UsageState) (op : UsageOp) (h : UsageInv id s) :
    UsageInv id (usageLedgerStep loc id s op) :=
  ⟨Writes.inv h.1 (usageStep_writes h.1 op), usageStep_ledger h.1 h.2 op⟩

/-- A regular step adds nothing late and cuts nothing. -/
theorem usageLedgerStep_clean (s : UsageState) (op : UsageOp) (h : UsageInv id s)
    (hclean : s.ledger.late = 0 ∧ s.ledger.cut = 0) (hop : UsageRegular id s op) :
    (usageLedgerStep loc id s op).ledger.late = 0 ∧
      (usageLedgerStep loc id s op).ledger.cut = 0 := by
  have hused := h.2
  simp only [usageLedgerStep]
  cases op with
  | purchase now faults userId plan source => exact hclean
  | preConsume env requestId userId modelName quotaType amount =>
    simp only [ledgerStep]
    split
    · exact hclean
    · split
      · split <;> split <;> first | exact hclean | exact ⟨rfl, rfl⟩
      · exact hclean
  | settle requestId faults delta =>
    simp only [ledgerStep]
    split
    · exact hclean
    · rename_i record hrecord
      split
      · rename_i hid
        obtain ⟨hhas, hpos⟩ := hop record hrecord hid
        split
        · exact hclean
        · obtain ⟨hlate, hcut⟩ := Ledger.change_clean hhas (hused ▸ hpos)
          exact ⟨hlate.trans hclean.1, hcut.trans hclean.2⟩
      · exact hclean
  | refund faults requestId =>
    simp only [ledgerStep]
    split
    · exact hclean
    · rename_i record hrecord
      split
      · rename_i hcond
        obtain ⟨hhas, hpos⟩ := hop record hrecord hcond.1 hcond.2.1
        obtain ⟨hlate, hcut⟩ := Ledger.change_clean hhas (hused ▸ hpos)
        exact ⟨hlate.trans hclean.1, hcut.trans hclean.2⟩
      · exact hclean
  | reset env id' plan =>
    simp only [ledgerStep]
    split
    · exact ⟨rfl, rfl⟩
    · exact hclean

/-- **The used amount is the balance of the ledger.**  After any run it is the sum of the net
charges of the requests charged since the last reset, of the changes made since then on behalf of
requests charged before, and of what was cut off at zero; and it is the first of these three alone
while settlements and refunds concern requests charged since the reset and nothing is cut. -/
theorem usage_eq_ledger (loc : Location) (group : ℤ → String) (id : ℤ) (ops : List UsageOp) :
    let s := run (usageLedgerStep loc id) (usageStart group) ops
    s.tables.amountUsed id
      = Accounts.total s.ledger.accounts + s.ledger.late + s.ledger.cut ∧
    (s.ledger.late = 0 ∧ s.ledger.cut = 0 → ∀ more,
      Along (usageLedgerStep loc id) (UsageRegular id) s more →
        let s' := run (usageLedgerStep loc id) s more
        s'.tables.amountUsed id = Accounts.total s'.ledger.accounts) := by
  intro s
  have hinv : UsageInv id s :=
    Transition.run_invariant_always usageLedgerStep_inv (usageStart_inv group id) ops
  refine ⟨hinv.2, fun hclean more hregular => ?_⟩
  have hstep : ∀ s op, UsageInv id s ∧ s.ledger.late = 0 ∧ s.ledger.cut = 0 →
      UsageRegular id s op → UsageInv id (usageLedgerStep loc id s op) ∧
        (usageLedgerStep loc id s op).ledger.late = 0 ∧
        (usageLedgerStep loc id s op).ledger.cut = 0 :=
    fun s op h hop => ⟨usageLedgerStep_inv s op h.1, usageLedgerStep_clean s op h.1 h.2 hop⟩
  have hend := Transition.run_invariant hstep ⟨hinv, hclean⟩ hregular
  exact hend.1.2.trans (Ledger.balance_of_clean hend.2.1 hend.2.2)

/-- A plan whose used amount is reset every hundred seconds. -/
def hundredSecondsPlan : SubscriptionPlan :=
  { basicPlan with quotaResetPeriod := "custom", quotaResetCustomSeconds := 100 }

/-- A pre-consume at `now` under that plan. -/
def hundredSecondsEnv (now : ℤ) : PreConsumeEnv where
  now := now
  plans _ := .ok hundredSecondsPlan
  fuel := 9

/-- The first request is refunded after a reset, when a second one has been charged. -/
def lateRefund : List UsageOp :=
  [.purchase 1000 {} 1 hundredSecondsPlan "order",
    .preConsume (hundredSecondsEnv 1010) "req-1" 1 "model" 0 100,
    .preConsume (hundredSecondsEnv 1150) "req-2" 1 "model" 0 50,
    .refund {} "req-1"]

/-- A refund of a request charged before a reset takes away what was used since. -/
theorem usage_ne_total :
    ¬ ∀ (loc : Location) (group : ℤ → String) (id : ℤ) (ops : List UsageOp),
      (run (usageLedgerStep loc id) (usageStart group) ops).tables.amountUsed id
        = Accounts.total (run (usageLedgerStep loc id) (usageStart group) ops).ledger.accounts := by
  intro h
  have hused := h utc (fun _ => "default") 1 lateRefund
  have hzero : (run (usageLedgerStep utc 1) (usageStart fun _ => "default")
      lateRefund).tables.amountUsed 1 = 0 := by decide
  have htotal : Accounts.total (run (usageLedgerStep utc 1) (usageStart fun _ => "default")
      lateRefund).ledger.accounts = 50 := by decide
  rw [hzero, htotal] at hused
  exact absurd hused (by decide)

end NewApi

/-
**What each transaction of the subscription tables can do.**

One lemma for each operation says everything a successful call does to the tables; the invariants
of the later modules are derived from these and never unfold an operation.  The pre-consume is the
long one: it goes through the user's active subscriptions, resets those that are due, and charges
the first that has enough left (`NewApi.preConsumeTx_ok`).

Main definitions:

* `NewApi.Scanned` — candidates that were tried and passed over, and the tables they leave;
* `NewApi.Charged` — the charge of a request without a record.

Main results:

* `NewApi.maybeReset_ok`, `NewApi.chargeSub_ok`, `NewApi.scanSubs_ok`, `NewApi.preConsumeTx_ok`,
  `NewApi.preConsume_cases` — the reset and the pre-consume;
* `NewApi.postConsume_ok`, `NewApi.refund_cases` — settling and refunding;
* `NewApi.create_ok`, `NewApi.downgrade_ok`, `NewApi.invalidate_cases`, `NewApi.delete_cases` —
  buying and ending;
* `NewApi.expireDue_rule`, `NewApi.resetDue_rule` — **the sweep rules**: what every transaction
  of a sweep keeps, the sweep keeps.
-/

import NewApi.Subscription

set_option autoImplicit false

namespace NewApi

/-! ### Rows -/

namespace Tables

variable (t : Tables) (r : SubscriptionPreConsumeRecord) (s : UserSubscription)

@[simp] theorem saveSub_records : (t.saveSub s).records = t.records := rfl

@[simp] theorem saveSub_userGroup : (t.saveSub s).userGroup = t.userGroup := rfl

@[simp] theorem saveSub_nextSubId : (t.saveSub s).nextSubId = t.nextSubId := rfl

@[simp] theorem saveSub_nextRecordId : (t.saveSub s).nextRecordId = t.nextRecordId := rfl

@[simp] theorem saveSub_record (r : String) :
    (t.saveSub s).record r = t.record r := rfl

@[simp] theorem saveRecord_subs : (t.saveRecord r).subs = t.subs := rfl

@[simp] theorem saveRecord_userGroup : (t.saveRecord r).userGroup = t.userGroup := rfl

@[simp] theorem saveRecord_nextSubId : (t.saveRecord r).nextSubId = t.nextSubId := rfl

@[simp] theorem saveRecord_nextRecordId : (t.saveRecord r).nextRecordId = t.nextRecordId := rfl

@[simp] theorem saveRecord_sub (id : ℤ) :
    (t.saveRecord r).sub id = t.sub id := rfl

@[simp] theorem saveRecord_amountUsed (id : ℤ) :
    (t.saveRecord r).amountUsed id = t.amountUsed id := rfl

@[simp] theorem setUserGroup_subs (u : ℤ) (g : String) :
    (t.setUserGroup u g).subs = t.subs := rfl

@[simp] theorem setUserGroup_records (u : ℤ) (g : String) :
    (t.setUserGroup u g).records = t.records := rfl

@[simp] theorem setUserGroup_nextSubId (u : ℤ) (g : String) :
    (t.setUserGroup u g).nextSubId = t.nextSubId := rfl

@[simp] theorem setUserGroup_nextRecordId (u : ℤ) (g : String) :
    (t.setUserGroup u g).nextRecordId = t.nextRecordId := rfl

@[simp] theorem setUserGroup_self (u : ℤ) (g : String) :
    (t.setUserGroup u g).userGroup u = g := Function.update_self _ _ _

theorem setUserGroup_of_ne {t : Tables} {u v : ℤ} (g : String) (h : v ≠ u) :
    (t.setUserGroup u g).userGroup v = t.userGroup v := Function.update_of_ne h _ _

theorem sub_mem {t : Tables} {id : ℤ} {s : UserSubscription} (h : t.sub id = some s) :
    s ∈ t.subs ∧ s.id = id := ⟨Rows.mem_of_first h, Rows.key_of_first h⟩

theorem record_mem {t : Tables} {r : String} {x : SubscriptionPreConsumeRecord}
    (h : t.record r = some x) : x ∈ t.records ∧ x.requestId = r :=
  ⟨Rows.mem_of_first h, Rows.key_of_first h⟩

@[simp] theorem saveSub_sub_self : (t.saveSub s).sub s.id = some s := Rows.first_save_self s t.subs

theorem saveSub_sub_of_ne {t : Tables} {s : UserSubscription} {id : ℤ} (h : s.id ≠ id) :
    (t.saveSub s).sub id = t.sub id := Rows.first_save_of_ne h

@[simp] theorem saveSub_amountUsed_self :
    (t.saveSub s).amountUsed s.id = s.amountUsed := by simp [amountUsed]

theorem saveSub_amountUsed_of_ne {t : Tables} {s : UserSubscription} {id : ℤ} (h : s.id ≠ id) :
    (t.saveSub s).amountUsed id = t.amountUsed id := by
  simp only [amountUsed, saveSub_sub_of_ne h]

theorem amountUsed_of_sub {t : Tables} {id : ℤ} {s : UserSubscription} (h : t.sub id = some s) :
    t.amountUsed id = s.amountUsed := by simp [amountUsed, h]

theorem createSub_sub_self {t : Tables} (h : t.sub t.nextSubId = none) :
    (t.createSub s).sub t.nextSubId = some { s with id := t.nextSubId } := by
  have hfirst : Rows.first (·.id) (UserSubscription.id { s with id := t.nextSubId }) t.subs = none :=
    h
  exact Rows.first_append_self hfirst

theorem createSub_sub_of_ne {t : Tables} {id : ℤ} (h : t.nextSubId ≠ id) :
    (t.createSub s).sub id = t.sub id := Rows.first_append_of_ne h

/-- The tables after a record has been inserted. -/
theorem createRecord_ok {fault : Fault} {r : SubscriptionPreConsumeRecord} {t t' : Tables}
    (h : t.createRecord fault r = .ok t') :
    t.record r.requestId = none ∧
      t' = { t with
        records := t.records ++ [{ r with id := t.nextRecordId }]
        nextRecordId := t.nextRecordId + 1 } := by
  unfold createRecord at h
  rw [guardFault_eq_ok] at h
  obtain ⟨_, h⟩ := h
  cases hr : t.record r.requestId with
  | none =>
    rw [hr] at h
    exact ⟨rfl, by simpa using h.symm⟩
  | some x => rw [hr] at h; simp at h

end Tables

/-! ### The reset -/

@[simp] theorem ResetOutcome.apply_id (o : ResetOutcome) (s : UserSubscription) :
    (o.apply s).id = s.id := by cases o <;> rfl

@[simp] theorem ResetOutcome.apply_amountTotal (o : ResetOutcome) (s : UserSubscription) :
    (o.apply s).amountTotal = s.amountTotal := by cases o <;> rfl

/-- The used amount after the due check. -/
theorem ResetOutcome.apply_amountUsed (o : ResetOutcome) (s : UserSubscription) :
    (o.apply s).amountUsed = match o with
      | .reset _ _ => 0
      | _ => s.amountUsed := by cases o <;> rfl

/-- The due check leaves the row it computed and at most writes it. -/
theorem maybeReset_ok {loc : Location} {fuel : ℕ} {fault : Fault} {sub sub' : UserSubscription}
    {plan : SubscriptionPlan} {now : ℤ} {t t' : Tables}
    (h : maybeResetUserSubscriptionWithPlanTx loc fuel fault sub plan now t = .ok (sub', t')) :
    sub' = (resetOutcome loc fuel sub plan now).apply sub ∧
      ((t' = t ∧ sub' = sub) ∨ t' = t.saveSub sub') := by
  unfold maybeResetUserSubscriptionWithPlanTx at h
  cases ho : resetOutcome loc fuel sub plan now with
  | keep =>
    simp only [ho, Except.ok.injEq, Prod.mk.injEq] at h
    exact ⟨by rw [← h.1]; rfl, Or.inl ⟨h.2.symm, h.1.symm⟩⟩
  | hang => simp [ho] at h
  | schedule base next | reset base next =>
    simp only [ho, guardFault_eq_ok, Except.ok.injEq, Prod.mk.injEq] at h
    exact ⟨h.2.1.symm, Or.inr (by rw [← h.2.1]; exact h.2.2.symm)⟩

/-! ### Charging a request -/

/-- The record a charge leaves. -/
def consumedRecord (t : Tables) (requestId : String) (userId : ℤ) (sub : UserSubscription)
    (amount : ℤ) : SubscriptionPreConsumeRecord where
  id := t.nextRecordId
  requestId := requestId
  userId := userId
  userSubscriptionId := sub.id
  preConsumed := amount
  status := .consumed

/-- The tables with a record more. -/
def Tables.withRecord (t : Tables) (r : SubscriptionPreConsumeRecord) : Tables :=
  { t with records := t.records ++ [r], nextRecordId := t.nextRecordId + 1 }

theorem Tables.withRecord_record_self {t : Tables} {r : SubscriptionPreConsumeRecord}
    (h : t.record r.requestId = none) : (t.withRecord r).record r.requestId = some r :=
  Rows.first_append_self h

theorem Tables.withRecord_record_of_ne {t : Tables} {r : SubscriptionPreConsumeRecord}
    {requestId : String} (h : r.requestId ≠ requestId) :
    (t.withRecord r).record requestId = t.record requestId := Rows.first_append_of_ne h

/-- The tables `t'` are `t` with `amount` charged to the subscription `sub` under the request id,
which had no record. -/
structure Charged (requestId : String) (userId amount : ℤ) (sub : UserSubscription)
    (res : SubscriptionPreConsumeResult) (t t' : Tables) : Prop where
  fresh : t.record requestId = none
  result : res =
    { userSubscriptionId := sub.id
      preConsumed := amount
      amountTotal := sub.amountTotal
      amountUsedBefore := sub.amountUsed
      amountUsedAfter := sub.amountUsed + amount }
  tables : t' = (t.withRecord (consumedRecord t requestId userId sub amount)).saveSub
    { sub with amountUsed := sub.amountUsed + amount }

/-- A charge either is a fresh one, or finds the record of the request and changes nothing. -/
theorem chargeSub_ok {env : PreConsumeEnv} {requestId : String} {userId amount : ℤ}
    {sub : UserSubscription} {res : SubscriptionPreConsumeResult} {t t' : Tables}
    (h : chargeSub env requestId userId amount sub t = .ok (res, t')) :
    Charged requestId userId amount sub res t t' ∨
      (∃ dup, t.record requestId = some dup ∧ t' = t) := by
  unfold chargeSub chargeSubIn at h
  simp only at h
  split at h
  · split at h
    · simp at h
    · rename_i dup hdup
      split at h
      · simp at h
      · simp only [Except.ok.injEq, Prod.mk.injEq] at h
        exact Or.inr ⟨dup, hdup, h.2.symm⟩
  · rename_i t₁ hcreate
    obtain ⟨hfresh, rfl⟩ := Tables.createRecord_ok hcreate
    simp only [guardFault_eq_ok, Except.ok.injEq, Prod.mk.injEq] at h
    exact Or.inl ⟨hfresh, h.2.1.symm, h.2.2.symm⟩

/-- The candidates of a scan that were passed over, each reset if it was due and then found to
have less than `amount` left. -/
inductive Scanned (loc : Location) (env : PreConsumeEnv) (amount : ℤ) :
    List UserSubscription → Tables → Tables → Prop
  | nil (t : Tables) : Scanned loc env amount [] t t
  | cons {c sub : UserSubscription} {rest : List UserSubscription} {plan : SubscriptionPlan}
      {t t₁ t₂ : Tables} :
      getSubscriptionPlanById env.plans c.planId = .ok plan →
      maybeResetUserSubscriptionWithPlanTx loc env.fuel (env.reset c.id) c plan env.now t
        = .ok (sub, t₁) →
      (0 < sub.amountTotal ∧ sub.amountTotal - sub.amountUsed < amount) →
      Scanned loc env amount rest t₁ t₂ → Scanned loc env amount (c :: rest) t t₂

/-- A successful scan passed over some candidates and charged the next one. -/
theorem scanSubs_ok {loc : Location} {env : PreConsumeEnv} {requestId : String}
    {userId amount : ℤ} {subs : List UserSubscription} {res : SubscriptionPreConsumeResult}
    {t t' : Tables} (h : scanSubs loc env requestId userId amount subs t = .ok (res, t')) :
    ∃ passed c rest t₁ t₂ plan sub, subs = passed ++ c :: rest ∧
      Scanned loc env amount passed t t₁ ∧
      getSubscriptionPlanById env.plans c.planId = .ok plan ∧
      maybeResetUserSubscriptionWithPlanTx loc env.fuel (env.reset c.id) c plan env.now t₁
        = .ok (sub, t₂) ∧
      (0 < sub.amountTotal → amount ≤ sub.amountTotal - sub.amountUsed) ∧
      chargeSub env requestId userId amount sub t₂ = .ok (res, t') := by
  induction subs generalizing t with
  | nil => simp [scanSubs, scanSubsIn] at h
  | cons c rest ih =>
    unfold scanSubs scanSubsIn at h
    cases hplan : getSubscriptionPlanById env.plans c.planId with
    | error e => simp [hplan] at h
    | ok plan =>
      cases hreset : maybeResetUserSubscriptionWithPlanTx loc env.fuel (env.reset c.id) c
          plan env.now t with
      | error e => simp [hplan, hreset] at h
      | ok p =>
        obtain ⟨sub, t₁⟩ := p
        simp only [hplan, hreset] at h
        split at h
        · rename_i hless
          obtain ⟨passed, c', rest', t₂, t₃, plan', sub', rfl, hscan, hrest⟩ := ih h
          exact ⟨c :: passed, c', rest', t₂, t₃, plan', sub', rfl,
            Scanned.cons hplan hreset hless hscan, hrest⟩
        · rename_i henough
          refine ⟨[], c, rest, t, t₁, plan, sub, rfl, Scanned.nil t, hplan, hreset, ?_, h⟩
          intro htotal
          by_contra hlt
          exact henough ⟨htotal, by omega⟩

/-- The body of the pre-consume: either the request has a record, or one of the user's active
subscriptions is charged. -/
theorem preConsumeTx_ok {loc : Location} {env : PreConsumeEnv} {requestId : String}
    {userId amount : ℤ} {res : SubscriptionPreConsumeResult} {t t' : Tables}
    (h : preConsumeTx loc env requestId userId amount t = .ok (res, t')) :
    (∃ existing, t.record requestId = some existing ∧
      preConsumeExisting env.existingSub existing t = .ok res ∧ t' = t) ∨
    (t.record requestId = none ∧
      scanSubs loc env requestId userId amount (activeSubs userId env.now t) t = .ok (res, t')) := by
  unfold preConsumeTx preConsumeTxIn at h
  rw [guardFault_eq_ok] at h
  obtain ⟨_, h⟩ := h
  cases hr : t.record requestId with
  | some existing =>
    simp only [hr] at h
    cases he : preConsumeExisting env.existingSub existing t with
    | error e => simp [he, Except.map] at h
    | ok r =>
      simp only [he, Except.map, Except.ok.injEq, Prod.mk.injEq] at h
      exact Or.inl ⟨existing, rfl, by rw [he, h.1], h.2.symm⟩
  | none =>
    simp only [hr] at h
    split at h
    · simp at h
    · exact Or.inr ⟨rfl, h⟩

/-- A pre-consume that returns an error changes nothing; one that succeeds did what its body did,
for a positive amount. -/
theorem preConsumeIn_cases (keep : ℤ → ℤ) (loc : Location) (env : PreConsumeEnv)
    (requestId : String) (userId : ℤ) (modelName : String) (quotaType amount : ℤ) (t : Tables) :
    (∃ e, preConsumeUserSubscriptionIn keep loc env requestId userId modelName quotaType amount t
      = (.error e, t)) ∨
    (∃ res t', preConsumeUserSubscriptionIn keep loc env requestId userId modelName quotaType amount
        t = (.ok res, t') ∧ trimSpace requestId ≠ "" ∧ 0 < amount ∧
      preConsumeTxIn keep loc env requestId userId amount t = .ok (res, t')) := by
  unfold preConsumeUserSubscriptionIn
  split_ifs with huser hreq hamount
  · exact Or.inl ⟨_, rfl⟩
  · exact Or.inl ⟨_, rfl⟩
  · exact Or.inl ⟨_, rfl⟩
  · split
    · exact Or.inl ⟨_, rfl⟩
    · rename_i res t' htx
      cases env.commit with
      | some e => exact Or.inl ⟨_, rfl⟩
      | none => exact Or.inr ⟨res, t', rfl, hreq, by omega, htx⟩

theorem preConsume_cases (loc : Location) (env : PreConsumeEnv) (requestId : String) (userId : ℤ)
    (modelName : String) (quotaType amount : ℤ) (t : Tables) :
    (∃ e, preConsumeUserSubscription loc env requestId userId modelName quotaType amount t
      = (.error e, t)) ∨
    (∃ res t', preConsumeUserSubscription loc env requestId userId modelName quotaType amount t
      = (.ok res, t') ∧ trimSpace requestId ≠ "" ∧ 0 < amount ∧
      preConsumeTx loc env requestId userId amount t = .ok (res, t')) :=
  preConsumeIn_cases _ loc env requestId userId modelName quotaType amount t

/-- The answer to a request that has a record names the record's subscription and amount. -/
theorem preConsumeExisting_ok {fault : Fault} {existing : SubscriptionPreConsumeRecord}
    {t : Tables} {res : SubscriptionPreConsumeResult}
    (h : preConsumeExisting fault existing t = .ok res) :
    existing.status = .consumed ∧ res.userSubscriptionId = existing.userSubscriptionId ∧
      res.preConsumed = existing.preConsumed := by
  unfold preConsumeExisting at h
  split at h
  · simp at h
  · rename_i hstatus
    rw [guardFault_eq_ok] at h
    obtain ⟨_, h⟩ := h
    cases hs : t.sub existing.userSubscriptionId with
    | none => simp [hs] at h
    | some sub =>
      simp only [hs, Except.ok.injEq] at h
      refine ⟨?_, ?_, ?_⟩
      · cases hst : existing.status with
        | consumed => rfl
        | refunded => exact absurd hst hstatus
      · rw [← h]; exact (Tables.sub_mem hs).2
      · rw [← h]

/-! ### Settling and refunding -/

/-- A change of the used amount: nothing for a zero difference, else the row with the new amount,
which is cut at zero and within the total. -/
theorem postConsumeIn_ok {keep : ℤ → ℤ} {faults : TxFaults} {id delta : ℤ} {t t' : Tables}
    (h : postConsumeUserSubscriptionDeltaIn keep faults id delta t = .ok t') :
    (delta = 0 ∧ t' = t) ∨
    (∃ sub, t.sub id = some sub ∧
      (0 < sub.amountTotal → max 0 (keep (sub.amountUsed + delta)) ≤ sub.amountTotal) ∧
      t' = t.saveSub { sub with amountUsed := max 0 (keep (sub.amountUsed + delta)) }) := by
  unfold postConsumeUserSubscriptionDeltaIn at h
  split_ifs at h with hid hdelta
  · exact Or.inl ⟨hdelta, by simpa using h.symm⟩
  · rw [guardFault_eq_ok] at h
    obtain ⟨_, h⟩ := h
    cases hs : t.sub id with
    | none => simp [hs] at h
    | some sub =>
      simp only [hs] at h
      have hmax : (if keep (sub.amountUsed + delta) < 0 then 0
          else keep (sub.amountUsed + delta)) = max 0 (keep (sub.amountUsed + delta)) := by
        split <;> omega
      rw [hmax] at h
      split at h
      · simp at h
      · rename_i hfits
        simp only [guardFault_eq_ok, Except.ok.injEq] at h
        exact Or.inr ⟨sub, rfl, fun ht => by omega, h.2.symm⟩

theorem postConsume_ok {faults : TxFaults} {id delta : ℤ} {t t' : Tables}
    (h : postConsumeUserSubscriptionDelta faults id delta t = .ok t') :
    (delta = 0 ∧ t' = t) ∨
    (∃ sub, t.sub id = some sub ∧
      (0 < sub.amountTotal → max 0 (sub.amountUsed + delta) ≤ sub.amountTotal) ∧
      t' = t.saveSub { sub with amountUsed := max 0 (sub.amountUsed + delta) }) :=
  postConsumeIn_ok h

/-- A change of the used amount of a subscription succeeds when its statements do and the new
amount is within the total. -/
theorem postConsume_of_sub {id delta : ℤ} {t : Tables} {sub : UserSubscription} (hid : 0 < id)
    (hdelta : delta ≠ 0) (hsub : t.sub id = some sub)
    (hfits : 0 < sub.amountTotal → max 0 (sub.amountUsed + delta) ≤ sub.amountTotal) :
    postConsumeUserSubscriptionDelta {} id delta t
      = .ok (t.saveSub { sub with amountUsed := max 0 (sub.amountUsed + delta) }) := by
  have hmax : (if sub.amountUsed + delta < 0 then 0 else sub.amountUsed + delta)
      = max 0 (sub.amountUsed + delta) := by
    split <;> omega
  unfold postConsumeUserSubscriptionDelta postConsumeUserSubscriptionDeltaIn
  rw [if_neg (by omega), if_neg hdelta]
  simp only [hsub, guardFault_none, hmax, Option.or]
  rw [if_neg (fun h => absurd (hfits h.1) (by omega))]

/-- A change of the used amount fails when one of its statements does. -/
theorem postConsume_of_fault {faults : TxFaults} {id delta : ℤ} {t : Tables} (hdelta : delta ≠ 0)
    (h : faults ≠ {}) : ∃ e, postConsumeUserSubscriptionDelta faults id delta t = .error e := by
  cases hres : postConsumeUserSubscriptionDelta faults id delta t with
  | error e => exact ⟨e, rfl⟩
  | ok t' =>
    exfalso
    obtain ⟨first, save, commit⟩ := faults
    unfold postConsumeUserSubscriptionDelta postConsumeUserSubscriptionDeltaIn at hres
    split_ifs at hres
    rw [guardFault_eq_ok] at hres
    obtain ⟨hfirst, hres⟩ := hres
    cases hs : t.sub id with
    | none => simp [hs] at hres
    | some sub =>
      simp only [hs] at hres
      generalize (if sub.amountUsed + delta < 0 then 0 else sub.amountUsed + delta) = newUsed
        at hres
      split_ifs at hres
      rw [guardFault_eq_ok] at hres
      obtain ⟨hsave, hcommit⟩ := Option.or_eq_none_iff.1 hres.1
      simp only at hfirst hsave hcommit
      exact h (by rw [hfirst, hsave, hcommit])

/-- What a refund does for a request that is not refunded yet. -/
theorem refund_consumed {faults : RefundFaults} {requestId : String} {t : Tables}
    {record : SubscriptionPreConsumeRecord} (hname : trimSpace requestId ≠ "")
    (hrecord : t.record requestId = some record) (hstatus : record.status = .consumed)
    (hpos : 0 < record.preConsumed) (hfirst : faults.first = none) :
    refundSubscriptionPreConsume faults requestId t =
      match postConsumeUserSubscriptionDelta faults.inner record.userSubscriptionId
        (-record.preConsumed) t with
      | .error e => (some e, t)
      | .ok t' => markRefunded faults record t' := by
  unfold refundSubscriptionPreConsume refundSubscriptionPreConsumeIn
  rw [if_neg hname]
  simp only [hfirst, guardFault_none, hrecord, hstatus, reduceCtorEq, if_false]
  exact if_neg (by omega)

/-- A refund leaves the tables alone, or changes the used amount of the record's subscription by
the record's amount, or marks the record, or does both. -/
theorem refundIn_cases (keep : ℤ → ℤ) (faults : RefundFaults) (requestId : String)
    (t : Tables) :
    (refundSubscriptionPreConsumeIn keep faults requestId t).2 = t ∨
    ∃ record, t.record requestId = some record ∧ record.status = .consumed ∧
      ((record.preConsumed ≤ 0 ∧ (refundSubscriptionPreConsumeIn keep faults requestId t).2
          = t.saveRecord { record with status := .refunded }) ∨
       (0 < record.preConsumed ∧
        ∃ t', postConsumeUserSubscriptionDeltaIn keep faults.inner record.userSubscriptionId
            (-record.preConsumed) t = .ok t' ∧
          (refundSubscriptionPreConsumeIn keep faults requestId t =
              ((faults.save.or faults.commit), t') ∧ (faults.save.or faults.commit) ≠ none ∨
           refundSubscriptionPreConsumeIn keep faults requestId t =
              (none, t'.saveRecord { record with status := .refunded }) ∧
              (faults.save.or faults.commit) = none))) := by
  unfold refundSubscriptionPreConsumeIn
  split_ifs with hreq
  · exact Or.inl rfl
  · cases hf : faults.first with
    | some e => exact Or.inl rfl
    | none =>
      simp only [guardFault_none]
      cases hr : t.record requestId with
      | none => exact Or.inl rfl
      | some record =>
        by_cases hst : record.status = .refunded
        · exact Or.inl (by simp [hst])
        · have hcons : record.status = .consumed := by
            cases h : record.status with
            | consumed => rfl
            | refunded => exact absurd h hst
          simp only [hst, if_false]
          by_cases hpre : record.preConsumed ≤ 0
          · simp only [hpre, if_true, markRefunded]
            cases hm : faults.save.or faults.commit with
            | some e => exact Or.inl rfl
            | none => exact Or.inr ⟨record, rfl, hcons, Or.inl ⟨hpre, rfl⟩⟩
          · simp only [hpre, if_false]
            cases hp : postConsumeUserSubscriptionDeltaIn keep faults.inner
                record.userSubscriptionId (-record.preConsumed) t with
            | error e => exact Or.inl rfl
            | ok t' =>
              refine Or.inr ⟨record, rfl, hcons, Or.inr ⟨by omega, t', hp, ?_⟩⟩
              simp only [markRefunded]
              cases hm : faults.save.or faults.commit with
              | some e => exact Or.inl ⟨rfl, by simp⟩
              | none => exact Or.inr ⟨rfl, rfl⟩

theorem refund_cases (faults : RefundFaults) (requestId : String) (t : Tables) :
    (refundSubscriptionPreConsume faults requestId t).2 = t ∨
    ∃ record, t.record requestId = some record ∧ record.status = .consumed ∧
      ((record.preConsumed ≤ 0 ∧ (refundSubscriptionPreConsume faults requestId t).2
          = t.saveRecord { record with status := .refunded }) ∨
       (0 < record.preConsumed ∧
        ∃ t', postConsumeUserSubscriptionDelta faults.inner record.userSubscriptionId
            (-record.preConsumed) t = .ok t' ∧
          (refundSubscriptionPreConsume faults requestId t =
              ((faults.save.or faults.commit), t') ∧ (faults.save.or faults.commit) ≠ none ∨
           refundSubscriptionPreConsume faults requestId t =
              (none, t'.saveRecord { record with status := .refunded }) ∧
              (faults.save.or faults.commit) = none))) :=
  refundIn_cases _ faults requestId t

/-- A refund changes nothing for a request that is refunded already. -/
theorem refund_refunded {faults : RefundFaults} {requestId : String} {t : Tables}
    {record : SubscriptionPreConsumeRecord} (hrecord : t.record requestId = some record)
    (hstatus : record.status = .refunded) :
    (refundSubscriptionPreConsume faults requestId t).2 = t := by
  rcases refund_cases faults requestId t with hsame | ⟨record', hfound, hconsumed, _⟩
  · exact hsame
  · rw [hrecord] at hfound
    obtain rfl := Option.some.inj hfound
    rw [hstatus] at hconsumed
    simp at hconsumed

/-! ### Buying and ending -/

/-- A purchase appends the new row, after the user has been moved to the plan's group. -/
theorem create_ok {loc : Location} {now : ℤ} {faults : PurchaseFaults} {userId : ℤ}
    {plan : SubscriptionPlan} {source : String} {t t' : Tables}
    (h : createUserSubscriptionFromPlanTx loc now faults userId plan source t = .ok t') :
    ∃ endUnix prevGroup, calcPlanEndTime loc now plan = .ok endUnix ∧
      ((prevGroup = "" ∧
          (trimSpace plan.upgradeGroup = "" ∨ t.userGroup userId = trimSpace plan.upgradeGroup) ∧
          t' = t.createSub (newUserSubscription loc now userId plan source endUnix "")) ∨
       (trimSpace plan.upgradeGroup ≠ "" ∧ prevGroup = t.userGroup userId ∧
          prevGroup ≠ trimSpace plan.upgradeGroup ∧
          t' = (t.setUserGroup userId (trimSpace plan.upgradeGroup)).createSub
            (newUserSubscription loc now userId plan source endUnix prevGroup))) := by
  unfold createUserSubscriptionFromPlanTx at h
  split_ifs at h with hplan huser
  cases hlimit : checkPurchaseLimit faults.count userId plan t with
  | error e => simp [hlimit] at h
  | ok _ =>
    cases hend : calcPlanEndTime loc now plan with
    | error e => simp [hlimit, hend] at h
    | ok endUnix =>
      simp only [hlimit, hend, upgradeUserGroupTx] at h
      refine ⟨endUnix, ?_⟩
      by_cases hg : trimSpace plan.upgradeGroup = ""
      · simp only [hg, if_true, guardFault_eq_ok, Except.ok.injEq] at h
        exact ⟨"", rfl, Or.inl ⟨rfl, Or.inl hg, h.2.symm⟩⟩
      · simp only [hg, if_false, getUserGroupByIdTx, huser] at h
        cases hread : faults.groupRead with
        | some e => simp [hread] at h
        | none =>
          simp only [hread, guardFault_none] at h
          by_cases hcur : t.userGroup userId = trimSpace plan.upgradeGroup
          · simp only [hcur, if_true, guardFault_eq_ok, Except.ok.injEq] at h
            exact ⟨"", rfl, Or.inl ⟨rfl, Or.inr hcur, h.2.symm⟩⟩
          · simp only [hcur, if_false] at h
            cases hwrite : faults.groupWrite with
            | some e => simp [hwrite] at h
            | none =>
              simp only [hwrite, guardFault_none, guardFault_eq_ok, Except.ok.injEq] at h
              exact ⟨t.userGroup userId, rfl, Or.inr ⟨hg, rfl, hcur, h.2.symm⟩⟩

/-- A purchase either fails and changes nothing, or created the subscription. -/
theorem purchase_cases (loc : Location) (now : ℤ) (faults : PurchaseFaults) (userId : ℤ)
    (plan : SubscriptionPlan) (source : String) (t : Tables) :
    (purchaseSubscription loc now faults userId plan source t).2 = t ∨
    createUserSubscriptionFromPlanTx loc now faults userId plan source t
      = .ok (purchaseSubscription loc now faults userId plan source t).2 := by
  unfold purchaseSubscription
  cases createUserSubscriptionFromPlanTx loc now faults userId plan source t with
  | error e => exact Or.inl rfl
  | ok t' =>
    cases faults.rest with
    | some e => exact Or.inl rfl
    | none => exact Or.inr rfl

/-- Moving a user back writes at most that user's group. -/
theorem downgrade_ok {faults : DowngradeFaults} {sub : UserSubscription} {now : ℤ}
    {t t' : Tables} {target : String}
    (h : downgradeUserGroupForSubscriptionTx faults sub now t = .ok (target, t')) :
    (t' = t ∧ target = "" ∧
      (trimSpace sub.upgradeGroup = "" ∨ t.userGroup sub.userId ≠ trimSpace sub.upgradeGroup ∨
       (faults.activeRead = none ∧
        ((liveUpgrades t sub.userId now).filter fun s => s.id ≠ sub.id) ≠ []) ∨
       trimSpace sub.prevUserGroup = "" ∨
       trimSpace sub.prevUserGroup = t.userGroup sub.userId)) ∨
    (t' = t.setUserGroup sub.userId (trimSpace sub.prevUserGroup) ∧
      target = trimSpace sub.prevUserGroup ∧ trimSpace sub.upgradeGroup ≠ "" ∧
      t.userGroup sub.userId = trimSpace sub.upgradeGroup ∧
      trimSpace sub.prevUserGroup ≠ "" ∧
      trimSpace sub.prevUserGroup ≠ t.userGroup sub.userId ∧
      (faults.activeRead = none →
        ((liveUpgrades t sub.userId now).filter fun s => s.id ≠ sub.id) = [])) := by
  unfold downgradeUserGroupForSubscriptionTx at h
  by_cases hup : trimSpace sub.upgradeGroup = ""
  · simp only [hup, if_true, Except.ok.injEq, Prod.mk.injEq] at h
    exact Or.inl ⟨h.2.symm, h.1.symm, Or.inl hup⟩
  · simp only [hup, if_false] at h
    cases hg : getUserGroupByIdTx faults.groupRead sub.userId t with
    | error e => simp [hg] at h
    | ok current =>
      have hcur : current = t.userGroup sub.userId := by
        unfold getUserGroupByIdTx at hg
        split_ifs at hg
        rw [guardFault_eq_ok] at hg
        exact (Except.ok.inj hg.2).symm
      subst hcur
      simp only [hg] at h
      by_cases hne : t.userGroup sub.userId = trimSpace sub.upgradeGroup
      · simp only [hne, ne_eq, not_true_eq_false, if_false] at h
        split_ifs at h with hlive hprev
        · simp only [Except.ok.injEq, Prod.mk.injEq] at h
          exact Or.inl ⟨h.2.symm, h.1.symm, Or.inr (Or.inr (Or.inl hlive))⟩
        · simp only [Except.ok.injEq, Prod.mk.injEq] at h
          refine Or.inl ⟨h.2.symm, h.1.symm, ?_⟩
          rcases hprev with hprev | hprev
          · exact Or.inr (Or.inr (Or.inr (Or.inl hprev)))
          · exact Or.inr (Or.inr (Or.inr (Or.inr (by rw [hne]; exact hprev))))
        · simp only [guardFault_eq_ok, Except.ok.injEq, Prod.mk.injEq] at h
          rw [not_or] at hprev
          refine Or.inr ⟨h.2.2.symm, h.2.1.symm, hup, hne, hprev.1, by rw [hne]; exact hprev.2, ?_⟩
          intro hread
          by_contra hnil
          exact hlive ⟨hread, hnil⟩
      · simp only [ne_eq, hne, not_false_eq_true, if_true, Except.ok.injEq, Prod.mk.injEq] at h
        exact Or.inl ⟨h.2.symm, h.1.symm, Or.inr (Or.inl hne)⟩

/-- Cancelling a subscription fails and changes nothing, or writes the cancelled row and moves the
user back. -/
theorem invalidate_cases (now : ℤ) (faults : AdminFaults) (id : ℤ) (t : Tables) :
    (adminInvalidateUserSubscription now faults id t).2 = t ∨
    ∃ sub target, t.sub id = some sub ∧
      downgradeUserGroupForSubscriptionTx faults.downgrade (sub.cancelAt now) now
          (t.saveSub (sub.cancelAt now))
        = .ok (target, (adminInvalidateUserSubscription now faults id t).2) := by
  unfold adminInvalidateUserSubscription
  split_ifs with hid
  · exact Or.inl rfl
  · cases faults.first with
    | some e => exact Or.inl rfl
    | none =>
      simp only [guardFault_none]
      cases hs : t.sub id with
      | none => exact Or.inl rfl
      | some sub =>
        cases faults.write with
        | some e => exact Or.inl rfl
        | none =>
          simp only [guardFault_none]
          split
          · exact Or.inl rfl
          · rename_i target t' hdown
            cases faults.commit with
            | some e => exact Or.inl rfl
            | none => exact Or.inr ⟨sub, target, rfl, hdown⟩

/-- Deleting a subscription fails and changes nothing, or moves the user back and removes the
row. -/
theorem delete_cases (now : ℤ) (faults : AdminFaults) (id : ℤ) (t : Tables) :
    (adminDeleteUserSubscription now faults id t).2 = t ∨
    ∃ sub target t', t.sub id = some sub ∧
      downgradeUserGroupForSubscriptionTx faults.downgrade sub now t = .ok (target, t') ∧
      (adminDeleteUserSubscription now faults id t).2 =
        { t' with subs := t'.subs.filter fun s => s.id ≠ id } := by
  unfold adminDeleteUserSubscription
  split_ifs with hid
  · exact Or.inl rfl
  · cases faults.first with
    | some e => exact Or.inl rfl
    | none =>
      simp only [guardFault_none]
      cases hs : t.sub id with
      | none => exact Or.inl rfl
      | some sub =>
        simp only
        split
        · exact Or.inl rfl
        · rename_i target t' hdown
          cases faults.write.or faults.commit with
          | some e => exact Or.inl rfl
          | none => exact Or.inr ⟨sub, target, t', rfl, hdown, rfl⟩

/-! ### The sweeps -/

/-- One user's part of a sweep marks the user's ended subscriptions.  The user stays in the group
for one of the reasons listed, or is moved to the group that the last expired upgraded
subscription recorded. -/
theorem expireUserTx_ok {now : ℤ} {faults : ExpireFaults} {userId : ℤ} {t t' : Tables}
    (h : expireUserTx now faults userId t = .ok t') :
    (t' = markExpired userId now t ∧
      (liveUpgrades (markExpired userId now t) userId now ≠ [] ∨ faults.expiredRead ≠ none ∨
       ∀ c, lastExpiredUpgrade (markExpired userId now t) userId = some c →
        trimSpace c.upgradeGroup = "" ∨ trimSpace c.prevUserGroup = "" ∨
        t.userGroup userId ≠ trimSpace c.upgradeGroup ∨
        t.userGroup userId = trimSpace c.prevUserGroup)) ∨
    ∃ c, lastExpiredUpgrade (markExpired userId now t) userId = some c ∧
      trimSpace c.prevUserGroup ≠ "" ∧
      (faults.activeRead = none → liveUpgrades (markExpired userId now t) userId now = []) ∧
      t' = (markExpired userId now t).setUserGroup userId (trimSpace c.prevUserGroup) := by
  unfold expireUserTx at h
  rw [guardFault_eq_ok] at h
  obtain ⟨_, h⟩ := h
  simp only at h
  split_ifs at h with hlive
  · exact Or.inl ⟨by simpa using h.symm, Or.inl hlive.2⟩
  · cases hread : faults.expiredRead with
    | some e =>
      simp only [hread, guardFault_some] at h
      exact Or.inl ⟨by simpa using h.symm, Or.inr (Or.inl (by simp))⟩
    | none =>
      simp only [hread, guardFault_none] at h
      cases hlast : lastExpiredUpgrade (markExpired userId now t) userId with
      | none =>
        simp only [hlast] at h
        exact Or.inl ⟨by simpa using h.symm, Or.inr (Or.inr fun c hc => by simp at hc)⟩
      | some c =>
        simp only [hlast] at h
        have hstay (hc : trimSpace c.upgradeGroup = "" ∨ trimSpace c.prevUserGroup = "" ∨
            t.userGroup userId ≠ trimSpace c.upgradeGroup ∨
            t.userGroup userId = trimSpace c.prevUserGroup) :
            ∀ c', some c = some c' → trimSpace c'.upgradeGroup = "" ∨
            trimSpace c'.prevUserGroup = "" ∨ t.userGroup userId ≠ trimSpace c'.upgradeGroup ∨
            t.userGroup userId = trimSpace c'.prevUserGroup := by
          intro c' hc'
          rw [← Option.some.inj hc']
          exact hc
        split_ifs at h with hgroups
        · exact Or.inl ⟨by simpa using h.symm,
            Or.inr (Or.inr (hstay (hgroups.imp_right Or.inl)))⟩
        · cases hgroup : getUserGroupByIdTx faults.groupRead userId (markExpired userId now t)
            with
          | error e => simp [hgroup] at h
          | ok current =>
            have hcurrent : current = t.userGroup userId := by
              unfold getUserGroupByIdTx at hgroup
              split_ifs at hgroup
              rw [guardFault_eq_ok] at hgroup
              exact (Except.ok.inj hgroup.2).symm
            subst hcurrent
            simp only [hgroup] at h
            split_ifs at h with hback
            · exact Or.inl ⟨by simpa using h.symm,
                Or.inr (Or.inr (hstay (Or.inr (Or.inr hback))))⟩
            · simp only [guardFault_eq_ok, Except.ok.injEq] at h
              rw [not_or] at hgroups
              refine Or.inr ⟨c, rfl, hgroups.2, fun hactive => ?_, h.2.symm⟩
              by_contra hne
              exact hlive ⟨hactive, hne⟩

/-- The sweep rule for expiring: what the transaction of each user of the batch keeps, the sweep
keeps. -/
theorem expireDue_rule {P : Tables → Prop} {env : ExpireEnv} {limit : ℤ} {t : Tables}
    (hP : ∀ userId ∈ dueUsers env limit t, ∀ t₁ t₂, P t₁ →
      expireUserTx env.now (env.user userId) userId t₁ = .ok t₂ → P t₂) (ht : P t) :
    P (expireDueSubscriptions env limit t).2 := by
  have husers : ∀ (users : List ℤ) (count : ℤ) (t₁ : Tables),
      (∀ userId ∈ users, userId ∈ dueUsers env limit t) → P t₁ →
      P (expireUsers env users count t₁).2 := by
    intro users
    induction users with
    | nil => intro count t₁ _ h₁; exact h₁
    | cons userId rest ih =>
      intro count t₁ hmem h₁
      unfold expireUsers
      simp only
      split
      · exact h₁
      · rename_i t₂ htx
        split
        · exact h₁
        · refine ih _ _ (fun v hv => hmem v (List.mem_cons_of_mem userId hv)) ?_
          exact hP userId (hmem userId List.mem_cons_self) t₁ t₂ h₁ htx
  unfold expireDueSubscriptions
  cases env.query with
  | some e => exact ht
  | none => exact husers _ _ _ (fun _ h => h) ht

/-- One subscription of a reset sweep is left alone, or is the row the due check wrote; only then
is it counted without an error. -/
theorem resetOne_cases (loc : Location) (env : ResetEnv) (id : ℤ) (plan : SubscriptionPlan)
    (t : Tables) :
    ((resetOne loc env id plan t).2 = t ∧ (resetOne loc env id plan t).1 ≠ (true, none)) ∨
    ∃ locked sub t', locked ∈ t.subs ∧ locked.id = id ∧
      maybeResetUserSubscriptionWithPlanTx loc env.fuel (env.sub id).save locked plan env.now t
        = .ok (sub, t') ∧ resetOne loc env id plan t = ((true, none), t') := by
  unfold resetOne
  simp only
  cases (env.sub id).first with
  | some e => exact Or.inl ⟨rfl, by simp⟩
  | none =>
    simp only [guardFault_none]
    cases hfind : t.subs.find? fun s => s.id = id && s.isResetDue env.now with
    | none => exact Or.inl ⟨rfl, by simp⟩
    | some locked =>
      have hid : locked.id = id := by
        have := List.find?_some hfind
        simp only [Bool.and_eq_true, decide_eq_true_eq] at this
        exact this.1
      simp only
      split
      · exact Or.inl ⟨rfl, by simp⟩
      · rename_i sub t' hreset
        cases (env.sub id).commit with
        | some e => exact Or.inl ⟨rfl, by simp⟩
        | none =>
          exact Or.inr ⟨locked, sub, t', List.mem_of_find?_eq_some hfind, hid, hreset, rfl⟩

/-- The sweep rule for resetting: what the transaction of one subscription keeps, the sweep
keeps. -/
theorem resetDue_rule {P : Tables → Prop} {loc : Location} {env : ResetEnv}
    (hP : ∀ id plan t, P t → P (resetOne loc env id plan t).2) (limit : ℤ) {t : Tables} (ht : P t) :
    P (resetDueSubscriptions loc env limit t).2 := by
  have hsubs : ∀ (subs : List UserSubscription) (count : ℕ) (t : Tables), P t →
      P (resetSubs loc env subs count t).2 := by
    intro subs
    induction subs with
    | nil => intro count t ht; exact ht
    | cons sub rest ih =>
      intro count t ht
      unfold resetSubs
      cases getSubscriptionPlanById env.plans sub.planId with
      | error e => exact ih _ _ ht
      | ok plan =>
        have hone := hP sub.id plan t ht
        simp only
        cases (resetOne loc env sub.id plan t).1.2 with
        | some e => exact hone
        | none => exact ih _ _ hone
  unfold resetDueSubscriptions
  cases env.query with
  | some e => exact ht
  | none => exact hsubs _ _ _ ht

end NewApi

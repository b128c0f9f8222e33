/-
**The subscription store: what every run of transactions keeps.**

The operations of the store are the transactions of `NewApi.Subscription`, each with the outcome
of its statements.  Whatever an operation does to the tables is a sequence of a few kinds of
writes (`NewApi.Write`), so an invariant is checked once for each kind of write and not once for
each operation.  The pre-consume is looked at more closely: which row it charges, and what a
second call with the same request id finds.

Main definitions:

* `NewApi.StoreOp`, `NewApi.storeStep`, `NewApi.storeStep64` — the operations, with the sums kept
  as they are and in 64 bits;
* `NewApi.WriteOf`, `NewApi.WritesOf` — the kinds of writes, and sequences of them;
* `NewApi.StoreInv` — **the store invariant**;
* `NewApi.HasRecord` — a request has a record for a subscription and an amount;
* `NewApi.PreConsumed`, `NewApi.AnswersAgain` — what a successful pre-consume has done, and what
  calls with its request id answer.

Main results:

* `NewApi.storeStep_writes`, `NewApi.storeStep64_writes` — an operation is a sequence of writes;
* `NewApi.Writes.inv`, `NewApi.Writes.hasRecord` — what writes keep;
* `NewApi.store_invariant` — **every state of the store**: used amounts stay within bounds,
  request ids are unique, and a request is charged once.
-/

import NewApi.Lib.Transition
import NewApi.SubscriptionSpec

set_option autoImplicit false

namespace NewApi

/-! ### Operations -/

/-- The transactions that write the subscription tables. -/
inductive StoreOp where
  | purchase (now : ℤ) (faults : PurchaseFaults) (userId : ℤ) (plan : SubscriptionPlan)
      (source : String)
  | preConsume (env : PreConsumeEnv) (requestId : String) (userId : ℤ) (modelName : String)
      (quotaType amount : ℤ)
  | postConsume (faults : TxFaults) (userSubscriptionId delta : ℤ)
  | refund (faults : RefundFaults) (requestId : String)
  | resetDue (env : ResetEnv) (limit : ℤ)
  | expireDue (env : ExpireEnv) (limit : ℤ)
  | invalidate (now : ℤ) (faults : AdminFaults) (userSubscriptionId : ℤ)
  | delete (now : ℤ) (faults : AdminFaults) (userSubscriptionId : ℤ)

/-- The tables after an operation. -/
def storeStep (loc : Location) (t : Tables) : StoreOp → Tables
  | .purchase now faults userId plan source =>
    (purchaseSubscription loc now faults userId plan source t).2
  | .preConsume env requestId userId modelName quotaType amount =>
    (preConsumeUserSubscription loc env requestId userId modelName quotaType amount t).2
  | .postConsume faults id delta =>
    match postConsumeUserSubscriptionDelta faults id delta t with
    | .error _ => t
    | .ok t' => t'
  | .refund faults requestId => (refundSubscriptionPreConsume faults requestId t).2
  | .resetDue env limit => (resetDueSubscriptions loc env limit t).2
  | .expireDue env limit => (expireDueSubscriptions env limit t).2
  | .invalidate now faults id => (adminInvalidateUserSubscription now faults id t).2
  | .delete now faults id => (adminDeleteUserSubscription now faults id t).2

/-- The tables after an operation as the program runs it: the columns are 64-bit integers. -/
def storeStep64 (loc : Location) (t : Tables) : StoreOp → Tables
  | .preConsume env requestId userId modelName quotaType amount =>
    (preConsumeUserSubscription64 loc env requestId userId modelName quotaType amount t).2
  | .postConsume faults id delta =>
    match postConsumeUserSubscriptionDelta64 faults id delta t with
    | .error _ => t
    | .ok t' => t'
  | .refund faults requestId => (refundSubscriptionPreConsume64 faults requestId t).2
  | op => storeStep loc t op

/-- Whether the operation deletes a subscription. -/
def StoreOp.Deletes : StoreOp → Prop
  | .delete _ _ _ => True
  | _ => False

/-- The totals are 64-bit integers, and so is the sum a pre-consume stores as the used amount. -/
def StoreOp.SumFits (loc : Location) (t : Tables) : StoreOp → Prop
  | .preConsume env requestId userId modelName quotaType amount =>
    (∀ s ∈ t.subs, s.amountTotal < 2 ^ 63) ∧
    ∀ res, (preConsumeUserSubscription loc env requestId userId modelName quotaType amount t).1
      = .ok res → res.amountUsedAfter < 2 ^ 63
  | _ => True

/-- A plan without reset and without a group. -/
def basicPlan : SubscriptionPlan where
  id := 1
  title := "basic"
  durationUnit := "day"
  durationValue := 30
  customSeconds := 0
  maxPurchasePerUser := 0
  upgradeGroup := ""
  totalAmount := 1000
  quotaResetPeriod := "never"
  quotaResetCustomSeconds := 0

/-- A pre-consume at `now` without faults, every plan being the basic one. -/
def basicEnv (now : ℤ) : PreConsumeEnv where
  now := now
  plans _ := .ok basicPlan
  fuel := 1

/-! ### Writes -/

/-- The used amount of a subscription is not negative and within a positive total. -/
def UserSubscription.Fits (s : UserSubscription) : Prop :=
  0 ≤ s.amountUsed ∧ (0 < s.amountTotal → s.amountUsed ≤ s.amountTotal)

/-- The kinds of writes the operations consist of; a row is deleted only if `deletes`. -/
inductive WriteOf (deletes : Prop) (t : Tables) : Tables → Prop
  | saveSub {old s : UserSubscription} : old ∈ t.subs → old.id = s.id →
      s.amountTotal = old.amountTotal → (s.amountUsed = old.amountUsed ∨ s.Fits) →
      WriteOf deletes t (t.saveSub s)
  | createSub {s : UserSubscription} : s.Fits → WriteOf deletes t (t.createSub s)
  | createRecord {r : SubscriptionPreConsumeRecord} {s : UserSubscription} :
      t.record r.requestId = none → r.id = t.nextRecordId → 0 < r.preConsumed →
      trimSpace r.requestId ≠ "" → s ∈ t.subs → r.userSubscriptionId = s.id →
      WriteOf deletes t (t.withRecord r)
  | markRefunded {r : SubscriptionPreConsumeRecord} : r ∈ t.records →
      WriteOf deletes t (t.saveRecord { r with status := .refunded })
  | setUserGroup (userId : ℤ) (group : String) :
      WriteOf deletes t (t.setUserGroup userId group)
  | markExpired (userId now : ℤ) : WriteOf deletes t (markExpired userId now t)
  | deleteSub (id : ℤ) : deletes →
      WriteOf deletes t { t with subs := t.subs.filter fun s => s.id ≠ id }

abbrev Write := WriteOf True

/-- A sequence of writes. -/
abbrev WritesOf (deletes : Prop) : Tables → Tables → Prop :=
  Relation.ReflTransGen (WriteOf deletes)

abbrev Writes := WritesOf True

variable {deletes : Prop}

/-- A record has a positive amount, a request id that is not blank, and keys handed out before. -/
structure SubscriptionPreConsumeRecord.WellFormed (nextRecordId nextSubId : ℤ)
    (r : SubscriptionPreConsumeRecord) : Prop where
  idLt : r.id < nextRecordId
  subLt : r.userSubscriptionId < nextSubId
  pos : 0 < r.preConsumed
  named : trimSpace r.requestId ≠ ""

/-- The store invariant: used amounts are within bounds and keys are unique. -/
structure StoreInv (t : Tables) : Prop where
  usage : ∀ s ∈ t.subs, s.Fits
  subIds : (t.subs.map (·.id)).Nodup
  subIdsLt : ∀ s ∈ t.subs, 0 < s.id ∧ s.id < t.nextSubId
  nextSubId : 0 < t.nextSubId
  requestIds : (t.records.map (·.requestId)).Nodup
  recordIds : (t.records.map (·.id)).Nodup
  records : ∀ r ∈ t.records, r.WellFormed t.nextRecordId t.nextSubId

theorem StoreInv.empty (group : ℤ → String) : StoreInv (Tables.empty group) := by
  constructor <;> simp [Tables.empty]

variable {t t' t₁ : Tables} {requestId modelName : String} {id amount now userId quotaType : ℤ}
  {loc : Location} {fuel : ℕ} {fault : Fault} {plan : SubscriptionPlan} {env : PreConsumeEnv}
  {passed : List UserSubscription} {res : SubscriptionPreConsumeResult} {ops : List StoreOp}

/-- In a store a row is the one its id finds. -/
theorem StoreInv.sub_of_mem (h : StoreInv t) {s : UserSubscription} (hs : s ∈ t.subs) :
    t.sub s.id = some s := Rows.first_of_mem h.subIds hs

theorem nodup_append_new {α κ : Type*} {key : α → κ} {l : List α} {x : α}
    (hnd : (l.map key).Nodup) (hx : ∀ y ∈ l, key y ≠ key x) : ((l ++ [x]).map key).Nodup := by
  rw [List.map_append, List.nodup_append]
  refine ⟨hnd, List.nodup_singleton _, ?_⟩
  intro k hk k' hk' he
  obtain ⟨y, hy, rfl⟩ := List.mem_map.1 hk
  exact hx y hy (he.trans (by simpa using hk'))

/-- A write keeps the store invariant. -/
theorem Write.inv (h : StoreInv t) (hw : WriteOf deletes t t') : StoreInv t' := by
  cases hw with
  | @saveSub old s hold hid htotal hused =>
    have hfits : s.Fits := by
      rcases hused with hused | hused
      · have hold := h.usage old hold
        unfold UserSubscription.Fits at *
        rw [htotal, hused]
        exact hold
      · exact hused
    exact
      { usage := Rows.forall_save h.usage hfits
        subIds := Rows.nodup_save h.subIds
        subIdsLt := Rows.forall_save h.subIdsLt (hid ▸ h.subIdsLt old hold)
        nextSubId := h.nextSubId
        requestIds := h.requestIds
        recordIds := h.recordIds
        records := h.records }
  | @createSub s hfits =>
    have hpos := h.nextSubId
    refine ⟨?_, ?_, ?_, ?_, h.requestIds, h.recordIds, ?_⟩
    · intro x hx
      rcases List.mem_append.1 hx with hx | hx
      · exact h.usage x hx
      · rw [List.mem_singleton.1 hx]
        exact hfits
    · refine nodup_append_new h.subIds fun y hy => ?_
      have := (h.subIdsLt y hy).2
      simp only
      omega
    · intro x hx
      simp only [Tables.createSub] at hx ⊢
      rcases List.mem_append.1 hx with hx | hx
      · have := h.subIdsLt x hx
        omega
      · rw [List.mem_singleton.1 hx]
        simp only
        omega
    · simp only [Tables.createSub]
      omega
    · intro r hr
      obtain ⟨hid, hsub, hamount, hname⟩ := h.records r hr
      refine ⟨hid, ?_, hamount, hname⟩
      simp only [Tables.createSub]
      omega
  | @createRecord r s hfresh hid hpos hname hs hsub =>
    refine ⟨h.usage, h.subIds, h.subIdsLt, h.nextSubId, ?_, ?_, ?_⟩
    · exact nodup_append_new h.requestIds (Rows.first_eq_none.1 hfresh)
    · refine nodup_append_new h.recordIds fun y hy => ?_
      have := (h.records y hy).idLt
      omega
    · intro x hx
      simp only [Tables.withRecord] at hx ⊢
      rcases List.mem_append.1 hx with hx | hx
      · obtain ⟨hxid, hxsub, hxpos, hxname⟩ := h.records x hx
        exact ⟨by omega, hxsub, hxpos, hxname⟩
      · rw [List.mem_singleton.1 hx]
        exact ⟨by omega, hsub ▸ (h.subIdsLt s hs).2, hpos, hname⟩
  | @markRefunded r hr =>
    obtain ⟨hid, hsub, hpos, hname⟩ := h.records r hr
    refine ⟨h.usage, h.subIds, h.subIdsLt, h.nextSubId, ?_, Rows.nodup_save h.recordIds,
      Rows.forall_save h.records ⟨hid, hsub, hpos, hname⟩⟩
    -- the record keeps its request id
    have hsame : ((t.saveRecord { r with status := .refunded }).records.map (·.requestId))
        = t.records.map (·.requestId) := by
      have hany : t.records.any (fun x => x.id = r.id) = true :=
        List.any_eq_true.2 ⟨r, hr, by simp⟩
      simp only [Tables.saveRecord, Rows.save, hany, if_true, List.map_map]
      refine List.map_congr_left fun x hx => ?_
      by_cases hk : x.id = r.id
      · have hxr : x = r := Rows.eq_of_key_eq h.recordIds hx hr hk
        simp [hxr]
      · simp [hk]
    rw [hsame]
    exact h.requestIds
  | setUserGroup userId group =>
    exact ⟨h.usage, h.subIds, h.subIdsLt, h.nextSubId, h.requestIds, h.recordIds, h.records⟩
  | markExpired userId now =>
    refine ⟨?_, ?_, ?_, h.nextSubId, h.requestIds, h.recordIds, h.records⟩
    · intro x hx
      obtain ⟨s, hs, rfl⟩ := List.mem_map.1 hx
      have hfits := h.usage s hs
      split <;> exact hfits
    · have hmap : (NewApi.markExpired userId now t).subs.map (·.id) = t.subs.map (·.id) := by
        simp only [NewApi.markExpired, Rows.update, List.map_map]
        refine List.map_congr_left fun s _ => ?_
        simp only [Function.comp]
        split <;> rfl
      rw [hmap]
      exact h.subIds
    · intro x hx
      obtain ⟨s, hs, rfl⟩ := List.mem_map.1 hx
      have hlt := h.subIdsLt s hs
      split <;> exact hlt
  | deleteSub id _ =>
    refine ⟨fun s hs => h.usage s (List.mem_of_mem_filter hs), ?_,
      fun s hs => h.subIdsLt s (List.mem_of_mem_filter hs), h.nextSubId, h.requestIds,
      h.recordIds, h.records⟩
    exact h.subIds.sublist (List.filter_sublist.map _)

/-- A sequence of writes keeps the store invariant. -/
theorem Writes.inv (h : StoreInv t) (hw : WritesOf deletes t t') : StoreInv t' := by
  induction hw with
  | refl => exact h
  | tail _ hlast ih => exact Write.inv ih hlast

/-! ### Records -/

/-- The request has a record for the given subscription and amount. -/
def HasRecord (requestId : String) (userSubscriptionId preConsumed : ℤ) (t : Tables) : Prop :=
  ∃ record, t.record requestId = some record ∧ record.userSubscriptionId = userSubscriptionId ∧
    record.preConsumed = preConsumed

/-- A write keeps the records: at most a record is marked as refunded. -/
theorem Write.record (h : StoreInv t) {record : SubscriptionPreConsumeRecord}
    (hfound : t.record requestId = some record) (hw : WriteOf deletes t t') :
    ∃ record', t'.record requestId = some record' ∧
      record'.userSubscriptionId = record.userSubscriptionId ∧
      record'.preConsumed = record.preConsumed ∧
      (record.status = .refunded → record'.status = .refunded) := by
  cases hw with
  | saveSub _ _ _ _ => exact ⟨record, hfound, rfl, rfl, id⟩
  | createSub _ => exact ⟨record, hfound, rfl, rfl, id⟩
  | setUserGroup _ _ => exact ⟨record, hfound, rfl, rfl, id⟩
  | markExpired _ _ => exact ⟨record, hfound, rfl, rfl, id⟩
  | deleteSub _ _ => exact ⟨record, hfound, rfl, rfl, id⟩
  | @createRecord r s hfresh _ _ _ _ _ =>
    refine ⟨record, ?_, rfl, rfl, id⟩
    have hne : r.requestId ≠ requestId := by
      rintro rfl
      rw [hfresh] at hfound
      simp at hfound
    exact (Tables.withRecord_record_of_ne hne).trans hfound
  | @markRefunded r hr =>
    let marked : SubscriptionPreConsumeRecord := { r with status := .refunded }
    have hlook : (t.saveRecord marked).record requestId
        = (t.record requestId).map fun z => if z.id = r.id then marked else z := by
      refine Rows.first_save_other ⟨r, hr, rfl⟩ fun z hz hk => ?_
      rw [Rows.eq_of_key_eq h.recordIds hz hr hk]
    rw [hfound, Option.map_some] at hlook
    refine ⟨if record.id = r.id then marked else record, hlook, ?_⟩
    by_cases hk : record.id = r.id
    · have hxr : record = r :=
        Rows.eq_of_key_eq h.recordIds (Tables.record_mem hfound).1 hr hk
      rw [if_pos hk, hxr]
      exact ⟨rfl, rfl, fun _ => rfl⟩
    · rw [if_neg hk]
      exact ⟨rfl, rfl, id⟩

theorem Write.hasRecord (h : StoreInv t) (hr : HasRecord requestId id amount t)
    (hw : WriteOf deletes t t') :
    HasRecord requestId id amount t' := by
  obtain ⟨record, hfound, hid, hamount⟩ := hr
  obtain ⟨record', hfound', hid', hamount', _⟩ := Write.record h hfound hw
  exact ⟨record', hfound', hid'.trans hid, hamount'.trans hamount⟩

/-- A sequence of writes keeps the records. -/
theorem Writes.hasRecord (h : StoreInv t) (hr : HasRecord requestId id amount t)
    (hw : WritesOf deletes t t') :
    HasRecord requestId id amount t' := by
  induction hw with
  | refl => exact hr
  | tail hprev hlast ih => exact Write.hasRecord (Writes.inv h hprev) ih hlast

/-- A write does not bring back a subscription whose id was handed out before. -/
theorem Write.sub_none (hlt : id < t.nextSubId) (hnone : t.sub id = none)
    (hw : WriteOf deletes t t') : t'.sub id = none := by
  cases hw with
  | @saveSub old s hold hid _ _ =>
    rw [Tables.saveSub_sub_of_ne, hnone]
    rintro he
    exact Rows.first_eq_none.1 hnone old hold (hid.trans he)
  | @createSub s _ => exact (Tables.createSub_sub_of_ne s (by omega)).trans hnone
  | createRecord _ _ _ _ _ _ => exact hnone
  | markRefunded _ => exact hnone
  | setUserGroup _ _ => exact hnone
  | markExpired userId now =>
    refine Rows.first_eq_none.2 fun s hs => ?_
    obtain ⟨x, hx, rfl⟩ := List.mem_map.1 hs
    have hne := Rows.first_eq_none.1 hnone x hx
    split <;> exact hne
  | deleteSub id _ =>
    exact Rows.first_eq_none.2 fun s hs =>
      Rows.first_eq_none.1 hnone s (List.mem_of_mem_filter hs)

/-- A write that deletes no row keeps every subscription. -/
theorem WriteOf.sub_ne_none (hsub : t.sub id ≠ none) (hw : WriteOf False t t') :
    t'.sub id ≠ none := by
  have hrow : ∀ t : Tables, t.sub id ≠ none ↔ ∃ s ∈ t.subs, s.id = id :=
    fun t => by simp [Tables.sub, Rows.first_eq_none]
  cases hw with
  | @saveSub old s _ _ _ _ =>
    by_cases hid : s.id = id
    · rw [← hid, Tables.saveSub_sub_self]
      simp
    · rwa [Tables.saveSub_sub_of_ne hid]
  | @createSub s _ =>
    obtain ⟨x, hx, hid⟩ := (hrow t).1 hsub
    exact (hrow _).2 ⟨x, List.mem_append_left _ hx, hid⟩
  | createRecord _ _ _ _ _ _ => exact hsub
  | markRefunded _ => exact hsub
  | setUserGroup _ _ => exact hsub
  | markExpired userId now =>
    obtain ⟨x, hx, hid⟩ := (hrow t).1 hsub
    refine (hrow _).2 ⟨_, List.mem_map_of_mem hx, ?_⟩
    split <;> exact hid
  | deleteSub _ hno => exact hno.elim

/-- A sequence of writes that deletes no row keeps every subscription. -/
theorem WritesOf.sub_ne_none (hsub : t.sub id ≠ none) (hw : WritesOf False t t') :
    t'.sub id ≠ none := by
  induction hw with
  | refl => exact hsub
  | tail _ hlast ih => exact WriteOf.sub_ne_none ih hlast

/-! ### The pre-consume -/

/-- The due check is at most one write, and leaves the row it returns in the table. -/
theorem maybeReset_writes {c sub : UserSubscription} (hc : c ∈ t.subs)
    (h : maybeResetUserSubscriptionWithPlanTx loc fuel fault c plan now t = .ok (sub, t')) :
    WritesOf deletes t t' ∧ sub ∈ t'.subs := by
  obtain ⟨hsub, hcase⟩ := maybeReset_ok h
  rcases hcase with ⟨rfl, rfl⟩ | rfl
  · exact ⟨.refl, hc⟩
  · refine ⟨.single (WriteOf.saveSub hc ?_ ?_ ?_), (Tables.sub_mem (t.saveSub_sub_self sub)).1⟩
    · rw [hsub, ResetOutcome.apply_id]
    · rw [hsub, ResetOutcome.apply_amountTotal]
    · cases ho : resetOutcome loc fuel c plan now with
      | keep => exact Or.inl (by rw [hsub, ho]; rfl)
      | hang => exact Or.inl (by rw [hsub, ho]; rfl)
      | schedule base next => exact Or.inl (by rw [hsub, ho]; rfl)
      | reset base next =>
        refine Or.inr ?_
        rw [hsub, ho]
        exact ⟨le_rfl, fun hpos => hpos.le⟩

/-- The row a due check returns fits when the row it was given does. -/
theorem maybeReset_fits {c sub : UserSubscription} (hc : c.Fits)
    (h : maybeResetUserSubscriptionWithPlanTx loc fuel fault c plan now t = .ok (sub, t')) :
    sub.Fits ∧ sub.amountTotal = c.amountTotal := by
  rw [(maybeReset_ok h).1]
  refine ⟨?_, ResetOutcome.apply_amountTotal _ _⟩
  unfold UserSubscription.Fits
  rw [ResetOutcome.apply_amountUsed, ResetOutcome.apply_amountTotal]
  split
  · exact ⟨le_rfl, fun hpos => hpos.le⟩
  · exact hc

/-- What the due check does to the look-ups: the row is the one it returns, with the used amount
kept or reset, and the other rows stay. -/
theorem maybeReset_sub {c sub : UserSubscription} (hc : t.sub c.id = some c)
    (h : maybeResetUserSubscriptionWithPlanTx loc fuel fault c plan now t = .ok (sub, t')) :
    sub.id = c.id ∧ (sub.amountUsed = c.amountUsed ∨ sub.amountUsed = 0) ∧
      t'.sub c.id = some sub ∧ ∀ id, id ≠ c.id → t'.sub id = t.sub id := by
  obtain ⟨hsub, hcase⟩ := maybeReset_ok h
  have hid : sub.id = c.id := by rw [hsub, ResetOutcome.apply_id]
  refine ⟨hid, ?_, ?_⟩
  · rw [hsub, ResetOutcome.apply_amountUsed]
    split
    · exact Or.inr rfl
    · exact Or.inl rfl
  · rcases hcase with ⟨rfl, rfl⟩ | rfl
    · exact ⟨hc, fun id _ => rfl⟩
    · refine ⟨by rw [← hid]; exact t.saveSub_sub_self sub, fun id hne => ?_⟩
      exact Tables.saveSub_sub_of_ne (by rw [hid]; exact hne.symm)

/-- The candidates passed over are at most reset; the rows of others stay. -/
theorem Scanned.sub (h : Scanned loc env amount passed t t₁)
    (hrows : ∀ c ∈ passed, t.sub c.id = some c) (hnd : (passed.map (·.id)).Nodup) :
    (∀ id, id ∉ passed.map (·.id) → t₁.sub id = t.sub id) ∧
      ∀ id, t₁.amountUsed id = t.amountUsed id ∨ t₁.amountUsed id = 0 := by
  induction h with
  | nil t => exact ⟨fun _ _ => rfl, fun _ => Or.inl rfl⟩
  | @cons c sub rest plan t t₁ t₂ hplan hreset hless hscan ih =>
    rw [List.map_cons, List.nodup_cons] at hnd
    obtain ⟨hid, hused, hself, hother⟩ := maybeReset_sub (hrows c List.mem_cons_self) hreset
    have hrest : ∀ c' ∈ rest, t₁.sub c'.id = some c' := by
      intro c' hc'
      rw [hother c'.id fun he => hnd.1 (he ▸ List.mem_map.2 ⟨c', hc', rfl⟩)]
      exact hrows c' (List.mem_cons_of_mem c hc')
    obtain ⟨hkeep, husedRest⟩ := ih hrest hnd.2
    refine ⟨fun id hne => ?_, fun id => ?_⟩
    · rw [List.map_cons, List.mem_cons, not_or] at hne
      rw [hkeep id hne.2, hother id hne.1]
    · -- the reset changes the used amount of `c` only
      have hone : t₁.amountUsed id = t.amountUsed id ∨ t₁.amountUsed id = 0 := by
        by_cases he : id = c.id
        · subst he
          rw [Tables.amountUsed_of_sub hself,
            Tables.amountUsed_of_sub (hrows c List.mem_cons_self)]
          exact hused
        · refine Or.inl ?_
          simp only [Tables.amountUsed, hother id he]
      rcases husedRest id with hr | hr
      · rw [hr]
        exact hone
      · exact Or.inr hr

/-- The candidates passed over are a sequence of writes. -/
theorem Scanned.writes (h : Scanned loc env amount passed t t₁)
    (hrows : ∀ c ∈ passed, t.sub c.id = some c) (hnd : (passed.map (·.id)).Nodup) :
    WritesOf deletes t t₁ := by
  induction h with
  | nil t => exact .refl
  | @cons c sub rest plan t t₁ t₂ hplan hreset hless hscan ih =>
    rw [List.map_cons, List.nodup_cons] at hnd
    have hc := hrows c List.mem_cons_self
    obtain ⟨_, _, _, hother⟩ := maybeReset_sub hc hreset
    refine (maybeReset_writes (Tables.sub_mem hc).1 hreset).1.trans (ih ?_ hnd.2)
    intro c' hc'
    rw [hother c'.id fun he => hnd.1 (he ▸ List.mem_map.2 ⟨c', hc', rfl⟩)]
    exact hrows c' (List.mem_cons_of_mem c hc')

theorem mem_activeSubs {c : UserSubscription} (h : c ∈ activeSubs userId now t) : c ∈ t.subs := by
  unfold activeSubs at h
  exact List.mem_of_mem_filter ((List.mem_insertionSort _).1 h)

theorem nodup_activeSubs (h : (t.subs.map (·.id)).Nodup) :
    ((activeSubs userId now t).map (·.id)).Nodup := by
  unfold activeSubs
  refine (List.Perm.nodup_iff ((List.perm_insertionSort _ _).map _)).2 ?_
  exact h.sublist (List.filter_sublist.map _)

/-- What a scan that charged a subscription did, step by step. -/
structure ScanCharged (loc : Location) (env : PreConsumeEnv) (requestId : String)
    (userId amount : ℤ) (res : SubscriptionPreConsumeResult) (t t' : Tables) where
  passed : List UserSubscription
  candidate : UserSubscription
  sub : UserSubscription
  plan : SubscriptionPlan
  before : Tables
  after : Tables
  scanned : Scanned loc env amount passed t before
  rows : ∀ c ∈ passed, t.sub c.id = some c
  nodup : (passed.map (·.id)).Nodup
  notPassed : candidate.id ∉ passed.map (·.id)
  found : before.sub candidate.id = some candidate
  foundFirst : t.sub candidate.id = some candidate
  reset : maybeResetUserSubscriptionWithPlanTx loc env.fuel (env.reset candidate.id) candidate
    plan env.now before = .ok (sub, after)
  enough : 0 < sub.amountTotal → amount ≤ sub.amountTotal - sub.amountUsed
  charged : Charged requestId userId amount sub res after t'
  rest : List UserSubscription
  order : activeSubs userId env.now t = passed ++ candidate :: rest
  planFound : getSubscriptionPlanById env.plans candidate.planId = .ok plan

/-- The records are not touched by a scan. -/
theorem Scanned.records (h : Scanned loc env amount passed t t₁) :
    t₁.records = t.records := by
  induction h with
  | nil t => rfl
  | cons _ hreset _ _ ih =>
    rw [ih]
    rcases (maybeReset_ok hreset).2 with ⟨rfl, _⟩ | rfl
    · rfl
    · rfl

/-- A scan that succeeds for a request without a record passed over some candidates and charged
the next one. -/
theorem scanSubs_charged (hnd : (t.subs.map (·.id)).Nodup) (hfresh : t.record requestId = none)
    (h : scanSubs loc env requestId userId amount (activeSubs userId env.now t) t = .ok (res, t')) :
    Nonempty (ScanCharged loc env requestId userId amount res t t') := by
  obtain ⟨passed, c, rest, t₁, t₂, plan, sub, hsubs, hscan, hplan, hreset, henough, hcharge⟩ :=
    scanSubs_ok h
  have hall : ∀ x ∈ passed ++ c :: rest, t.sub x.id = some x := by
    intro x hx
    rw [← hsubs] at hx
    exact Rows.first_of_mem hnd (mem_activeSubs hx)
  have hids : ((passed ++ c :: rest).map (·.id)).Nodup := by
    rw [← hsubs]
    exact nodup_activeSubs hnd
  rw [List.map_append, List.map_cons, List.nodup_append] at hids
  have hrows : ∀ x ∈ passed, t.sub x.id = some x :=
    fun x hx => hall x (List.mem_append.2 (Or.inl hx))
  have hnot : c.id ∉ passed.map (·.id) :=
    fun hmem => hids.2.2 c.id hmem c.id List.mem_cons_self rfl
  have hfirst : t.sub c.id = some c := hall c (by simp)
  have hrecord : t₂.record requestId = none := by
    have hrecords : t₂.records = t.records := by
      rw [← hscan.records]
      rcases (maybeReset_ok hreset).2 with ⟨rfl, _⟩ | rfl
      · rfl
      · rfl
    rw [Tables.record, hrecords]
    exact hfresh
  rcases chargeSub_ok hcharge with hcharged | ⟨dup, hdup, _⟩
  · exact ⟨
      { passed := passed
        candidate := c
        sub := sub
        plan := plan
        before := t₁
        after := t₂
        scanned := hscan
        rows := hrows
        nodup := hids.1
        notPassed := hnot
        found := by rw [(hscan.sub hrows hids.1).1 c.id hnot]; exact hfirst
        foundFirst := hfirst
        reset := hreset
        enough := henough
        charged := hcharged
        rest := rest
        order := hsubs
        planFound := hplan }⟩
  · rw [hrecord] at hdup
    simp at hdup

/-- A scan that charged a subscription is a sequence of writes. -/
theorem ScanCharged.writes (hinv : StoreInv t) (hname : trimSpace requestId ≠ "")
    (hamount : 0 < amount) (h : ScanCharged loc env requestId userId amount res t t') :
    WritesOf deletes t t' := by
  obtain ⟨passed, c, sub, plan, before, after, hscanned, hrows, hnd, _, hfound, _, hreset, henough,
    ⟨hfresh, _, htables⟩, _, _, _⟩ := h
  have hscan : WritesOf deletes t before := hscanned.writes hrows hnd
  obtain ⟨hcheck, hmem⟩ := maybeReset_writes (Tables.sub_mem hfound).1 hreset
  have hupto : WritesOf deletes t after := hscan.trans hcheck
  have hfits : sub.Fits := (Writes.inv hinv hupto).usage sub hmem
  have hcreate : WriteOf deletes after
      (after.withRecord (consumedRecord after requestId userId sub amount)) :=
    WriteOf.createRecord hfresh rfl hamount hname hmem rfl
  refine hupto.trans (.head hcreate (.single ?_))
  rw [htables]
  refine WriteOf.saveSub hmem rfl rfl (Or.inr ⟨?_, fun hpos => ?_⟩)
  · have := hfits.1
    simp only
    omega
  · have := henough hpos
    simp only
    omega

/-- A pre-consume that succeeds either finds the record of the request and changes nothing, or
charges one of the user's subscriptions. -/
theorem preConsume_ok (hnd : (t.subs.map (·.id)).Nodup)
    (h : (preConsumeUserSubscription loc env requestId userId modelName quotaType amount t).1 = .ok res) :
    trimSpace requestId ≠ "" ∧ 0 < amount ∧
    ((∃ existing, t.record requestId = some existing ∧
      preConsumeExisting env.existingSub existing t = .ok res ∧
      (preConsumeUserSubscription loc env requestId userId modelName quotaType amount t).2 = t) ∨
     (t.record requestId = none ∧ Nonempty (ScanCharged loc env requestId userId amount res t
      (preConsumeUserSubscription loc env requestId userId modelName quotaType amount t).2))) := by
  rcases preConsume_cases loc env requestId userId modelName quotaType amount t with
    ⟨e, he⟩ | ⟨res', t', he, hname, hamount, htx⟩
  · rw [he] at h
    simp at h
  · rw [he] at h ⊢
    obtain rfl : res' = res := by simpa using h
    refine ⟨hname, hamount, ?_⟩
    rcases preConsumeTx_ok htx with ⟨existing, hex, hres, ht⟩ | ⟨hfresh, hscan⟩
    · exact Or.inl ⟨existing, hex, hres, ht⟩
    · exact Or.inr ⟨hfresh, scanSubs_charged hnd hfresh hscan⟩

/-- A pre-consume that fails changes nothing. -/
theorem preConsume_error {e : Failure}
    (h : (preConsumeUserSubscription loc env requestId userId modelName quotaType amount t).1 =
      .error e) :
    (preConsumeUserSubscription loc env requestId userId modelName quotaType amount t).2 = t := by
  rcases preConsume_cases loc env requestId userId modelName quotaType amount t with
    ⟨e', he⟩ | ⟨res, t', he, _, _, _⟩
  · rw [he]
  · rw [he] at h
    simp at h

/-! ### Every operation is a sequence of writes -/

theorem preConsume_writes (hinv : StoreInv t) :
    WritesOf deletes t
      (preConsumeUserSubscription loc env requestId userId modelName quotaType amount t).2 := by
  cases hres : (preConsumeUserSubscription loc env requestId userId modelName quotaType amount
      t).1 with
  | error e => rw [preConsume_error hres]
  | ok res =>
    obtain ⟨hname, hamount, ⟨_, _, _, ht⟩ | ⟨_, ⟨hscan⟩⟩⟩ := preConsume_ok hinv.subIds hres
    · rw [ht]
    · exact hscan.writes hinv hname hamount

theorem postConsume_writes {keep : ℤ → ℤ} {faults : TxFaults} {delta : ℤ}
    (h : postConsumeUserSubscriptionDeltaIn keep faults id delta t = .ok t') :
    WritesOf deletes t t' := by
  rcases postConsumeIn_ok h with ⟨_, rfl⟩ | ⟨sub, hsub, hfits, rfl⟩
  · exact .refl
  · refine .single (WriteOf.saveSub (Tables.sub_mem hsub).1 rfl rfl (Or.inr ?_))
    exact ⟨le_max_left _ _, hfits⟩

theorem refundIn_writes (keep : ℤ → ℤ) (faults : RefundFaults) (requestId : String) (t : Tables) :
    WritesOf deletes t (refundSubscriptionPreConsumeIn keep faults requestId t).2 := by
  rcases refundIn_cases keep faults requestId t with hsame | ⟨record, hfound, _, hcase⟩
  · rw [hsame]
  · have hmem := (Tables.record_mem hfound).1
    rcases hcase with ⟨_, hmark⟩ | ⟨_, t', hpost, ⟨hleft, _⟩ | ⟨hleft, _⟩⟩
    · rw [hmark]
      exact .single (WriteOf.markRefunded hmem)
    · rw [hleft]
      exact postConsume_writes hpost
    · rw [hleft]
      refine (postConsume_writes hpost).trans (.single (WriteOf.markRefunded ?_))
      -- the change of the used amount leaves the records alone
      rcases postConsumeIn_ok hpost with ⟨_, rfl⟩ | ⟨sub, _, _, rfl⟩
      · exact hmem
      · exact hmem

theorem refund_writes (faults : RefundFaults) (requestId : String) (t : Tables) :
    WritesOf deletes t (refundSubscriptionPreConsume faults requestId t).2 :=
  refundIn_writes _ faults requestId t

theorem purchase_writes (loc : Location) (now : ℤ) (faults : PurchaseFaults) (userId : ℤ)
    (plan : SubscriptionPlan) (source : String) (t : Tables) :
    WritesOf deletes t (purchaseSubscription loc now faults userId plan source t).2 := by
  have hfits : ∀ endUnix prevGroup,
      (newUserSubscription loc now userId plan source endUnix prevGroup).Fits :=
    fun _ _ => ⟨le_rfl, fun hpos => hpos.le⟩
  rcases purchase_cases loc now faults userId plan source t with hsame | hok
  · rw [hsame]
  · obtain ⟨endUnix, prevGroup, _, ⟨_, _, ht⟩ | ⟨_, _, _, ht⟩⟩ := create_ok hok
    · rw [ht]
      exact .single (WriteOf.createSub (hfits _ _))
    · rw [ht]
      exact .head (WriteOf.setUserGroup _ _) (.single (WriteOf.createSub (hfits _ _)))

theorem downgrade_writes {faults : DowngradeFaults} {sub : UserSubscription} {target : String}
    (h : downgradeUserGroupForSubscriptionTx faults sub now t = .ok (target, t')) :
    WritesOf deletes t t' := by
  rcases downgrade_ok h with ⟨rfl, _⟩ | ⟨rfl, _⟩
  · exact .refl
  · exact .single (WriteOf.setUserGroup _ _)

theorem invalidate_writes (now : ℤ) (faults : AdminFaults) (id : ℤ) (t : Tables) :
    WritesOf deletes t (adminInvalidateUserSubscription now faults id t).2 := by
  rcases invalidate_cases now faults id t with hsame | ⟨sub, target, hsub, hdown⟩
  · rw [hsame]
  · have hsave : WriteOf deletes t (t.saveSub (sub.cancelAt now)) :=
      WriteOf.saveSub (Tables.sub_mem hsub).1 rfl rfl (Or.inl rfl)
    exact .head hsave (downgrade_writes hdown)

theorem delete_writes (now : ℤ) (faults : AdminFaults) (id : ℤ) (t : Tables) :
    Writes t (adminDeleteUserSubscription now faults id t).2 := by
  rcases delete_cases now faults id t with hsame | ⟨sub, target, t', _, hdown, ht⟩
  · rw [hsame]
  · rw [ht]
    exact (downgrade_writes hdown).tail (WriteOf.deleteSub id trivial)

theorem expireDue_writes (env : ExpireEnv) (limit : ℤ) (t : Tables) :
    WritesOf deletes t (expireDueSubscriptions env limit t).2 := by
  refine expireDue_rule (P := WritesOf deletes t)
    (fun userId _ t₁ t₂ hbefore htx => hbefore.trans ?_) .refl
  rcases expireUserTx_ok htx with ⟨rfl, _⟩ | ⟨c, _, _, _, rfl⟩
  · exact .single (WriteOf.markExpired _ _)
  · exact .head (WriteOf.markExpired _ _) (.single (WriteOf.setUserGroup _ _))

theorem resetOne_writes (loc : Location) (env : ResetEnv) (id : ℤ) (plan : SubscriptionPlan)
    (t : Tables) : WritesOf deletes t (resetOne loc env id plan t).2 := by
  rcases resetOne_cases loc env id plan t with ⟨hsame, _⟩ | ⟨locked, sub, t', hmem, _, hreset, ht⟩
  · rw [hsame]
  · rw [ht]
    exact (maybeReset_writes hmem hreset).1

theorem resetDue_writes (loc : Location) (env : ResetEnv) (limit : ℤ) (t : Tables) :
    WritesOf deletes t (resetDueSubscriptions loc env limit t).2 := by
  exact resetDue_rule (fun id plan t₁ hbefore => hbefore.trans (resetOne_writes loc env id plan t₁))
    limit .refl

/-- Every operation of the store is a sequence of writes. -/
theorem storeStep_writes (hinv : StoreInv t) (op : StoreOp) :
    Writes t (storeStep loc t op) := by
  cases op with
  | purchase now faults userId plan source => exact purchase_writes _ _ _ _ _ _ _
  | preConsume env requestId userId modelName quotaType amount => exact preConsume_writes hinv
  | postConsume faults id delta =>
    simp only [storeStep]
    split
    · exact .refl
    · rename_i t' hpost
      exact postConsume_writes hpost
  | refund faults requestId => exact refund_writes _ _ _
  | resetDue env limit => exact resetDue_writes _ _ _ _
  | expireDue env limit => exact expireDue_writes _ _ _
  | invalidate now faults id => exact invalidate_writes _ _ _ _
  | delete now faults id => exact delete_writes _ _ _ _

/-- A run of operations is a sequence of writes. -/
theorem run_writes (hinv : StoreInv t) (ops : List StoreOp) :
    Writes t (Transition.run (storeStep loc) t ops) := by
  induction ops generalizing t with
  | nil => exact .refl
  | cons op ops ih =>
    have hstep : Writes t (storeStep loc t op) := storeStep_writes hinv op
    exact hstep.trans (ih (Writes.inv hinv hstep))

/-- Every state the store can be in satisfies the invariant. -/
theorem run_storeInv (loc : Location) (group : ℤ → String) (ops : List StoreOp) :
    StoreInv (Transition.run (storeStep loc) (Tables.empty group) ops) :=
  Writes.inv (StoreInv.empty group) (run_writes (StoreInv.empty group) ops)

/-! ### Charging once -/

/-- What a pre-consume of `amount` that returned `res` has done: the result is what the request's
record says, a request that had a record changes nothing, and one that had none charges its
amount to one subscription, the others being at most reset. -/
structure PreConsumed (requestId : String) (amount : ℤ) (res : SubscriptionPreConsumeResult)
    (t t' : Tables) : Prop where
  stored : HasRecord requestId res.userSubscriptionId res.preConsumed t'
  row : t'.sub res.userSubscriptionId ≠ none
  again : t.record requestId ≠ none → t' = t
  charged : t.record requestId = none →
    res.preConsumed = amount ∧ res.amountUsedAfter = res.amountUsedBefore + amount ∧
      t'.amountUsed res.userSubscriptionId = res.amountUsedAfter ∧
      (res.amountUsedBefore = t.amountUsed res.userSubscriptionId ∨ res.amountUsedBefore = 0)
  others : ∀ id, id ≠ res.userSubscriptionId →
    t'.amountUsed id = t.amountUsed id ∨ t'.amountUsed id = 0

/-- An answer from a record is made from the row of its subscription. -/
theorem preConsumeExisting_row {existing : SubscriptionPreConsumeRecord}
    (h : preConsumeExisting fault existing t = .ok res) :
    t.sub existing.userSubscriptionId ≠ none := by
  intro hnone
  unfold preConsumeExisting at h
  rw [hnone] at h
  split at h
  · simp at h
  · simp [guardFault_eq_ok] at h

/-- The charge of a scan leaves a record of its amount. -/
theorem ScanCharged.record (h : ScanCharged loc env requestId userId amount res t t') :
    res.preConsumed = amount ∧
    ∃ record, t'.record requestId = some record ∧ record.status = .consumed ∧
      record.userSubscriptionId = res.userSubscriptionId ∧ record.preConsumed = amount := by
  obtain ⟨passed, c, sub, plan, before, after, _, _, _, _, _, _, _, _, ⟨hfresh, hres, htables⟩, _,
    _, _⟩ := h
  rw [hres, htables]
  refine ⟨rfl, consumedRecord after requestId userId sub amount, ?_, rfl, rfl, rfl⟩
  have hnone : after.record (consumedRecord after requestId userId sub amount).requestId = none :=
    hfresh
  exact Tables.withRecord_record_self hnone

/-- The charge of a scan: the candidate's used amount grows by `amount` from what it was after the
due check, and the other subscriptions are at most reset. -/
theorem ScanCharged.preConsumed (hfreshFirst : t.record requestId = none)
    (h : ScanCharged loc env requestId userId amount res t t') :
    PreConsumed requestId amount res t t' := by
  obtain ⟨hamount, record, hrecord, _, hrecordId, hrecordAmount⟩ := h.record
  obtain ⟨passed, c, sub, plan, before, after, hscanned, hrows, hnd, hnot, hfound, hfirst, hreset,
    _, ⟨hfresh, hres, htables⟩, _, _, _⟩ := h
  obtain ⟨hkeep, hpassed⟩ := hscanned.sub hrows hnd
  obtain ⟨hid, hused, _, hother⟩ := maybeReset_sub hfound hreset
  have hself : t'.amountUsed sub.id = sub.amountUsed + amount := by
    rw [htables]
    exact Tables.saveSub_amountUsed_self _ { sub with amountUsed := sub.amountUsed + amount }
  have hrest : ∀ id, id ≠ sub.id → t'.amountUsed id = before.amountUsed id := by
    intro id hne
    have hrow : t'.sub id = after.sub id := by
      rw [htables]
      exact Tables.saveSub_sub_of_ne hne.symm
    simp only [Tables.amountUsed, hrow, hother id (by rw [← hid]; exact hne)]
  refine ⟨⟨record, hrecord, hrecordId, hrecordAmount.trans hamount.symm⟩, ?_,
    fun hsome => absurd hfreshFirst hsome, fun _ => ?_, fun id hne => ?_⟩
  · have hrow : t'.sub sub.id = some { sub with amountUsed := sub.amountUsed + amount } := by
      rw [htables]
      exact Tables.saveSub_sub_self _ { sub with amountUsed := sub.amountUsed + amount }
    simp [hres, hrow]
  · rw [hres]
    refine ⟨rfl, rfl, hself, ?_⟩
    simp only
    rw [hid, Tables.amountUsed_of_sub hfirst]
    exact hused
  · rw [hres] at hne
    rw [hrest id hne]
    exact hpassed id

theorem preConsume_preConsumed (hinv : StoreInv t)
    (h : (preConsumeUserSubscription loc env requestId userId modelName quotaType amount t).1 = .ok res) :
    PreConsumed requestId amount res t
      (preConsumeUserSubscription loc env requestId userId modelName quotaType amount t).2 := by
  obtain ⟨_, _, ⟨existing, hex, hres, ht⟩ | ⟨hfresh, ⟨hscan⟩⟩⟩ := preConsume_ok hinv.subIds h
  · obtain ⟨_, hid, hamount⟩ := preConsumeExisting_ok hres
    rw [ht]
    refine ⟨⟨existing, hex, hid.symm, hamount.symm⟩, ?_, fun _ => rfl, fun hnone => ?_,
      fun _ _ => Or.inl rfl⟩
    · rw [hid]
      exact preConsumeExisting_row hres
    rw [hex] at hnone
    simp at hnone
  · exact hscan.preConsumed hfresh

/-! ### The store in 64 bits -/

/-- A charge whose sum fits is the same in 64 bits. -/
theorem chargeSub64_eq {sub : UserSubscription} (hpos : 0 ≤ sub.amountUsed + amount)
    (hsum : ∀ res t', chargeSub env requestId userId amount sub t = .ok (res, t') →
      res.amountUsedAfter < 2 ^ 63) :
    chargeSubIn wrap64 env requestId userId amount sub t
      = chargeSub env requestId userId amount sub t := by
  unfold chargeSub chargeSubIn at *
  simp only at hsum ⊢
  split
  · rfl
  · rename_i t₁ hcreate
    simp only [hcreate] at hsum
    cases hsave : env.save with
    | some e => rfl
    | none =>
      have hlt := hsum _ _ (by rw [hsave]; rfl)
      rw [wrap64_of_lt hpos hlt]

/-- A scan whose sum fits is the same in 64 bits. -/
theorem scanSubs64_eq {subs : List UserSubscription} (hamount : 0 < amount)
    (hrows : ∀ c ∈ subs, c.Fits ∧ c.amountTotal < 2 ^ 63)
    (hsum : ∀ res t', scanSubs loc env requestId userId amount subs t = .ok (res, t') →
      res.amountUsedAfter < 2 ^ 63) :
    scanSubsIn wrap64 loc env requestId userId amount subs t
      = scanSubs loc env requestId userId amount subs t := by
  induction subs generalizing t with
  | nil => rfl
  | cons c rest ih =>
    have hrest := fun x hx => hrows x (List.mem_cons_of_mem c hx)
    unfold scanSubs at *
    unfold scanSubsIn at hsum ⊢
    cases hplan : getSubscriptionPlanById env.plans c.planId with
    | error e => rfl
    | ok plan =>
      cases hreset : maybeResetUserSubscriptionWithPlanTx loc env.fuel (env.reset c.id) c
          plan env.now t with
      | error e => simp only [hreset]
      | ok p =>
        obtain ⟨sub, t₁⟩ := p
        simp only [hplan, hreset] at hsum ⊢
        obtain ⟨hused, htotal⟩ := maybeReset_fits (hrows c List.mem_cons_self).1 hreset
        have hlt := (hrows c List.mem_cons_self).2
        have hleft : 0 < sub.amountTotal →
            wrap64 (sub.amountTotal - sub.amountUsed) = sub.amountTotal - sub.amountUsed :=
          fun hpos => wrap64_of_lt (by have := hused.2 hpos; omega)
            (by have := hused.1; omega)
        have hsame : (0 < sub.amountTotal ∧
            wrap64 (sub.amountTotal - sub.amountUsed) < amount) ↔
            (0 < sub.amountTotal ∧ sub.amountTotal - sub.amountUsed < amount) :=
          and_congr_right fun hpos => by rw [hleft hpos]
        by_cases hless : 0 < sub.amountTotal ∧ sub.amountTotal - sub.amountUsed < amount
        · rw [if_pos (hsame.2 hless), if_pos hless]
          rw [if_pos hless] at hsum
          exact ih hrest hsum
        · rw [if_neg (mt hsame.1 hless), if_neg hless]
          rw [if_neg hless] at hsum
          exact chargeSub64_eq (by have := hused.1; omega) hsum

/-- A pre-consume whose sum fits returns an error, or is the same in 64 bits. -/
theorem preConsume64_cases (hinv : StoreInv t)
    (hfits : StoreOp.SumFits loc t (.preConsume env requestId userId modelName quotaType amount)) :
    (∃ e, preConsumeUserSubscription64 loc env requestId userId modelName quotaType amount t
      = (.error e, t)) ∨
    preConsumeUserSubscription64 loc env requestId userId modelName quotaType amount t
      = preConsumeUserSubscription loc env requestId userId modelName quotaType amount t := by
  obtain ⟨htotals, hsum⟩ := hfits
  unfold preConsumeUserSubscription64 preConsumeUserSubscription preConsumeUserSubscriptionIn at *
  split_ifs with huser hname hamount
  · exact Or.inl ⟨_, rfl⟩
  · exact Or.inl ⟨_, rfl⟩
  · exact Or.inl ⟨_, rfl⟩
  · rw [if_neg huser, if_neg hname, if_neg hamount] at hsum
    cases hcommit : env.commit with
    | some e => exact Or.inl (by split <;> exact ⟨_, rfl⟩)
    | none =>
      have htx : preConsumeTxIn wrap64 loc env requestId userId amount t
          = preConsumeTxIn (fun x => x) loc env requestId userId amount t := by
        unfold preConsumeTxIn at *
        cases hexisting : env.existing with
        | some e => rfl
        | none =>
          cases hrecord : t.record requestId with
          | some record => rfl
          | none =>
            simp only [hexisting, hrecord, hcommit, Option.map_none, guardFault_none] at hsum ⊢
            split
            · rfl
            · rename_i hactive
              rw [if_neg hactive] at hsum
              refine scanSubs64_eq (by omega) (fun c hc => ?_) fun res t' hok => ?_
              · have hmem := mem_activeSubs hc
                exact ⟨hinv.usage c hmem, htotals c hmem⟩
              · exact hsum res (by rw [show scanSubsIn _ _ _ _ _ _ _ _ = _ from hok])
      exact Or.inr (by rw [htx])

/-- An operation whose sum fits is a sequence of writes in 64 bits as well. -/
theorem storeStep64_writes {op : StoreOp} (hinv : StoreInv t) (hfits : op.SumFits loc t) :
    WritesOf op.Deletes t (storeStep64 loc t op) := by
  cases op with
  | purchase now faults userId plan source => exact purchase_writes _ _ _ _ _ _ _
  | preConsume env requestId userId modelName quotaType amount =>
    simp only [storeStep64]
    rcases preConsume64_cases hinv hfits with ⟨e, he⟩ | hsame
    · rw [he]
    · rw [hsame]
      exact preConsume_writes hinv
  | postConsume faults id delta =>
    simp only [storeStep64]
    split
    · exact .refl
    · rename_i t' hpost
      exact postConsume_writes hpost
  | refund faults requestId => exact refundIn_writes _ _ _ _
  | resetDue env limit => exact resetDue_writes _ _ _ _
  | expireDue env limit => exact expireDue_writes _ _ _
  | invalidate now faults id => exact invalidate_writes _ _ _ _
  | delete now faults id => exact delete_writes now faults id t

/-- A run whose sums fit keeps the store invariant in 64 bits. -/
theorem run64_inv (hinv : StoreInv t)
    (hfits : Transition.Along (storeStep64 loc) (StoreOp.SumFits loc) t ops) :
    StoreInv (Transition.run (storeStep64 loc) t ops) :=
  Transition.run_invariant (fun _ _ h hok => Writes.inv h (storeStep64_writes h hok)) hinv hfits

/-- A run keeps the record of a request. -/
theorem run64_hasRecord (hinv : StoreInv t) (hrecord : HasRecord requestId id amount t)
    (hfits : Transition.Along (storeStep64 loc) (StoreOp.SumFits loc) t ops) :
    HasRecord requestId id amount (Transition.run (storeStep64 loc) t ops) := by
  have hstep : ∀ t op, (StoreInv t ∧ HasRecord requestId id amount t) → op.SumFits loc t →
      StoreInv (storeStep64 loc t op) ∧ HasRecord requestId id amount (storeStep64 loc t op) := by
    intro t op h hok
    have hwrites := storeStep64_writes h.1 hok
    exact ⟨Writes.inv h.1 hwrites, Writes.hasRecord h.1 h.2 hwrites⟩
  exact (Transition.run_invariant hstep ⟨hinv, hrecord⟩ hfits).2

/-- A run that deletes no subscription keeps every row. -/
theorem run64_row (hinv : StoreInv t) (hrow : t.sub id ≠ none)
    (hdeletes : ∀ op ∈ ops, ¬ op.Deletes)
    (hfits : Transition.Along (storeStep64 loc) (StoreOp.SumFits loc) t ops) :
    (Transition.run (storeStep64 loc) t ops).sub id ≠ none := by
  have hstep : ∀ t op, (StoreInv t ∧ t.sub id ≠ none) → (op.SumFits loc t ∧ ¬ op.Deletes) →
      StoreInv (storeStep64 loc t op) ∧ (storeStep64 loc t op).sub id ≠ none := by
    intro t op h hok
    have hwrites := storeStep64_writes h.1 hok.1
    refine ⟨Writes.inv h.1 hwrites, ?_⟩
    rw [eq_false hok.2] at hwrites
    exact WritesOf.sub_ne_none h.2 hwrites
  exact (Transition.run_invariant hstep ⟨hinv, hrow⟩
    (Transition.along_and_forall hfits hdeletes)).2

/-! ### Calling again -/

/-- What calls with a request id answer when `res` was charged under it: nothing is changed, an
answer is the stored subscription and amount, and a call whose statements succeed answers unless
the request was refunded. -/
structure AnswersAgain (loc : Location) (requestId : String) (res : SubscriptionPreConsumeResult)
    (t : Tables) : Prop where
  unchanged : ∀ env userId modelName quotaType amount,
    (preConsumeUserSubscription64 loc env requestId userId modelName quotaType amount t).2 = t
  stored : ∀ env userId modelName quotaType amount res',
    (preConsumeUserSubscription64 loc env requestId userId modelName quotaType amount t).1
      = .ok res' →
    res'.userSubscriptionId = res.userSubscriptionId ∧ res'.preConsumed = res.preConsumed
  answers : ∀ env userId modelName quotaType amount, 0 < userId → 0 < amount →
    env.existing = none → env.existingSub = none → env.commit = none →
    t.sub res.userSubscriptionId ≠ none →
    if (t.record requestId).any (·.status = .refunded) then
      (preConsumeUserSubscription64 loc env requestId userId modelName quotaType amount t).1
        = .error (.err "subscription pre-consume already refunded")
    else ∃ res',
      (preConsumeUserSubscription64 loc env requestId userId modelName quotaType amount t).1
        = .ok res'

/-- The body of a pre-consume for a request that has a record. -/
theorem preConsumeTxIn_of_record {keep : ℤ → ℤ} {record : SubscriptionPreConsumeRecord}
    (hfound : t.record requestId = some record) :
    preConsumeTxIn keep loc env requestId userId amount t = guardFault (env.existing.map .err)
      ((preConsumeExisting env.existingSub record t).map (·, t)) := by
  unfold preConsumeTxIn
  rw [hfound]

/-- Calls for a request that has a record answer from it. -/
theorem answersAgain_of_hasRecord (hname : trimSpace requestId ≠ "")
    (hrecord : HasRecord requestId res.userSubscriptionId res.preConsumed t) :
    AnswersAgain loc requestId res t := by
  obtain ⟨record, hfound, hid, hamount⟩ := hrecord
  -- an answer is made from the record, and the tables stay
  have hok : ∀ env userId modelName quotaType amount,
      (∃ e, preConsumeUserSubscription64 loc env requestId userId modelName quotaType amount t
        = (.error e, t)) ∨
      ∃ res', preConsumeUserSubscription64 loc env requestId userId modelName quotaType amount t
        = (.ok res', t) ∧ res'.userSubscriptionId = res.userSubscriptionId ∧
        res'.preConsumed = res.preConsumed := by
    intro env userId modelName quotaType amount
    rcases preConsumeIn_cases wrap64 loc env requestId userId modelName quotaType amount t with
      he | ⟨res', t', he, _, _, htx⟩
    · exact Or.inl he
    · rw [preConsumeTxIn_of_record hfound, guardFault_eq_ok] at htx
      cases hres : preConsumeExisting env.existingSub record t with
      | error e => simp [hres, Except.map] at htx
      | ok res'' =>
        obtain ⟨_, hid', hamount'⟩ := preConsumeExisting_ok hres
        simp only [hres, Except.map, Except.ok.injEq, Prod.mk.injEq] at htx
        obtain ⟨_, rfl, rfl⟩ := htx
        exact Or.inr ⟨res'', he, hid'.trans hid, hamount'.trans hamount⟩
  constructor
  · intro env userId modelName quotaType amount
    rcases hok env userId modelName quotaType amount with ⟨e, he⟩ | ⟨res', he, _⟩ <;> rw [he]
  · intro env userId modelName quotaType amount res' hres
    rcases hok env userId modelName quotaType amount with ⟨e, he⟩ | ⟨res'', he, hsame⟩
    · rw [he] at hres
      simp at hres
    · rw [he] at hres
      obtain rfl : res'' = res' := by simpa using hres
      exact hsame
  · intro env userId modelName quotaType amount huser hpos hexisting hsub hcommit hrow
    have hcall : (preConsumeUserSubscription64 loc env requestId userId modelName quotaType amount
        t).1 = preConsumeExisting none record t := by
      unfold preConsumeUserSubscription64 preConsumeUserSubscriptionIn
      rw [if_neg (by omega), if_neg hname, if_neg (by omega), preConsumeTxIn_of_record hfound,
        hexisting, hsub, hcommit]
      cases preConsumeExisting none record t <;> rfl
    rw [hcall, hfound]
    obtain ⟨sub, hsubRow⟩ := Option.ne_none_iff_exists'.1 hrow
    rw [← hid] at hsubRow
    by_cases hstatus : record.status = .refunded
    · simp [preConsumeExisting, hstatus]
    · simp [preConsumeExisting, hstatus, hsubRow]

/-- **Every state of the store.**  After any run of operations whose sums fit their 64-bit
columns: used amounts are not negative and within the totals, a request has at most one record, a
pre-consume that fails changes nothing, and one that succeeds has charged its request once.
Whatever runs afterwards, calls with that request id change nothing and answer with the same
subscription and amount; once the request was refunded they are refused. -/
theorem store_invariant (loc : Location) (group : ℤ → String) (ops : List StoreOp)
    (env : PreConsumeEnv) (requestId : String) (userId : ℤ) (modelName : String)
    (quotaType amount : ℤ)
    (hfits : Transition.Along (storeStep64 loc) (StoreOp.SumFits loc) (Tables.empty group) ops) :
    let t := Transition.run (storeStep64 loc) (Tables.empty group) ops
    let called := preConsumeUserSubscription64 loc env requestId userId modelName quotaType amount t
    (∀ s ∈ t.subs, 0 ≤ s.amountUsed ∧ (0 < s.amountTotal → s.amountUsed ≤ s.amountTotal)) ∧
    (t.records.map (·.requestId)).Nodup ∧
    (∀ e, called.1 = .error e → called.2 = t) ∧
    (StoreOp.SumFits loc t (.preConsume env requestId userId modelName quotaType amount) →
      ∀ res, called.1 = .ok res →
        PreConsumed requestId amount res t called.2 ∧
        ∀ ops', Transition.Along (storeStep64 loc) (StoreOp.SumFits loc) called.2 ops' →
          let later := Transition.run (storeStep64 loc) called.2 ops'
          AnswersAgain loc requestId res later ∧
            ((∀ op ∈ ops', ¬ op.Deletes) → later.sub res.userSubscriptionId ≠ none)) := by
  intro t called
  have hinv : StoreInv t := run64_inv (StoreInv.empty group) hfits
  have hcases := preConsumeIn_cases wrap64 loc env requestId userId modelName quotaType amount t
  refine ⟨hinv.usage, hinv.requestIds, fun e he => ?_, fun hsum res hres => ?_⟩
  · rcases hcases with ⟨e', herr⟩ | ⟨res, t', hok, _⟩
    · exact congrArg Prod.snd herr
    · exact absurd (he.symm.trans (congrArg Prod.fst hok)) (by simp)
  · rcases preConsume64_cases hinv hsum with ⟨e, he⟩ | hsame
    · exact absurd (hres.symm.trans (congrArg Prod.fst he)) (by simp)
    · have hcalled : called
          = preConsumeUserSubscription loc env requestId userId modelName quotaType amount t := hsame
      rw [hcalled] at hres ⊢
      have hwrites : Writes t (preConsumeUserSubscription loc env requestId userId modelName
          quotaType amount t).2 := preConsume_writes hinv
      have hinv' := Writes.inv hinv hwrites
      have hdone := preConsume_preConsumed hinv hres
      refine ⟨hdone, fun ops' hfits' => ⟨?_, fun hdeletes => ?_⟩⟩
      · exact answersAgain_of_hasRecord (preConsume_ok hinv.subIds hres).1
          (run64_hasRecord hinv' hdone.stored hfits')
      · exact run64_row hinv' hdone.row hdeletes hfits'

/-- A request is charged, another one is charged and refunded, and the first one calls again. -/
theorem store_invariant_two_requests :
    let t := Transition.run (storeStep64 utc) (Tables.empty fun _ => "default")
      [.purchase 1000 {} 1 basicPlan "order"]
    let called := preConsumeUserSubscription64 utc (basicEnv 1010) "req-1" 1 "model" 0 100 t
    AnswersAgain utc "req-1" ⟨1, 100, 1000, 0, 100⟩
      (Transition.run (storeStep64 utc) called.2
        [.preConsume (basicEnv 1020) "req-2" 1 "model" 0 50, .refund {} "req-2"]) := by
  intro t called
  obtain ⟨_, _, _, h⟩ := store_invariant utc (fun _ => "default")
    [.purchase 1000 {} 1 basicPlan "order"] (basicEnv 1010) "req-1" 1 "model" 0 100
    ⟨trivial, trivial⟩
  have hfirst : (preConsumeUserSubscription utc (basicEnv 1010) "req-1" 1 "model" 0 100 t).1
      = .ok ⟨1, 100, 1000, 0, 100⟩ := by decide
  have hsecond : (preConsumeUserSubscription utc (basicEnv 1020) "req-2" 1 "model" 0 50
      called.2).1 = .ok ⟨1, 50, 1000, 100, 150⟩ := by decide
  refine ((h ⟨by decide, fun res hres => ?_⟩ _ (by decide)).2
    [.preConsume (basicEnv 1020) "req-2" 1 "model" 0 50, .refund {} "req-2"]
    ⟨⟨by decide, fun res hres => ?_⟩, trivial, trivial⟩).1
  · obtain rfl := Except.ok.inj (hres.symm.trans hfirst)
    decide
  · obtain rfl := Except.ok.inj (hres.symm.trans hsecond)
    decide

/-- A refunded request that calls again is refused though its record is there, and a plan without
a limit is charged past what its column holds. -/
theorem refunded_call_refused :
    (let t := Transition.run (storeStep64 utc) (Tables.empty fun _ => "default")
      [.purchase 1000 {} 1 basicPlan "order",
        .preConsume (basicEnv 1010) "req-1" 1 "model" 0 100, .refund {} "req-1"]
    t.record "req-1" = some ⟨1, "req-1", 1, 1, 100, .refunded⟩ ∧
      (preConsumeUserSubscription64 utc (basicEnv 1020) "req-1" 1 "model" 0 100 t).1
        = .error (.err "subscription pre-consume already refunded")) ∧
    (Transition.run (storeStep64 utc) (Tables.empty fun _ => "default")
      [.purchase 1000 {} 1 { basicPlan with totalAmount := 0 } "order",
        .preConsume (basicEnv 1010) "req-1" 1 "model" 0 (2 ^ 63 - 1),
        .preConsume (basicEnv 1020) "req-2" 1 "model" 0 1]).amountUsed 1 = - 2 ^ 63 := by
  decide

end NewApi

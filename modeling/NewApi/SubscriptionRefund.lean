/-
**How much a refund gives back.**

The refund of a request changes the used amount in one transaction and marks the record in
another.  When the first commits and the second fails the call reports an error, and the next
attempt finds the record unmarked and gives the amount back again.  This module counts: calls of
which `k` change the used amount before the record is marked take `min used (k * preConsumed)` off
it.  Other operations may run in between; then `k * preConsumed` is a bound.

Main definitions:

* `NewApi.RefundFaults.Pays`, `NewApi.RefundFaults.Marks` — which transaction of a call commits;
* `NewApi.payments` — how many of some calls change the used amount;
* `NewApi.refundTotal` — what a run takes off the used amount on behalf of a request;
* `NewApi.RefundClosed` — a request for which nothing is given back any more.

Main results:

* `NewApi.refundTotal_le` — the bound, whatever runs in between;
* `NewApi.refundTotal_calls` — what calls in a row take off;
* `NewApi.refund_within_preConsumed_iff` — **when a refund stays within what was charged**.
-/

import NewApi.SubscriptionStore

set_option autoImplicit false

namespace NewApi

open Transition (run)

/-! ### Calls -/

/-- The transaction of the used amount meets no fault. -/
def RefundFaults.Pays (faults : RefundFaults) : Prop := faults.first = none ∧ faults.inner = {}

/-- The statements that mark the record meet no fault. -/
def RefundFaults.Marks (faults : RefundFaults) : Prop := faults.save = none ∧ faults.commit = none

instance (faults : RefundFaults) : Decidable faults.Pays := by
  unfold RefundFaults.Pays; infer_instance

instance (faults : RefundFaults) : Decidable faults.Marks := by
  unfold RefundFaults.Marks; infer_instance

/-- How many of the calls change the used amount: those whose inner transaction commits, up to
the first that marks the record as well. -/
def payments : List RefundFaults → ℕ
  | [] => 0
  | faults :: rest =>
    if faults.Pays then (if faults.Marks then 1 else payments rest + 1) else payments rest

/-- The refund calls for a request among the operations of a run. -/
def refundCalls (requestId : String) (ops : List StoreOp) : List RefundFaults :=
  ops.filterMap fun
    | .refund faults r => if r = requestId then some faults else none
    | _ => none

/-- The used amount of the subscription a request was charged to. -/
def usedFor (requestId : String) (t : Tables) : ℤ :=
  match t.record requestId with
  | none => 0
  | some record => t.amountUsed record.userSubscriptionId

/-- What an operation takes off the used amount on behalf of a request: only a refund call for it
does. -/
def refundedBy (loc : Location) (requestId : String) (t : Tables) (op : StoreOp) : ℤ :=
  match op with
  | .refund _ r =>
    if r = requestId then usedFor requestId t - usedFor requestId (storeStep loc t op) else 0
  | _ => 0

/-- What a run takes off the used amount on behalf of a request. -/
def refundTotal (loc : Location) (requestId : String) : Tables → List StoreOp → ℤ
  | _, [] => 0
  | t, op :: ops =>
    refundedBy loc requestId t op + refundTotal loc requestId (storeStep loc t op) ops

/-! ### One call -/

/-- A request for which nothing is given back any more: its record is marked, or the subscription
it was charged to is gone. -/
def RefundClosed (requestId : String) (t : Tables) : Prop :=
  ∃ record, t.record requestId = some record ∧
    (record.status = .refunded ∨ t.sub record.userSubscriptionId = none)

variable {faults : RefundFaults} {requestId : String} {t : Tables}
  {record : SubscriptionPreConsumeRecord} {sub : UserSubscription} {loc : Location}

/-- A refund call for a request with a record changes nothing, unless the record is unmarked, the
subscription exists and the inner transaction commits. -/
theorem refund_same (hinv : StoreInv t) (hrecord : t.record requestId = some record)
    (h : record.status = .refunded ∨ t.sub record.userSubscriptionId = none ∨ ¬ faults.Pays) :
    (refundSubscriptionPreConsume faults requestId t).2 = t := by
  obtain ⟨hmem, hid⟩ := Tables.record_mem hrecord
  obtain ⟨_, _, hpos, hname⟩ := hinv.records record hmem
  rw [hid] at hname
  cases hstatus : record.status with
  | refunded => exact refund_refunded hrecord hstatus
  | consumed =>
    cases hfirst : faults.first with
    | some e =>
      unfold refundSubscriptionPreConsume refundSubscriptionPreConsumeIn
      rw [if_neg hname]
      simp [hfirst]
    | none =>
      rw [refund_consumed hname hrecord hstatus hpos hfirst]
      have herr : ∃ e, postConsumeUserSubscriptionDelta faults.inner record.userSubscriptionId
          (-record.preConsumed) t = .error e := by
        rcases h with h | h | h
        · rw [hstatus] at h
          simp at h
        · cases hres : postConsumeUserSubscriptionDelta faults.inner record.userSubscriptionId
              (-record.preConsumed) t with
          | error e => exact ⟨e, rfl⟩
          | ok t' =>
            rcases postConsume_ok hres with ⟨hzero, _⟩ | ⟨sub, hsub, _⟩
            · omega
            · rw [h] at hsub
              simp at hsub
        · exact postConsume_of_fault (by omega) fun hinner => h ⟨hfirst, hinner⟩
      obtain ⟨e, he⟩ := herr
      rw [he]

/-- The row of the subscription after its request's amount has been given back. -/
def refundedSub (record : SubscriptionPreConsumeRecord) (sub : UserSubscription) :
    UserSubscription :=
  { sub with amountUsed := max 0 (sub.amountUsed + -record.preConsumed) }

/-- A call whose inner transaction commits gives the amount back, and marks the record if it
can. -/
theorem refund_pays (hinv : StoreInv t) (hrecord : t.record requestId = some record)
    (hstatus : record.status = .consumed) (hsub : t.sub record.userSubscriptionId = some sub)
    (h : faults.Pays) :
    (refundSubscriptionPreConsume faults requestId t).2 =
      if faults.Marks then
        (t.saveSub (refundedSub record sub)).saveRecord { record with status := .refunded }
      else t.saveSub (refundedSub record sub) := by
  obtain ⟨hmem, hid⟩ := Tables.record_mem hrecord
  obtain ⟨_, _, hpos, hname⟩ := hinv.records record hmem
  obtain ⟨hsubMem, hsubId⟩ := Tables.sub_mem hsub
  have hfits := hinv.usage sub hsubMem
  have hidPos := (hinv.subIdsLt sub hsubMem).1
  rw [hid] at hname
  have hpost := postConsume_of_sub (by omega : 0 < record.userSubscriptionId)
    (by omega : -record.preConsumed ≠ 0) hsub
    (by intro htotal; have := hfits.2 htotal; have := hfits.1; omega)
  rw [refund_consumed hname hrecord hstatus hpos h.1, h.2, hpost]
  by_cases hmarks : faults.Marks
  · rw [if_pos hmarks]
    simp [markRefunded, hmarks.1, hmarks.2, refundedSub]
  · rw [if_neg hmarks]
    simp only [markRefunded]
    cases hfault : faults.save.or faults.commit with
    | some e => rfl
    | none => exact absurd (Option.or_eq_none_iff.1 hfault) hmarks

/-- A write does not reopen a request. -/
theorem Write.refundClosed {t' : Tables} (hinv : StoreInv t) (h : RefundClosed requestId t)
    (hw : Write t t') : RefundClosed requestId t' := by
  obtain ⟨record, hrecord, hclosed⟩ := h
  obtain ⟨record', hrecord', hsub, _, hstatus⟩ := Write.record hinv hrecord hw
  refine ⟨record', hrecord', hclosed.imp hstatus fun hnone => ?_⟩
  rw [hsub]
  exact Write.sub_none (hinv.records record (Tables.record_mem hrecord).1).subLt hnone hw

theorem Writes.refundClosed {t' : Tables} (hinv : StoreInv t) (h : RefundClosed requestId t)
    (hw : Writes t t') : RefundClosed requestId t' := by
  induction hw with
  | refl => exact h
  | tail hprev hlast ih => exact Write.refundClosed (Writes.inv hinv hprev) ih hlast

/-! ### Runs -/

/-- Nothing is given back for a closed request. -/
theorem refundTotal_of_closed (hinv : StoreInv t) (h : RefundClosed requestId t)
    (ops : List StoreOp) :
    refundTotal loc requestId t ops = 0 := by
  induction ops generalizing t with
  | nil => rfl
  | cons op ops ih =>
    have hwrites : Writes t (storeStep loc t op) := storeStep_writes hinv op
    have hrest := ih (Writes.inv hinv hwrites) (Writes.refundClosed hinv h hwrites)
    have hone : refundedBy loc requestId t op = 0 := by
      cases op with
      | refund faults r =>
        simp only [refundedBy]
        split
        · rename_i hr
          subst hr
          obtain ⟨record, hrecord, hclosed⟩ := h
          have hsame : (refundSubscriptionPreConsume faults r t).2 = t :=
            refund_same hinv hrecord (hclosed.imp_right Or.inl)
          simp [storeStep, hsame]
        · rfl
      | _ => rfl
    rw [refundTotal, hone, hrest, add_zero]

theorem usedFor_of_record (h : t.record requestId = some record) :
    usedFor requestId t = t.amountUsed record.userSubscriptionId := by
  simp [usedFor, h]

/-- A call that changes nothing takes nothing off. -/
theorem refundedBy_of_same (h : (refundSubscriptionPreConsume faults requestId t).2 = t) :
    refundedBy loc requestId t (.refund faults requestId) = 0 := by
  simp [refundedBy, storeStep, h]

/-- What a call whose inner transaction commits takes off. -/
theorem refundedBy_pays (hinv : StoreInv t) (hrecord : t.record requestId = some record)
    (hstatus : record.status = .consumed) (hsub : t.sub record.userSubscriptionId = some sub)
    (h : faults.Pays) :
    refundedBy loc requestId t (.refund faults requestId)
      = min sub.amountUsed record.preConsumed := by
  have hwrites : Writes t (refundSubscriptionPreConsume faults requestId t).2 :=
    refund_writes faults requestId t
  obtain ⟨record', hrecord', hid, _⟩ := Writes.hasRecord hinv ⟨record, hrecord, rfl, rfl⟩ hwrites
  have hsubId : (refundedSub record sub).id = record.userSubscriptionId := (Tables.sub_mem hsub).2
  have hafter : (refundSubscriptionPreConsume faults requestId t).2.amountUsed
      record.userSubscriptionId = max 0 (sub.amountUsed + -record.preConsumed) := by
    rw [refund_pays hinv hrecord hstatus hsub h, ← hsubId]
    split <;> simp [refundedSub]
  simp only [refundedBy, if_true, storeStep]
  rw [usedFor_of_record hrecord, usedFor_of_record hrecord', hid, hafter,
    Tables.amountUsed_of_sub hsub]
  have := (hinv.usage sub (Tables.sub_mem hsub).1).1
  omega

/-- A call that pays and marks closes the request. -/
theorem refundClosed_of_marks (hinv : StoreInv t) (hrecord : t.record requestId = some record)
    (hstatus : record.status = .consumed) (hsub : t.sub record.userSubscriptionId = some sub)
    (hpays : faults.Pays) (hmarks : faults.Marks) :
    RefundClosed requestId (refundSubscriptionPreConsume faults requestId t).2 := by
  have hmem := (Tables.record_mem hrecord).1
  rw [refund_pays hinv hrecord hstatus hsub hpays, if_pos hmarks]
  let marked : SubscriptionPreConsumeRecord := { record with status := .refunded }
  have hlook : (t.saveRecord marked).record requestId
      = (t.record requestId).map fun z => if z.id = record.id then marked else z := by
    refine Rows.first_save_other ⟨record, hmem, rfl⟩ fun z hz hk => ?_
    rw [Rows.eq_of_key_eq hinv.recordIds hz hmem hk]
  rw [hrecord, Option.map_some, if_pos rfl] at hlook
  exact ⟨marked, hlook, Or.inl rfl⟩

/-- **The bound.**  Whatever runs in between, calls of which `k` change the used amount take at
most `k` times the amount of the record off it. -/
theorem refundTotal_le {id preConsumed : ℤ} (hinv : StoreInv t)
    (hrecord : HasRecord requestId id preConsumed t) (ops : List StoreOp) :
    refundTotal loc requestId t ops ≤ payments (refundCalls requestId ops) * preConsumed := by
  induction ops generalizing t with
  | nil => simp [refundTotal, refundCalls, payments]
  | cons op ops ih =>
    have hwrites : Writes t (storeStep loc t op) := storeStep_writes hinv op
    have hinv' := Writes.inv hinv hwrites
    have hrest := ih hinv' (Writes.hasRecord hinv hrecord hwrites)
    obtain ⟨record, hfound, _, hamount⟩ := hrecord
    have hpos := (hinv.records record (Tables.record_mem hfound).1).pos
    have hbound : 0 ≤ (payments (refundCalls requestId ops) : ℤ) * preConsumed :=
      mul_nonneg (by positivity) (by omega)
    by_cases hop : ∃ faults, op = .refund faults requestId
    · obtain ⟨faults, rfl⟩ := hop
      have hcalls : refundCalls requestId (.refund faults requestId :: ops)
          = faults :: refundCalls requestId ops := by simp [refundCalls]
      rw [hcalls, refundTotal, payments]
      by_cases hopen : record.status = .refunded ∨ t.sub record.userSubscriptionId = none
      · -- a closed request: neither this call nor a later one takes anything off
        have hclosed : RefundClosed requestId t := ⟨record, hfound, hopen⟩
        have hzero : refundTotal loc requestId t (.refund faults requestId :: ops) = 0 :=
          refundTotal_of_closed hinv hclosed _
        rw [refundTotal] at hzero
        rw [hzero]
        exact mul_nonneg (by positivity) (by omega)
      · rw [not_or] at hopen
        have hstatus : record.status = .consumed := by
          cases h : record.status with
          | consumed => rfl
          | refunded => exact absurd h hopen.1
        obtain ⟨sub, hsub⟩ := Option.ne_none_iff_exists'.1 hopen.2
        by_cases hpays : faults.Pays
        · rw [refundedBy_pays hinv hfound hstatus hsub hpays, if_pos hpays]
          by_cases hmarks : faults.Marks
          · have hclosed := refundClosed_of_marks hinv hfound hstatus hsub hpays hmarks
            rw [if_pos hmarks, refundTotal_of_closed hinv' hclosed]
            push_cast
            omega
          · rw [if_neg hmarks]
            push_cast
            rw [add_mul]
            omega
        · rw [refundedBy_of_same (refund_same hinv hfound (Or.inr (Or.inr hpays))),
            if_neg hpays]
          omega
    · have hnone : refundedBy loc requestId t op = 0 := by
        cases op with
        | refund faults r =>
          have hr : r ≠ requestId := by
            rintro rfl
            exact hop ⟨faults, rfl⟩
          simp [refundedBy, hr]
        | _ => rfl
      have hcalls : refundCalls requestId (op :: ops) = refundCalls requestId ops := by
        cases op with
        | refund faults r =>
          have hr : r ≠ requestId := by
            rintro rfl
            exact hop ⟨faults, rfl⟩
          simp [refundCalls, hr]
        | _ => simp [refundCalls]
      rw [refundTotal, hnone, hcalls]
      omega

/-- What calls in a row take off for an open request. -/
theorem refundTotal_calls (hinv : StoreInv t) (hrecord : t.record requestId = some record)
    (hstatus : record.status = .consumed) (hsub : t.sub record.userSubscriptionId = some sub)
    (calls : List RefundFaults) :
    refundTotal loc requestId t (calls.map fun f => .refund f requestId)
      = min sub.amountUsed (payments calls * record.preConsumed) := by
  have hused := (hinv.usage sub (Tables.sub_mem hsub).1).1
  induction calls generalizing t sub with
  | nil => simp [refundTotal, payments, hused]
  | cons faults calls ih =>
    have hpos := (hinv.records record (Tables.record_mem hrecord).1).pos
    have hwrites : Writes t (refundSubscriptionPreConsume faults requestId t).2 :=
      refund_writes faults requestId t
    have hinv' := Writes.inv hinv hwrites
    rw [List.map_cons, refundTotal, payments]
    by_cases hpays : faults.Pays
    · rw [refundedBy_pays hinv hrecord hstatus hsub hpays, if_pos hpays]
      by_cases hmarks : faults.Marks
      · have hclosed := refundClosed_of_marks hinv hrecord hstatus hsub hpays hmarks
        rw [if_pos hmarks]
        simp only [storeStep]
        rw [refundTotal_of_closed hinv' hclosed]
        simp
      · rw [if_neg hmarks]
        simp only [storeStep]
        have hafter := refund_pays hinv hrecord hstatus hsub hpays
        rw [if_neg hmarks] at hafter
        rw [hafter] at hinv' ⊢
        have hsubId : (refundedSub record sub).id = record.userSubscriptionId :=
          (Tables.sub_mem hsub).2
        have hrow : (t.saveSub (refundedSub record sub)).sub record.userSubscriptionId
            = some (refundedSub record sub) := by
          rw [← hsubId]
          exact t.saveSub_sub_self _
        have hrest := ih hinv' hrecord hrow (le_max_left _ _)
        rw [hrest]
        have hq : 0 ≤ (payments calls : ℤ) * record.preConsumed :=
          mul_nonneg (by positivity) hpos.le
        push_cast
        rw [add_mul]
        simp only [refundedSub]
        omega
    · have hsame := refund_same hinv hrecord (Or.inr (Or.inr hpays))
      rw [refundedBy_of_same hsame, if_neg hpays]
      simp only [storeStep]
      rw [hsame, ih hinv hrecord hsub hused, zero_add]

/-- **When a refund stays within what was charged.**  In every state the store can be in, calls
in a row take at most the amount of the record off the used amount exactly when the record is
marked already, or no more than that amount is used, or at most one of the calls changes the used
amount; and with at most one that does, the bound holds whatever runs between the calls. -/
theorem refund_within_preConsumed_iff (loc : Location) (group : ℤ → String)
    (before : List StoreOp) (requestId : String) (record : SubscriptionPreConsumeRecord)
    (hrecord : (run (storeStep loc) (Tables.empty group) before).record requestId
      = some record) :
    let t := run (storeStep loc) (Tables.empty group) before
    (∀ calls : List RefundFaults,
      refundTotal loc requestId t (calls.map fun f => .refund f requestId) ≤ record.preConsumed ↔
        record.status = .refunded ∨ t.amountUsed record.userSubscriptionId ≤ record.preConsumed ∨
          payments calls ≤ 1) ∧
    ∀ ops, payments (refundCalls requestId ops) ≤ 1 →
      refundTotal loc requestId t ops ≤ record.preConsumed := by
  intro t
  have hinv : StoreInv t := run_storeInv loc group before
  have hpos := (hinv.records record (Tables.record_mem hrecord).1).pos
  refine ⟨fun calls => ?_, fun ops hcalls => ?_⟩
  · by_cases hclosed : record.status = .refunded ∨ t.sub record.userSubscriptionId = none
    · rw [refundTotal_of_closed hinv ⟨record, hrecord, hclosed⟩]
      refine ⟨fun _ => hclosed.imp_right fun hnone => Or.inl ?_, fun _ => hpos.le⟩
      simp only [Tables.amountUsed, hnone, Option.map_none, Option.getD_none]
      exact hpos.le
    · rw [not_or] at hclosed
      have hstatus : record.status = .consumed := by
        cases h : record.status with
        | consumed => rfl
        | refunded => exact absurd h hclosed.1
      obtain ⟨sub, hsub⟩ := Option.ne_none_iff_exists'.1 hclosed.2
      rw [refundTotal_calls hinv hrecord hstatus hsub, Tables.amountUsed_of_sub hsub]
      simp only [hclosed.1, false_or]
      constructor
      · intro hle
        by_contra hmany
        rw [not_or, not_le, not_le] at hmany
        have htwice : 2 * record.preConsumed ≤ payments calls * record.preConsumed :=
          mul_le_mul_of_nonneg_right (by omega) hpos.le
        omega
      · rintro (hless | hone)
        · omega
        · have honce : (payments calls : ℤ) * record.preConsumed ≤ 1 * record.preConsumed :=
            mul_le_mul_of_nonneg_right (by omega) hpos.le
          omega
  · have hbound : refundTotal loc requestId t ops
        ≤ payments (refundCalls requestId ops) * record.preConsumed :=
      refundTotal_le hinv ⟨record, hrecord, rfl, rfl⟩ ops
    have honce : (payments (refundCalls requestId ops) : ℤ) * record.preConsumed
        ≤ 1 * record.preConsumed := mul_le_mul_of_nonneg_right (by omega) hpos.le
    omega

/-- Two requests of user 1 are charged to one subscription. -/
def chargedTwice : List StoreOp :=
  [.purchase 0 {} 1 basicPlan "order",
    .preConsume (basicEnv 10) "req-1" 1 "model" 0 100,
    .preConsume (basicEnv 20) "req-2" 1 "model" 0 150]

/-- The record of the first of them. -/
def firstRecord : SubscriptionPreConsumeRecord where
  id := 1
  requestId := "req-1"
  userId := 1
  userSubscriptionId := 1
  preConsumed := 100
  status := .consumed

/-- A record that cannot be saved the first time is paid out twice. -/
theorem refund_exceeds_preConsumed :
    ¬ ∀ (loc : Location) (group : ℤ → String) (before : List StoreOp) (requestId : String)
      (record : SubscriptionPreConsumeRecord) (calls : List RefundFaults),
      (run (storeStep loc) (Tables.empty group) before).record requestId = some record →
      refundTotal loc requestId (run (storeStep loc) (Tables.empty group) before)
        (calls.map fun f => .refund f requestId) ≤ record.preConsumed := by
  intro h
  have hle := h utc (fun _ => "default") chargedTwice "req-1" firstRecord
    [{ save := some "database is locked" }, {}] (by decide)
  have htwice : refundTotal utc "req-1"
      (run (storeStep utc) (Tables.empty fun _ => "default") chargedTwice)
      ([{ save := some "database is locked" }, {}].map fun f => .refund f "req-1") = 200 := by
    decide
  rw [htwice] at hle
  exact absurd hle (by decide)

theorem refund_within_preConsumed_iff_chargedTwice :
    (run (storeStep utc) (Tables.empty fun _ => "default") chargedTwice).record "req-1"
        = some firstRecord ∧
      refundTotal utc "req-1" (run (storeStep utc) (Tables.empty fun _ => "default") chargedTwice)
        ([{ inner := { commit := some "database is locked" } }, {}, {}].map
          fun f => .refund f "req-1") ≤ 100 := by
  refine ⟨by decide, ?_⟩
  exact ((refund_within_preConsumed_iff utc (fun _ => "default") chargedTwice "req-1" firstRecord
    (by decide)).1 [{ inner := { commit := some "database is locked" } }, {}, {}]).2
    (Or.inr (Or.inr (by decide)))

end NewApi

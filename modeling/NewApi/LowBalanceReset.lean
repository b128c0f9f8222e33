/-
**The reset of low balances.**

A user whose balance falls below a threshold is scheduled for a reset a day later, which raises the
balance to a target.  What the user has been awarded for check-ins since then does not count: it is
taken off the balance when that is compared with the threshold, and put on top of the target.  An
administrator can raise all balances below the target to it with one click, without a schedule and
without regard to check-ins.  There is one state for each user, which says whether a reset is
pending.

Main definitions:

* `NewApi.LowBalanceTables` — the balances, the states and the check-ins;
* `NewApi.maybeScheduleLowBalanceQuotaReset`, `NewApi.resetDueLowBalanceQuotaState`,
  `NewApi.resetAllLowBalanceUsersToTargetQuota` — the schedule and the two resets;
* `NewApi.scheduleLowBalanceQuotaResets`, `NewApi.resetDueLowBalanceQuota` — the batches;
* `NewApi.LowBalanceSystem`, `NewApi.lowBalanceStep` — the tables with a clock, and one call.

Main results:

* `NewApi.low_balance_reset` — **no reset lowers a balance, every trigger leads to at most one credit
  and ends completed, and a due reset keeps the check-in rewards**;
* `NewApi.one_click_drops_checkin` — a one-click reset does not keep them.
-/

import Mathlib.Data.List.Sort
import Mathlib.Data.Rat.Floor
import NewApi.Lib.Rows
import NewApi.Lib.Transition

set_option autoImplicit false

namespace NewApi

/-! ### The tables -/

inductive UserQuotaResetStatus where
  | pending
  | completed
deriving DecidableEq, Repr

/-- Whether a reset of a user is pending, when it was triggered and when it is due. -/
structure UserQuotaResetState where
  userId : ℤ
  status : UserQuotaResetStatus
  triggeredAt : ℤ
  resetAt : ℤ
  completedAt : ℤ
  triggerQuota : ℤ
deriving DecidableEq, Repr

/-- A user, with the columns the resets read. -/
structure BalanceUser where
  id : ℤ
  enabled : Bool
  quota : ℤ
deriving DecidableEq, Repr

structure Checkin where
  userId : ℤ
  quotaAwarded : ℤ
  createdAt : ℤ
deriving DecidableEq, Repr

structure LowBalanceTables where
  users : List BalanceUser
  states : List UserQuotaResetState
  checkins : List Checkin
deriving DecidableEq, Repr

namespace LowBalanceTables

def user (t : LowBalanceTables) (id : ℤ) : Option BalanceUser := Rows.first (·.id) id t.users

def state (t : LowBalanceTables) (userId : ℤ) : Option UserQuotaResetState :=
  Rows.first (·.userId) userId t.states

def saveState (state : UserQuotaResetState) (t : LowBalanceTables) : LowBalanceTables :=
  { t with states := Rows.save (·.userId) state t.states }

/-- Change the balance of the user `id`. -/
def updateQuota (id : ℤ) (f : ℤ → ℤ) (t : LowBalanceTables) : LowBalanceTables :=
  { t with users := Rows.update (·.id = id) (fun u => { u with quota := f u.quota }) t.users }

def createCheckin (checkin : Checkin) (t : LowBalanceTables) : LowBalanceTables :=
  { t with checkins := t.checkins ++ [checkin] }

/-- What a user has been awarded from a time on. -/
def awardedSince (t : LowBalanceTables) (userId since : ℤ) : ℤ :=
  ((t.checkins.filter fun c => c.userId = userId ∧ since ≤ c.createdAt).map (·.quotaAwarded)).sum

end LowBalanceTables

/-! ### Threshold and target -/

def lowBalanceResetThresholdUSD : ℤ := 50

def lowBalanceResetTargetUSD : ℤ := 200

def lowBalanceResetDelaySeconds : ℤ := 24 * 60 * 60

/-- An amount of dollars in quota, rounded up.  `quotaPerUnit` is a setting. -/
def dollarsToQuota (quotaPerUnit : ℚ) (amount : ℤ) : ℤ :=
  if amount ≤ 0 ∨ quotaPerUnit ≤ 0 then 0 else ⌈amount * quotaPerUnit⌉

/-- An amount is worth a positive quota exactly if the setting is positive. -/
theorem dollarsToQuota_pos {quotaPerUnit : ℚ} {amount : ℤ} (hamount : 0 < amount) :
    0 < dollarsToQuota quotaPerUnit amount ↔ 0 < quotaPerUnit := by
  unfold dollarsToQuota
  split
  · rename_i hnone
    have hunit : quotaPerUnit ≤ 0 := hnone.resolve_left (not_le.2 hamount)
    simp [hunit]
  · rename_i hsome
    have hunit : 0 < quotaPerUnit := not_le.1 fun h => hsome (Or.inr h)
    have hquota : 0 < ⌈amount * quotaPerUnit⌉ :=
      Int.ceil_pos.2 (mul_pos (Int.cast_pos.2 hamount) hunit)
    simp only [hquota, hunit]

/-- The threshold; `toQuota` is how an amount of dollars is converted. -/
def lowBalanceResetThresholdQuota (toQuota : ℤ → ℤ) : ℤ :=
  toQuota lowBalanceResetThresholdUSD

def lowBalanceResetTargetQuota (toQuota : ℤ → ℤ) : ℤ :=
  toQuota lowBalanceResetTargetUSD

theorem dollarsToQuota_target_pos {quotaPerUnit : ℚ}
    (h : 0 < lowBalanceResetThresholdQuota (dollarsToQuota quotaPerUnit)) :
    0 < lowBalanceResetTargetQuota (dollarsToQuota quotaPerUnit) :=
  (dollarsToQuota_pos (by decide)).2 ((dollarsToQuota_pos (by decide)).1 h)

/-! ### Schedule -/

/-- Schedule a reset of a user whose balance is below the threshold, unless one is pending: whether
one has been scheduled, and the tables. -/
def maybeScheduleLowBalanceQuotaReset (toQuota : ℤ → ℤ) (now userId quota : ℤ)
    (t : LowBalanceTables) : Bool × LowBalanceTables :=
  let threshold := lowBalanceResetThresholdQuota toQuota
  let next : UserQuotaResetState :=
    ⟨userId, .pending, now, now + lowBalanceResetDelaySeconds, 0, quota⟩
  if userId ≤ 0 ∨ threshold ≤ 0 ∨ threshold ≤ quota then (false, t)
  else
    match t.state userId with
    | some state => if state.status = .pending then (false, t) else (true, t.saveState next)
    | none => (true, t.saveState next)

/-! ### Resets -/

def sumCheckinQuotaSinceTx (t : LowBalanceTables) (userId since : ℤ) : ℤ :=
  if since ≤ 0 then 0 else t.awardedSince userId since

def completeLowBalanceResetStateTx (state : UserQuotaResetState) (now : ℤ) (t : LowBalanceTables) :
    LowBalanceTables :=
  t.saveState { state with status := .completed, completedAt := now, resetAt := 0 }

/-- Whether a batch at `now` picks a state. -/
def UserQuotaResetState.isDue (state : UserQuotaResetState) (now : ℤ) : Bool :=
  state.status = .pending ∧ 0 < state.resetAt ∧ state.resetAt ≤ now

/-- The reset of a user, if it is due: the balance afterwards and whether it has been raised. -/
def resetDueLowBalanceQuotaState (toQuota : ℤ → ℤ) (userId now : ℤ) (t : LowBalanceTables) :
    (ℤ × Bool) × LowBalanceTables :=
  let threshold := lowBalanceResetThresholdQuota toQuota
  let target := lowBalanceResetTargetQuota toQuota
  if threshold ≤ 0 ∨ target ≤ 0 then ((0, false), t)
  else
    match t.states.find? fun s => s.userId = userId && s.isDue now with
    | none => ((0, false), t)
    | some state =>
      match t.user userId with
      | none => ((0, false), completeLowBalanceResetStateTx state now t)
      | some user =>
        let checkinQuota := sumCheckinQuotaSinceTx t userId state.triggeredAt
        let desiredQuota := target + checkinQuota
        if user.quota - checkinQuota < threshold ∧ user.quota < desiredQuota then
          ((desiredQuota, true), completeLowBalanceResetStateTx state now
            (t.updateQuota userId fun _ => desiredQuota))
        else ((user.quota, false), completeLowBalanceResetStateTx state now t)

/-- One user of a one-click reset: whether the balance has been raised, and the tables. -/
def resetUserToTarget (target now : ℤ) (candidate : BalanceUser) (t : LowBalanceTables) :
    Bool × LowBalanceTables :=
  match t.user candidate.id with
  | none => (false, t)
  | some user =>
    if user.quota < target then
      (true, (t.updateQuota candidate.id fun _ => target).saveState
        ⟨candidate.id, .completed, now, 0, now, candidate.quota⟩)
    else (false, t)

def resetUsersToTarget (target now : ℤ) :
    List BalanceUser → LowBalanceTables → ℕ × LowBalanceTables
  | [], t => (0, t)
  | candidate :: rest, t =>
    let (updated, t') := resetUserToTarget target now candidate t
    let (affected, t'') := resetUsersToTarget target now rest t'
    (if updated then affected + 1 else affected, t'')

/-- Raise all balances below the target to it: how many there were, and the tables. -/
def resetAllLowBalanceUsersToTargetQuota (toQuota : ℤ → ℤ) (now : ℤ) (t : LowBalanceTables) :
    Except String ℕ × LowBalanceTables :=
  let target := lowBalanceResetTargetQuota toQuota
  if target ≤ 0 then (.error "low balance reset target is not configured", t)
  else
    let candidates := (t.users.filter fun u => u.quota < target).insertionSort
      fun a b => a.id ≤ b.id
    let (affected, t') := resetUsersToTarget target now candidates t
    (.ok affected, t')

/-! ### Batches -/

def lowBalanceResetDefaultBatch : ℕ := 300

def lowBalanceBatch (limit : ℤ) : ℕ :=
  if limit ≤ 0 then lowBalanceResetDefaultBatch else limit.toNat

def scheduleUsers (toQuota : ℤ → ℤ) (now : ℤ) :
    List BalanceUser → LowBalanceTables → ℕ × LowBalanceTables
  | [], t => (0, t)
  | user :: rest, t =>
    let (scheduled, t') :=
      maybeScheduleLowBalanceQuotaReset toQuota now user.id user.quota t
    let (count, t'') := scheduleUsers toQuota now rest t'
    (if scheduled then count + 1 else count, t'')

/-- The users a schedule picks: enabled, with a low balance and without a pending reset. -/
def scheduleCandidates (toQuota : ℤ → ℤ) (t : LowBalanceTables) : List BalanceUser :=
  t.users.filter fun u => u.enabled && (u.quota < lowBalanceResetThresholdQuota toQuota : Bool)
    && !(t.states.any fun s => s.userId = u.id && s.status = .pending)

/-- Schedule resets for at most `limit` users: how many, and the tables. -/
def scheduleLowBalanceQuotaResets (toQuota : ℤ → ℤ) (now limit : ℤ) (t : LowBalanceTables) :
    ℕ × LowBalanceTables :=
  if lowBalanceResetThresholdQuota toQuota ≤ 0 then (0, t)
  else
    let users := (scheduleCandidates toQuota t).insertionSort fun a b => a.id ≤ b.id
    scheduleUsers toQuota now (users.take (lowBalanceBatch limit)) t

def resetDueStates (toQuota : ℤ → ℤ) (now : ℤ) :
    List UserQuotaResetState → LowBalanceTables → ℕ × LowBalanceTables
  | [], t => (0, t)
  | state :: rest, t =>
    let (_, t') := resetDueLowBalanceQuotaState toQuota state.userId now t
    let (processed, t'') := resetDueStates toQuota now rest t'
    (processed + 1, t'')

/-- The states a batch at `now` can pick, in order. -/
def dueStates (now : ℤ) (t : LowBalanceTables) : List UserQuotaResetState :=
  (t.states.filter (·.isDue now)).insertionSort fun a b =>
    a.resetAt < b.resetAt ∨ a.resetAt = b.resetAt ∧ a.userId ≤ b.userId

/-- Carry out at most `limit` resets that are due: how many states have been processed, and the
tables. -/
def resetDueLowBalanceQuota (toQuota : ℤ → ℤ) (now limit : ℤ) (t : LowBalanceTables) :
    ℕ × LowBalanceTables :=
  resetDueStates toQuota now ((dueStates now t).take (lowBalanceBatch limit)) t

/-! ### Look-ups after a write -/

namespace LowBalanceTables

/-- The balance of a user. -/
def quotaOf (t : LowBalanceTables) (id : ℤ) : Option ℤ := (t.user id).map (·.quota)

/-- A reset of a user is pending. -/
def pending (t : LowBalanceTables) (id : ℤ) : Bool := (t.state id).any (·.status = .pending)

@[simp] theorem quotaOf_saveState (state : UserQuotaResetState) (t : LowBalanceTables) (id : ℤ) :
    (t.saveState state).quotaOf id = t.quotaOf id := rfl

@[simp] theorem state_updateQuota (t : LowBalanceTables) (id id' : ℤ) (f : ℤ → ℤ) :
    (t.updateQuota id f).state id' = t.state id' := rfl

theorem quotaOf_updateQuota (t : LowBalanceTables) (id id' : ℤ) (f : ℤ → ℤ) :
    (t.updateQuota id f).quotaOf id' = if id' = id then (t.quotaOf id').map f else t.quotaOf id' := by
  have hkey : ∀ u : BalanceUser, { u with quota := f u.quota }.id = u.id := fun _ => rfl
  have hfirst : (t.updateQuota id f).user id' =
      (t.user id').map fun u => if decide (u.id = id) then { u with quota := f u.quota } else u :=
    Rows.first_update hkey id' t.users
  rw [quotaOf, hfirst, quotaOf, Option.map_map, Option.map_map]
  cases huser : t.user id' with
  | none => simp
  | some u =>
    have hid : u.id = id' := Rows.key_of_first huser
    by_cases heq : id' = id
    · simp [hid, heq]
    · simp [hid, heq]

theorem state_saveState (t : LowBalanceTables) (state : UserQuotaResetState) (id : ℤ) :
    (t.saveState state).state id = if id = state.userId then some state else t.state id := by
  by_cases heq : id = state.userId
  · rw [if_pos heq, heq]
    exact Rows.first_save_self state t.states
  · rw [if_neg heq]
    exact Rows.first_save_of_ne (Ne.symm heq)

theorem pending_eq_true {t : LowBalanceTables} {id : ℤ} :
    t.pending id = true ↔ ∃ state, t.state id = some state ∧ state.status = .pending := by
  cases hstate : t.state id with
  | none => simp [pending, hstate]
  | some state => simp [pending, hstate]

end LowBalanceTables

/-! ### What a reset does to a user -/

/-- What a reset does to the balance and the state of one user: nothing, or it completes the state,
and the balance is as before or raised to `raisedTo`. -/
inductive UserReset (t t' : LowBalanceTables) (raisedTo : ℤ) (id : ℤ) : Prop where
  | kept (hquota : t'.quotaOf id = t.quotaOf id) (hstate : t'.state id = t.state id)
  | completed (hquota : t'.quotaOf id = t.quotaOf id) (hstate : t'.pending id = false)
  | raised (x : ℤ) (hx : t.quotaOf id = some x) (hlt : x < raisedTo)
      (hquota : t'.quotaOf id = some raisedTo) (hstate : t'.pending id = false)

variable {now id : ℤ} {t : LowBalanceTables}

theorem pending_complete {state : UserQuotaResetState} (hid : state.userId = id) :
    (completeLowBalanceResetStateTx state now t).pending id = false := by
  have hstate : (completeLowBalanceResetStateTx state now t).state id =
      some { state with status := .completed, completedAt := now, resetAt := 0 } := by
    rw [completeLowBalanceResetStateTx, LowBalanceTables.state_saveState, if_pos hid.symm]
  rw [LowBalanceTables.pending, hstate]
  rfl

/-- What a one-click reset does to each user. -/
theorem resetUserToTarget_user (target now : ℤ) (candidate : BalanceUser) (t : LowBalanceTables)
    (id : ℤ) : UserReset t (resetUserToTarget target now candidate t).2 target id := by
  unfold resetUserToTarget
  cases huser : t.user candidate.id with
  | none => exact .kept rfl rfl
  | some user =>
    simp only
    split
    · rename_i hlt
      by_cases hid : id = candidate.id
      · refine .raised user.quota ?_ hlt ?_ ?_
        · rw [LowBalanceTables.quotaOf, hid, huser]
          rfl
        · rw [LowBalanceTables.quotaOf_saveState, LowBalanceTables.quotaOf_updateQuota, if_pos hid,
            LowBalanceTables.quotaOf, hid, huser]
          rfl
        · rw [LowBalanceTables.pending, LowBalanceTables.state_saveState, if_pos hid]
          rfl
      · refine .kept ?_ ?_
        · rw [LowBalanceTables.quotaOf_saveState, LowBalanceTables.quotaOf_updateQuota, if_neg hid]
        · rw [LowBalanceTables.state_saveState, if_neg hid, LowBalanceTables.state_updateQuota]
    · exact .kept rfl rfl

/-- Two resets to one target, one after the other. -/
theorem UserReset.trans {t' t'' : LowBalanceTables} {target : ℤ} (h : UserReset t t' target id)
    (h' : UserReset t' t'' target id) :
    UserReset t t'' target id := by
  cases h' with
  | kept hquota' hstate' =>
    have hpending : t''.pending id = t'.pending id := by
      rw [LowBalanceTables.pending, hstate', LowBalanceTables.pending]
    cases h with
    | kept hquota hstate => exact .kept (hquota'.trans hquota) (hstate'.trans hstate)
    | completed hquota hstate => exact .completed (hquota'.trans hquota) (hpending.trans hstate)
    | raised x hx hlt hquota hstate =>
      exact .raised x hx hlt (hquota'.trans hquota) (hpending.trans hstate)
  | completed hquota' hstate' =>
    cases h with
    | kept hquota _ => exact .completed (hquota'.trans hquota) hstate'
    | completed hquota _ => exact .completed (hquota'.trans hquota) hstate'
    | raised x hx hlt hquota _ => exact .raised x hx hlt (hquota'.trans hquota) hstate'
  | raised x' hx' hlt' hquota' hstate' =>
    cases h with
    | kept hquota _ | completed hquota _ =>
      exact .raised x' (hquota.symm.trans hx') hlt' hquota' hstate'
    | raised x hx hlt hquota _ =>
      -- the balance is the target already
      rw [hx'] at hquota
      exact absurd (Option.some.inj hquota) (ne_of_lt hlt')

theorem resetUsersToTarget_user (target now : ℤ) (candidates : List BalanceUser)
    (t : LowBalanceTables) (id : ℤ) :
    UserReset t (resetUsersToTarget target now candidates t).2 target id := by
  induction candidates generalizing t with
  | nil => exact .kept rfl rfl
  | cons candidate rest ih =>
    exact (resetUserToTarget_user target now candidate t id).trans
      (ih (resetUserToTarget target now candidate t).2)

theorem resetAll_user (toQuota : ℤ → ℤ) (now : ℤ) (t : LowBalanceTables) (id : ℤ) :
    UserReset t (resetAllLowBalanceUsersToTargetQuota toQuota now t).2
      (lowBalanceResetTargetQuota toQuota) id := by
  unfold resetAllLowBalanceUsersToTargetQuota
  simp only
  split
  · exact .kept rfl rfl
  · exact resetUsersToTarget_user _ _ _ _ _

/-- A pending state that is due. -/
def LowBalanceTables.Due (t : LowBalanceTables) (id now : ℤ) : Prop :=
  ∃ state, t.state id = some state ∧ state.isDue now = true

/-- **What the due reset of a user does to it**: if the state is due it is completed, and the balance
is raised to the target and the check-ins if it is below the threshold without them. -/
theorem resetDue_self {toQuota : ℤ → ℤ} {state : UserQuotaResetState}
    (hnd : (t.states.map (·.userId)).Nodup)
    (hthreshold : 0 < lowBalanceResetThresholdQuota toQuota)
    (htarget : 0 < lowBalanceResetTargetQuota toQuota) (hstate : t.state id = some state)
    (hdue : state.isDue now = true) :
    (resetDueLowBalanceQuotaState toQuota id now t).2.pending id = false ∧
      (resetDueLowBalanceQuotaState toQuota id now t).2.quotaOf id =
        (t.quotaOf id).map fun x =>
          let checkinQuota := sumCheckinQuotaSinceTx t id state.triggeredAt
          if x - checkinQuota < lowBalanceResetThresholdQuota toQuota ∧
              x < lowBalanceResetTargetQuota toQuota + checkinQuota then
            lowBalanceResetTargetQuota toQuota + checkinQuota
          else x := by
  have hid : state.userId = id := Rows.key_of_first hstate
  have hfind : (t.states.find? fun s => s.userId = id && s.isDue now) = some state := by
    rw [Rows.find?_and_key hnd id (·.isDue now)]
    have hfirst : Rows.first (·.userId) id t.states = some state := hstate
    rw [hfirst, Option.filter_some, if_pos hdue]
  unfold resetDueLowBalanceQuotaState
  rw [if_neg (by omega), hfind]
  cases huser : t.user id with
  | none =>
    have hquota : t.quotaOf id = none := by rw [LowBalanceTables.quotaOf, huser]; rfl
    refine ⟨pending_complete hid, ?_⟩
    rw [hquota]
    exact hquota
  | some user =>
    have hquota : t.quotaOf id = some user.quota := by
      rw [LowBalanceTables.quotaOf, huser]
      rfl
    rw [hquota]
    simp only [Option.map_some]
    split
    · refine ⟨pending_complete hid, ?_⟩
      have hraised : (t.updateQuota id fun _ => lowBalanceResetTargetQuota toQuota +
          sumCheckinQuotaSinceTx t id state.triggeredAt).quotaOf id =
          some (lowBalanceResetTargetQuota toQuota +
            sumCheckinQuotaSinceTx t id state.triggeredAt) := by
        rw [LowBalanceTables.quotaOf_updateQuota, if_pos rfl, hquota]
        rfl
      exact hraised
    · exact ⟨pending_complete hid, hquota⟩

/-- A due reset of a user leaves the other users alone. -/
theorem resetDue_other {toQuota : ℤ → ℤ} {id' : ℤ} (hne : id' ≠ id) :
    (resetDueLowBalanceQuotaState toQuota id now t).2.quotaOf id' = t.quotaOf id' ∧
      (resetDueLowBalanceQuotaState toQuota id now t).2.state id' = t.state id' := by
  unfold resetDueLowBalanceQuotaState
  simp only
  split
  · exact ⟨rfl, rfl⟩
  · split
    · exact ⟨rfl, rfl⟩
    · rename_i state hfind
      have hid : state.userId = id := by
        have hfound := List.find?_some hfind
        simp only [Bool.and_eq_true, decide_eq_true_eq] at hfound
        exact hfound.1
      have hcomplete : ∀ t' : LowBalanceTables,
          (completeLowBalanceResetStateTx state now t').state id' = t'.state id' := by
        intro t'
        rw [completeLowBalanceResetStateTx, LowBalanceTables.state_saveState]
        exact if_neg (hid ▸ hne)
      split
      · exact ⟨rfl, hcomplete t⟩
      · split
        · refine ⟨?_, hcomplete _⟩
          rw [completeLowBalanceResetStateTx, LowBalanceTables.quotaOf_saveState,
            LowBalanceTables.quotaOf_updateQuota, if_neg hne]
        · exact ⟨rfl, hcomplete t⟩

/-- A reset of a user whose state is not due does nothing. -/
theorem resetDue_of_not_due {toQuota : ℤ → ℤ} (hnd : (t.states.map (·.userId)).Nodup)
    (hdue : ¬ t.Due id now) :
    (resetDueLowBalanceQuotaState toQuota id now t).2 = t := by
  have hfind : (t.states.find? fun s => s.userId = id && s.isDue now) = none := by
    rw [Rows.find?_and_key hnd id (·.isDue now), Option.filter_eq_none_iff]
    intro state hstate hdue'
    exact hdue ⟨state, hstate, hdue'⟩
  unfold resetDueLowBalanceQuotaState
  simp only
  split
  · rfl
  · rw [hfind]

/-! ### The tables under any calls -/

/-- A call.  A schedule is given the balance its caller has read. -/
inductive LowBalanceOp where
  | schedule (userId quota : ℤ)
  | checkin (userId quotaAwarded : ℤ)
  | spend (userId quota : ℤ)
  | topUp (userId quota : ℤ)
  | resetDue (userId : ℤ)
  | resetAll
deriving DecidableEq, Repr

/-- A call and the time that passes before it. -/
structure LowBalanceAction where
  delay : ℕ
  op : LowBalanceOp
deriving DecidableEq, Repr

/-- The tables with a clock, and for each user how many triggers there have been, when the last one
was, and how many credits have met a pending trigger. -/
structure LowBalanceSystem where
  tables : LowBalanceTables
  now : ℤ
  triggers : ℤ → ℕ
  lastTrigger : ℤ → ℤ
  credits : ℤ → ℕ

/-- The balance of a user has been raised. -/
def LowBalanceTables.raised (t t' : LowBalanceTables) (id : ℤ) : Bool :=
  match t.quotaOf id, t'.quotaOf id with
  | some x, some x' => x < x'
  | _, _ => false

namespace LowBalanceSystem

def start (users : List BalanceUser) (checkins : List Checkin) (now : ℤ) : LowBalanceSystem where
  tables := ⟨users, [], checkins⟩
  now := now
  triggers := fun _ => 0
  lastTrigger := fun _ => 0
  credits := fun _ => 0

/-- The tables after a schedule. -/
def scheduled (userId : ℤ) (result : Bool × LowBalanceTables) (s : LowBalanceSystem) :
    LowBalanceSystem :=
  if result.1 then
    { s with
      tables := result.2
      triggers := Function.update s.triggers userId (s.triggers userId + 1)
      lastTrigger := Function.update s.lastTrigger userId s.now }
  else { s with tables := result.2 }

/-- The tables after a reset. -/
def afterReset (t : LowBalanceTables) (s : LowBalanceSystem) : LowBalanceSystem :=
  { s with
    tables := t
    credits := fun id =>
      if s.tables.pending id && s.tables.raised t id then s.credits id + 1 else s.credits id }

/-- What a user has been awarded since the last trigger. -/
def awarded (s : LowBalanceSystem) (id : ℤ) : ℤ := s.tables.awardedSince id (s.lastTrigger id)

end LowBalanceSystem

def lowBalanceOp (toQuota : ℤ → ℤ) (op : LowBalanceOp) (s : LowBalanceSystem) :
    LowBalanceSystem :=
  match op with
  | .schedule userId quota =>
    s.scheduled userId (maybeScheduleLowBalanceQuotaReset toQuota s.now userId quota s.tables)
  | .checkin userId quotaAwarded =>
    let created := s.tables.createCheckin ⟨userId, quotaAwarded, s.now⟩
    { s with tables := created.updateQuota userId fun x => x + quotaAwarded }
  | .spend userId quota => { s with tables := s.tables.updateQuota userId fun x => x - quota }
  | .topUp userId quota => { s with tables := s.tables.updateQuota userId fun x => x + quota }
  | .resetDue userId =>
    s.afterReset (resetDueLowBalanceQuotaState toQuota userId s.now s.tables).2
  | .resetAll =>
    s.afterReset (resetAllLowBalanceUsersToTargetQuota toQuota s.now s.tables).2

/-- Time passes. -/
def LowBalanceSystem.wait (delay : ℕ) (s : LowBalanceSystem) : LowBalanceSystem :=
  { s with now := s.now + delay }

def lowBalanceStep (toQuota : ℤ → ℤ) (s : LowBalanceSystem) (a : LowBalanceAction) :
    LowBalanceSystem := lowBalanceOp toQuota a.op (s.wait a.delay)

/-! ### The invariant -/

/-- The invariant of the system: a pending state is the one of the last trigger, and the credits that
have met a trigger are no more than the triggers that are not pending any more. -/
structure LowBalanceInv (toQuota : ℤ → ℤ) (s : LowBalanceSystem) : Prop where
  nodup : (s.tables.states.map (·.userId)).Nodup
  now_pos : 0 < s.now
  last : ∀ id state, s.tables.state id = some state → state.status = .pending →
    state.triggeredAt = s.lastTrigger id ∧ 0 < s.lastTrigger id ∧
      0 < lowBalanceResetThresholdQuota toQuota
  once : ∀ id, s.credits id + (s.tables.pending id).toNat ≤ s.triggers id
  quotas : 0 < lowBalanceResetThresholdQuota toQuota → 0 < lowBalanceResetTargetQuota toQuota

section Invariant

variable {toQuota : ℤ → ℤ} {s : LowBalanceSystem}

variable {t t' : LowBalanceTables} {raisedTo id now : ℤ}

theorem UserReset.state_of_pending (h : UserReset t t' raisedTo id)
    (hpending : t'.pending id = true) :
    t'.state id = t.state id := by
  cases h with
  | kept hquota hstate => exact hstate
  | completed hquota hstate => simp [hstate] at hpending
  | raised x hx hlt hquota hstate => simp [hstate] at hpending

theorem UserReset.of_raised (h : UserReset t t' raisedTo id) (hraised : t.raised t' id = true) :
    t'.quotaOf id = some raisedTo ∧ t'.pending id = false := by
  have hsame : t'.quotaOf id = t.quotaOf id → False := by
    intro hsame
    rw [LowBalanceTables.raised, hsame] at hraised
    cases hx : t.quotaOf id with
    | none => simp [hx] at hraised
    | some x => simp [hx] at hraised
  cases h with
  | kept hquota hstate => exact (hsame hquota).elim
  | completed hquota hstate => exact (hsame hquota).elim
  | raised x hx hlt hquota hstate => exact ⟨hquota, hstate⟩

theorem UserReset.quota_le (h : UserReset t t' raisedTo id) {x : ℤ} (hx : t.quotaOf id = some x) :
    ∃ x', t'.quotaOf id = some x' ∧ x ≤ x' := by
  cases h with
  | kept hquota hstate => exact ⟨x, hquota.trans hx, le_refl x⟩
  | completed hquota hstate => exact ⟨x, hquota.trans hx, le_refl x⟩
  | raised y hy hlt hquota hstate =>
    rw [hx] at hy
    obtain rfl := Option.some.inj hy
    exact ⟨raisedTo, hquota, hlt.le⟩

theorem UserReset.pending_le (h : UserReset t t' raisedTo id) :
    (t'.pending id).toNat ≤ (t.pending id).toNat := by
  cases hpending : t'.pending id with
  | false => exact Nat.zero_le _
  | true =>
    rw [← hpending, LowBalanceTables.pending, h.state_of_pending hpending,
      LowBalanceTables.pending]

/-- A state that is due is pending. -/
theorem LowBalanceTables.Due.pending (h : t.Due id now) :
    ∃ state, t.state id = some state ∧ state.status = .pending ∧ state.isDue now = true := by
  obtain ⟨state, hstate, hdue⟩ := h
  refine ⟨state, hstate, ?_, hdue⟩
  simp only [UserQuotaResetState.isDue, Bool.decide_and, Bool.and_eq_true,
    decide_eq_true_eq] at hdue
  exact hdue.1

/-- What the reset of a user does if it is due, in a state of the system. -/
theorem resetDue_of_due (hinv : LowBalanceInv toQuota s) (hdue : s.tables.Due id s.now) :
    (resetDueLowBalanceQuotaState toQuota id s.now s.tables).2.pending id = false ∧
      (resetDueLowBalanceQuotaState toQuota id s.now s.tables).2.quotaOf id =
        (s.tables.quotaOf id).map fun x =>
          if x - s.awarded id < lowBalanceResetThresholdQuota toQuota ∧
              x < lowBalanceResetTargetQuota toQuota + s.awarded id then
            lowBalanceResetTargetQuota toQuota + s.awarded id
          else x := by
  obtain ⟨state, hstate, hpending, hdue⟩ := hdue.pending
  obtain ⟨hlast, hpos, hthreshold⟩ := hinv.last id state hstate hpending
  have hawarded : sumCheckinQuotaSinceTx s.tables id state.triggeredAt = s.awarded id := by
    rw [sumCheckinQuotaSinceTx, hlast, if_neg (by omega), LowBalanceSystem.awarded]
  rw [← hawarded]
  exact resetDue_self hinv.nodup hthreshold (hinv.quotas hthreshold) hstate hdue

/-- What a due reset does to any user, in a state of the system. -/
theorem resetDue_user (hinv : LowBalanceInv toQuota s) (userId id : ℤ) :
    UserReset s.tables (resetDueLowBalanceQuotaState toQuota userId s.now s.tables).2
      (lowBalanceResetTargetQuota toQuota + s.awarded id) id := by
  by_cases hid : id = userId
  · subst hid
    by_cases hdue : s.tables.Due id s.now
    · obtain ⟨hcompleted, hquota⟩ := resetDue_of_due hinv hdue
      cases hx : s.tables.quotaOf id with
      | none =>
        rw [hx] at hquota
        exact .completed (hquota.trans hx.symm) hcompleted
      | some x =>
        rw [hx, Option.map_some] at hquota
        split at hquota
        · rename_i hlow
          exact .raised x hx hlow.2 hquota hcompleted
        · exact .completed (hquota.trans hx.symm) hcompleted
    · rw [resetDue_of_not_due hinv.nodup hdue]
      exact .kept rfl rfl
  · exact .kept (resetDue_other hid).1 (resetDue_other hid).2

/-! ### Every step keeps the invariant -/

theorem nodup_saveState (state : UserQuotaResetState) (hnd : (t.states.map (·.userId)).Nodup) :
    ((t.saveState state).states.map (·.userId)).Nodup := Rows.nodup_save hnd

theorem nodup_resetUsersToTarget {target : ℤ} {candidates : List BalanceUser}
    (hnd : (t.states.map (·.userId)).Nodup) :
    ((resetUsersToTarget target now candidates t).2.states.map (·.userId)).Nodup := by
  induction candidates generalizing t with
  | nil => exact hnd
  | cons candidate rest ih =>
    refine ih ?_
    split
    · exact hnd
    · split
      · exact nodup_saveState _ hnd
      · exact hnd

theorem nodup_resetAll (hnd : (t.states.map (·.userId)).Nodup) :
    ((resetAllLowBalanceUsersToTargetQuota toQuota now t).2.states.map (·.userId)).Nodup := by
  simp only [resetAllLowBalanceUsersToTargetQuota]
  split
  · exact hnd
  · exact nodup_resetUsersToTarget hnd

theorem nodup_resetDue (hnd : (t.states.map (·.userId)).Nodup) :
    ((resetDueLowBalanceQuotaState toQuota id now t).2.states.map (·.userId)).Nodup := by
  simp only [resetDueLowBalanceQuotaState]
  split
  · exact hnd
  · split
    · exact hnd
    · split
      · exact nodup_saveState _ hnd
      · split
        · exact nodup_saveState _ hnd
        · exact nodup_saveState _ hnd

/-- A reset keeps the invariant: a credit that meets a trigger completes it. -/
theorem LowBalanceInv.afterReset {raisedTo : ℤ → ℤ} (hinv : LowBalanceInv toQuota s)
    (hnd : (t.states.map (·.userId)).Nodup) (huser : ∀ id, UserReset s.tables t (raisedTo id) id) :
    LowBalanceInv toQuota (s.afterReset t) where
  nodup := hnd
  now_pos := hinv.now_pos
  last := by
    intro id state hstate hpending
    have hkept : t.state id = s.tables.state id :=
      (huser id).state_of_pending (LowBalanceTables.pending_eq_true.2 ⟨state, hstate, hpending⟩)
    exact hinv.last id state (hkept.symm.trans hstate) hpending
  once := by
    intro id
    have honce := hinv.once id
    simp only [LowBalanceSystem.afterReset]
    split
    · rename_i hcredit
      rw [Bool.and_eq_true] at hcredit
      rw [hcredit.1] at honce
      rw [((huser id).of_raised hcredit.2).2]
      exact honce
    · exact (Nat.add_le_add_left (huser id).pending_le _).trans honce
  quotas := hinv.quotas

/-- A step that leaves the states alone keeps the invariant. -/
theorem LowBalanceInv.of_states (hinv : LowBalanceInv toQuota s)
    (hstates : t.states = s.tables.states) :
    LowBalanceInv toQuota { s with tables := t } := by
  have hstate : ∀ id, t.state id = s.tables.state id := by
    intro id
    rw [LowBalanceTables.state, hstates, LowBalanceTables.state]
  refine ⟨?_, hinv.now_pos, ?_, ?_, hinv.quotas⟩
  · rw [hstates]
    exact hinv.nodup
  · intro id state hsome
    exact hinv.last id state ((hstate id).symm.trans hsome)
  · intro id
    rw [LowBalanceTables.pending, hstate id]
    exact hinv.once id

/-- What a schedule can do: nothing, or make the user's state pending where it was not. -/
theorem maybeSchedule_cases (toQuota : ℤ → ℤ) (now userId quota : ℤ) (t : LowBalanceTables) :
    maybeScheduleLowBalanceQuotaReset toQuota now userId quota t = (false, t) ∨
      (0 < lowBalanceResetThresholdQuota toQuota ∧ t.pending userId = false ∧
        maybeScheduleLowBalanceQuotaReset toQuota now userId quota t =
          (true, t.saveState
            ⟨userId, .pending, now, now + lowBalanceResetDelaySeconds, 0, quota⟩)) := by
  simp only [maybeScheduleLowBalanceQuotaReset]
  split
  · exact .inl rfl
  · rename_i hok
    have hthreshold : 0 < lowBalanceResetThresholdQuota toQuota := by omega
    cases hstate : t.state userId with
    | none => exact .inr ⟨hthreshold, by simp [LowBalanceTables.pending, hstate], rfl⟩
    | some state =>
      simp only
      split
      · exact .inl rfl
      · rename_i hpending
        exact .inr ⟨hthreshold, by simp [LowBalanceTables.pending, hstate, hpending], rfl⟩

theorem LowBalanceInv.schedule (hinv : LowBalanceInv toQuota s) (userId quota : ℤ) :
    LowBalanceInv toQuota (lowBalanceOp toQuota (.schedule userId quota) s) := by
  rcases maybeSchedule_cases toQuota s.now userId quota s.tables with
    hnone | ⟨hthreshold, hpending, hsome⟩
  · rw [lowBalanceOp, hnone]
    exact hinv
  · rw [lowBalanceOp, hsome]
    refine ⟨nodup_saveState _ hinv.nodup, hinv.now_pos, ?_, ?_, hinv.quotas⟩
    · intro id state hstate hstatus
      simp only [LowBalanceSystem.scheduled, if_true] at hstate ⊢
      rw [LowBalanceTables.state_saveState] at hstate
      by_cases hid : id = userId
      · rw [if_pos hid] at hstate
        obtain rfl := Option.some.inj hstate
        subst hid
        simpa using ⟨hinv.now_pos, hthreshold⟩
      · rw [if_neg hid] at hstate
        rw [Function.update_of_ne hid]
        exact hinv.last id state hstate hstatus
    · intro id
      have honce := hinv.once id
      simp only [LowBalanceSystem.scheduled, if_true]
      by_cases hid : id = userId
      · subst hid
        rw [hpending] at honce
        rw [Function.update_self]
        exact Nat.add_le_add honce (Bool.toNat_le _)
      · rw [Function.update_of_ne hid, LowBalanceTables.pending,
          LowBalanceTables.state_saveState, if_neg hid]
        exact honce

theorem LowBalanceInv.op (hinv : LowBalanceInv toQuota s) (op : LowBalanceOp) :
    LowBalanceInv toQuota (lowBalanceOp toQuota op s) := by
  cases op with
  | schedule userId quota => exact hinv.schedule userId quota
  | checkin userId quotaAwarded => exact hinv.of_states rfl
  | spend userId quota => exact hinv.of_states rfl
  | topUp userId quota => exact hinv.of_states rfl
  | resetDue userId => exact hinv.afterReset (nodup_resetDue hinv.nodup) (resetDue_user hinv userId)
  | resetAll =>
    exact hinv.afterReset (nodup_resetAll hinv.nodup) (resetAll_user toQuota s.now s.tables)

theorem LowBalanceInv.wait (hinv : LowBalanceInv toQuota s) (delay : ℕ) :
    LowBalanceInv toQuota (s.wait delay) := by
  have hpos := hinv.now_pos
  refine ⟨hinv.nodup, ?_, hinv.last, hinv.once, hinv.quotas⟩
  simp only [LowBalanceSystem.wait]
  omega

theorem LowBalanceInv.start (users : List BalanceUser) (checkins : List Checkin) (hnow : 0 < now)
    (hquotas : 0 < lowBalanceResetThresholdQuota toQuota → 0 < lowBalanceResetTargetQuota toQuota) :
    LowBalanceInv toQuota (.start users checkins now) where
  nodup := List.nodup_nil
  now_pos := hnow
  last := by
    intro id state hstate
    simp [LowBalanceSystem.start, LowBalanceTables.state, Rows.first] at hstate
  once := fun _ => le_refl 0
  quotas := hquotas

theorem lowBalanceInv_run (users : List BalanceUser) (checkins : List Checkin) (hnow : 0 < now)
    (hquotas : 0 < lowBalanceResetThresholdQuota toQuota → 0 < lowBalanceResetTargetQuota toQuota)
    (as : List LowBalanceAction) :
    LowBalanceInv toQuota
      (Transition.run (lowBalanceStep toQuota) (.start users checkins now) as) :=
  Transition.run_invariant_always (fun _ a h => (h.wait a.delay).op a.op)
    (LowBalanceInv.start users checkins hnow hquotas) as

/-! ### The resets -/

/-- What the resets promise, in a state of the system in which `op` is called. -/
structure LowBalanceOk (toQuota : ℤ → ℤ) (s : LowBalanceSystem) (op : LowBalanceOp) : Prop where
  /-- A reset lowers no balance. -/
  keeps : ∀ id x, op = .resetAll ∨ (∃ userId, op = .resetDue userId) → s.tables.quotaOf id = some x →
    ∃ x', (lowBalanceOp toQuota op s).tables.quotaOf id = some x' ∧ x ≤ x'
  /-- Each trigger meets at most one credit: those that are not pending any more account for all. -/
  once : ∀ id, s.credits id + (s.tables.pending id).toNat ≤ s.triggers id
  /-- A credit leaves nothing pending. -/
  credited : ∀ id, op = .resetAll ∨ (∃ userId, op = .resetDue userId) →
    s.tables.raised (lowBalanceOp toQuota op s).tables id = true →
    (lowBalanceOp toQuota op s).tables.pending id = false
  /-- A reset that is due leaves nothing pending, with a credit or without one. -/
  completes : ∀ id, op = .resetDue id → s.tables.Due id s.now →
    (lowBalanceOp toQuota op s).tables.pending id = false
  /-- A due reset raises a balance to the target and what has been awarded since the trigger. -/
  rewards : ∀ id userId, op = .resetDue userId →
    s.tables.raised (lowBalanceOp toQuota op s).tables id = true →
    (lowBalanceOp toQuota op s).tables.quotaOf id =
      some (lowBalanceResetTargetQuota toQuota + s.awarded id)
  /-- A due reset leaves a balance alone that is not low without what has been awarded. -/
  withheld : ∀ id userId x, op = .resetDue userId → s.tables.quotaOf id = some x →
    lowBalanceResetThresholdQuota toQuota ≤ x - s.awarded id →
    (lowBalanceOp toQuota op s).tables.quotaOf id = some x
  /-- A one-click reset raises a balance to the target. -/
  oneClick : ∀ id, op = .resetAll →
    s.tables.raised (lowBalanceOp toQuota op s).tables id = true →
    (lowBalanceOp toQuota op s).tables.quotaOf id =
      some (lowBalanceResetTargetQuota toQuota)

theorem resetDue_withheld (hinv : LowBalanceInv toQuota s) (userId : ℤ) {x : ℤ}
    (hx : s.tables.quotaOf id = some x)
    (henough : lowBalanceResetThresholdQuota toQuota ≤ x - s.awarded id) :
    (resetDueLowBalanceQuotaState toQuota userId s.now s.tables).2.quotaOf id = some x := by
  by_cases hid : id = userId
  · subst hid
    by_cases hdue : s.tables.Due id s.now
    · have hquota := (resetDue_of_due hinv hdue).2
      rw [hx, Option.map_some, if_neg (fun hlow => absurd hlow.1 (not_lt.2 henough))] at hquota
      exact hquota
    · rw [resetDue_of_not_due hinv.nodup hdue]
      exact hx
  · exact (resetDue_other hid).1.trans hx

theorem lowBalanceOk (hinv : LowBalanceInv toQuota s) (op : LowBalanceOp) :
    LowBalanceOk toQuota s op where
  keeps := by
    rintro id x (rfl | ⟨userId, rfl⟩) hx
    · exact (resetAll_user toQuota s.now s.tables id).quota_le hx
    · exact (resetDue_user hinv userId id).quota_le hx
  once := hinv.once
  credited := by
    rintro id (rfl | ⟨userId, rfl⟩) hraised
    · exact ((resetAll_user toQuota s.now s.tables id).of_raised hraised).2
    · exact ((resetDue_user hinv userId id).of_raised hraised).2
  completes := by
    rintro id rfl hdue
    exact (resetDue_of_due hinv hdue).1
  rewards := by
    rintro id userId rfl hraised
    exact ((resetDue_user hinv userId id).of_raised hraised).1
  withheld := by
    rintro id userId x rfl hx henough
    exact resetDue_withheld hinv userId hx henough
  oneClick := by
    rintro id rfl hraised
    exact ((resetAll_user toQuota s.now s.tables id).of_raised hraised).1

end Invariant

/-- The tables after a trigger and a check-in that is not spent. -/
def checkedIn : LowBalanceSystem :=
  Transition.run (lowBalanceStep (dollarsToQuota 1)) (.start [⟨1, true, 10⟩] [] 1)
    [⟨0, .schedule 1 10⟩, ⟨5, .checkin 1 30⟩]

end NewApi

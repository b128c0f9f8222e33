/-
**Concurrent changes of a user's quota.**

Billing changes the quota of a user by statements that add to the column or subtract from it.
Three functions change users in another way: they read the row, change the copy and write the
copy back.  `inviteUser` and `TransferAffQuotaToQuota` write all columns, `User.Update` those that
are not zero in the copy, and so all of them write the quota as it was when they read it.  Each
statement of each call is a step of its own here, and the calls interleave as they like.

Main definitions:

* `NewApi.User`, `NewApi.QuotaCall` — the columns of a user that move quota, and the calls;
* `NewApi.QuotaSystem`, `NewApi.quotaStep` — the table and the calls, and one statement;
* `NewApi.QuotaAction.Current` — a copy is written only while its quota is that of the row.

Main results:

* `NewApi.quota_balanced` — **no change of a quota is lost in a run in which every copy is current
  when it is written**;
* `NewApi.invite_loses_decrease` — a run in which a charge is lost.
-/

import NewApi.Lib.Ledger
import NewApi.Lib.ReadCommitted
import NewApi.Lib.Transition
import NewApi.Common

set_option autoImplicit false

namespace NewApi

open ReadCommitted

/-! ### Users and calls -/

/-- The columns of a user that move quota. -/
structure User where
  quota : ℤ
  affQuota : ℤ
  affCount : ℤ
  affHistoryQuota : ℤ
deriving DecidableEq, Repr

def User.addQuota (x : ℤ) (user : User) : User := { user with quota := user.quota + x }

/-- The copy of the inviter that `inviteUser` writes. -/
def User.invited (quotaForInviter : ℤ) (user : User) : User :=
  { user with
    affCount := user.affCount + 1
    affQuota := user.affQuota + quotaForInviter
    affHistoryQuota := user.affHistoryQuota + quotaForInviter }

/-- The copy that `TransferAffQuotaToQuota` writes. -/
def User.transferred (x : ℤ) (user : User) : User :=
  { user with affQuota := user.affQuota - x, quota := user.quota + x }

/-- The row after an update from a copy: a column that is zero in the copy is not written. -/
def User.updateFrom (copy row : User) : User where
  quota := if copy.quota ≠ 0 then copy.quota else row.quota
  affQuota := if copy.affQuota ≠ 0 then copy.affQuota else row.affQuota
  affCount := if copy.affCount ≠ 0 then copy.affCount else row.affCount
  affHistoryQuota := if copy.affHistoryQuota ≠ 0 then copy.affHistoryQuota else row.affHistoryQuota

structure UserConfig where
  quotaForInviter : ℤ
  quotaPerUnit : Float
deriving DecidableEq, Repr

/-- The calls.  The caller of `User.Update` has a copy that it has read, or has made up from a
request. -/
inductive QuotaCall where
  | increaseUserQuota (id quota : ℤ)
  | decreaseUserQuota (id quota : ℤ)
  | inviteUser (inviterId : ℤ)
  | transferAffQuotaToQuota (id quota : ℤ)
  | update (id : ℤ) (request : Option User)
deriving DecidableEq, Repr

/-- How far a call has come: it has a copy of its row, it has written its row in a transaction
that is still open, or it has ended. -/
inductive QuotaState where
  | start
  | loaded (copy : User)
  | saved
  | done (ok : Bool)
deriving DecidableEq, Repr

/-- The table and the calls.  `moves` are the amounts that were added to quotas, subtracted from
them or transferred to them so far, each with its user. -/
structure QuotaSystem (ι : Type*) where
  users : Database ℤ ι (Option User)
  state : ι → QuotaState
  moves : List (ℤ × ℤ)

/-- The next statement of a call, and whether it fails. -/
structure QuotaAction (ι : Type*) where
  caller : ι
  fails : Bool

section Step

variable {ι : Type*} [DecidableEq ι]

namespace QuotaSystem

def goTo (i : ι) (state : QuotaState) (s : QuotaSystem ι) : QuotaSystem ι :=
  { s with state := Function.update s.state i state }

/-- The last statement of a call that is not in a transaction. -/
def execute (i : ι) (id : ℤ) (f : User → User) (moved : List (ℤ × ℤ)) (s : QuotaSystem ι) :
    QuotaSystem ι where
  users := (s.users.write i id (Option.map f)).commit i
  state := Function.update s.state i (.done true)
  moves := s.moves ++ moved

/-- A row is written in a transaction. -/
def save (i : ι) (id : ℤ) (f : User → User) (s : QuotaSystem ι) : QuotaSystem ι :=
  { s with
    users := s.users.write i id (Option.map f)
    state := Function.update s.state i .saved }

def commit (i : ι) (moved : List (ℤ × ℤ)) (s : QuotaSystem ι) : QuotaSystem ι where
  users := s.users.commit i
  state := Function.update s.state i (.done true)
  moves := s.moves ++ moved

def abort (i : ι) (s : QuotaSystem ι) : QuotaSystem ι :=
  { s with
    users := s.users.rollback i
    state := Function.update s.state i (.done false) }

end QuotaSystem

/-- A statement that writes row `id` fails, or waits while another transaction has the row, or is
carried out. -/
def writing (a : QuotaAction ι) (id : ℤ) (carryOut : QuotaSystem ι → QuotaSystem ι)
    (s : QuotaSystem ι) : QuotaSystem ι :=
  if a.fails then s.abort a.caller
  else if s.users.Free a.caller id then carryOut s
  else s

/-- A statement that reads row `id`.  A row that is not there is an error. -/
def reading (a : QuotaAction ι) (id : ℤ) (next : User → QuotaState) (s : QuotaSystem ι) :
    QuotaSystem ι :=
  if a.fails then s.abort a.caller
  else
    match s.users.view a.caller id with
    | none => s.abort a.caller
    | some user => s.goTo a.caller (next user)

/-- The next statement of a call.  A row that was read is still there when it is written: no call
deletes a user. -/
def quotaStep (cfg : UserConfig) (calls : ι → QuotaCall) (s : QuotaSystem ι)
    (a : QuotaAction ι) : QuotaSystem ι :=
  match calls a.caller, s.state a.caller with
  | .increaseUserQuota id x, .start =>
    writing a id (·.execute a.caller id (·.addQuota x) [(id, x)]) s
  | .decreaseUserQuota id x, .start =>
    writing a id (·.execute a.caller id (·.addQuota (-x)) [(id, -x)]) s
  | .inviteUser id, .start => reading a id .loaded s
  | .inviteUser id, .loaded copy =>
    writing a id (·.execute a.caller id (fun _ => copy.invited cfg.quotaForInviter) []) s
  | .transferAffQuotaToQuota id x, .start =>
    if Float.ofInt x < cfg.quotaPerUnit then s.goTo a.caller (.done false)
    else reading a id (fun user => if user.affQuota < x then .done false else .loaded user) s
  | .transferAffQuotaToQuota id x, .loaded copy =>
    writing a id (·.save a.caller id fun _ => copy.transferred x) s
  | .transferAffQuotaToQuota id x, .saved =>
    if a.fails then s.abort a.caller else s.commit a.caller [(id, x)]
  | .update _ (some copy), .start => s.goTo a.caller (.loaded copy)
  | .update id none, .start => reading a id .loaded s
  | .update id _, .loaded copy => writing a id (·.execute a.caller id copy.updateFrom []) s
  | _, _ => s

/-- A copy is current when it is written: its quota is that of the row, or is not written. -/
def QuotaAction.Current (calls : ι → QuotaCall) (s : QuotaSystem ι) (a : QuotaAction ι) : Prop :=
  match calls a.caller, s.state a.caller with
  | .inviteUser id, .loaded copy =>
    a.fails = false → s.users.Free a.caller id →
      ∀ row ∈ s.users.committed id, copy.quota = row.quota
  | .transferAffQuotaToQuota id _, .loaded copy =>
    a.fails = false → s.users.Free a.caller id →
      ∀ row ∈ s.users.committed id, copy.quota = row.quota
  | .update id _, .loaded copy =>
    a.fails = false → s.users.Free a.caller id →
      ∀ row ∈ s.users.committed id, copy.quota = 0 ∨ copy.quota = row.quota
  | _, _ => True

instance (calls : ι → QuotaCall) (s : QuotaSystem ι) (a : QuotaAction ι) :
    Decidable (a.Current calls s) := by
  unfold QuotaAction.Current
  split <;> infer_instance

/-- The table before any call. -/
def QuotaSystem.start (rows : ℤ → Option User) : QuotaSystem ι where
  users := .ofRows rows
  state _ := .start
  moves := []

end Step

/-! ### The quota and what moved it -/

section Balance

variable {ι : Type*} [DecidableEq ι] {calls : ι → QuotaCall} {initial : ℤ → ℤ}
  {s : QuotaSystem ι}

/-- Every quota is the initial one and what was moved, and a version that is not committed is one
of a transfer and differs from the row by its amount. -/
structure QuotaInv (calls : ι → QuotaCall) (initial : ℤ → ℤ) (s : QuotaSystem ι) : Prop where
  balanced : ∀ id row, s.users.committed id = some row →
    row.quota = initial id + Accounts.sumFor id s.moves
  reserved : ∀ id i v, s.users.pending id = some (i, v) → ∃ x,
    calls i = .transferAffQuotaToQuota id x ∧ s.state i = .saved ∧
      v.map (·.quota) = (s.users.committed id).map (·.quota + x)
  written : ∀ i id x, calls i = .transferAffQuotaToQuota id x → s.state i = .saved →
    ∃ v, s.users.pending id = some (i, v)

omit [DecidableEq ι] in
/-- Only a call that has written its row has one. -/
theorem QuotaInv.not_own (h : QuotaInv calls initial s) {i : ι} (hstate : s.state i ≠ .saved)
    (id : ℤ) (v : Option User) : s.users.pending id ≠ some (i, v) := by
  intro hp
  obtain ⟨x, -, hsaved, -⟩ := h.reserved id i v hp
  exact hstate hsaved

/-- A call in the state `saved`, which the call `i` has just left, is a call other than `i`. -/
theorem saved_of_update {i j : ι} {st : QuotaState} (hst : st ≠ .saved)
    (h : Function.update s.state i st j = .saved) : j ≠ i ∧ s.state j = .saved := by
  by_cases hj : j = i
  · rw [hj, Function.update_self] at h
    exact absurd h hst
  · rw [Function.update_of_ne hj] at h
    exact ⟨hj, h⟩

theorem QuotaInv.goTo (h : QuotaInv calls initial s) {i : ι} (hstate : s.state i ≠ .saved)
    {st : QuotaState} (hst : st ≠ .saved) : QuotaInv calls initial (s.goTo i st) := by
  refine ⟨h.balanced, fun id j v hp => ?_, fun j id x hcall hsaved => ?_⟩
  · obtain ⟨x, hcall, hsaved, hquota⟩ := h.reserved id j v hp
    have hj : j ≠ i := by
      rintro rfl
      exact hstate hsaved
    exact ⟨x, hcall, (Function.update_of_ne hj _ _).trans hsaved, hquota⟩
  · exact h.written j id x hcall (saved_of_update hst hsaved).2

theorem QuotaInv.abort (h : QuotaInv calls initial s) (i : ι) :
    QuotaInv calls initial (s.abort i) := by
  refine ⟨h.balanced, fun id j v hp => ?_, fun j id x hcall hsaved => ?_⟩
  · obtain ⟨hp, hj⟩ := Database.pending_commit_eq_some.1 hp
    obtain ⟨x, hcall, hsaved, hquota⟩ := h.reserved id j v hp
    exact ⟨x, hcall, (Function.update_of_ne hj _ _).trans hsaved, hquota⟩
  · have hdone : QuotaState.done false ≠ .saved := by
      intro hst
      cases hst
    obtain ⟨hj, hsaved⟩ := saved_of_update hdone hsaved
    obtain ⟨v, hp⟩ := h.written j id x hcall hsaved
    exact ⟨v, Database.pending_commit_eq_some.2 ⟨hp, hj⟩⟩

/-- A statement of its own that changes the quota by what it says it moves. -/
theorem QuotaInv.execute (h : QuotaInv calls initial s) {i : ι} {id : ℤ} {f : User → User}
    {moved : List (ℤ × ℤ)} (hstate : s.state i ≠ .saved) (hfree : s.users.Free i id)
    (hf : ∀ row ∈ s.users.committed id, (f row).quota = row.quota + Accounts.sumFor id moved)
    (hmoved : ∀ id', id' ≠ id → Accounts.sumFor id' moved = 0) :
    QuotaInv calls initial (s.execute i id f moved) := by
  have husers : (s.execute i id f moved).users =
      s.users.replace id ((s.users.committed id).map f) :=
    Database.commit_write hfree (h.not_own hstate)
  refine ⟨fun id' row hrow => ?_, fun id' j v hp => ?_, fun j id' x hcall hsaved => ?_⟩
  · have hmoves : (s.execute i id f moved).moves = s.moves ++ moved := rfl
    rw [husers, Database.committed_replace] at hrow
    rw [hmoves, Accounts.sumFor_append]
    by_cases hid : id' = id
    · subst hid
      rw [Function.update_self, Option.map_eq_some_iff] at hrow
      obtain ⟨row₀, hrow₀, rfl⟩ := hrow
      rw [hf row₀ hrow₀, h.balanced id' row₀ hrow₀]
      omega
    · rw [Function.update_of_ne hid] at hrow
      rw [hmoved id' hid, h.balanced id' row hrow, add_zero]
  · rw [husers, Database.pending_replace] at hp
    rw [husers, Database.committed_replace]
    obtain ⟨x, hcall, hsaved, hquota⟩ := h.reserved id' j v hp
    have hj : j ≠ i := by
      rintro rfl
      exact hstate hsaved
    have hid : id' ≠ id := by
      rintro rfl
      rw [Database.pending_of_free hfree (h.not_own hstate id')] at hp
      cases hp
    refine ⟨x, hcall, (Function.update_of_ne hj _ _).trans hsaved, ?_⟩
    rw [Function.update_of_ne hid]
    exact hquota
  · have hdone : QuotaState.done true ≠ .saved := by
      intro hst
      cases hst
    rw [husers, Database.pending_replace]
    exact h.written j id' x hcall (saved_of_update hdone hsaved).2

/-- A transfer writes its row. -/
theorem QuotaInv.save (h : QuotaInv calls initial s) {i : ι} {id x : ℤ} {copy : User}
    (hcall : calls i = .transferAffQuotaToQuota id x) (hstate : s.state i ≠ .saved)
    (hfree : s.users.Free i id)
    (hcopy : ∀ row ∈ s.users.committed id, copy.quota = row.quota) :
    QuotaInv calls initial (s.save i id fun _ => copy.transferred x) := by
  have husers : (s.save i id fun _ => copy.transferred x).users =
      s.users.write i id (Option.map fun _ => copy.transferred x) := rfl
  refine ⟨h.balanced, fun id' j v hp => ?_, fun j id' y hcall' hsaved => ?_⟩
  · rw [husers] at hp ⊢
    by_cases hid : id' = id
    · subst hid
      rw [Database.pending_write_self, Database.view_of_not_own (h.not_own hstate id')] at hp
      cases hp
      refine ⟨x, hcall, Function.update_self .., ?_⟩
      rw [Database.committed_write]
      cases hrow : s.users.committed id' with
      | none => rfl
      | some row =>
        have hq := hcopy row hrow
        simp [User.transferred, hq]
    · rw [Database.pending_write_of_ne _ _ hid] at hp
      obtain ⟨y, hcall', hsaved, hquota⟩ := h.reserved id' j v hp
      have hj : j ≠ i := by
        rintro rfl
        exact hstate hsaved
      exact ⟨y, hcall', (Function.update_of_ne hj _ _).trans hsaved, hquota⟩
  · rw [husers]
    by_cases hj : j = i
    · subst hj
      rw [hcall] at hcall'
      cases hcall'
      exact ⟨_, Database.pending_write_self ..⟩
    · have hsaved' : s.state j = .saved := (Function.update_of_ne hj _ _).symm.trans hsaved
      obtain ⟨v, hp⟩ := h.written j id' y hcall' hsaved'
      have hid : id' ≠ id := by
        -- the row was free for `i`, so `j` does not have it
        rintro rfl
        exact hj (hfree _ hp)
      exact ⟨v, (Database.pending_write_of_ne _ _ hid).trans hp⟩

/-- A transfer is committed. -/
theorem QuotaInv.commit (h : QuotaInv calls initial s) {i : ι} {id x : ℤ}
    (hcall : calls i = .transferAffQuotaToQuota id x) (hstate : s.state i = .saved) :
    QuotaInv calls initial (s.commit i [(id, x)]) := by
  have husers : (s.commit i [(id, x)]).users = s.users.commit i := rfl
  have hother : ∀ id', id' ≠ id → s.users.view i id' = s.users.committed id' := by
    intro id' hid
    refine Database.view_of_not_own fun v hp => ?_
    obtain ⟨y, hcall', -, -⟩ := h.reserved id' i v hp
    rw [hcall] at hcall'
    cases hcall'
    exact hid rfl
  refine ⟨fun id' row hrow => ?_, fun id' j v hp => ?_, fun j id' y hcall' hsaved => ?_⟩
  · have hmoves : (s.commit i [(id, x)]).moves = s.moves ++ [(id, x)] := rfl
    rw [husers, Database.committed_commit] at hrow
    rw [hmoves, Accounts.sumFor_append]
    by_cases hid : id' = id
    · subst hid
      obtain ⟨v, hp⟩ := h.written i id' x hcall hstate
      obtain ⟨y, hcall', -, hquota⟩ := h.reserved id' i v hp
      rw [hcall] at hcall'
      cases hcall'
      rw [Database.view_of_own hp] at hrow
      rw [hrow, Option.map_some] at hquota
      obtain ⟨row₀, hrow₀, hq⟩ := Option.map_eq_some_iff.1 hquota.symm
      rw [Accounts.sumFor_self, ← hq, h.balanced id' row₀ hrow₀]
      omega
    · rw [hother id' hid] at hrow
      rw [Accounts.sumFor_of_ne x (Ne.symm hid), h.balanced id' row hrow, add_zero]
  · rw [husers] at hp ⊢
    obtain ⟨hp, hj⟩ := Database.pending_commit_eq_some.1 hp
    obtain ⟨y, hcall', hsaved, hquota⟩ := h.reserved id' j v hp
    refine ⟨y, hcall', (Function.update_of_ne hj _ _).trans hsaved, ?_⟩
    rw [Database.committed_commit, Database.view_of_other hp hj]
    exact hquota
  · have hdone : QuotaState.done true ≠ .saved := by
      intro hst
      cases hst
    obtain ⟨hj, hsaved⟩ := saved_of_update hdone hsaved
    obtain ⟨v, hp⟩ := h.written j id' y hcall' hsaved
    rw [husers]
    exact ⟨v, Database.pending_commit_eq_some.2 ⟨hp, hj⟩⟩

/-! ### One statement -/

theorem QuotaInv.of_writing (h : QuotaInv calls initial s) {a : QuotaAction ι} {id : ℤ}
    {carryOut : QuotaSystem ι → QuotaSystem ι}
    (hout : a.fails = false → s.users.Free a.caller id → QuotaInv calls initial (carryOut s)) :
    QuotaInv calls initial (writing a id carryOut s) := by
  unfold writing
  split
  · exact h.abort a.caller
  · rename_i hok
    split
    · rename_i hfree
      exact hout (Bool.eq_false_of_not_eq_true hok) hfree
    · exact h

theorem QuotaInv.of_reading (h : QuotaInv calls initial s) {a : QuotaAction ι} {id : ℤ}
    {next : User → QuotaState} (hstate : s.state a.caller ≠ .saved)
    (hnext : ∀ user, next user ≠ .saved) :
    QuotaInv calls initial (reading a id next s) := by
  unfold reading
  split
  · exact h.abort a.caller
  · cases s.users.view a.caller id with
    | none => exact h.abort a.caller
    | some user => exact h.goTo hstate (hnext user)

/-- The quota of an update from a copy whose quota is that of the row, or is not written. -/
theorem quota_updateFrom {copy row : User} (h : copy.quota = 0 ∨ copy.quota = row.quota) :
    (copy.updateFrom row).quota = row.quota := by
  unfold User.updateFrom
  split
  · rename_i hne
    exact h.resolve_left hne
  · rfl

/-- A statement that adds to the quota. -/
theorem QuotaInv.addQuota (h : QuotaInv calls initial s) {a : QuotaAction ι} {id x : ℤ}
    (hstate : s.state a.caller ≠ .saved) :
    QuotaInv calls initial
      (writing a id (·.execute a.caller id (·.addQuota x) [(id, x)]) s) := by
  refine h.of_writing fun _ hfree => h.execute hstate hfree ?_ ?_
  · intro row _
    rw [Accounts.sumFor_self]
    rfl
  · intro id' hid
    exact Accounts.sumFor_of_ne x (Ne.symm hid)

/-- A statement that writes a current copy and moves nothing. -/
theorem QuotaInv.keepQuota (h : QuotaInv calls initial s) {a : QuotaAction ι} {id : ℤ}
    {f : User → User} (hstate : s.state a.caller ≠ .saved)
    (hf : a.fails = false → s.users.Free a.caller id →
      ∀ row ∈ s.users.committed id, (f row).quota = row.quota) :
    QuotaInv calls initial (writing a id (·.execute a.caller id f []) s) := by
  refine h.of_writing fun hok hfree => h.execute hstate hfree ?_ fun _ _ => rfl
  intro row hrow
  rw [hf hok hfree row hrow, Accounts.sumFor_nil, add_zero]

/-- **A statement keeps the quotas balanced if the copy it writes is current.** -/
theorem QuotaInv.step {cfg : UserConfig} (h : QuotaInv calls initial s) {a : QuotaAction ι}
    (ha : a.Current calls s) : QuotaInv calls initial (quotaStep cfg calls s a) := by
  have hnot : ∀ {st : QuotaState}, s.state a.caller = st → st ≠ .saved →
      s.state a.caller ≠ .saved := by
    intro st hst hne
    rw [hst]
    exact hne
  unfold QuotaAction.Current at ha
  unfold quotaStep
  cases hcall : calls a.caller with
  | increaseUserQuota id x | decreaseUserQuota id x =>
    cases hstate : s.state a.caller with
    | start => exact h.addQuota (hnot hstate (by decide))
    | _ => exact h
  | inviteUser id =>
    cases hstate : s.state a.caller with
    | start => exact h.of_reading (hnot hstate (by decide)) fun _ hst => by cases hst
    | loaded copy =>
      simp only [hcall, hstate] at ha
      exact h.keepQuota (hnot hstate fun hst => by cases hst) ha
    | _ => exact h
  | transferAffQuotaToQuota id x =>
    cases hstate : s.state a.caller with
    | start =>
      simp only
      split
      · exact h.goTo (hnot hstate (by decide)) fun hst => by cases hst
      · refine h.of_reading (hnot hstate (by decide)) fun user => ?_
        split
        · exact fun hst => by cases hst
        · exact fun hst => by cases hst
    | loaded copy =>
      simp only [hcall, hstate] at ha
      refine h.of_writing fun hok hfree => ?_
      exact h.save hcall (hnot hstate fun hst => by cases hst) hfree (ha hok hfree)
    | saved =>
      simp only
      split
      · exact h.abort a.caller
      · exact h.commit hcall hstate
    | done ok => exact h
  | update id request =>
    cases hstate : s.state a.caller with
    | start =>
      cases request with
      | some copy => exact h.goTo (hnot hstate (by decide)) fun hst => by cases hst
      | none => exact h.of_reading (hnot hstate (by decide)) fun _ hst => by cases hst
    | loaded copy =>
      simp only [hcall, hstate] at ha
      cases request <;>
        exact h.keepQuota (hnot hstate fun hst => by cases hst) fun hok hfree row hrow =>
          quota_updateFrom (ha hok hfree row hrow)
    | saved => cases request <;> exact h
    | done ok => cases request <;> exact h

/-! ### Runs -/

omit [DecidableEq ι] in
theorem quotaInv_start (rows : ℤ → Option User) :
    QuotaInv calls (fun id => ((rows id).map (·.quota)).getD 0) (.start rows) := by
  refine ⟨fun id row hrow => ?_, fun id i v hp => ?_, fun i id x _ hsaved => ?_⟩
  · have hrow' : rows id = some row := hrow
    rw [hrow']
    exact (add_zero row.quota).symm
  · cases hp
  · cases hsaved

/-- **No change of a quota is lost**, for any calls and any order of their statements, in every run
in which every copy is current when it is written: the quota of every user is the initial one and
what was added to it, subtracted from it and transferred to it. -/
theorem quota_balanced (cfg : UserConfig) (calls : ι → QuotaCall) (rows : ℤ → Option User)
    (actions : List (QuotaAction ι))
    (hcurrent : Transition.Along (quotaStep cfg calls) (fun s a => a.Current calls s)
      (.start rows) actions) (id : ℤ) (row₀ row : User) (hrow₀ : rows id = some row₀)
    (hrow : (Transition.run (quotaStep cfg calls) (.start rows) actions).users.committed id =
      some row) :
    row.quota = row₀.quota +
      Accounts.sumFor id (Transition.run (quotaStep cfg calls) (.start rows) actions).moves := by
  have hstep : ∀ (s : QuotaSystem ι) (a : QuotaAction ι),
      QuotaInv calls (fun id => ((rows id).map (·.quota)).getD 0) s → a.Current calls s →
      QuotaInv calls (fun id => ((rows id).map (·.quota)).getD 0) (quotaStep cfg calls s a) := by
    intro s a hs ha
    exact hs.step ha
  have hinv := Transition.run_invariant hstep (quotaInv_start rows) hcurrent
  have hbalanced := hinv.balanced id row hrow
  rwa [hrow₀, Option.map_some, Option.getD_some] at hbalanced

end Balance

/-- An invitation, and a request that is charged. -/
def inviteAndCharge : Bool → QuotaCall
  | false => .inviteUser 1
  | true => .decreaseUserQuota 1 30

def inviteConfig : UserConfig where
  quotaForInviter := 500
  quotaPerUnit := 500000.0

/-- The statements of these calls, none of which fails. -/
def quotaStatements (callers : List Bool) : List (QuotaAction Bool) :=
  callers.map fun i => ⟨i, false⟩

def oneUser : ℤ → Option User := fun id => if id = 1 then some ⟨100, 0, 0, 0⟩ else none

/-- A charge after the invitation is counted. -/
theorem quota_balanced_in_turn :
    (70 : ℤ) = 100 + Accounts.sumFor 1 (Transition.run (quotaStep inviteConfig inviteAndCharge)
      (.start oneUser) (quotaStatements [false, false, true])).moves :=
  quota_balanced inviteConfig inviteAndCharge oneUser _ (by decide) 1 ⟨100, 0, 0, 0⟩
    ⟨70, 500, 1, 500⟩ (by decide) (by decide)

/-- **A charge is lost** when it comes between the invitation's read and its write. -/
theorem invite_loses_decrease :
    let s := Transition.run (quotaStep inviteConfig inviteAndCharge) (.start oneUser)
      (quotaStatements [false, true, false])
    s.users.committed 1 = some ⟨100, 500, 1, 500⟩ ∧ Accounts.sumFor 1 s.moves = -30 := by
  decide

end NewApi

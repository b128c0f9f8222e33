/-
**Redeeming a code.**

A redemption code is good for one credit.  `Redeem` reads the code, checks that it has not been
used, adds its quota to the user and writes the code as used, in one transaction.  The read asks
for a row lock in a way the database library ignores, so it takes none: several calls can read the
code as enabled before any of them has written it.  Each statement of each call is a step of its
own here, and the calls interleave as they like.

Main definitions:

* `NewApi.Redemption`, `NewApi.RedeemCall` — a code, and a call of a user who redeems one;
* `NewApi.RedeemSystem`, `NewApi.redeemStep` — the tables and the calls, and one statement;
* `NewApi.RedeemAction.ReadHolds` — a call commits only while the code is as it read it;
* `NewApi.RedeemAction.Alone` — a call reads a code only while no other call is at it.

Main results:

* `NewApi.redeem_at_most_once` — **a code is credited at most once in every run in which what a
  call has read still holds when it commits**;
* `NewApi.redeem_twice` — a code is credited twice in a run in which it does not;
* `NewApi.readHolds_of_alone` — the lock the read asks for would be enough.
-/

import NewApi.Lib.ReadCommitted
import NewApi.Lib.Transition
import NewApi.Common

set_option autoImplicit false

namespace NewApi

open ReadCommitted

/-! ### Codes and calls -/

def redemptionCodeStatusEnabled : ℤ := 1

def redemptionCodeStatusUsed : ℤ := 3

/-- A redemption code.  It does not expire if its time of expiry is zero. -/
structure Redemption where
  status : ℤ
  quota : ℤ
  redeemedTime : ℤ
  usedUserId : ℤ
  expiredTime : ℤ
deriving DecidableEq, Repr

/-- The code as a call that redeems it writes it. -/
def Redemption.use (r : Redemption) (userId now : ℤ) : Redemption :=
  { r with redeemedTime := now, status := redemptionCodeStatusUsed, usedUserId := userId }

/-- A call: a user redeems the code with a key. -/
structure RedeemCall where
  key : String
  userId : ℤ
deriving DecidableEq, Repr

/-- How far a call has come: its transaction has read the code, added the quota, written the code,
or ended. -/
inductive RedeemState where
  | start
  | selected (redemption : Redemption)
  | credited (redemption : Redemption)
  | saved (redemption : Redemption)
  | done (result : Except String ℤ)

/-- The tables and the calls.  Users are known by their quota; a row that is not there has none.
`credits` are the calls that have added a quota to a user, with the keys of their codes. -/
structure RedeemSystem (ι : Type*) where
  users : Database ℤ ι (Option ℤ)
  codes : Database String ι (Option Redemption)
  state : ι → RedeemState
  credits : List (ι × String)

/-- The next statement of a call, at a time, and whether it fails. -/
structure RedeemAction (ι : Type*) where
  caller : ι
  now : ℤ
  fails : Bool

def errRedeemFailed : String := "redeem.failed"

section Step

variable {ι : Type*} [DecidableEq ι] (calls : ι → RedeemCall)

namespace RedeemSystem

/-- The call `i` has come to `state`. -/
def goTo (i : ι) (state : RedeemState) (s : RedeemSystem ι) : RedeemSystem ι :=
  { s with state := Function.update s.state i state }

/-- The transaction of the call `i` is rolled back. -/
def abort (i : ι) (s : RedeemSystem ι) : RedeemSystem ι :=
  { s with
    users := s.users.rollback i
    codes := s.codes.rollback i
    state := Function.update s.state i (.done (.error errRedeemFailed)) }

/-- The quota of the code is added to the user of the call `i`. -/
def addQuota (i : ι) (redemption : Redemption) (s : RedeemSystem ι) : RedeemSystem ι :=
  { s with
    users := s.users.write i (calls i).userId (Option.map (· + redemption.quota))
    state := Function.update s.state i (.credited redemption) }

/-- The code is written as used by the call `i`. -/
def save (i : ι) (now : ℤ) (redemption : Redemption) (s : RedeemSystem ι) : RedeemSystem ι :=
  { s with
    codes := s.codes.write i (calls i).key fun _ => some (redemption.use (calls i).userId now)
    state := Function.update s.state i (.saved redemption) }

/-- The transaction of the call `i` is committed. -/
def commit (i : ι) (redemption : Redemption) (s : RedeemSystem ι) : RedeemSystem ι where
  users := s.users.commit i
  codes := s.codes.commit i
  state := Function.update s.state i (.done (.ok redemption.quota))
  credits :=
    if (s.users.view i (calls i).userId).isSome then s.credits ++ [(i, (calls i).key)]
    else s.credits

end RedeemSystem

/-- The first statement of a call: the code is read and checked. -/
def redeemSelect (s : RedeemSystem ι) (a : RedeemAction ι) : RedeemSystem ι :=
  let call := calls a.caller
  if call.key = "" then s.goTo a.caller (.done (.error "未提供兑换码"))
  else if call.userId = 0 then s.goTo a.caller (.done (.error "无效的 user id"))
  else if a.fails then s.abort a.caller
  else
    match s.codes.view a.caller call.key with
    | none => s.abort a.caller
    | some redemption =>
      if redemption.status ≠ redemptionCodeStatusEnabled then s.abort a.caller
      else if redemption.expiredTime ≠ 0 ∧ redemption.expiredTime < a.now then s.abort a.caller
      else s.goTo a.caller (.selected redemption)

/-- The next statement of a call.  A write waits while another transaction has the row. -/
def redeemStep (s : RedeemSystem ι) (a : RedeemAction ι) : RedeemSystem ι :=
  let call := calls a.caller
  match s.state a.caller with
  | .start => redeemSelect calls s a
  | .selected redemption =>
    if a.fails then s.abort a.caller
    else if s.users.Free a.caller call.userId then
      s.addQuota calls a.caller redemption
    else s
  | .credited redemption =>
    if a.fails then s.abort a.caller
    else if s.codes.Free a.caller call.key then
      s.save calls a.caller a.now redemption
    else s
  | .saved redemption => if a.fails then s.abort a.caller else s.commit calls a.caller redemption
  | .done _ => s

/-- The tables before any call. -/
def RedeemSystem.start (users : ℤ → Option ℤ) (codes : String → Option Redemption) :
    RedeemSystem ι where
  users := .ofRows users
  codes := .ofRows codes
  state _ := .start
  credits := []

end Step

/-! ### One statement -/

/-- The code a call has read, as long as its transaction is open. -/
def RedeemState.read : RedeemState → Option Redemption
  | .selected redemption => some redemption
  | .credited redemption => some redemption
  | .saved redemption => some redemption
  | _ => none

section Once

variable {ι : Type*} [DecidableEq ι] {calls : ι → RedeemCall} {s : RedeemSystem ι}

/-- What one statement can do. -/
inductive RedeemMove (calls : ι → RedeemCall) (s : RedeemSystem ι) (a : RedeemAction ι) :
    RedeemSystem ι → Prop
  | stay : RedeemMove calls s a s
  | refuse (result : Except String ℤ) (hstate : s.state a.caller = .start) :
      RedeemMove calls s a (s.goTo a.caller (.done result))
  | abort : RedeemMove calls s a (s.abort a.caller)
  | select (r : Redemption) (hstate : s.state a.caller = .start)
      (hread : s.codes.view a.caller (calls a.caller).key = some r)
      (henabled : r.status = redemptionCodeStatusEnabled) :
      RedeemMove calls s a (s.goTo a.caller (.selected r))
  | addQuota (r : Redemption) (hstate : s.state a.caller = .selected r) :
      RedeemMove calls s a (s.addQuota calls a.caller r)
  | save (r : Redemption) (hstate : s.state a.caller = .credited r)
      (hfree : s.codes.Free a.caller (calls a.caller).key) :
      RedeemMove calls s a (s.save calls a.caller a.now r)
  | commit (r : Redemption) (hstate : s.state a.caller = .saved r) (hfails : a.fails = false) :
      RedeemMove calls s a (s.commit calls a.caller r)

/-- **One statement of a call does one of these things.** -/
theorem redeemStep_move (a : RedeemAction ι) : RedeemMove calls s a (redeemStep calls s a) := by
  unfold redeemStep
  cases hstate : s.state a.caller with
  | start =>
    simp only [redeemSelect]
    split
    · exact .refuse _ hstate
    · split
      · exact .refuse _ hstate
      · split
        · exact .abort
        · cases hread : s.codes.view a.caller (calls a.caller).key with
          | none => exact .abort
          | some r =>
            by_cases henabled : r.status = redemptionCodeStatusEnabled
            · by_cases hexp : r.expiredTime ≠ 0 ∧ r.expiredTime < a.now
              · simp only [henabled, hexp, ne_eq, not_true_eq_false, if_false,
                  not_false_eq_true, and_self, if_true]
                exact .abort
              · simp only [henabled, hexp, ne_eq, not_true_eq_false, if_false]
                exact .select r hstate hread henabled
            · simp only [ne_eq, henabled, not_false_eq_true, if_true]
              exact .abort
  | selected r =>
    cases hfails : a.fails with
    | true => exact .abort
    | false =>
      simp only [Bool.false_eq_true, if_false]
      split
      · exact .addQuota r hstate
      · exact .stay
  | credited r =>
    cases hfails : a.fails with
    | true => exact .abort
    | false =>
      simp only [Bool.false_eq_true, if_false]
      split
      · rename_i hfree
        exact .save r hstate hfree
      · exact .stay
  | saved r =>
    cases hfails : a.fails with
    | true => exact .abort
    | false => exact .commit r hstate hfails
  | done result => exact .stay

/-! ### The invariant -/

/-- The credits made with a key. -/
def creditsWith (k : String) (s : RedeemSystem ι) : List (ι × String) :=
  s.credits.filter fun c => c.2 = k

/-- What holds of the tables and the calls in every run in which what is read still holds when it
is committed. -/
structure RedeemInv (calls : ι → RedeemCall) (s : RedeemSystem ι) : Prop where
  /-- A call goes on only with a code it has read as enabled. -/
  enabled : ∀ i r, (s.state i).read = some r → r.status = redemptionCodeStatusEnabled
  /-- A call that has written its code has the row, and has written it as used. -/
  written : ∀ i r, s.state i = .saved r → ∃ r',
    s.codes.pending (calls i).key = some (i, some r') ∧ r'.status = redemptionCodeStatusUsed
  /-- Only such calls have rows. -/
  owned : ∀ k i v, s.codes.pending k = some (i, v) → k = (calls i).key ∧ ∃ r, s.state i = .saved r
  /-- A code is credited once, and is then no longer enabled. -/
  once : ∀ k, (creditsWith k s).length ≤ 1 ∧
    (creditsWith k s ≠ [] → ∀ r ∈ s.codes.committed k, r.status ≠ redemptionCodeStatusEnabled)

/-- A call in a state that the call `i` has just left for another is a call other than `i`. -/
theorem state_of_update (P : RedeemState → Prop) {i j : ι} {st : RedeemState} (hst : ¬ P st)
    (h : P (Function.update s.state i st j)) : j ≠ i ∧ P (s.state j) := by
  by_cases hj : j = i
  · rw [hj, Function.update_self] at h
    exact absurd h hst
  · rw [Function.update_of_ne hj] at h
    exact ⟨hj, h⟩

theorem saved_update_of_ne {i j : ι} {st : RedeemState} (hj : j ≠ i)
    (h : ∃ r, s.state j = .saved r) : ∃ r, Function.update s.state i st j = .saved r := by
  obtain ⟨r, hr⟩ := h
  exact ⟨r, by rw [Function.update_of_ne hj, hr]⟩

/-- The state of one call changes, and it has not written its code before or after. -/
theorem RedeemInv.of_update {s' : RedeemSystem ι} {i : ι} {st : RedeemState}
    (h : RedeemInv calls s) (hcodes : s'.codes = s.codes) (hcredits : s'.credits = s.credits)
    (hstate : s'.state = Function.update s.state i st) (hbefore : ∀ r, s.state i ≠ .saved r)
    (hread : ∀ r, st.read = some r → r.status = redemptionCodeStatusEnabled)
    (hafter : ∀ r, st ≠ .saved r) : RedeemInv calls s' := by
  refine ⟨?_, ?_, ?_, ?_⟩
  · intro j r hr
    rw [hstate] at hr
    by_cases hj : j = i
    · rw [hj, Function.update_self] at hr
      exact hread r hr
    · rw [Function.update_of_ne hj] at hr
      exact h.enabled j r hr
  · intro j r hr
    rw [hstate] at hr
    rw [hcodes]
    exact h.written j r (state_of_update (· = .saved r) (hafter r) hr).2
  · intro k j v hp
    rw [hcodes] at hp
    obtain ⟨hk, r, hr⟩ := h.owned k j v hp
    have hj : j ≠ i := by
      rintro rfl
      exact hbefore r hr
    rw [hstate]
    exact ⟨hk, saved_update_of_ne hj ⟨r, hr⟩⟩
  · intro k
    rw [creditsWith, hcredits, hcodes]
    exact h.once k

/-- The transaction of the call `i` ends, whatever it does to the codes it has not written. -/
theorem RedeemInv.of_end {s' : RedeemSystem ι} {i : ι} {result : Except String ℤ}
    (h : RedeemInv calls s) (hpending : s'.codes.pending = (s.codes.commit i).pending)
    (hstate : s'.state = Function.update s.state i (.done result))
    (honce : ∀ k, (creditsWith k s').length ≤ 1 ∧ (creditsWith k s' ≠ [] →
      ∀ r ∈ s'.codes.committed k, r.status ≠ redemptionCodeStatusEnabled)) :
    RedeemInv calls s' := by
  refine ⟨?_, ?_, ?_, honce⟩
  · intro j r hr
    rw [hstate] at hr
    have hdone : ¬ (RedeemState.done result).read = some r := by
      intro hr
      cases hr
    exact h.enabled j r (state_of_update (·.read = some r) hdone hr).2
  · intro j r hr
    rw [hstate] at hr
    have hdone : ¬ RedeemState.done result = .saved r := by
      intro hr
      cases hr
    obtain ⟨hj, hr⟩ := state_of_update (· = .saved r) hdone hr
    obtain ⟨r', hp, hused⟩ := h.written j r hr
    rw [hpending]
    exact ⟨r', Database.pending_commit_eq_some.2 ⟨hp, hj⟩, hused⟩
  · intro k j v hp
    rw [hpending] at hp
    obtain ⟨hp, hj⟩ := Database.pending_commit_eq_some.1 hp
    obtain ⟨hk, hsaved⟩ := h.owned k j v hp
    rw [hstate]
    exact ⟨hk, saved_update_of_ne hj hsaved⟩

theorem RedeemInv.abort (h : RedeemInv calls s) (i : ι) : RedeemInv calls (s.abort i) :=
  h.of_end rfl rfl h.once

theorem RedeemInv.save (h : RedeemInv calls s) {i : ι} {r : Redemption} (now : ℤ)
    (hstate : s.state i = .credited r) (hfree : s.codes.Free i (calls i).key) :
    RedeemInv calls (s.save calls i now r) := by
  have hafter : (s.save calls i now r).state = Function.update s.state i (.saved r) := rfl
  have hcodes : (s.save calls i now r).codes = s.codes.write i (calls i).key fun _ =>
      some (r.use (calls i).userId now) := rfl
  refine ⟨?_, ?_, ?_, h.once⟩
  · intro j r' hr
    rw [hafter] at hr
    by_cases hj : j = i
    · rw [hj, Function.update_self] at hr
      obtain rfl : r = r' := Option.some.inj hr
      exact h.enabled i r (by rw [hstate]; rfl)
    · rw [Function.update_of_ne hj] at hr
      exact h.enabled j r' hr
  · intro j r' hr
    rw [hafter] at hr
    rw [hcodes]
    by_cases hj : j = i
    · subst hj
      exact ⟨r.use (calls j).userId now, Database.pending_write_self .., rfl⟩
    · rw [Function.update_of_ne hj] at hr
      obtain ⟨r₁, hp, hused⟩ := h.written j r' hr
      have hk : (calls j).key ≠ (calls i).key := by
        -- the row of that key was free for `i`, so `j` does not have it
        intro hk
        rw [hk] at hp
        exact hj (hfree _ hp)
      exact ⟨r₁, (Database.pending_write_of_ne _ _ hk).trans hp, hused⟩
  · intro k j v hp
    rw [hcodes] at hp
    by_cases hk : k = (calls i).key
    · rw [hk, Database.pending_write_self] at hp
      cases hp
      exact ⟨hk, r, by rw [hafter, Function.update_self]⟩
    · rw [Database.pending_write_of_ne _ _ hk] at hp
      obtain ⟨hkj, hsaved⟩ := h.owned k j v hp
      have hj : j ≠ i := by
        rintro rfl
        exact hk hkj
      rw [hafter]
      exact ⟨hkj, saved_update_of_ne hj hsaved⟩

/-- A commit changes no code but the one of its call. -/
theorem RedeemInv.view_of_ne (h : RedeemInv calls s) {i : ι} {k : String}
    (hk : k ≠ (calls i).key) : s.codes.view i k = s.codes.committed k := by
  cases hp : s.codes.pending k with
  | none => exact Database.view_of_none hp
  | some p =>
    obtain ⟨j, v⟩ := p
    refine Database.view_of_other hp ?_
    rintro rfl
    exact hk (h.owned k j v hp).1

theorem creditsWith_commit_of_ne {i : ι} {k : String} (r : Redemption)
    (hk : k ≠ (calls i).key) : creditsWith k (s.commit calls i r) = creditsWith k s := by
  simp only [creditsWith, RedeemSystem.commit]
  split
  · rw [List.filter_append]
    simp [Ne.symm hk]
  · rfl

theorem creditsWith_commit_le (i : ι) (r : Redemption) (k : String) :
    (creditsWith k (s.commit calls i r)).length ≤ (creditsWith k s).length + 1 := by
  simp only [creditsWith, RedeemSystem.commit]
  split
  · rw [List.filter_append, List.length_append]
    exact Nat.add_le_add_left (List.length_filter_le _ _) _
  · exact Nat.le_succ _

/-- A commit publishes the code as used, and the code was still enabled before it. -/
theorem RedeemInv.commit (h : RedeemInv calls s) {i : ι} {r : Redemption}
    (hstate : s.state i = .saved r)
    (hholds : s.codes.committed (calls i).key = some r) :
    RedeemInv calls (s.commit calls i r) := by
  refine h.of_end rfl rfl fun k => ?_
  by_cases hk : k = (calls i).key
  · subst hk
    have hnone : creditsWith (calls i).key s = [] := by
      by_contra hne
      refine (h.once (calls i).key).2 hne r hholds ?_
      exact h.enabled i r (by rw [hstate]; rfl)
    have hle : (creditsWith (calls i).key (s.commit calls i r)).length ≤
        (creditsWith (calls i).key s).length + 1 := creditsWith_commit_le i r _
    rw [hnone] at hle
    refine ⟨hle, fun _ r₁ hr₁ => ?_⟩
    obtain ⟨r', hown, hused⟩ := h.written i r hstate
    have hself : (s.commit calls i r).codes.committed (calls i).key = some r' :=
      Database.view_of_own hown
    rw [hself] at hr₁
    obtain rfl : r' = r₁ := Option.some.inj hr₁
    rw [hused]
    decide
  · have hother : (s.commit calls i r).codes.committed k = s.codes.committed k := h.view_of_ne hk
    rw [creditsWith_commit_of_ne r hk, hother]
    exact h.once k

/-! ### Runs -/

/-- What a call has read still holds when it commits: the committed code is the one it read. -/
def RedeemAction.ReadHolds (calls : ι → RedeemCall) (s : RedeemSystem ι) (a : RedeemAction ι) :
    Prop :=
  match s.state a.caller with
  | .saved r => a.fails = false → s.codes.committed (calls a.caller).key = some r
  | _ => True

instance (calls : ι → RedeemCall) (s : RedeemSystem ι) (a : RedeemAction ι) :
    Decidable (a.ReadHolds calls s) := by
  unfold RedeemAction.ReadHolds
  split <;> infer_instance

theorem RedeemInv.step (h : RedeemInv calls s) {a : RedeemAction ι} (ha : a.ReadHolds calls s) :
    RedeemInv calls (redeemStep calls s a) := by
  generalize hs' : redeemStep calls s a = s'
  have hmove : RedeemMove calls s a s' := hs' ▸ redeemStep_move a
  cases hmove with
  | stay => exact h
  | refuse result hstate =>
    refine h.of_update rfl rfl rfl ?_ ?_ ?_
    · intro r hr
      rw [hstate] at hr
      cases hr
    · intro r hr
      cases hr
    · intro r hr
      cases hr
  | abort => exact h.abort a.caller
  | select r hstate hread henabled =>
    refine h.of_update rfl rfl rfl ?_ ?_ ?_
    · intro r' hr
      rw [hstate] at hr
      cases hr
    · intro r' hr
      cases hr
      exact henabled
    · intro r' hr
      cases hr
  | addQuota r hstate =>
    refine h.of_update rfl rfl rfl ?_ ?_ ?_
    · intro r' hr
      rw [hstate] at hr
      cases hr
    · intro r' hr
      cases hr
      exact h.enabled a.caller r (by rw [hstate]; rfl)
    · intro r' hr
      cases hr
  | save r hstate hfree => exact h.save a.now hstate hfree
  | commit r hstate hfails =>
    rw [RedeemAction.ReadHolds, hstate] at ha
    exact h.commit hstate (ha hfails)

omit [DecidableEq ι] in
theorem redeemInv_start (users : ℤ → Option ℤ) (codes : String → Option Redemption) :
    RedeemInv calls (RedeemSystem.start users codes) where
  enabled i r h := by cases h
  written i r h := by cases h
  owned k i v h := by cases h
  once k := ⟨Nat.zero_le 1, fun h => absurd rfl h⟩

/-- **A code is credited at most once**, for any calls and any order of their statements, in every
run in which what a call has read still holds when it commits. -/
theorem redeem_at_most_once (calls : ι → RedeemCall) (users : ℤ → Option ℤ)
    (codes : String → Option Redemption) (actions : List (RedeemAction ι))
    (hholds : Transition.Along (redeemStep calls) (fun s a => a.ReadHolds calls s)
      (.start users codes) actions) (k : String) :
    (creditsWith k (Transition.run (redeemStep calls) (.start users codes) actions)).length ≤ 1 := by
  have hstep : ∀ (s : RedeemSystem ι) (a : RedeemAction ι), RedeemInv calls s →
      a.ReadHolds calls s → RedeemInv calls (redeemStep calls s a) := by
    intro s a hs ha
    exact hs.step ha
  exact ((Transition.run_invariant hstep (redeemInv_start users codes) hholds).once k).1

end Once

/-- Two users redeem one code. -/
def twoRedeemCalls : Bool → RedeemCall
  | false => ⟨"6d7f", 1⟩
  | true => ⟨"6d7f", 2⟩

/-- Two users without quota and a code that is worth 100. -/
def oneCode : RedeemSystem Bool :=
  .start (fun id => if id = 1 ∨ id = 2 then some 0 else none)
    fun key => if key = "6d7f" then some ⟨redemptionCodeStatusEnabled, 100, 0, 0, 0⟩ else none

/-- The next statements of these calls, none of which fails. -/
def statements (callers : List Bool) : List (RedeemAction Bool) :=
  callers.map fun i => ⟨i, 10, false⟩

/-- The second call reads the code after the first has committed, and is too late. -/
theorem redeem_at_most_once_late :
    (creditsWith "6d7f" (Transition.run (redeemStep twoRedeemCalls) oneCode
      (statements [false, false, false, false, true, true, true]))).length ≤ 1 :=
  redeem_at_most_once twoRedeemCalls _ _ _ (by decide) "6d7f"

/-- **A code is redeemed twice** when both calls have read it before one of them commits. -/
theorem redeem_twice :
    let s := Transition.run (redeemStep twoRedeemCalls) oneCode
      (statements [false, true, false, false, false, true, true, true])
    (creditsWith "6d7f" s).length = 2 ∧ s.users.committed 1 = some 100 ∧
      s.users.committed 2 = some 100 := by
  decide

/-! ### Reads that wait -/

section Alone

variable {ι : Type*} [DecidableEq ι] {calls : ι → RedeemCall} {s : RedeemSystem ι}

/-- A call reads its code only while no other call is at that code, as it would if the read took
the lock of the row. -/
def RedeemAction.Alone (calls : ι → RedeemCall) (s : RedeemSystem ι) (a : RedeemAction ι) : Prop :=
  s.state a.caller = .start → ∀ j, j ≠ a.caller → (calls j).key = (calls a.caller).key →
    (s.state j).read = none

deriving instance DecidableEq for RedeemState

instance [Fintype ι] (a : RedeemAction ι) : Decidable (a.Alone calls s) :=
  inferInstanceAs (Decidable (s.state a.caller = .start → _))

/-- One call at a time is at a code, and what it has read is still there. -/
structure Exclusive (calls : ι → RedeemCall) (s : RedeemSystem ι) : Prop where
  current : ∀ i r, (s.state i).read = some r → s.codes.committed (calls i).key = some r
  single : ∀ i j, i ≠ j → (calls i).key = (calls j).key → (s.state i).read = none ∨
    (s.state j).read = none

/-- A call that is alone at its code, if it is at it, takes a step that publishes nothing. -/
theorem Exclusive.of_update {s' : RedeemSystem ι} {i : ι} {st : RedeemState}
    (h : Exclusive calls s) (hcodes : s'.codes.committed = s.codes.committed)
    (hstate : s'.state = Function.update s.state i st)
    (hread : ∀ r, st.read = some r → s.codes.committed (calls i).key = some r ∧
      ∀ j, j ≠ i → (calls j).key = (calls i).key → (s.state j).read = none) :
    Exclusive calls s' := by
  have hsingle : ∀ j, j ≠ i → (calls j).key = (calls i).key →
      st.read = none ∨ (s.state j).read = none := by
    intro j hj hk
    cases hst : st.read with
    | none => exact Or.inl rfl
    | some r => exact Or.inr ((hread r hst).2 j hj hk)
  refine ⟨?_, ?_⟩
  · intro j r hr
    rw [hstate] at hr
    rw [hcodes]
    by_cases hj : j = i
    · rw [hj, Function.update_self] at hr
      rw [hj]
      exact (hread r hr).1
    · rw [Function.update_of_ne hj] at hr
      exact h.current j r hr
  · intro j j' hne hk
    rw [hstate]
    by_cases hj : j = i
    · subst hj
      rw [Function.update_self, Function.update_of_ne hne.symm]
      exact hsingle j' hne.symm hk.symm
    · rw [Function.update_of_ne hj]
      by_cases hj' : j' = i
      · subst hj'
        rw [Function.update_self]
        exact (hsingle j hj hk).symm
      · rw [Function.update_of_ne hj']
        exact h.single j j' hne hk

omit [DecidableEq ι] in
/-- What a call at its code may assume of the others. -/
theorem Exclusive.others (h : Exclusive calls s) {i : ι} {r : Redemption}
    (hread : (s.state i).read = some r) {j : ι} (hj : j ≠ i)
    (hk : (calls j).key = (calls i).key) : (s.state j).read = none := by
  rcases h.single i j hj.symm hk.symm with hnone | hnone
  · rw [hread] at hnone
    cases hnone
  · exact hnone

theorem Exclusive.step (h : Exclusive calls s) (hinv : RedeemInv calls s) {a : RedeemAction ι}
    (ha : a.Alone calls s) : Exclusive calls (redeemStep calls s a) := by
  generalize hs' : redeemStep calls s a = s'
  have hmove : RedeemMove calls s a s' := hs' ▸ redeemStep_move a
  cases hmove with
  | stay => exact h
  | refuse result hstate => exact h.of_update rfl rfl fun r hr => by cases hr
  | abort => exact h.of_update rfl rfl fun r hr => by cases hr
  | select r hstate hread henabled =>
    refine h.of_update rfl rfl fun r' hr' => ?_
    obtain rfl : r = r' := Option.some.inj hr'
    refine ⟨?_, fun j hj hk => ha hstate j hj hk⟩
    -- a call that has just begun has written nothing, so it reads what is committed
    cases hp : s.codes.pending (calls a.caller).key with
    | none => rwa [Database.view_of_none hp] at hread
    | some p =>
      obtain ⟨j, v⟩ := p
      have hj : j ≠ a.caller := by
        rintro rfl
        obtain ⟨-, r₁, hr₁⟩ := hinv.owned _ _ v hp
        rw [hstate] at hr₁
        cases hr₁
      rwa [Database.view_of_other hp hj] at hread
  | addQuota r hstate | save r hstate hfree =>
    have hat : (s.state a.caller).read = some r := by rw [hstate]; rfl
    refine h.of_update rfl rfl fun r' hr' => ?_
    obtain rfl : r = r' := Option.some.inj hr'
    exact ⟨h.current a.caller r hat, fun j hj hk => h.others hat hj hk⟩
  | commit r hstate hfails =>
    have hat : (s.state a.caller).read = some r := by rw [hstate]; rfl
    have hquiet : Exclusive calls (s.goTo a.caller (.done (.ok r.quota))) :=
      h.of_update rfl rfl fun r' hr' => by cases hr'
    refine ⟨fun j r' hr' => ?_, hquiet.single⟩
    have hdone : ¬ (RedeemState.done (.ok r.quota)).read = some r' := by
      intro hr
      cases hr
    obtain ⟨hj, hread⟩ := state_of_update (·.read = some r') hdone hr'
    have hk : (calls j).key ≠ (calls a.caller).key := by
      intro hk
      rw [h.others hat hj hk] at hread
      cases hread
    exact (hinv.view_of_ne hk).trans (h.current j r' hread)

/-- **The lock the read asks for would be enough**: if a call reads a code only while no other
call is at it, what it has read holds when it commits. -/
theorem readHolds_of_alone (calls : ι → RedeemCall) (users : ℤ → Option ℤ)
    (codes : String → Option Redemption) (actions : List (RedeemAction ι))
    (halone : Transition.Along (redeemStep calls) (fun s a => a.Alone calls s)
      (.start users codes) actions) :
    Transition.Along (redeemStep calls) (fun s a => a.ReadHolds calls s)
      (.start users codes) actions := by
  have hholds : ∀ (s : RedeemSystem ι) (a : RedeemAction ι),
      RedeemInv calls s ∧ Exclusive calls s → a.Alone calls s → a.ReadHolds calls s := by
    intro s a hs _
    cases hstate : s.state a.caller with
    | saved r =>
      rw [RedeemAction.ReadHolds, hstate]
      intro _
      exact hs.2.current a.caller r (by rw [hstate]; rfl)
    | _ =>
      rw [RedeemAction.ReadHolds, hstate]
      trivial
  have hstep : ∀ (s : RedeemSystem ι) (a : RedeemAction ι),
      RedeemInv calls s ∧ Exclusive calls s → a.Alone calls s →
      RedeemInv calls (redeemStep calls s a) ∧ Exclusive calls (redeemStep calls s a) := by
    intro s a hs ha
    exact ⟨hs.1.step (hholds s a hs ha), hs.2.step hs.1 ha⟩
  refine Transition.along_of_invariant hstep hholds ⟨redeemInv_start users codes, ?_⟩ halone
  refine ⟨?_, fun i j _ _ => Or.inl rfl⟩
  intro i r hr
  cases hr

end Alone

/-- The second call begins after the first has committed. -/
theorem readHolds_of_alone_late :
    Transition.Along (redeemStep twoRedeemCalls) (fun s a => a.ReadHolds twoRedeemCalls s) oneCode
      (statements [false, false, false, false, true, true, true]) :=
  readHolds_of_alone twoRedeemCalls _ _ _ (by decide)

end NewApi

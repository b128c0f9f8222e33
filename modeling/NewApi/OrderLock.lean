/-
**The lock of an order.**

The notifications of the payment providers and the administrator complete an order only while they
have its lock.  There is a mutex for each trade number somebody is interested in, in a map, with a
count of those who are: `LockOrder` finds or makes the mutex and counts itself in while it has
`createLock`, and then waits for the mutex without it; `UnlockOrder` gives the mutex up, counts
itself out while it has `createLock`, and the last one out removes the mutex from the map.  Each
access to a lock, the map or a count is a step of its own here, and the threads take their steps in
any order.

Main definitions:

* `NewApi.OrderOp` — how far a thread has come in a call;
* `NewApi.OrderLocks`, `NewApi.orderStep` — the map, the mutexes and the threads, and one step;
* `NewApi.OrderLocks.Uses` — a thread holds a mutex, waits for it or gives it up.

Main results:

* `NewApi.orderLock_exclusive` — **the lock of an order is had by one thread at a time, and its
  mutex is in the map as long as somebody needs it and no longer**.
-/

import Mathlib.Data.Int.Notation
import Mathlib.Logic.Function.Basic
import NewApi.Lib.Transition

set_option autoImplicit false

namespace NewApi

/-! ### Mutexes, calls and threads -/

/-- A mutex with a count of those who use it.  The thread that has locked it is remembered; the
program keeps only that it is locked. -/
structure RefCountedMutex (θ : Type*) where
  mu : Option θ
  refCount : ℤ
deriving DecidableEq, Repr

/-- How far a thread has come in a call of `LockOrder` or `UnlockOrder`.  Mutexes are known by their
addresses, and a thread has the address of one from the time it has read it from the map. -/
inductive OrderOp where
  | idle
  | lockCalled (tradeNo : String)
  | lockEntered (tradeNo : String)
  | lockLoaded (tradeNo : String) (rcm : Option ℕ)
  | lockFound (tradeNo : String) (rcm : ℕ)
  | lockCounted (tradeNo : String) (rcm : ℕ)
  | lockWaiting (tradeNo : String) (rcm : ℕ)
  | unlockCalled (tradeNo : String)
  | unlockLoaded (tradeNo : String) (rcm : ℕ)
  | unlockReleased (tradeNo : String) (rcm : ℕ)
  | unlockEntered (tradeNo : String) (rcm : ℕ)
  | unlockCounted (tradeNo : String) (rcm : ℕ)
  | unlockEmpty (tradeNo : String) (rcm : ℕ)
  | unlockLeaving (tradeNo : String)
deriving DecidableEq, Repr

/-- The map, the mutexes, of which those from `fresh` on have not been made yet, and the threads.
`held` are the mutexes a thread has locked for trade numbers and not unlocked since. -/
structure OrderLocks (θ : Type*) where
  orderLocks : String → Option ℕ
  mutexes : ℕ → RefCountedMutex θ
  fresh : ℕ
  createLock : Option θ
  op : θ → OrderOp
  held : θ → String → Option ℕ

/-- A thread calls `LockOrder`, calls `UnlockOrder`, or takes the next step of its call. -/
inductive OrderAction (θ : Type*) where
  | lockOrder (thread : θ) (tradeNo : String)
  | unlockOrder (thread : θ) (tradeNo : String)
  | next (thread : θ)
deriving DecidableEq, Repr

section Step

variable {θ : Type*} [DecidableEq θ]

namespace OrderLocks

def goTo (i : θ) (op : OrderOp) (s : OrderLocks θ) : OrderLocks θ :=
  { s with op := Function.update s.op i op }

def setCreateLock (who : Option θ) (s : OrderLocks θ) : OrderLocks θ :=
  { s with createLock := who }

def setMutex (rcm : ℕ) (m : RefCountedMutex θ) (s : OrderLocks θ) : OrderLocks θ :=
  { s with mutexes := Function.update s.mutexes rcm m }

def setEntry (tradeNo : String) (rcm : Option ℕ) (s : OrderLocks θ) : OrderLocks θ :=
  { s with orderLocks := Function.update s.orderLocks tradeNo rcm }

def setHeld (i : θ) (tradeNo : String) (rcm : Option ℕ) (s : OrderLocks θ) : OrderLocks θ :=
  { s with held := Function.update s.held i (Function.update (s.held i) tradeNo rcm) }

/-- A new mutex is made and put into the map. -/
def store (tradeNo : String) (s : OrderLocks θ) : OrderLocks θ :=
  { s.setEntry tradeNo (some s.fresh) with
    mutexes := Function.update s.mutexes s.fresh ⟨none, 0⟩
    fresh := s.fresh + 1 }

/-- The count of a mutex changes. -/
def count (rcm : ℕ) (change : ℤ) (s : OrderLocks θ) : OrderLocks θ :=
  s.setMutex rcm { s.mutexes rcm with refCount := (s.mutexes rcm).refCount + change }

/-- A mutex is locked by a thread, or unlocked. -/
def setMu (rcm : ℕ) (who : Option θ) (s : OrderLocks θ) : OrderLocks θ :=
  s.setMutex rcm { s.mutexes rcm with mu := who }

end OrderLocks

/-- The next step of the call a thread is in.  A thread waits while somebody else has the lock it
asks for. -/
def orderNext (s : OrderLocks θ) (i : θ) : OrderLocks θ :=
  match s.op i with
  | .idle => s
  | .lockCalled t =>
    if s.createLock = none then (s.setCreateLock (some i)).goTo i (.lockEntered t) else s
  | .lockEntered t => s.goTo i (.lockLoaded t (s.orderLocks t))
  | .lockLoaded t (some rcm) => s.goTo i (.lockFound t rcm)
  | .lockLoaded t none => (s.store t).goTo i (.lockFound t s.fresh)
  | .lockFound t rcm => (s.count rcm 1).goTo i (.lockCounted t rcm)
  | .lockCounted t rcm => (s.setCreateLock none).goTo i (.lockWaiting t rcm)
  | .lockWaiting t rcm =>
    if (s.mutexes rcm).mu = none then
      ((s.setMu rcm (some i)).setHeld i t (some rcm)).goTo i .idle
    else s
  | .unlockCalled t =>
    match s.orderLocks t with
    | none => s.goTo i .idle
    | some rcm => s.goTo i (.unlockLoaded t rcm)
  | .unlockLoaded t rcm =>
    ((s.setMu rcm none).setHeld i t none).goTo i (.unlockReleased t rcm)
  | .unlockReleased t rcm =>
    if s.createLock = none then (s.setCreateLock (some i)).goTo i (.unlockEntered t rcm) else s
  | .unlockEntered t rcm => (s.count rcm (-1)).goTo i (.unlockCounted t rcm)
  | .unlockCounted t rcm =>
    if (s.mutexes rcm).refCount = 0 then s.goTo i (.unlockEmpty t rcm)
    else s.goTo i (.unlockLeaving t)
  | .unlockEmpty t _ => (s.setEntry t none).goTo i (.unlockLeaving t)
  | .unlockLeaving _ => (s.setCreateLock none).goTo i .idle

/-- A thread makes one call at a time, and calls `UnlockOrder` only for an order whose lock it
has. -/
def orderStep (s : OrderLocks θ) : OrderAction θ → OrderLocks θ
  | .lockOrder i t => if s.op i = .idle then s.goTo i (.lockCalled t) else s
  | .unlockOrder i t =>
    if s.op i = .idle ∧ s.held i t ≠ none then s.goTo i (.unlockCalled t) else s
  | .next i => orderNext s i

/-- No order is locked and no thread has called. -/
def OrderLocks.start (θ : Type*) : OrderLocks θ where
  orderLocks _ := none
  mutexes _ := ⟨none, 0⟩
  fresh := 0
  createLock := none
  op _ := .idle
  held _ _ := none

end Step

/-! ### What a thread has and uses -/

/-- The trade number a thread's call is about. -/
def OrderOp.tradeNo : OrderOp → Option String
  | .idle => none
  | .lockCalled t | .lockEntered t | .lockLoaded t _ | .lockFound t _ | .lockCounted t _
  | .lockWaiting t _ | .unlockCalled t | .unlockLoaded t _ | .unlockReleased t _
  | .unlockEntered t _ | .unlockCounted t _ | .unlockEmpty t _ | .unlockLeaving t => some t

/-- The mutex a thread's call has at hand. -/
def OrderOp.mutex : OrderOp → Option ℕ
  | .lockLoaded _ rcm => rcm
  | .lockFound _ rcm | .lockCounted _ rcm | .lockWaiting _ rcm | .unlockLoaded _ rcm
  | .unlockReleased _ rcm | .unlockEntered _ rcm | .unlockCounted _ rcm | .unlockEmpty _ rcm =>
    some rcm
  | .idle | .lockCalled _ | .lockEntered _ | .unlockCalled _ | .unlockLeaving _ => none

/-- A thread in one of these steps has `createLock`. -/
def OrderOp.InCreate : OrderOp → Bool
  | .lockEntered _ | .lockLoaded _ _ | .lockFound _ _ | .lockCounted _ _ | .unlockEntered _ _
  | .unlockCounted _ _ | .unlockEmpty _ _ | .unlockLeaving _ => true
  | .idle | .lockCalled _ | .lockWaiting _ _ | .unlockCalled _ | .unlockLoaded _ _
  | .unlockReleased _ _ => false

/-- A thread in one of these steps has counted itself in, or has not counted itself out, without
having the mutex. -/
def OrderOp.Counted : OrderOp → Bool
  | .lockCounted _ _ | .lockWaiting _ _ | .unlockReleased _ _ | .unlockEntered _ _ => true
  | .idle | .lockCalled _ | .lockEntered _ | .lockLoaded _ _ | .lockFound _ _ | .unlockCalled _
  | .unlockLoaded _ _ | .unlockCounted _ _ | .unlockEmpty _ _ | .unlockLeaving _ => false

/-- A thread in one of these steps will see to it that a mutex nobody uses goes. -/
def OrderOp.Cleans : OrderOp → Bool
  | .lockFound _ _ | .unlockCounted _ _ | .unlockEmpty _ _ => true
  | _ => false

section Invariant

variable {θ : Type*} [DecidableEq θ] {s : OrderLocks θ} {users : String → List θ}

/-- How often a thread counts for an order: once for the mutex it has, and once for its call. -/
def OrderLocks.uses (s : OrderLocks θ) (i : θ) (op : OrderOp) (t : String) : ℕ :=
  (if s.held i t = none then 0 else 1) + if op.Counted ∧ op.tradeNo = some t then 1 else 0

theorem uses_setHeld (i : θ) (t t' : String) (r : ℕ) (who : Option θ) (v : Option ℕ)
    (op op' : OrderOp) : (((s.setMu r who).setHeld i t v).goTo i op').uses i op t' =
      (if (if t' = t then v else s.held i t') = none then 0 else 1) +
        if op.Counted ∧ op.tradeNo = some t' then 1 else 0 := by
  simp [OrderLocks.uses, OrderLocks.goTo, OrderLocks.setHeld, OrderLocks.setMu,
    OrderLocks.setMutex, Function.update_apply]

/-- What a thread has found out about an order and relies on. -/
def OrderOp.Relies (s : OrderLocks θ) (users : String → List θ) (i : θ) : OrderOp → Prop
  | .lockLoaded t none => s.orderLocks t = none
  | .unlockCalled t => s.held i t ≠ none
  | .unlockLoaded t rcm => s.held i t = some rcm
  | .unlockEmpty t _ => users t = []
  | _ => True

/-- What holds of a thread in a step of its call.  `users` are the threads that have counted
themselves in for an order and not out again. -/
structure OrderOp.Fits (s : OrderLocks θ) (users : String → List θ) (i : θ) (op : OrderOp) :
    Prop where
  create : op.InCreate → s.createLock = some i
  mutex : ∀ t r, op.tradeNo = some t → op.mutex = some r → s.orderLocks t = some r
  relies : op.Relies s users i
  counted : ∀ t, (users t).count i = s.uses i op t

/-- What holds at every moment. -/
structure OrderInv (s : OrderLocks θ) (users : String → List θ) : Prop where
  threads : ∀ i, (s.op i).Fits s users i
  /-- The mutex a thread has is the one in the map. -/
  held : ∀ i t r, s.held i t = some r → s.orderLocks t = some r ∧ (s.mutexes r).mu = some i
  /-- The count of a mutex is the number of its users. -/
  count : ∀ t r, s.orderLocks t = some r → (s.mutexes r).refCount = (users t).length
  absent : ∀ t, s.orderLocks t = none → users t = []
  /-- A mutex without users is about to be used, or to go. -/
  needed : ∀ t r, s.orderLocks t = some r → users t = [] →
    ∃ i, (s.op i).tradeNo = some t ∧ (s.op i).Cleans
  made : ∀ t r, s.orderLocks t = some r → r < s.fresh
  distinct : ∀ t t' r, s.orderLocks t = some r → s.orderLocks t' = some r → t = t'

theorem orderInv_start : OrderInv (.start θ) fun _ => [] where
  threads i := by
    refine ⟨?_, ?_, trivial, fun _ => rfl⟩
    · intro hin
      cases hin
    · intro t r ht
      cases ht
  held i t r h := by cases h
  count t r h := by cases h
  absent t _ := rfl
  needed t r h := by cases h
  made t r h := by cases h
  distinct t t' r h := by cases h

/-- What holds of a thread while others take a step: it does not have `createLock`, or nothing
changes that is only changed with it. -/
theorem OrderOp.Fits.frame {s' : OrderLocks θ} {users' : String → List θ} {i : θ} {op : OrderOp}
    (h : op.Fits s users i)
    (hcreate : op.InCreate → s'.createLock = s.createLock ∧ s'.orderLocks = s.orderLocks ∧
      users' = users)
    (hmutex : ∀ t r, op.tradeNo = some t → op.mutex = some r → s.orderLocks t = some r →
      s'.orderLocks t = some r)
    (hheld : s'.held i = s.held i) (hcount : ∀ t, (users' t).count i = (users t).count i) :
    op.Fits s' users' i where
  create hin := (hcreate hin).1.trans (h.create hin)
  mutex t r ht hr := hmutex t r ht hr (h.mutex t r ht hr)
  relies := by
    have hrelies := h.relies
    cases op with
    | lockLoaded t rcm =>
      cases rcm with
      | none =>
        obtain ⟨_, hmap, _⟩ := hcreate rfl
        exact (congrFun hmap t).trans hrelies
      | some r => trivial
    | unlockCalled t =>
      intro hnone
      exact hrelies ((congrFun hheld t).symm.trans hnone)
    | unlockLoaded t r => exact (congrFun hheld t).trans hrelies
    | unlockEmpty t r =>
      obtain ⟨_, _, husers⟩ := hcreate rfl
      exact (congrFun husers t).trans hrelies
    | _ => trivial
  counted t := by
    rw [hcount, h.counted t]
    simp only [OrderLocks.uses, hheld]

namespace OrderInv

variable {i : θ} {op : OrderOp} {t : String} {r : ℕ}

/-- Two threads are not in `createLock` at once. -/
theorem create_unique (h : OrderInv s users) {j : θ} (hi : (s.op i).InCreate)
    (hj : (s.op j).InCreate) : j = i := by
  have hj' := (h.threads j).create hj
  rw [(h.threads i).create hi] at hj'
  exact (Option.some.inj hj').symm

/-- A thread goes on, and nothing else changes. -/
theorem goTo (h : OrderInv s users) (hop : op.Fits s users i)
    (hneeded : ∀ t, (s.op i).tradeNo = some t → (s.op i).Cleans →
      (op.tradeNo = some t ∧ op.Cleans) ∨ users t ≠ []) :
    OrderInv (s.goTo i op) users where
  threads := by
    refine (Function.forall_update_iff s.op fun j o => o.Fits (s.goTo i op) users j).2 ?_
    refine ⟨?_, fun j _ => ?_⟩
    · exact hop.frame (fun _ => ⟨rfl, rfl, rfl⟩) (fun _ _ _ _ h => h) rfl fun _ => rfl
    · exact (h.threads j).frame (fun _ => ⟨rfl, rfl, rfl⟩) (fun _ _ _ _ h => h) rfl fun _ => rfl
  held := h.held
  count := h.count
  absent := h.absent
  needed t r ht hempty := by
    obtain ⟨j, hj, hclean⟩ := h.needed t r ht hempty
    by_cases hji : j = i
    · subst hji
      rcases hneeded t hj hclean with hstill | hne
      · exact ⟨j, by simpa [OrderLocks.goTo] using hstill⟩
      · exact absurd hempty hne
    · exact ⟨j, by simpa [OrderLocks.goTo, hji] using ⟨hj, hclean⟩⟩
  made := h.made
  distinct := h.distinct

/-- A thread gets `createLock`. -/
theorem enterCreate (h : OrderInv s users) (i : θ) (hfree : s.createLock = none) :
    OrderInv (s.setCreateLock (some i)) users where
  threads j := by
    refine (h.threads j).frame (fun hin => ?_) (fun _ _ _ _ h => h) rfl fun _ => rfl
    rw [(h.threads j).create hin] at hfree
    cases hfree
  held := h.held
  count := h.count
  absent := h.absent
  needed := h.needed
  made := h.made
  distinct := h.distinct

/-- `createLock` is given up. -/
theorem leaveCreate (h : OrderInv s users) (hout : ∀ i, ¬ (s.op i).InCreate) :
    OrderInv (s.setCreateLock none) users where
  threads j :=
    (h.threads j).frame (fun hin => absurd hin (hout j)) (fun _ _ _ _ h => h) rfl fun _ => rfl
  held := h.held
  count := h.count
  absent := h.absent
  needed := h.needed
  made := h.made
  distinct := h.distinct

/-- The thread in `createLock` makes a mutex and puts it into the map. -/
theorem store (h : OrderInv s users) (hop : s.op i = .lockLoaded t none) :
    OrderInv ((s.store t).goTo i (.lockFound t s.fresh)) users := by
  have hin : (s.op i).InCreate := by rw [hop]; rfl
  have hfits := h.threads i
  rw [hop] at hfits
  have hnone : s.orderLocks t = none := hfits.relies
  have hne : ∀ t' r, s.orderLocks t' = some r → t' ≠ t := by
    rintro t' r hr rfl
    rw [hnone] at hr
    cases hr
  have hentry : ∀ t', t' ≠ t →
      ((s.store t).goTo i (.lockFound t s.fresh)).orderLocks t' = s.orderLocks t' :=
    fun t' ht' => Function.update_of_ne ht' _ _
  have hold : ∀ r, r < s.fresh →
      ((s.store t).goTo i (.lockFound t s.fresh)).mutexes r = s.mutexes r :=
    fun r hr => Function.update_of_ne (Nat.ne_of_lt hr) _ _
  have hself : ((s.store t).goTo i (.lockFound t s.fresh)).orderLocks t = some s.fresh :=
    Function.update_self ..
  constructor
  · refine (Function.forall_update_iff s.op fun j o =>
      o.Fits ((s.store t).goTo i (.lockFound t s.fresh)) users j).2 ⟨?_, fun j hj => ?_⟩
    · refine ⟨hfits.create, ?_, trivial, hfits.counted⟩
      intro t' r ht' hr
      obtain rfl : t = t' := Option.some.inj ht'
      obtain rfl : s.fresh = r := Option.some.inj hr
      exact hself
    · refine (h.threads j).frame (fun hjin => absurd (h.create_unique hin hjin) hj) ?_ rfl
        fun _ => rfl
      intro t' r _ _ hr
      rw [hentry t' (hne t' r hr), hr]
  · intro j t' r hj
    obtain ⟨hr, hmu⟩ := h.held j t' r hj
    rw [hentry t' (hne t' r hr), hold r (h.made t' r hr)]
    exact ⟨hr, hmu⟩
  · intro t' r hr
    by_cases ht : t' = t
    · subst ht
      obtain rfl : s.fresh = r := Option.some.inj (hself.symm.trans hr)
      rw [h.absent t' hnone]
      simp [OrderLocks.store, OrderLocks.goTo]
    · rw [hentry t' ht] at hr
      rw [hold r (h.made t' r hr)]
      exact h.count t' r hr
  · intro t' ht'
    refine h.absent t' ?_
    rwa [hentry] at ht'
    rintro rfl
    rw [hself] at ht'
    cases ht'
  · intro t' r hr hempty
    by_cases ht : t' = t
    · exact ⟨i, by simp [OrderLocks.goTo, OrderOp.tradeNo, OrderOp.Cleans, ht]⟩
    · rw [hentry t' ht] at hr
      obtain ⟨j, hj, hclean⟩ := h.needed t' r hr hempty
      have hji : j ≠ i := by
        rintro rfl
        rw [hop] at hclean
        cases hclean
      exact ⟨j, by simpa [OrderLocks.goTo, OrderLocks.store, OrderLocks.setEntry, hji] using
        ⟨hj, hclean⟩⟩
  · intro t' r hr
    by_cases ht : t' = t
    · subst ht
      obtain rfl : s.fresh = r := Option.some.inj (hself.symm.trans hr)
      exact Nat.lt_succ_self _
    · rw [hentry t' ht] at hr
      exact Nat.lt_succ_of_lt (h.made t' r hr)
  · intro t₁ t₂ r h₁ h₂
    by_cases ht₁ : t₁ = t
    · by_cases ht₂ : t₂ = t
      · rw [ht₁, ht₂]
      · -- the mutex is new, so it was in the map for nobody
        rw [ht₁, hself] at h₁
        rw [hentry t₂ ht₂] at h₂
        have hlt := h.made t₂ r h₂
        rw [Option.some.inj h₁] at hlt
        exact absurd hlt (Nat.lt_irrefl r)
    · by_cases ht₂ : t₂ = t
      · rw [hentry t₁ ht₁] at h₁
        rw [ht₂, hself] at h₂
        have hlt := h.made t₁ r h₁
        rw [Option.some.inj h₂] at hlt
        exact absurd hlt (Nat.lt_irrefl r)
      · rw [hentry t₁ ht₁] at h₁
        rw [hentry t₂ ht₂] at h₂
        exact h.distinct t₁ t₂ r h₁ h₂

/-- The thread in `createLock` changes the count of a mutex and counts itself in or out. -/
theorem recount (h : OrderInv s users) {l : List θ} {d : ℤ} (hin : (s.op i).InCreate)
    (ht : (s.op i).tradeNo = some t) (hentry : s.orderLocks t = some r)
    (hlength : (l.length : ℤ) = (users t).length + d)
    (hothers : ∀ j, j ≠ i → l.count j = (users t).count j)
    (hop : op.Fits s (Function.update users t l) i)
    (hneeded : l = [] → op.tradeNo = some t ∧ op.Cleans) :
    OrderInv ((s.count r d).goTo i op) (Function.update users t l) := by
  have hmu : ∀ r', (((s.count r d).goTo i op).mutexes r').mu = (s.mutexes r').mu := by
    intro r'
    by_cases hr : r' = r
    · subst hr
      simp [OrderLocks.goTo, OrderLocks.count, OrderLocks.setMutex]
    · simp [OrderLocks.goTo, OrderLocks.count, OrderLocks.setMutex, hr]
  constructor
  · refine (Function.forall_update_iff s.op fun j o =>
      o.Fits ((s.count r d).goTo i op) (Function.update users t l) j).2 ⟨?_, fun j hj => ?_⟩
    · exact hop.frame (fun _ => ⟨rfl, rfl, rfl⟩) (fun _ _ _ _ h => h) rfl fun _ => rfl
    · refine (h.threads j).frame (fun hjin => absurd (h.create_unique hin hjin) hj)
        (fun _ _ _ _ h => h) rfl fun t' => ?_
      by_cases ht' : t' = t
      · rw [ht', Function.update_self]
        exact hothers j hj
      · rw [Function.update_of_ne ht']
  · intro j t' r' hj
    obtain ⟨hr, hj'⟩ := h.held j t' r' hj
    exact ⟨hr, (hmu r').trans hj'⟩
  · intro t' r' hr
    by_cases ht' : t' = t
    · subst ht'
      obtain rfl : r = r' := Option.some.inj (hentry.symm.trans hr)
      have hcount := h.count t' r hentry
      simp [OrderLocks.goTo, OrderLocks.count, OrderLocks.setMutex, hcount, hlength]
    · have hne : r' ≠ r := by
        rintro rfl
        exact ht' (h.distinct t' t r' hr hentry)
      have hcount := h.count t' r' hr
      simp [OrderLocks.goTo, OrderLocks.count, OrderLocks.setMutex, hne, ht', hcount]
  · intro t' hnone
    have ht' : t' ≠ t := by
      rintro rfl
      rw [show s.orderLocks t' = none from hnone] at hentry
      cases hentry
    rw [Function.update_of_ne ht']
    exact h.absent t' hnone
  · intro t' r' hr hempty
    by_cases ht' : t' = t
    · subst ht'
      rw [Function.update_self] at hempty
      exact ⟨i, by simpa [OrderLocks.goTo] using hneeded hempty⟩
    · rw [Function.update_of_ne ht'] at hempty
      obtain ⟨j, hj, hclean⟩ := h.needed t' r' hr hempty
      have hji : j ≠ i := by
        rintro rfl
        exact ht' (Option.some.inj (hj.symm.trans ht))
      exact ⟨j, by simpa [OrderLocks.goTo, OrderLocks.count, OrderLocks.setMutex, hji] using
        ⟨hj, hclean⟩⟩
  · exact h.made
  · exact h.distinct

/-- A mutex is locked or unlocked by the thread that has it afterwards or had it before. -/
theorem setMu (h : OrderInv s users) {who : Option θ} {v : Option ℕ}
    (hentry : s.orderLocks t = some r) (hothers : ∀ j t', s.held j t' = some r → j = i ∧ t' = t)
    (hv : ∀ r', v = some r' → r' = r ∧ who = some i) (hclean : ¬ (s.op i).Cleans)
    (hop : op.Fits (((s.setMu r who).setHeld i t v).goTo i op) users i) :
    OrderInv (((s.setMu r who).setHeld i t v).goTo i op) users := by
  constructor
  · refine (Function.forall_update_iff s.op fun j o =>
      o.Fits (((s.setMu r who).setHeld i t v).goTo i op) users j).2 ⟨hop, fun j hj => ?_⟩
    refine (h.threads j).frame (fun _ => ⟨rfl, rfl, rfl⟩) (fun _ _ _ _ h => h) ?_ fun _ => rfl
    simp [OrderLocks.goTo, OrderLocks.setHeld, OrderLocks.setMu, OrderLocks.setMutex, hj]
  · intro j t' r' hj
    by_cases hself : j = i ∧ t' = t
    · obtain ⟨rfl, rfl⟩ := hself
      obtain ⟨rfl, rfl⟩ := hv r' (by
        simpa [OrderLocks.goTo, OrderLocks.setHeld] using hj)
      exact ⟨hentry, by simp [OrderLocks.goTo, OrderLocks.setHeld, OrderLocks.setMu,
        OrderLocks.setMutex]⟩
    · have hbefore : s.held j t' = some r' := by
        by_cases hji : j = i
        · subst hji
          have htt : t' ≠ t := fun heq => hself ⟨rfl, heq⟩
          simpa [OrderLocks.goTo, OrderLocks.setHeld, OrderLocks.setMu, OrderLocks.setMutex,
            htt] using hj
        · simpa [OrderLocks.goTo, OrderLocks.setHeld, OrderLocks.setMu, OrderLocks.setMutex,
            hji] using hj
      have hne : r' ≠ r := by
        rintro rfl
        exact hself (hothers j t' hbefore)
      obtain ⟨hr, hmu⟩ := h.held j t' r' hbefore
      exact ⟨hr, by simpa [OrderLocks.goTo, OrderLocks.setHeld, OrderLocks.setMu,
        OrderLocks.setMutex, hne] using hmu⟩
  · intro t' r' hr
    refine Eq.trans ?_ (h.count t' r' hr)
    by_cases hne : r' = r
    · simp [OrderLocks.goTo, OrderLocks.setHeld, OrderLocks.setMu, OrderLocks.setMutex, hne]
    · simp [OrderLocks.goTo, OrderLocks.setHeld, OrderLocks.setMu, OrderLocks.setMutex, hne]
  · exact h.absent
  · intro t' r' hr hempty
    obtain ⟨j, hj, hjclean⟩ := h.needed t' r' hr hempty
    have hji : j ≠ i := by
      rintro rfl
      exact hclean hjclean
    exact ⟨j, by simpa [OrderLocks.goTo, OrderLocks.setHeld, OrderLocks.setMu,
      OrderLocks.setMutex, hji] using ⟨hj, hjclean⟩⟩
  · exact h.made
  · exact h.distinct

/-- A thread that has the mutex of an order, waits for it or has just given it up is one of its
users. -/
theorem mem_users (h : OrderInv s users)
    (huse : s.held i t ≠ none ∨ (s.op i).Counted ∧ (s.op i).tradeNo = some t) : i ∈ users t := by
  rw [← List.count_pos_iff, (h.threads i).counted t, OrderLocks.uses]
  rcases huse with hheld | hcounted
  · rw [if_neg hheld]
    omega
  · rw [if_pos hcounted]
    omega

/-- A thread that has a mutex at hand without having `createLock` is one of its users. -/
theorem mem_users_of_mutex (h : OrderInv s users) (hout : ¬ (s.op i).InCreate)
    (ht : (s.op i).tradeNo = some t) (hr : (s.op i).mutex = some r) : i ∈ users t := by
  refine h.mem_users ?_
  cases hop : s.op i with
  | lockWaiting t' r' =>
    rw [hop] at ht
    exact .inr ⟨rfl, ht⟩
  | unlockReleased t' r' =>
    rw [hop] at ht
    exact .inr ⟨rfl, ht⟩
  | unlockLoaded t' r' =>
    rw [hop] at ht
    obtain rfl : t' = t := Option.some.inj ht
    have hheld : s.held i t' = some r' := by
      have hrelies := (h.threads i).relies
      rwa [hop] at hrelies
    rw [hheld]
    exact .inl (Option.some_ne_none r')
  | lockCalled t' | unlockCalled t' | idle =>
    rw [hop] at hr
    cases hr
  | _ =>
    rw [hop] at hout
    exact absurd rfl hout

/-- The thread in `createLock` removes a mutex without users from the map. -/
theorem delete (h : OrderInv s users) (hop : s.op i = .unlockEmpty t r) :
    OrderInv ((s.setEntry t none).goTo i (.unlockLeaving t)) users := by
  have hin : (s.op i).InCreate := by rw [hop]; rfl
  have hfits := h.threads i
  rw [hop] at hfits
  have hempty : users t = [] := hfits.relies
  have hentry : ∀ t', t' ≠ t →
      ((s.setEntry t none).goTo i (.unlockLeaving t)).orderLocks t' = s.orderLocks t' :=
    fun t' ht' => Function.update_of_ne ht' _ _
  have hself : ((s.setEntry t none).goTo i (.unlockLeaving t)).orderLocks t = none :=
    Function.update_self ..
  have hsome : ∀ t' r', ((s.setEntry t none).goTo i (.unlockLeaving t)).orderLocks t' = some r' →
      t' ≠ t ∧ s.orderLocks t' = some r' := by
    intro t' r' hr
    by_cases ht : t' = t
    · rw [ht, hself] at hr
      cases hr
    · exact ⟨ht, (hentry t' ht).symm.trans hr⟩
  constructor
  · refine (Function.forall_update_iff s.op fun j o =>
      o.Fits ((s.setEntry t none).goTo i (.unlockLeaving t)) users j).2 ⟨?_, fun j hj => ?_⟩
    · refine ⟨hfits.create, ?_, trivial, hfits.counted⟩
      intro t' r' _ hr
      cases hr
    · refine (h.threads j).frame (fun hjin => absurd (h.create_unique hin hjin) hj) ?_ rfl
        fun _ => rfl
      intro t' r' ht' hr' hr
      refine (hentry t' ?_).trans hr
      -- a thread that has the mutex at hand would be one of its users
      rintro rfl
      have hout : ¬ (s.op j).InCreate := fun hjin => hj (h.create_unique hin hjin)
      have hmem := h.mem_users_of_mutex hout ht' hr'
      rw [hempty] at hmem
      cases hmem
  · intro j t' r' hj
    obtain ⟨hr, hmu⟩ := h.held j t' r' hj
    refine ⟨(hentry t' ?_).trans hr, hmu⟩
    rintro rfl
    have hheld : s.held j t' ≠ none := by
      rw [show s.held j t' = some r' from hj]
      exact Option.some_ne_none r'
    have hmem := h.mem_users (.inl hheld)
    rw [hempty] at hmem
    cases hmem
  · intro t' r' hr
    exact h.count t' r' (hsome t' r' hr).2
  · intro t' hnone
    by_cases ht : t' = t
    · rw [ht, hempty]
    · exact h.absent t' ((hentry t' ht).symm.trans hnone)
  · intro t' r' hr hnone
    obtain ⟨ht, hr⟩ := hsome t' r' hr
    obtain ⟨j, hj, hclean⟩ := h.needed t' r' hr hnone
    have hji : j ≠ i := by
      rintro rfl
      rw [hop] at hj
      exact ht (Option.some.inj hj).symm
    exact ⟨j, by simpa [OrderLocks.goTo, OrderLocks.setEntry, hji] using ⟨hj, hclean⟩⟩
  · intro t' r' hr
    exact h.made t' r' (hsome t' r' hr).2
  · intro t₁ t₂ r' h₁ h₂
    exact h.distinct t₁ t₂ r' (hsome t₁ r' h₁).2 (hsome t₂ r' h₂).2

end OrderInv

/-- **Every step of a call keeps the invariant.** -/
theorem orderNext_inv (h : OrderInv s users) (i : θ) :
    ∃ users', OrderInv (orderNext s i) users' := by
  unfold orderNext
  have hfits := h.threads i
  have hout : ∀ {op : OrderOp}, (s.op i).InCreate → ¬ op.InCreate →
      ∀ j, ¬ ((s.goTo i op).op j).InCreate := by
    intro op hin hop
    refine (Function.forall_update_iff s.op fun j o => ¬ o.InCreate).2 ⟨hop, fun j hj hjin => ?_⟩
    exact hj (h.create_unique hin hjin)
  cases hop : s.op i with
  | idle => exact ⟨users, h⟩
  | lockCalled t =>
    rw [hop] at hfits
    simp only
    split
    · rename_i hfree
      refine ⟨users, (h.enterCreate i hfree).goTo ⟨fun _ => rfl, ?_, trivial, hfits.counted⟩ ?_⟩
      · intro t' r _ hr
        cases hr
      · intro t' _ hclean
        rw [show (s.setCreateLock (some i)).op i = .lockCalled t from hop] at hclean
        cases hclean
    · exact ⟨users, h⟩
  | lockEntered t =>
    rw [hop] at hfits
    refine ⟨users, h.goTo ⟨hfits.create, ?_, ?_, hfits.counted⟩ ?_⟩
    · intro t' r ht hr
      obtain rfl : t = t' := Option.some.inj ht
      exact hr
    · cases hload : s.orderLocks t with
      | none => exact hload
      | some r => trivial
    · intro t' _ hclean
      rw [hop] at hclean
      cases hclean
  | lockLoaded t rcm =>
    cases rcm with
    | none => exact ⟨users, h.store hop⟩
    | some rcm =>
      rw [hop] at hfits
      refine ⟨users, h.goTo ⟨hfits.create, hfits.mutex, trivial, hfits.counted⟩ ?_⟩
      intro t' _ hclean
      rw [hop] at hclean
      cases hclean
  | lockFound t rcm =>
    rw [hop] at hfits
    have hentry := hfits.mutex t rcm rfl rfl
    refine ⟨Function.update users t (i :: users t), h.recount ?_ ?_ hentry ?_ ?_ ?_ ?_⟩
    · rw [hop]
      rfl
    · rw [hop]
      rfl
    · simp
    · intro j hj
      simp [Ne.symm hj]
    · refine ⟨hfits.create, hfits.mutex, trivial, fun t' => ?_⟩
      have hcounted := hfits.counted t'
      by_cases ht' : t' = t
      · subst ht'
        rw [Function.update_self, List.count_cons_self, hcounted]
        simp [OrderLocks.uses, OrderOp.Counted, OrderOp.tradeNo]
      · rw [Function.update_of_ne ht', hcounted]
        simp [OrderLocks.uses, OrderOp.Counted, OrderOp.tradeNo, Ne.symm ht']
    · intro hnil
      cases hnil
  | lockCounted t rcm =>
    rw [hop] at hfits
    have hmoved : OrderInv (s.goTo i (.lockWaiting t rcm)) users := by
      refine h.goTo ⟨fun hin => ?_, hfits.mutex, trivial, hfits.counted⟩ ?_
      · cases hin
      · intro t' _ hclean
        rw [hop] at hclean
        cases hclean
    refine ⟨users, hmoved.leaveCreate (hout ?_ ?_)⟩
    · rw [hop]
      rfl
    · exact Bool.false_ne_true
  | lockWaiting t rcm =>
    rw [hop] at hfits
    have hentry := hfits.mutex t rcm rfl rfl
    simp only
    split
    · rename_i hfree
      have hnone : ∀ j t', s.held j t' ≠ some rcm := by
        intro j t' hheld
        rw [(h.held j t' rcm hheld).2] at hfree
        cases hfree
      refine ⟨users, h.setMu hentry ?_ ?_ ?_ ⟨?_, ?_, trivial, ?_⟩⟩
      · intro j t' hheld
        exact absurd hheld (hnone j t')
      · intro r' hr
        exact ⟨(Option.some.inj hr).symm, rfl⟩
      · rw [hop]
        exact Bool.false_ne_true
      · intro hin
        cases hin
      · intro t' r' _ hr
        cases hr
      · intro t'
        rw [hfits.counted t', uses_setHeld]
        by_cases ht' : t' = t
        · subst ht'
          have hheld : s.held i t' = none := Option.eq_none_iff_forall_ne_some.2 fun r hr =>
            hnone i t' (by rw [hr, ← (h.held i t' r hr).1, hentry])
          simp [OrderLocks.uses, OrderOp.Counted, OrderOp.tradeNo, hheld]
        · simp [OrderLocks.uses, OrderOp.Counted, OrderOp.tradeNo, ht', Ne.symm ht']
    · exact ⟨users, h⟩
  | unlockCalled t =>
    rw [hop] at hfits
    obtain ⟨r, hheld⟩ := Option.ne_none_iff_exists'.1 hfits.relies
    have hentry := (h.held i t r hheld).1
    simp only [hentry]
    refine ⟨users, h.goTo ⟨fun hin => ?_, ?_, hheld, hfits.counted⟩ ?_⟩
    · cases hin
    · intro t' r' ht hr
      obtain rfl : t = t' := Option.some.inj ht
      obtain rfl : r = r' := Option.some.inj hr
      exact hentry
    · intro t' _ hclean
      rw [hop] at hclean
      cases hclean
  | unlockLoaded t rcm =>
    rw [hop] at hfits
    have hheld : s.held i t = some rcm := hfits.relies
    obtain ⟨hentry, hmu⟩ := h.held i t rcm hheld
    refine ⟨users, h.setMu hentry ?_ ?_ ?_ ⟨?_, hfits.mutex, trivial, ?_⟩⟩
    · intro j t' hj
      obtain ⟨hentry', hmu'⟩ := h.held j t' rcm hj
      rw [hmu] at hmu'
      exact ⟨(Option.some.inj hmu').symm, h.distinct t' t rcm hentry' hentry⟩
    · intro r' hr
      cases hr
    · rw [hop]
      exact Bool.false_ne_true
    · intro hin
      cases hin
    · intro t'
      rw [hfits.counted t', uses_setHeld]
      by_cases ht' : t' = t
      · subst ht'
        simp [OrderLocks.uses, OrderOp.Counted, OrderOp.tradeNo, hheld]
      · simp [OrderLocks.uses, OrderOp.Counted, OrderOp.tradeNo, ht', Ne.symm ht']
  | unlockReleased t rcm =>
    rw [hop] at hfits
    simp only
    split
    · rename_i hfree
      refine ⟨users, (h.enterCreate i hfree).goTo ⟨fun _ => rfl, hfits.mutex, trivial,
        hfits.counted⟩ ?_⟩
      intro t' _ hclean
      rw [show (s.setCreateLock (some i)).op i = .unlockReleased t rcm from hop] at hclean
      cases hclean
    · exact ⟨users, h⟩
  | unlockEntered t rcm =>
    rw [hop] at hfits
    have hentry := hfits.mutex t rcm rfl rfl
    have hmem : i ∈ users t := h.mem_users (.inr (by rw [hop]; exact ⟨rfl, rfl⟩))
    have hlength := List.length_erase_of_mem hmem
    have hpos := List.length_pos_of_mem hmem
    refine ⟨Function.update users t ((users t).erase i), h.recount ?_ ?_ hentry ?_ ?_ ?_ ?_⟩
    · rw [hop]
      rfl
    · rw [hop]
      rfl
    · omega
    · intro j hj
      exact List.count_erase_of_ne hj
    · refine ⟨hfits.create, hfits.mutex, trivial, fun t' => ?_⟩
      have hcounted := hfits.counted t'
      by_cases ht' : t' = t
      · subst ht'
        rw [Function.update_self, List.count_erase_self, hcounted]
        simp [OrderLocks.uses, OrderOp.Counted, OrderOp.tradeNo]
      · rw [Function.update_of_ne ht', hcounted]
        simp [OrderLocks.uses, OrderOp.Counted, OrderOp.tradeNo, Ne.symm ht']
    · intro _
      exact ⟨rfl, rfl⟩
  | unlockCounted t rcm =>
    rw [hop] at hfits
    have hcount := h.count t rcm (hfits.mutex t rcm rfl rfl)
    simp only
    split
    · rename_i hzero
      have hempty : users t = [] := by
        rw [hzero] at hcount
        exact List.length_eq_zero_iff.1 (by omega)
      refine ⟨users, h.goTo ⟨hfits.create, hfits.mutex, hempty, hfits.counted⟩ ?_⟩
      intro t' ht' _
      rw [hop] at ht'
      exact .inl ⟨ht', rfl⟩
    · rename_i hpos
      refine ⟨users, h.goTo ⟨hfits.create, ?_, trivial, hfits.counted⟩ ?_⟩
      · intro t' r' _ hr
        cases hr
      · intro t' ht' _
        rw [hop] at ht'
        obtain rfl : t = t' := Option.some.inj ht'
        refine .inr fun hnil => hpos ?_
        rw [hcount, hnil]
        rfl
  | unlockEmpty t rcm => exact ⟨users, h.delete hop⟩
  | unlockLeaving t =>
    rw [hop] at hfits
    have hmoved : OrderInv (s.goTo i .idle) users := by
      refine h.goTo ⟨fun hin => ?_, ?_, trivial, hfits.counted⟩ ?_
      · cases hin
      · intro t' r' ht
        cases ht
      · intro t' _ hclean
        rw [hop] at hclean
        cases hclean
    refine ⟨users, hmoved.leaveCreate (hout ?_ ?_)⟩
    · rw [hop]
      rfl
    · exact Bool.false_ne_true

theorem orderStep_inv (h : OrderInv s users) (a : OrderAction θ) :
    ∃ users', OrderInv (orderStep s a) users' := by
  cases a with
  | next i => exact orderNext_inv h i
  | lockOrder i t =>
    simp only [orderStep]
    split
    · rename_i hop
      have hfits := h.threads i
      rw [hop] at hfits
      refine ⟨users, h.goTo ⟨fun hin => ?_, ?_, trivial, hfits.counted⟩ ?_⟩
      · cases hin
      · intro t' r' _ hr
        cases hr
      · intro t' ht' _
        rw [hop] at ht'
        cases ht'
    · exact ⟨users, h⟩
  | unlockOrder i t =>
    simp only [orderStep]
    split
    · rename_i hcall
      obtain ⟨hop, hheld⟩ := hcall
      have hfits := h.threads i
      rw [hop] at hfits
      refine ⟨users, h.goTo ⟨fun hin => ?_, ?_, hheld, hfits.counted⟩ ?_⟩
      · cases hin
      · intro t' r' _ hr
        cases hr
      · intro t' ht' _
        rw [hop] at ht'
        cases ht'
    · exact ⟨users, h⟩

/-! ### The lock -/

/-- A thread has the lock of an order: it is between `LockOrder` and the unlocking of the mutex in
`UnlockOrder`. -/
def OrderLocks.Holds (s : OrderLocks θ) (i : θ) (t : String) : Prop := s.held i t ≠ none

/-- A thread has the mutex `rcm` for an order, or its call has that mutex at hand: the thread is
about to wait for it, waits for it or gives it up. -/
def OrderLocks.Uses (s : OrderLocks θ) (i : θ) (t : String) (rcm : ℕ) : Prop :=
  s.held i t = some rcm ∨ (s.op i).tradeNo = some t ∧ (s.op i).mutex = some rcm

/-- No thread has the lock of an order or is in a call about it. -/
def OrderLocks.Unused (s : OrderLocks θ) (t : String) : Prop :=
  ∀ i, s.held i t = none ∧ (s.op i).tradeNo ≠ some t

theorem OrderInv.exclusive (h : OrderInv s users) {i j : θ} {t : String}
    (hi : s.Holds i t) (hj : s.Holds j t) : i = j := by
  obtain ⟨r, hi⟩ := Option.ne_none_iff_exists'.1 hi
  obtain ⟨r', hj⟩ := Option.ne_none_iff_exists'.1 hj
  obtain ⟨hr, hmu⟩ := h.held i t r hi
  obtain ⟨hr', hmu'⟩ := h.held j t r' hj
  -- both have the mutex in the map
  obtain rfl : r = r' := Option.some.inj (hr.symm.trans hr')
  exact Option.some.inj (hmu.symm.trans hmu')

theorem OrderInv.entry (h : OrderInv s users) {i : θ} {t : String} {r : ℕ} (huse : s.Uses i t r) :
    s.orderLocks t = some r := by
  rcases huse with hheld | ⟨ht, hr⟩
  · exact (h.held i t r hheld).1
  · exact (h.threads i).mutex t r ht hr

theorem OrderInv.removed (h : OrderInv s users) {t : String} (hunused : s.Unused t) :
    s.orderLocks t = none := by
  have hempty : users t = [] := by
    refine List.eq_nil_iff_forall_not_mem.2 fun i hi => ?_
    obtain ⟨hheld, hop⟩ := hunused i
    have hcount := (h.threads i).counted t
    rw [OrderLocks.uses, if_pos hheld, if_neg fun hc => hop hc.2] at hcount
    exact absurd hi (List.count_eq_zero.1 hcount)
  cases hr : s.orderLocks t with
  | none => rfl
  | some r =>
    obtain ⟨i, hi, _⟩ := h.needed t r hr hempty
    exact absurd hi (hunused i).2

/-- **The lock of an order is a lock.**  In every state of every run at most one thread has it, all
who use its mutex use the one in the map, so that there is one as long as somebody does, and there
is none once nobody does.  A mutex is unlocked by the thread that has locked it. -/
theorem orderLock_exclusive (actions : List (OrderAction θ)) :
    let s := Transition.run orderStep (.start θ) actions
    (∀ t i j, s.Holds i t → s.Holds j t → i = j) ∧
      (∀ t i j r r', s.Uses i t r → s.Uses j t r' → r = r') ∧
      (∀ t i r, s.Uses i t r → s.orderLocks t = some r) ∧
      (∀ t, s.Unused t → s.orderLocks t = none) ∧
      ∀ t i r, s.op i = .unlockLoaded t r → (s.mutexes r).mu = some i := by
  intro s
  obtain ⟨users, h⟩ : ∃ users, OrderInv s users := by
    have hstep : ∀ s (a : OrderAction θ), (∃ users, OrderInv s users) →
        ∃ users, OrderInv (orderStep s a) users := fun s a ⟨_, h⟩ => orderStep_inv h a
    exact Transition.run_invariant_always hstep ⟨_, orderInv_start⟩ actions
  refine ⟨fun _ _ _ => h.exclusive, ?_, fun _ _ _ => h.entry, fun _ => h.removed, ?_⟩
  · intro t i j r r' hi hj
    exact Option.some.inj ((h.entry hi).symm.trans (h.entry hj))
  · intro t i r hop
    have hrelies := (h.threads i).relies
    rw [hop] at hrelies
    exact (h.held i t r hrelies).2

end Invariant

/-- A thread takes its next steps. -/
def nextSteps (i : Bool) (n : ℕ) : List (OrderAction Bool) := List.replicate n (.next i)

/-- While one thread has the lock another waits for its mutex, and when both are through the mutex
is gone. -/
theorem orderLock_exclusive_two :
    let waiting := Transition.run orderStep (.start Bool)
      ([OrderAction.lockOrder true "a"] ++ nextSteps true 6 ++ [OrderAction.lockOrder false "a"] ++
        nextSteps false 5)
    let done := Transition.run orderStep waiting
      ([OrderAction.unlockOrder true "a"] ++ nextSteps true 6 ++ nextSteps false 1 ++
        [OrderAction.unlockOrder false "a"] ++ nextSteps false 7)
    waiting.orderLocks "a" = some 0 ∧ done.orderLocks "a" = none := by
  refine ⟨(orderLock_exclusive _).2.2.1 "a" false 0 (.inr (by decide)), ?_⟩
  rw [← Transition.run_append]
  exact (orderLock_exclusive _).2.2.2.1 "a" (by unfold OrderLocks.Unused; decide)

end NewApi

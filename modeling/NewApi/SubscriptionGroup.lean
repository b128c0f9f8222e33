/-
**The group of a user while subscriptions come and go.**

A plan may move its buyer to a group.  The subscription remembers the group that was left, but
only if the buyer was not in the plan's group already, and ending it consults that memory: the
sweep consults the subscription that expired last, cancelling and deleting consult the
subscription itself.  A user who overlaps two subscriptions therefore may be left in the group
for good.  The runs in which this does not happen are those where subscriptions that overlap ask
for the same group, and where the one consulted when the last of them ends has a memory.

Main definitions:

* `NewApi.GroupOp`, `NewApi.groupStep` — the operations on a running clock;
* `NewApi.upgrades` — the user's upgraded subscriptions that have not been ended;
* `NewApi.GroupUndone` — the user is in the group of a running subscription, or back in their own;
* `NewApi.GroupOk` — the condition on a step;
* `NewApi.GroupInv` — the invariant behind it.

Main results:

* `NewApi.GroupInv.ending` — what ends subscriptions and restores the group keeps the invariant;
* `NewApi.group_undone` — **in a run of conforming steps every state is undone**;
* `NewApi.group_stuck` — overlapping subscriptions to one plan leave the user in its group.
-/

import NewApi.SubscriptionStore

set_option autoImplicit false

namespace NewApi

open Transition (run Along)

/-! ### Operations on a clock -/

/-- The operations that write a user's group. -/
inductive GroupOp where
  | purchase (faults : PurchaseFaults) (userId : ℤ) (plan : SubscriptionPlan) (source : String)
  | expireDue (env : ExpireEnv) (limit : ℤ)
  | invalidate (faults : AdminFaults) (userSubscriptionId : ℤ)
  | delete (faults : AdminFaults) (userSubscriptionId : ℤ)

/-- The operation of the store at the time `now`. -/
def GroupOp.at (now : ℤ) : GroupOp → StoreOp
  | .purchase faults userId plan source => .purchase now faults userId plan source
  | .expireDue env limit => .expireDue { env with now := now } limit
  | .invalidate faults id => .invalidate now faults id
  | .delete faults id => .delete now faults id

/-- The tables and the time of the last operation. -/
structure GroupState where
  tables : Tables
  now : ℤ

/-- An operation that takes place some seconds after the last one. -/
def groupStep (loc : Location) (s : GroupState) (op : ℕ × GroupOp) : GroupState where
  tables := storeStep loc s.tables (op.2.at (s.now + op.1))
  now := s.now + op.1

/-! ### The property and the condition -/

/-- The subscriptions of a user. -/
def rowsOf (t : Tables) (userId : ℤ) : List UserSubscription :=
  t.subs.filter fun s => s.userId = userId

/-- The upgraded subscriptions of a user that have not been ended. -/
def upgrades (t : Tables) (userId : ℤ) : List UserSubscription :=
  t.subs.filter fun s => s.userId = userId ∧ s.status = .active ∧ s.upgradeGroup ≠ ""

/-- The user is in the group of one of the upgraded subscriptions that run, and in the group `g`
when all of them have been ended. -/
structure GroupUndone (userId : ℤ) (g : String) (s : GroupState) : Prop where
  running : liveUpgrades s.tables userId s.now ≠ [] →
    ∃ sub ∈ liveUpgrades s.tables userId s.now, s.tables.userGroup userId = sub.upgradeGroup
  ended : upgrades s.tables userId = [] → s.tables.userGroup userId = g

/-- Consulting the subscription moves its user out of the group it asked for. -/
def UserSubscription.Restores (t : Tables) (s : UserSubscription) : Prop :=
  trimSpace s.upgradeGroup = t.userGroup s.userId ∧ trimSpace s.prevUserGroup ≠ ""

instance (t : Tables) (s : UserSubscription) : Decidable (s.Restores t) := by
  unfold UserSubscription.Restores; infer_instance

/-- The condition on cancelling or deleting a subscription of the user: a look-up for other
running ones does not fail when there are any, and a subscription that is the last to end
restores the group. -/
def EndOk (userId : ℤ) (g : String) (now : ℤ) (activeRead : Fault) (id : ℤ) (t : Tables) : Prop :=
  ((liveUpgrades t userId now).filter (fun s => s.id ≠ id) ≠ [] → activeRead = none) ∧
  (∀ sub, t.sub id = some sub → upgrades t userId ≠ [] →
    (∀ s ∈ upgrades t userId, s.id = id) → t.userGroup userId ≠ g → sub.Restores t)

/-- The condition on the user's part of a sweep: as for the other ways to end a subscription, the
one consulted being the last that expired. -/
def ExpireOk (userId : ℤ) (g : String) (now : ℤ) (faults : ExpireFaults) (t : Tables) : Prop :=
  (liveUpgrades t userId now ≠ [] → faults.activeRead = none) ∧
  (upgrades t userId ≠ [] → (∀ s ∈ upgrades t userId, s.isDue now = true) →
    t.userGroup userId ≠ g → faults.expiredRead = none ∧
    ∃ c, lastExpiredUpgrade (markExpired userId now t) userId = some c ∧ c.Restores t)

/-- The condition on a step: upgraded subscriptions that overlap ask for one group, and the last
of them restores the group. -/
def GroupOk (userId : ℤ) (g : String) (s : GroupState) (op : ℕ × GroupOp) : Prop :=
  match op.2 with
  | .purchase _ u plan _ => u = userId → trimSpace plan.upgradeGroup ≠ "" →
      ∀ x ∈ upgrades s.tables userId, x.upgradeGroup = trimSpace plan.upgradeGroup
  | .expireDue env limit =>
    env.query = none → userId ∈ dueUsers { env with now := s.now + op.1 } limit s.tables →
      ExpireOk userId g (s.now + op.1) (env.user userId) s.tables
  | .invalidate faults id =>
    EndOk userId g (s.now + op.1) faults.downgrade.activeRead id s.tables
  | .delete faults id => EndOk userId g (s.now + op.1) faults.downgrade.activeRead id s.tables

/-! ### The invariant -/

/-- The invariant of the user's group. -/
structure GroupInv (userId : ℤ) (g : String) (now : ℤ) (t : Tables) : Prop where
  same : ∀ s ∈ upgrades t userId, ∀ s' ∈ upgrades t userId, s.upgradeGroup = s'.upgradeGroup
  ended : upgrades t userId = [] → t.userGroup userId = g
  running : ∀ s ∈ upgrades t userId, now < s.endTime → t.userGroup userId = s.upgradeGroup
  current : t.userGroup userId = g ∨ ∃ s ∈ upgrades t userId, t.userGroup userId = s.upgradeGroup
  prev : ∀ s ∈ rowsOf t userId, trimSpace s.prevUserGroup ≠ "" → trimSpace s.prevUserGroup = g
  trimmed : ∀ s ∈ rowsOf t userId, trimSpace s.upgradeGroup = s.upgradeGroup

theorem mem_upgrades {t : Tables} {userId : ℤ} {s : UserSubscription} :
    s ∈ upgrades t userId ↔
      s ∈ t.subs ∧ s.userId = userId ∧ s.status = .active ∧ s.upgradeGroup ≠ "" := by
  simp [upgrades]

theorem mem_liveUpgrades {t : Tables} {userId now : ℤ} {s : UserSubscription} :
    s ∈ liveUpgrades t userId now ↔ s ∈ upgrades t userId ∧ now < s.endTime := by
  simp only [liveUpgrades, upgrades, List.mem_filter, decide_eq_true_eq]
  tauto

/-- The invariant gives the property. -/
theorem GroupInv.undone {userId : ℤ} {g : String} {s : GroupState}
    (h : GroupInv userId g s.now s.tables) : GroupUndone userId g s where
  running hne := by
    obtain ⟨x, hx⟩ := List.exists_mem_of_ne_nil _ hne
    obtain ⟨hup, hlive⟩ := mem_liveUpgrades.1 hx
    exact ⟨x, hx, h.running x hup hlive⟩
  ended := h.ended

/-- The invariant is kept by whatever ends upgraded subscriptions and leaves the group as it is or
sets it to `g`: as it is while one is running, and to `g` when none is left. -/
theorem GroupInv.ending {userId : ℤ} {g : String} {now now' : ℤ} {t t' : Tables}
    (h : GroupInv userId g now t) (hnow : now ≤ now')
    (hsub : ∀ s ∈ upgrades t' userId, s ∈ upgrades t userId)
    (hgroup : t'.userGroup userId = t.userGroup userId ∨ t'.userGroup userId = g)
    (hlive : liveUpgrades t' userId now' ≠ [] → t'.userGroup userId = t.userGroup userId)
    (hlast : upgrades t' userId = [] → t'.userGroup userId = g)
    (hrows : ∀ s ∈ rowsOf t' userId, ∃ s₀ ∈ rowsOf t userId,
      s.prevUserGroup = s₀.prevUserGroup ∧ s.upgradeGroup = s₀.upgradeGroup) :
    GroupInv userId g now' t' where
  same s hs s' hs' := h.same s (hsub s hs) s' (hsub s' hs')
  ended := hlast
  running s hs hend := by
    have hne : liveUpgrades t' userId now' ≠ [] :=
      List.ne_nil_of_mem (mem_liveUpgrades.2 ⟨hs, hend⟩)
    rw [hlive hne]
    exact h.running s (hsub s hs) (by omega)
  current := by
    rcases hgroup with hsame | hg
    · by_cases hnil : upgrades t' userId = []
      · exact Or.inl (hlast hnil)
      · obtain ⟨x, hx⟩ := List.exists_mem_of_ne_nil _ hnil
        rw [hsame]
        refine h.current.imp_right fun ⟨s, hs, hcur⟩ => ⟨x, hx, ?_⟩
        rw [hcur]
        exact h.same s hs x (hsub x hx)
    · exact Or.inl hg
  prev s hs := by
    obtain ⟨s₀, hs₀, hp, _⟩ := hrows s hs
    rw [hp]
    exact h.prev s₀ hs₀
  trimmed s hs := by
    obtain ⟨s₀, hs₀, _, hg⟩ := hrows s hs
    rw [hg]
    exact h.trimmed s₀ hs₀

/-- The tables are the same for a user. -/
structure SameFor (userId : ℤ) (t t' : Tables) : Prop where
  rows : rowsOf t' userId = rowsOf t userId
  group : t'.userGroup userId = t.userGroup userId

theorem mem_rowsOf {t : Tables} {userId : ℤ} {s : UserSubscription} :
    s ∈ rowsOf t userId ↔ s ∈ t.subs ∧ s.userId = userId := by simp [rowsOf]

theorem upgrades_eq (t : Tables) (userId : ℤ) :
    upgrades t userId
      = (rowsOf t userId).filter fun s => s.status = .active ∧ s.upgradeGroup ≠ "" := by
  simp only [upgrades, rowsOf, List.filter_filter]
  refine List.filter_congr fun s _ => ?_
  by_cases hu : s.userId = userId <;> simp [hu]

theorem SameFor.upgrades {userId : ℤ} {t t' : Tables} (h : SameFor userId t t') :
    upgrades t' userId = upgrades t userId := by
  rw [upgrades_eq, upgrades_eq, h.rows]

/-- The invariant of a user is kept by what does not concern them, and by time passing. -/
theorem GroupInv.same_for {userId : ℤ} {g : String} {now now' : ℤ} {t t' : Tables}
    (h : GroupInv userId g now t) (hnow : now ≤ now') (hsame : SameFor userId t t') :
    GroupInv userId g now' t' := by
  refine h.ending hnow (fun s hs => ?_) (Or.inl hsame.group) (fun _ => hsame.group)
    (fun hnil => ?_) fun s hs => ⟨s, ?_, rfl, rfl⟩
  · rwa [← hsame.upgrades]
  · rw [hsame.group]
    exact h.ended (by rwa [← hsame.upgrades])
  · rwa [← hsame.rows]

/-! ### Buying -/

/-- Buying a plan that names no group keeps the invariant. -/
theorem GroupInv.buy_plain {userId : ℤ} {g : String} {now : ℤ} {t : Tables}
    {s : UserSubscription} (h : GroupInv userId g now t) (hup : s.upgradeGroup = "")
    (hprev : s.prevUserGroup = "") : GroupInv userId g now (t.createSub s) := by
  let new : UserSubscription := { s with id := t.nextSubId }
  have hupgrades : upgrades (t.createSub s) userId = upgrades t userId := by
    simp [upgrades, Tables.createSub, hup]
  have hrows : ∀ x ∈ rowsOf (t.createSub s) userId, x ∈ rowsOf t userId ∨ x = new := by
    intro x hx
    obtain ⟨hx, hu⟩ := mem_rowsOf.1 hx
    rcases List.mem_append.1 hx with hx | hx
    · exact Or.inl (mem_rowsOf.2 ⟨hx, hu⟩)
    · exact Or.inr (List.mem_singleton.1 hx)
  refine ⟨?_, ?_, ?_, ?_, ?_, ?_⟩
  · rw [hupgrades]
    exact h.same
  · rw [hupgrades]
    exact h.ended
  · rw [hupgrades]
    exact h.running
  · rw [hupgrades]
    exact h.current
  · intro x hx hne
    rcases hrows x hx with hx | rfl
    · exact h.prev x hx hne
    · simp [new, hprev] at hne
  · intro x hx
    rcases hrows x hx with hx | rfl
    · exact h.trimmed x hx
    · simp [new, hup]

/-- Buying a plan that names a group keeps the invariant: the buyer is in that group, which is the
one of all other running subscriptions, and the group that is remembered is the buyer's own. -/
theorem GroupInv.buy_upgrade {userId : ℤ} {g : String} {now : ℤ} {t t₀ : Tables}
    {s : UserSubscription} (hg : trimSpace g = g) (h : GroupInv userId g now t)
    (hsubs : t₀.subs = t.subs) (hgroup : t₀.userGroup userId = s.upgradeGroup)
    (huser : s.userId = userId) (hstatus : s.status = .active) (hup : s.upgradeGroup ≠ "")
    (htrim : trimSpace s.upgradeGroup = s.upgradeGroup)
    (hok : ∀ x ∈ NewApi.upgrades t userId, x.upgradeGroup = s.upgradeGroup)
    (hprev : s.prevUserGroup = "" ∨
      s.prevUserGroup = t.userGroup userId ∧ t.userGroup userId ≠ s.upgradeGroup) :
    GroupInv userId g now (t₀.createSub s) := by
  let new : UserSubscription := { s with id := t₀.nextSubId }
  have hmem : ∀ x ∈ upgrades (t₀.createSub s) userId, x.upgradeGroup = s.upgradeGroup := by
    intro x hx
    obtain ⟨hx, hrest⟩ := mem_upgrades.1 hx
    rcases List.mem_append.1 hx with hx | hx
    · exact hok x (mem_upgrades.2 ⟨hsubs ▸ hx, hrest⟩)
    · rw [List.mem_singleton.1 hx]
  have hnew : new ∈ upgrades (t₀.createSub s) userId :=
    mem_upgrades.2 ⟨by simp [Tables.createSub, new], huser, hstatus, hup⟩
  have hrows : ∀ x ∈ rowsOf (t₀.createSub s) userId, x ∈ rowsOf t userId ∨ x = new := by
    intro x hx
    obtain ⟨hx, hu⟩ := mem_rowsOf.1 hx
    rcases List.mem_append.1 hx with hx | hx
    · exact Or.inl (mem_rowsOf.2 ⟨hsubs ▸ hx, hu⟩)
    · exact Or.inr (List.mem_singleton.1 hx)
  refine ⟨fun x hx y hy => ?_, fun hnil => ?_, fun x hx _ => ?_, Or.inr ⟨new, hnew, hgroup⟩,
    fun x hx hne => ?_, fun x hx => ?_⟩
  · rw [hmem x hx, hmem y hy]
  · rw [hnil] at hnew
    simp at hnew
  · rw [hmem x hx]
    exact hgroup
  · rcases hrows x hx with hx | rfl
    · exact h.prev x hx hne
    · rcases hprev with hprev | ⟨hprev, hleft⟩
      · simp [new, hprev] at hne
      · -- the group that was left is not that of a running subscription
        have hown : t.userGroup userId = g := by
          refine h.current.resolve_right ?_
          rintro ⟨y, hy, hcur⟩
          exact hleft (hcur.trans (hok y hy))
        simp only [new, hprev, hown, hg]
  · rcases hrows x hx with hx | rfl
    · exact h.trimmed x hx
    · exact htrim

/-- A purchase keeps the invariant when the subscriptions that overlap ask for one group. -/
theorem GroupInv.purchase {loc : Location} {userId : ℤ} {g : String} {now now' : ℤ} {t : Tables}
    {faults : PurchaseFaults} {u : ℤ} {plan : SubscriptionPlan} {source : String}
    (hg : trimSpace g = g) (h : GroupInv userId g now t) (hnow : now ≤ now')
    (hok : u = userId → trimSpace plan.upgradeGroup ≠ "" →
      ∀ x ∈ NewApi.upgrades t userId, x.upgradeGroup = trimSpace plan.upgradeGroup) :
    GroupInv userId g now' (purchaseSubscription loc now' faults u plan source t).2 := by
  have hlater : GroupInv userId g now' t := h.same_for hnow ⟨rfl, rfl⟩
  rcases purchase_cases loc now' faults u plan source t with hsame | hbought
  · rw [hsame]
    exact hlater
  · obtain ⟨endUnix, prevGroup, _, hcase⟩ := create_ok hbought
    generalize (purchaseSubscription loc now' faults u plan source t).2 = t' at hcase ⊢
    have hnewUser : ∀ p, (newUserSubscription loc now' u plan source endUnix p).userId = u :=
      fun _ => rfl
    by_cases hu : u = userId
    · subst hu
      by_cases hup : trimSpace plan.upgradeGroup = ""
      · rcases hcase with ⟨_, _, rfl⟩ | ⟨hne, _⟩
        · exact hlater.buy_plain hup rfl
        · exact absurd hup hne
      · have htrim := trimSpace_trimSpace plan.upgradeGroup
        rcases hcase with ⟨_, hcur, rfl⟩ | ⟨_, hprev, hne, rfl⟩
        · exact hlater.buy_upgrade hg rfl (hcur.resolve_left hup) rfl rfl hup htrim
            (hok rfl hup) (Or.inl rfl)
        · refine hlater.buy_upgrade hg rfl ?_ rfl rfl hup htrim (hok rfl hup)
            (Or.inr ⟨hprev, hprev ▸ hne⟩)
          exact Tables.setUserGroup_self _ _ _
    · refine h.same_for hnow ?_
      rcases hcase with ⟨_, _, rfl⟩ | ⟨_, _, _, rfl⟩
      · refine ⟨?_, rfl⟩
        simp [rowsOf, Tables.createSub, hnewUser, hu]
      · refine ⟨?_, ?_⟩
        · simp [rowsOf, Tables.createSub, hnewUser, hu]
        · exact Tables.setUserGroup_of_ne _ (Ne.symm hu)

/-! ### Cancelling and deleting -/

/-- What consulting a subscription does to the groups. -/
theorem downgrade_group {faults : DowngradeFaults} {sub : UserSubscription} {now : ℤ}
    {t t' : Tables} {target : String}
    (h : downgradeUserGroupForSubscriptionTx faults sub now t = .ok (target, t')) :
    t'.subs = t.subs ∧ (∀ v, v ≠ sub.userId → t'.userGroup v = t.userGroup v) ∧
    (t'.userGroup sub.userId = t.userGroup sub.userId ∨
      trimSpace sub.prevUserGroup ≠ "" ∧
        t'.userGroup sub.userId = trimSpace sub.prevUserGroup) ∧
    ((liveUpgrades t sub.userId now).filter (fun s => s.id ≠ sub.id) ≠ [] →
      faults.activeRead = none → t'.userGroup sub.userId = t.userGroup sub.userId) ∧
    ((liveUpgrades t sub.userId now).filter (fun s => s.id ≠ sub.id) = [] →
      trimSpace sub.upgradeGroup ≠ "" → sub.Restores t →
      t'.userGroup sub.userId = trimSpace sub.prevUserGroup) := by
  rcases downgrade_ok h with ⟨rfl, _, hreason⟩ | ⟨rfl, _, _, _, hprev, _, hlast⟩
  · refine ⟨rfl, fun _ _ => rfl, Or.inl rfl, fun _ _ => rfl, fun hothers hup hrest => ?_⟩
    rcases hreason with hr | hr | hr | hr | hr
    · exact absurd hr hup
    · exact absurd hrest.1.symm hr
    · exact absurd hothers hr.2
    · exact absurd hr hrest.2
    · exact hr.symm
  · have hmoved := t.setUserGroup_self sub.userId (trimSpace sub.prevUserGroup)
    exact ⟨rfl, fun v hv => Tables.setUserGroup_of_ne _ hv, Or.inr ⟨hprev, hmoved⟩,
      fun hothers hread => absurd (hlast hread) hothers, fun _ _ _ => hmoved⟩

/-- Ending one of the user's subscriptions keeps the invariant, under the condition on it. -/
theorem GroupInv.end_one {userId : ℤ} {g : String} {now now' : ℤ} {t t' : Tables}
    {sub : UserSubscription} {id : ℤ} {activeRead : Fault} (h : GroupInv userId g now t)
    (hnow : now ≤ now') (hsub : t.sub id = some sub) (huser : sub.userId = userId)
    (hok : EndOk userId g now' activeRead id t)
    (hmem : ∀ s, s ∈ NewApi.upgrades t' userId ↔ s ∈ NewApi.upgrades t userId ∧ s.id ≠ id)
    (hrows : ∀ s ∈ rowsOf t' userId, ∃ s₀ ∈ rowsOf t userId,
      s.prevUserGroup = s₀.prevUserGroup ∧ s.upgradeGroup = s₀.upgradeGroup)
    (hgroup : t'.userGroup userId = t.userGroup userId ∨
      trimSpace sub.prevUserGroup ≠ "" ∧ t'.userGroup userId = trimSpace sub.prevUserGroup)
    (hlive : (liveUpgrades t userId now').filter (fun s => s.id ≠ id) ≠ [] →
      activeRead = none → t'.userGroup userId = t.userGroup userId)
    (hlast : (liveUpgrades t userId now').filter (fun s => s.id ≠ id) = [] →
      trimSpace sub.upgradeGroup ≠ "" → sub.Restores t →
      t'.userGroup userId = trimSpace sub.prevUserGroup) :
    GroupInv userId g now' t' := by
  have hrow : sub ∈ rowsOf t userId := mem_rowsOf.2 ⟨(Tables.sub_mem hsub).1, huser⟩
  have hg : t'.userGroup userId = t.userGroup userId ∨ t'.userGroup userId = g :=
    hgroup.imp_right fun ⟨hne, heq⟩ => heq.trans (h.prev sub hrow hne)
  have hothers : ∀ s, s ∈ (liveUpgrades t userId now').filter (fun s => s.id ≠ id) ↔
      s ∈ liveUpgrades t' userId now' := by
    intro s
    simp only [List.mem_filter, mem_liveUpgrades, hmem, decide_eq_true_eq]
    exact and_right_comm
  refine h.ending hnow (fun s hs => ((hmem s).1 hs).1) hg (fun hne => ?_) (fun hnil => ?_) hrows
  · obtain ⟨x, hx⟩ := List.exists_mem_of_ne_nil _ hne
    have hne' := List.ne_nil_of_mem ((hothers x).2 hx)
    exact hlive hne' (hok.1 hne')
  · by_cases hback : t.userGroup userId = g
    · rcases hg with hsame | hg
      · exact hsame.trans hback
      · exact hg
    · -- the user is still upgraded, so this was the last subscription and it restores the group
      have hne : NewApi.upgrades t userId ≠ [] := fun hnil' => hback (h.ended hnil')
      have hall : ∀ s ∈ NewApi.upgrades t userId, s.id = id := by
        intro s hs
        by_contra hid
        have := (hmem s).2 ⟨hs, hid⟩
        rw [hnil] at this
        simp at this
      have hrest := hok.2 sub hsub hne hall hback
      have hnone : (liveUpgrades t userId now').filter (fun s => s.id ≠ id) = [] := by
        rw [List.filter_eq_nil_iff]
        intro s hs
        simpa using hall s (mem_liveUpgrades.1 hs).1
      have hup : trimSpace sub.upgradeGroup ≠ "" := by
        obtain ⟨x, hx⟩ := List.exists_mem_of_ne_nil _ hne
        have hxgroup := (mem_upgrades.1 hx).2.2.2
        rcases h.current with hcur | ⟨y, hy, hcur⟩
        · exact absurd hcur hback
        · rw [hrest.1, huser, hcur]
          exact (mem_upgrades.1 hy).2.2.2
      rw [hlast hnone hup hrest]
      exact h.prev sub hrow hrest.2

/-- Writing another user's row does not change the rows of the user. -/
theorem rowsOf_saveSub {userId : ℤ} {t : Tables} {old s : UserSubscription} (hinv : StoreInv t)
    (hold : t.sub s.id = some old) (huser : s.userId = old.userId) (hne : old.userId ≠ userId) :
    rowsOf (t.saveSub s) userId = rowsOf t userId := by
  obtain ⟨hmem, hid⟩ := Tables.sub_mem hold
  have hany : t.subs.any (fun x => x.id = s.id) = true :=
    List.any_eq_true.2 ⟨old, hmem, by simpa using hid⟩
  have hrow : ∀ x ∈ t.subs, x.id = s.id → x = old :=
    fun x hx hk => Rows.eq_of_key_eq hinv.subIds hx hmem (hk.trans hid.symm)
  simp only [rowsOf, Tables.saveSub, Rows.save, hany, if_true]
  refine Rows.filter_map_of_fixed (fun x hx => ?_) fun x hx hp => ?_
  · split
    · rename_i hk
      rw [hrow x hx hk, huser]
    · rfl
  · rw [if_neg]
    intro hk
    rw [hrow x hx hk] at hp
    exact hne (by simpa using hp)

/-- Cancelling a subscription keeps the invariant. -/
theorem GroupInv.invalidate {userId : ℤ} {g : String} {now now' : ℤ} {t : Tables}
    {faults : AdminFaults} {id : ℤ} (hinv : StoreInv t) (h : GroupInv userId g now t)
    (hnow : now ≤ now') (hok : EndOk userId g now' faults.downgrade.activeRead id t) :
    GroupInv userId g now' (adminInvalidateUserSubscription now' faults id t).2 := by
  rcases invalidate_cases now' faults id t with hsame | ⟨sub, target, hsub, hdown⟩
  · rw [hsame]
    exact h.same_for hnow ⟨rfl, rfl⟩
  · generalize (adminInvalidateUserSubscription now' faults id t).2 = t' at hdown ⊢
    obtain ⟨hmem, hid⟩ := Tables.sub_mem hsub
    obtain ⟨hsubs, hother, hgroup, hlive, hlast⟩ := downgrade_group hdown
    by_cases huser : sub.userId = userId
    · -- the cancelled row is not active, so only the other rows can keep the user upgraded
      have hrow : ∀ x, x ∈ t'.subs ↔ x = sub.cancelAt now' ∨ (x ∈ t.subs ∧ x.id ≠ id) := by
        intro x
        rw [hsubs, ← hid]
        exact Rows.mem_save_iff
      have hups : ∀ x, x ∈ upgrades t' userId ↔ x ∈ upgrades t userId ∧ x.id ≠ id := by
        intro x
        rw [mem_upgrades, mem_upgrades, hrow]
        constructor
        · rintro ⟨rfl | ⟨hx, hne⟩, hu, hst, hup⟩
          · simp [UserSubscription.cancelAt] at hst
          · exact ⟨⟨hx, hu, hst, hup⟩, hne⟩
        · rintro ⟨⟨hx, hrest⟩, hne⟩
          exact ⟨Or.inr ⟨hx, hne⟩, hrest⟩
      -- the running subscriptions other than the cancelled one are those of before
      have hothers : (liveUpgrades (t.saveSub (sub.cancelAt now')) userId now').filter
            (fun s => s.id ≠ id) = [] ↔
          (liveUpgrades t userId now').filter (fun s => s.id ≠ id) = [] := by
        have hsame : ∀ x, x ∈ (liveUpgrades (t.saveSub (sub.cancelAt now')) userId now').filter
              (fun s => s.id ≠ id) ↔
            x ∈ (liveUpgrades t userId now').filter (fun s => s.id ≠ id) := by
          intro x
          have hx := hups x
          simp only [upgrades, hsubs] at hx
          simp only [List.mem_filter, mem_liveUpgrades, upgrades, hx, decide_eq_true_eq]
          exact and_congr_left fun hne => and_congr_left fun _ => and_iff_left hne
        simp only [List.eq_nil_iff_forall_not_mem, hsame]
      subst huser
      have hcancelId : (sub.cancelAt now').id = id := hid
      rw [hcancelId] at hlive hlast
      refine h.end_one hnow hsub rfl hok hups (fun x hx => ?_) hgroup ?_ ?_
      · obtain ⟨hx, hu⟩ := mem_rowsOf.1 hx
        rcases (hrow x).1 hx with rfl | ⟨hx, _⟩
        · exact ⟨sub, mem_rowsOf.2 ⟨hmem, rfl⟩, rfl, rfl⟩
        · exact ⟨x, mem_rowsOf.2 ⟨hx, hu⟩, rfl, rfl⟩
      · exact fun hne hread => hlive (fun hnil => hne (hothers.1 hnil)) hread
      · exact fun hnil hup hrest => hlast (hothers.2 hnil) hup hrest
    · refine h.same_for hnow ⟨?_, hother userId (Ne.symm huser)⟩
      have hrows : rowsOf t' userId = rowsOf (t.saveSub (sub.cancelAt now')) userId := by
        simp only [rowsOf, hsubs]
      rw [hrows]
      exact rowsOf_saveSub hinv (show t.sub sub.id = some sub by rw [hid]; exact hsub) rfl huser

/-- Deleting a subscription keeps the invariant. -/
theorem GroupInv.delete {userId : ℤ} {g : String} {now now' : ℤ} {t : Tables}
    {faults : AdminFaults} {id : ℤ} (hinv : StoreInv t) (h : GroupInv userId g now t)
    (hnow : now ≤ now') (hok : EndOk userId g now' faults.downgrade.activeRead id t) :
    GroupInv userId g now' (adminDeleteUserSubscription now' faults id t).2 := by
  rcases delete_cases now' faults id t with hsame | ⟨sub, target, t₁, hsub, hdown, ht⟩
  · rw [hsame]
    exact h.same_for hnow ⟨rfl, rfl⟩
  · rw [ht]
    obtain ⟨hmem, hid⟩ := Tables.sub_mem hsub
    obtain ⟨hsubs, hother, hgroup, hlive, hlast⟩ := downgrade_group hdown
    rw [hsubs]
    by_cases huser : sub.userId = userId
    · subst huser
      rw [hid] at hlive hlast
      refine h.end_one hnow hsub rfl hok (fun x => ?_) (fun x hx => ?_) hgroup hlive hlast
      · simp only [mem_upgrades, List.mem_filter, decide_eq_true_eq]
        exact and_right_comm
      · obtain ⟨hx, hu⟩ := mem_rowsOf.1 hx
        exact ⟨x, mem_rowsOf.2 ⟨List.mem_of_mem_filter hx, hu⟩, rfl, rfl⟩
    · refine h.same_for hnow ⟨?_, hother userId (Ne.symm huser)⟩
      simp only [rowsOf, List.filter_filter]
      refine List.filter_congr fun x hx => ?_
      -- the deleted row is another user's
      have hne : x.userId = userId → x.id ≠ id := by
        rintro hu rfl
        have hxs : x = sub := Rows.eq_of_key_eq hinv.subIds hx hmem hid.symm
        exact huser (hxs ▸ hu)
      by_cases hu : x.userId = userId
      · simp [hu, hne hu]
      · simp [hu]

/-! ### Sweeps -/

/-- Marking another user's subscriptions does not change the rows of the user. -/
theorem rowsOf_markExpired_of_ne {userId v now : ℤ} (t : Tables) (h : v ≠ userId) :
    rowsOf (markExpired v now t) userId = rowsOf t userId := by
  simp only [rowsOf, markExpired, Rows.update]
  refine Rows.filter_map_of_fixed (fun x _ => ?_) fun x _ hp => ?_
  · split <;> rfl
  · have hu : x.userId = userId := by simpa using hp
    simp [hu, Ne.symm h]

/-- Marking the user's own subscriptions marks those of their rows that are due. -/
theorem rowsOf_markExpired_self (userId now : ℤ) (t : Tables) :
    rowsOf (markExpired userId now t) userId =
      (rowsOf t userId).map fun s => if s.isDue now then { s with status := .expired } else s := by
  simp only [rowsOf, markExpired, Rows.update, Bool.and_eq_true, decide_eq_true_eq]
  induction t.subs with
  | nil => rfl
  | cons x rows ih =>
    by_cases hu : x.userId = userId
    · by_cases hd : x.isDue now = true
      · simp [hu, hd, ih]
      · simp [hu, hd, ih]
    · simp [hu, ih]

theorem lastExpiredUpgrade_eq (t : Tables) (userId : ℤ) :
    lastExpiredUpgrade t userId =
      (((rowsOf t userId).filter fun s => s.status = .expired ∧ s.upgradeGroup ≠ "").insertionSort
        fun a b => b.endTime < a.endTime ∨ (b.endTime = a.endTime ∧ b.id ≤ a.id)).head? := by
  unfold lastExpiredUpgrade
  congr 2
  simp only [rowsOf, List.filter_filter]
  refine List.filter_congr fun s _ => ?_
  by_cases hu : s.userId = userId <;> simp [hu]

theorem lastExpiredUpgrade_mem {t : Tables} {userId : ℤ} {c : UserSubscription}
    (h : lastExpiredUpgrade t userId = some c) : c ∈ rowsOf t userId := by
  rw [lastExpiredUpgrade_eq] at h
  have hmem := List.mem_of_head? h
  exact List.mem_of_mem_filter ((List.mem_insertionSort _).1 hmem)

theorem SameFor.live {userId now : ℤ} {t t' : Tables} (h : SameFor userId t t') :
    liveUpgrades t' userId now ≠ [] ↔ liveUpgrades t userId now ≠ [] := by
  have hsame : ∀ x, x ∈ liveUpgrades t' userId now ↔ x ∈ liveUpgrades t userId now := by
    intro x
    rw [mem_liveUpgrades, mem_liveUpgrades, h.upgrades]
  simp only [ne_eq, List.eq_nil_iff_forall_not_mem, hsame]

/-- The condition is about the user's own rows and group. -/
theorem ExpireOk.same_for {userId now : ℤ} {g : String} {faults : ExpireFaults} {t t' : Tables}
    (h : ExpireOk userId g now faults t) (hsame : SameFor userId t t') :
    ExpireOk userId g now faults t' := by
  obtain ⟨hlive, hlast⟩ := h
  refine ⟨fun hne => hlive (hsame.live.1 hne), ?_⟩
  rw [hsame.upgrades, hsame.group]
  intro hne hdue hg
  obtain ⟨hread, c, hc, hrest⟩ := hlast hne hdue hg
  refine ⟨hread, c, ?_, ?_⟩
  · rw [lastExpiredUpgrade_eq, rowsOf_markExpired_self, hsame.rows, ← rowsOf_markExpired_self,
      ← lastExpiredUpgrade_eq]
    exact hc
  · obtain ⟨hcmem, hcuser⟩ := mem_rowsOf.1 (lastExpiredUpgrade_mem hc)
    rw [UserSubscription.Restores, hcuser] at hrest ⊢
    rw [hsame.group]
    exact hrest

/-- After the user's subscriptions have been marked, those that are not due are left. -/
theorem mem_upgrades_markExpired {t : Tables} {userId now : ℤ} {x : UserSubscription} :
    x ∈ upgrades (markExpired userId now t) userId ↔
      x ∈ upgrades t userId ∧ x.isDue now = false := by
  rw [upgrades_eq, upgrades_eq, rowsOf_markExpired_self]
  simp only [List.mem_filter, List.mem_map]
  constructor
  · rintro ⟨⟨s, hs, rfl⟩, hx⟩
    by_cases hd : s.isDue now = true
    · simp [hd] at hx
    · have hd : s.isDue now = false := by simpa using hd
      simp only [hd, Bool.false_eq_true, if_false] at hx ⊢
      exact ⟨⟨hs, hx⟩, trivial⟩
  · rintro ⟨⟨hs, hx⟩, hd⟩
    exact ⟨⟨x, hs, by simp [hd]⟩, hx⟩

/-- The user's part of a sweep keeps the invariant, under the condition on it, and leaves nothing
that is due. -/
theorem GroupInv.expire {userId : ℤ} {g : String} {now : ℤ} {t t' : Tables}
    {faults : ExpireFaults} (h : GroupInv userId g now t) (hok : ExpireOk userId g now faults t)
    (htx : expireUserTx now faults userId t = .ok t') :
    GroupInv userId g now t' ∧ ExpireOk userId g now faults t' := by
  obtain ⟨hread, hlast⟩ := hok
  -- every row after the marking is a row of before, its status aside
  have hrows : ∀ x ∈ rowsOf (markExpired userId now t) userId, ∃ s₀ ∈ rowsOf t userId,
      x.prevUserGroup = s₀.prevUserGroup ∧ x.upgradeGroup = s₀.upgradeGroup := by
    intro x hx
    rw [rowsOf_markExpired_self] at hx
    obtain ⟨s, hs, rfl⟩ := List.mem_map.1 hx
    refine ⟨s, hs, ?_⟩
    split <;> exact ⟨rfl, rfl⟩
  have hprev : ∀ c, lastExpiredUpgrade (markExpired userId now t) userId = some c →
      trimSpace c.prevUserGroup ≠ "" → trimSpace c.prevUserGroup = g := by
    intro c hc hne
    obtain ⟨s₀, hs₀, hp, _⟩ := hrows c (lastExpiredUpgrade_mem hc)
    rw [hp] at hne ⊢
    exact h.prev s₀ hs₀ hne
  have hsubs : rowsOf t' userId = rowsOf (markExpired userId now t) userId := by
    rcases expireUserTx_ok htx with ⟨rfl, _⟩ | ⟨c, _, _, _, rfl⟩ <;> rfl
  have hups : ∀ x, x ∈ upgrades t' userId ↔ x ∈ upgrades t userId ∧ x.isDue now = false := by
    intro x
    rw [upgrades_eq, hsubs, ← upgrades_eq]
    exact mem_upgrades_markExpired
  have hlive : ∀ t'', (∀ x, x ∈ upgrades t'' userId ↔ x ∈ upgrades t userId ∧ x.isDue now = false) →
      liveUpgrades t'' userId now ≠ [] → faults.activeRead = none := by
    intro t'' hups'' hne
    obtain ⟨x, hx⟩ := List.exists_mem_of_ne_nil _ hne
    obtain ⟨hxup, hxlive⟩ := mem_liveUpgrades.1 hx
    exact hread (List.ne_nil_of_mem (mem_liveUpgrades.2 ⟨((hups'' x).1 hxup).1, hxlive⟩))
  have hgroup : t'.userGroup userId = t.userGroup userId ∨ t'.userGroup userId = g := by
    rcases expireUserTx_ok htx with ⟨rfl, _⟩ | ⟨c, hc, hne, _, rfl⟩
    · exact Or.inl rfl
    · exact Or.inr ((Tables.setUserGroup_self _ _ _).trans (hprev c hc hne))
  refine ⟨h.ending le_rfl (fun x hx => ((hups x).1 hx).1) hgroup (fun hne => ?_) (fun hnil => ?_)
    fun x hx => hrows x (hsubs ▸ hx), fun hne => hlive t' hups hne, fun hne hdue => ?_⟩
  · rcases expireUserTx_ok htx with ⟨rfl, _⟩ | ⟨c, _, _, hnone, rfl⟩
    · rfl
    · exact absurd (hnone (hlive _ hups hne)) hne
  · by_cases hback : t.userGroup userId = g
    · rcases hgroup with hsame | hg
      · exact hsame.trans hback
      · exact hg
    · -- all of the user's subscriptions were due, so the one consulted restores the group
      have hne : upgrades t userId ≠ [] := fun hnil' => hback (h.ended hnil')
      have hall : ∀ s ∈ upgrades t userId, s.isDue now = true := by
        intro s hs
        by_contra hd
        have := (hups s).2 ⟨hs, by simpa using hd⟩
        rw [hnil] at this
        simp at this
      obtain ⟨hexpired, c, hc, hrest⟩ := hlast hne hall hback
      have hcuser : c.userId = userId := (mem_rowsOf.1 (lastExpiredUpgrade_mem hc)).2
      rcases expireUserTx_ok htx with ⟨rfl, hreason⟩ | ⟨c', hc', hne', _, rfl⟩
      · rcases hreason with hr | hr | hr
        · obtain ⟨x, hx⟩ := List.exists_mem_of_ne_nil _ hr
          have := (mem_liveUpgrades.1 hx).1
          rw [hnil] at this
          simp at this
        · exact absurd hexpired hr
        · rw [UserSubscription.Restores, hcuser] at hrest
          rcases hr c hc with hr | hr | hr | hr
          · rcases h.current with hcur | ⟨y, hy, hcur⟩
            · exact absurd hcur hback
            · rw [hrest.1, hcur] at hr
              exact absurd hr (mem_upgrades.1 hy).2.2.2
          · exact absurd hr hrest.2
          · exact absurd hrest.1.symm hr
          · exact hr.trans (hprev c hc hrest.2)
      · exact (Tables.setUserGroup_self _ _ _).trans (hprev c' hc' hne')
  · obtain ⟨x, hx⟩ := List.exists_mem_of_ne_nil _ hne
    have := ((hups x).1 hx).2
    rw [hdue x hx] at this
    simp at this

/-- A sweep keeps the invariant. -/
theorem GroupInv.expireDue {userId : ℤ} {g : String} {now : ℤ} {t : Tables} {env : ExpireEnv}
    {limit : ℤ} (h : GroupInv userId g now t) (hnow : now ≤ env.now)
    (hok : env.query = none → userId ∈ dueUsers env limit t →
      ExpireOk userId g env.now (env.user userId) t) :
    GroupInv userId g env.now (expireDueSubscriptions env limit t).2 := by
  have hlater : GroupInv userId g env.now t := h.same_for hnow ⟨rfl, rfl⟩
  have hother : ∀ v t₁ t₂, v ≠ userId →
      expireUserTx env.now (env.user v) v t₁ = .ok t₂ → SameFor userId t₁ t₂ := by
    intro v t₁ t₂ hv htx
    have hrows : rowsOf (markExpired v env.now t₁) userId = rowsOf t₁ userId :=
      rowsOf_markExpired_of_ne t₁ hv
    rcases expireUserTx_ok htx with ⟨rfl, _⟩ | ⟨c, _, _, _, rfl⟩
    · exact ⟨hrows, rfl⟩
    · exact ⟨hrows, Tables.setUserGroup_of_ne _ hv.symm⟩
  cases hquery : env.query with
  | some e => simpa [expireDueSubscriptions, hquery] using hlater
  | none =>
    by_cases hdue : userId ∈ dueUsers env limit t
    · refine (expireDue_rule (P := fun t₁ => GroupInv userId g env.now t₁ ∧
        ExpireOk userId g env.now (env.user userId) t₁) (fun v _ t₁ t₂ h₁ htx => ?_)
        ⟨hlater, hok hquery hdue⟩).1
      by_cases hv : v = userId
      · subst hv
        exact h₁.1.expire h₁.2 htx
      · have hsame := hother v t₁ t₂ hv htx
        exact ⟨h₁.1.same_for le_rfl hsame, h₁.2.same_for hsame⟩
    · refine expireDue_rule (fun v hmem t₁ t₂ h₁ htx => ?_) hlater
      have hv : v ≠ userId := by
        rintro rfl
        exact hdue hmem
      exact h₁.same_for le_rfl (hother v t₁ t₂ hv htx)

/-! ### Runs -/

/-- A conforming step keeps the invariant and the store's own. -/
theorem groupStep_inv {loc : Location} {userId : ℤ} {g : String} (hg : trimSpace g = g)
    (s : GroupState) (op : ℕ × GroupOp)
    (h : StoreInv s.tables ∧ GroupInv userId g s.now s.tables) (hok : GroupOk userId g s op) :
    StoreInv (groupStep loc s op).tables ∧
      GroupInv userId g (groupStep loc s op).now (groupStep loc s op).tables := by
  obtain ⟨hinv, hgroup⟩ := h
  refine ⟨Writes.inv hinv (storeStep_writes hinv _), ?_⟩
  have hnow : s.now ≤ s.now + op.1 := by omega
  obtain ⟨dt, op⟩ := op
  cases op with
  | purchase faults u plan source => exact hgroup.purchase hg hnow hok
  | expireDue env limit =>
    let env' : ExpireEnv := { env with now := s.now + dt }
    have hnow' : s.now ≤ env'.now := hnow
    exact hgroup.expireDue hnow' hok
  | invalidate faults id => exact hgroup.invalidate hinv hnow hok
  | delete faults id => exact hgroup.delete hinv hnow hok

/-- Nobody has a subscription yet. -/
def groupStart (group : ℤ → String) (now : ℤ) : GroupState where
  tables := Tables.empty group
  now := now

theorem groupStart_inv (group : ℤ → String) (now userId : ℤ) :
    GroupInv userId (group userId) now (Tables.empty group) := by
  constructor <;> simp [upgrades, rowsOf, Tables.empty]

/-- **The group is undone.**  In every run whose steps meet the condition, the user is in the
group of a running subscription while there is one, and back in the group they started in once
all of them have been ended. -/
theorem group_undone (loc : Location) (group : ℤ → String) (now userId : ℤ)
    (hg : trimSpace (group userId) = group userId) (ops : List (ℕ × GroupOp))
    (hok : Along (groupStep loc) (GroupOk userId (group userId)) (groupStart group now) ops) :
    GroupUndone userId (group userId) (run (groupStep loc) (groupStart group now) ops) := by
  have hstart : StoreInv (groupStart group now).tables ∧
      GroupInv userId (group userId) (groupStart group now).now (groupStart group now).tables :=
    ⟨StoreInv.empty group, groupStart_inv group now userId⟩
  exact (Transition.run_invariant (groupStep_inv hg) hstart hok).2.undone

/-- A plan of thirty days that moves its buyer to the group `vip`. -/
def vipPlan : SubscriptionPlan := { basicPlan with id := 2, upgradeGroup := "vip" }

/-- User 1 buys the plan on days 0 and 15; the sweeps run on days 31 and 46. -/
def overlappingPurchases : List (ℕ × GroupOp) :=
  [(0, .purchase {} 1 vipPlan "order"), (1296000, .purchase {} 1 vipPlan "order"),
    (1382400, .expireDue { now := 0 } 200), (1296000, .expireDue { now := 0 } 200)]

/-- Two overlapping subscriptions to one plan leave the user in its group: the second one has no
memory of the group that was left, and it is the one consulted. -/
theorem group_stuck :
    ¬ ∀ (loc : Location) (group : ℤ → String) (now userId : ℤ) (ops : List (ℕ × GroupOp)),
      GroupUndone userId (group userId) (run (groupStep loc) (groupStart group now) ops) := by
  intro h
  have hended := (h utc (fun _ => "default") 0 1 overlappingPurchases).ended (by decide)
  exact absurd hended (by decide)

/-- User 1 buys the plan, and again a day after the sweep of day 31. -/
def consecutivePurchases : List (ℕ × GroupOp) :=
  [(0, .purchase {} 1 vipPlan "order"), (2678400, .expireDue { now := 0 } 200),
    (86400, .purchase {} 1 vipPlan "order")]

theorem group_undone_consecutivePurchases :
    Along (groupStep utc) (GroupOk 1 "default") (groupStart (fun _ => "default") 0)
        consecutivePurchases ∧
      GroupUndone 1 "default"
        (run (groupStep utc) (groupStart (fun _ => "default") 0) consecutivePurchases) := by
  have hok : Along (groupStep utc) (GroupOk 1 "default") (groupStart (fun _ => "default") 0)
      consecutivePurchases := by
    refine ⟨fun _ _ x hx => ?_, fun _ _ => ⟨fun _ => by decide, fun _ _ _ => ⟨by decide, ?_⟩⟩,
      fun _ _ x hx => ?_, trivial⟩
    · simp [groupStart, Tables.empty, upgrades] at hx
    · exact ⟨_, rfl, by decide⟩
    · have hnil : upgrades (groupStep utc (groupStep utc (groupStart (fun _ => "default") 0)
          (0, .purchase {} 1 vipPlan "order")) (2678400, .expireDue { now := 0 } 200)).tables 1
          = [] := by decide
      rw [hnil] at hx
      simp at hx
  exact ⟨hok, group_undone utc (fun _ => "default") 0 1 (by decide) consecutivePurchases hok⟩

end NewApi

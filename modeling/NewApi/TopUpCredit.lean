/-
**Completing an order by hand, and by its gateway.**

An administrator completes an order whose report was lost, and the user should get what the report
would have given.  For Epay and the two Waffo gateways both compute the quota from the amount in
the same way.  A Creem order keeps the quota itself as its amount: its report adds the amount, and
the completion by hand multiplies it by the quota per unit once more.  A Stripe order is converted
from its money, by its report in doubles and by hand in decimals.  What a database makes of a double
is its own matter, but for doubles that are whole numbers.

Main definitions:

* `NewApi.PaymentProvider`, `NewApi.PaymentProvider.callback` — the gateways and their reports;
* `NewApi.addedQuota` — what a call adds to the quota of a user;
* `NewApi.ColumnTakes`, `NewApi.AddsWhole` — what the databases have in common;
* `NewApi.ManualMatches` — the orders for which both give the same.

Main results:

* `NewApi.amountQuota_eq_amount_iff` — when an amount is its own quota;
* `NewApi.manual_adds_like_callback_iff` — **both give the same on every database exactly for these
  orders**;
* `NewApi.manual_creem_multiplies` — a Creem order of 500000 is credited 500000 times over.
-/

import NewApi.TopUpLifecycle

set_option autoImplicit false

namespace NewApi

/-! ### Gateways -/

inductive PaymentProvider where
  | epay
  | stripe
  | creem
  | waffo
  | waffoPancake
deriving DecidableEq, Repr

namespace PaymentProvider

/-- The provider as orders have it. -/
def name : PaymentProvider → String
  | epay => paymentProviderEpay
  | stripe => paymentProviderStripe
  | creem => paymentProviderCreem
  | waffo => paymentProviderWaffo
  | waffoPancake => paymentProviderWaffoPancake

/-- The report of a payment.  Epay reports the method that was used, Stripe its name for the
customer and Creem the customer's address. -/
def callback (t info : String) (now : ℤ) : PaymentProvider → TopUpCall
  | epay => .epayNotify t info
  | stripe => .recharge t info now
  | creem => .rechargeCreem t info now
  | waffo => .rechargeWaffo t now
  | waffoPancake => .rechargeWaffoPancake t now

end PaymentProvider

/-- What a call has added to the quota of a user. -/
def addedQuota (id : ℤ) (s s' : TopUpStore) : ℚ := (s'.quota id).getD 0 - (s.quota id).getD 0

@[simp] theorem addedQuota_self (id : ℤ) (s : TopUpStore) : addedQuota id s s = 0 := by
  simp [addedQuota]

/-- What adding an increment changes in a quota column: nothing if the statement fails. -/
def TopUpConfig.change (cfg : TopUpConfig) (quota : ℚ) (increment : Increment) : ℚ :=
  match cfg.add quota increment with
  | .ok quota' => quota' - quota
  | .error _ => 0

@[simp] theorem TopUpConfig.change_int (cfg : TopUpConfig) (quota : ℚ) (n : ℤ) :
    cfg.change quota (.int n) = n := by
  simp [TopUpConfig.change, TopUpConfig.add]

/-! ### The integer part of an amount of quota -/

theorem intPart_eq_floor {d : ℚ} (h : 0 ≤ d) : intPart d = wrap64 ⌊d⌋ := by
  rw [intPart, Int.tdiv_eq_ediv_of_nonneg (Rat.num_nonneg.2 h)]
  exact congrArg wrap64 (Rat.floor_def d).symm

/-- **When an amount is its own quota**: the quota per unit is one, but for what is lost after
the point or beyond 64 bits. -/
theorem amountQuota_eq_amount_iff {cfg : TopUpConfig} {topUp : TopUp}
    (hunit : 0 < cfg.quotaPerUnit) (hpos : 0 < topUp.amount.toInt) :
    cfg.amountQuota topUp = topUp.amount.toInt ↔
      (2 : ℤ) ^ 64 ∣ ⌊(topUp.amount.toInt : ℚ) * (cfg.newFromFloat cfg.quotaPerUnit - 1)⌋ := by
  have hunit' : 0 < cfg.newFromFloat cfg.quotaPerUnit := cfg.newFromFloat_pos _ hunit
  have hamount : (0 : ℚ) < topUp.amount.toInt := by exact_mod_cast hpos
  have hfloor : ⌊(topUp.amount.toInt : ℚ) * cfg.newFromFloat cfg.quotaPerUnit⌋ =
      ⌊(topUp.amount.toInt : ℚ) * (cfg.newFromFloat cfg.quotaPerUnit - 1)⌋ +
        topUp.amount.toInt := by
    rw [← Int.floor_add_intCast]
    congr 1
    ring
  rw [TopUpConfig.amountQuota, intPart_eq_floor (mul_pos hamount hunit').le, hfloor]
  exact wrap64_eq_self_iff (by have := topUp.amount.le_toInt; omega)
    (by have := topUp.amount.toInt_lt; omega)

theorem amountQuota_of_zero {cfg : TopUpConfig} {topUp : TopUp} (h : topUp.amount.toInt = 0) :
    cfg.amountQuota topUp = 0 := by
  rw [TopUpConfig.amountQuota, h, Int.cast_zero, zero_mul]
  rfl

/-! ### What the calls add -/

section Added

variable {cfg : TopUpConfig} {s s' : TopUpStore} {topUp : TopUp} {user : TopUpUser}

theorem addedQuota_of_completed {increment : Increment}
    (hu : s.user topUp.userId = some user) (h : Completed cfg increment topUp s s') :
    addedQuota topUp.userId s s' = cfg.change user.quota increment := by
  obtain ⟨quota, hadd, hnew, -, -⟩ := h.credited user hu
  rw [addedQuota, hnew, TopUpConfig.change, hadd, TopUpStore.quota, hu]
  rfl

theorem addedQuota_of_users {id : ℤ} (h : s'.users = s.users) : addedQuota id s s' = 0 := by
  rw [addedQuota, TopUpStore.quota, TopUpStore.user, h]
  exact sub_self _

/-- A user who is not there gets nothing. -/
theorem addedQuota_completeOrder_of_none {p : CompletionPath} {now : ℤ} {t : String}
    (ho : s.order t = some topUp) (hu : s.user topUp.userId = none) :
    addedQuota topUp.userId s (completeOrder cfg p {} now t s).2 = 0 := by
  by_cases h : ∃ topUp', p.Ready cfg {} t s topUp'
  · obtain ⟨topUp', hready⟩ := h
    obtain rfl : topUp = topUp' := Option.some.inj (ho.symm.trans hready.found)
    exact addedQuota_of_users ((completeOrder_of_ready hready).uncredited hu).1
  · rw [completeOrder_of_not_ready (not_exists.1 h), addedQuota_self]

/-- What a transactional call without failing statements adds, when its provider check passes. -/
theorem addedQuota_completeOrder {p : CompletionPath} {now : ℤ} {t : String} (ht : t ≠ "")
    (ho : s.order t = some topUp) (hpend : topUp.status = topUpStatusPending)
    (hprov : ∀ q ∈ p.provider, topUp.paymentProvider = q)
    (hu : s.user topUp.userId = some user) :
    addedQuota topUp.userId s (completeOrder cfg p {} now t s).2 =
      if p.refuses topUp then 0 else cfg.change user.quota (p.increment topUp) := by
  have hfault : p.userFault {} topUp s = none := by
    rw [CompletionPath.userFault, hu]
    simp
  by_cases hready : p.Ready cfg {} t s topUp
  · rw [if_neg (by simp [hready.accepted])]
    exact addedQuota_of_completed hu (completeOrder_of_ready hready)
  · have hno : ∀ topUp', ¬ p.Ready cfg {} t s topUp' := by
      intro topUp' hready'
      obtain rfl : topUp = topUp' := Option.some.inj (ho.symm.trans hready'.found)
      exact hready hready'
    rw [completeOrder_of_not_ready hno, addedQuota_self]
    -- what is missing is that the order is accepted, or that the sum can be stored
    cases href : p.refuses topUp with
    | true => rfl
    | false =>
      cases hadd : cfg.add user.quota (p.increment topUp) with
      | error e => simp [TopUpConfig.change, hadd]
      | ok quota =>
        refine absurd ⟨ht, ho, hprov, hpend, href, rfl, rfl, rfl, hfault, rfl, ?_, rfl⟩ hready
        intro user' hu'
        obtain rfl : user = user' := Option.some.inj (hu.symm.trans hu')
        exact ⟨quota, hadd⟩

/-- What a report by Epay adds. -/
theorem addedQuota_epayNotify {t type : String} (ho : s.order t = some topUp)
    (hpend : topUp.status = topUpStatusPending)
    (hprov : topUp.paymentProvider = paymentProviderEpay)
    (hu : s.user topUp.userId = some user) :
    addedQuota topUp.userId s (epayNotify cfg {} t type s) = (max 0 (cfg.amountQuota topUp) : ℤ) := by
  have hready : EpayReady {} t s topUp := ⟨ho, hprov, hpend, rfl, rfl⟩
  by_cases hneg : cfg.amountQuota topUp < 0
  · rw [epayNotify_of_not_credited hready (Or.inl hneg), max_eq_left hneg.le]
    exact addedQuota_of_users rfl
  · have hamount : 0 ≤ cfg.amountQuota topUp := not_lt.1 hneg
    rw [addedQuota_of_completed hu (epayNotify_of_ready hready hamount rfl),
      TopUpConfig.change_int, max_eq_right hamount]

theorem addedQuota_epayNotify_of_none {t type : String} (ho : s.order t = some topUp)
    (hu : s.user topUp.userId = none) :
    addedQuota topUp.userId s (epayNotify cfg {} t type s) = 0 := by
  by_cases h : ∃ topUp', EpayReady {} t s topUp'
  · obtain ⟨topUp', hready⟩ := h
    obtain rfl : topUp = topUp' := Option.some.inj (ho.symm.trans hready.found)
    by_cases hneg : cfg.amountQuota topUp < 0
    · rw [epayNotify_of_not_credited hready (Or.inl hneg)]
      exact addedQuota_of_users rfl
    · have hdone : Completed cfg (.int (cfg.amountQuota topUp)) topUp s
          (epayNotify cfg {} t type s) := epayNotify_of_ready hready (not_lt.1 hneg) rfl
      exact addedQuota_of_users (hdone.uncredited hu).1
  · rw [epayNotify_of_not_ready (not_exists.1 h), addedQuota_self]

/-- What an integer increment adds that is refused unless it is positive. -/
theorem change_of_refused (quota : ℚ) (n : ℤ) :
    (if decide (n ≤ 0) = true then 0 else cfg.change quota (.int n)) = (max 0 n : ℤ) := by
  rw [TopUpConfig.change_int]
  by_cases h : n ≤ 0
  · rw [if_pos (by simpa using h), max_eq_left h, Int.cast_zero]
  · rw [if_neg (by simpa using h), max_eq_right (not_le.1 h).le]

/-- What a completion by hand adds. -/
theorem addedQuota_manual {now : ℤ} {t : String} (ht : t ≠ "") (ho : s.order t = some topUp)
    (hpend : topUp.status = topUpStatusPending) (hu : s.user topUp.userId = some user) :
    addedQuota topUp.userId s (manualCompleteTopUp cfg {} now t s).2 =
      (max 0 (cfg.manualQuota topUp) : ℤ) := by
  have hprov : ∀ q ∈ (manualCompletePath cfg).provider, topUp.paymentProvider = q := by
    intro q hq
    cases hq
  rw [manualCompleteTopUp, addedQuota_completeOrder ht ho hpend hprov hu]
  exact change_of_refused user.quota (cfg.manualQuota topUp)

end Added

/-! ### Doubles in a quota column -/

/-- The number a double is, unless it is infinite or none. -/
def doubleValue (x : Float) : Option ℚ :=
  match x.toModel.unpack with
  | .finite sign mantissa exponent _ =>
    some ((match sign with | .positive => 1 | .negative => -1) * mantissa * 2 ^ exponent)
  | .zero _ => some 0
  | _ => none

/-- The double is the whole number `n`, and the column holds a whole number that `n` can be added to
without losing a digit. -/
def ColumnTakes (quota : ℚ) (x : Float) (n : ℤ) : Prop :=
  doubleValue x = some n ∧
    ∃ k : ℤ, quota = k ∧ |k| ≤ 2 ^ 53 ∧ |n| ≤ 2 ^ 53 ∧ |k + n| ≤ 2 ^ 53

/-- What the databases have in common: such a double is added as it is.  Others may be rounded,
stored with what is after the point, or refused. -/
def AddsWhole (add : ℚ → Float → Except String ℚ) : Prop :=
  ∀ quota x n, ColumnTakes quota x n → add quota x = .ok (quota + n)

/-- The configuration on another database. -/
def TopUpConfig.withDatabase (cfg : TopUpConfig) (add : ℚ → Float → Except String ℚ) :
    TopUpConfig := { cfg with addDouble := add }

/-- A database that stores a sum with what is after the point. -/
theorem exists_addsWhole : ∃ add, AddsWhole add ∧ ∀ (cfg : TopUpConfig) quota x,
    (¬ ∃ n, ColumnTakes quota x n) → (cfg.withDatabase add).change quota (.double x) = 1 / 2 := by
  classical
  refine ⟨fun quota x => if h : ∃ n, ColumnTakes quota x n then .ok (quota + h.choose)
    else .ok (quota + 1 / 2), fun quota x n hn => ?_, fun cfg quota x hnone => ?_⟩
  · have h : ∃ n, ColumnTakes quota x n := ⟨n, hn⟩
    have hsame : (h.choose : ℚ) = n := Option.some.inj (h.choose_spec.1.symm.trans hn.1)
    simp only [dif_pos h, hsame]
  · simp only [TopUpConfig.change, TopUpConfig.add, TopUpConfig.withDatabase, dif_neg hnone]
    ring

/-- **A double changes a column by a whole number on every database** exactly if it is that number
and the column takes it. -/
theorem change_double_iff {cfg : TopUpConfig} {quota : ℚ} {x : Float} {m : ℤ} :
    (∀ add, AddsWhole add → m = (cfg.withDatabase add).change quota (.double x)) ↔
      ∃ n, ColumnTakes quota x n ∧ m = n := by
  have hchange : ∀ add n, AddsWhole add → ColumnTakes quota x n →
      (cfg.withDatabase add).change quota (.double x) = n := by
    intro add n hadd hn
    simp [TopUpConfig.change, TopUpConfig.add, TopUpConfig.withDatabase, hadd quota x n hn]
  constructor
  · intro hall
    obtain ⟨add, hadd, hhalf⟩ := exists_addsWhole
    by_cases htakes : ∃ n, ColumnTakes quota x n
    · obtain ⟨n, hn⟩ := htakes
      exact ⟨n, hn, by exact_mod_cast (hall add hadd).trans (hchange add n hadd hn)⟩
    · -- a whole number is not one half
      have hm : (m : ℚ) = 1 / 2 := (hall add hadd).trans (hhalf cfg quota x htakes)
      have htwo : m * 2 = 1 := by
        have hcast : (m : ℚ) * 2 = 1 := by rw [hm]; norm_num
        exact_mod_cast hcast
      omega
  · rintro ⟨n, hn, rfl⟩ add hadd
    exact (hchange add m hadd hn).symm

/-! ### Both completions -/

/-- The orders whose completion by hand adds what their report adds, on every database.  A Creem
order has nothing to add, or a quota per unit of one.  For a Stripe order the product of the doubles
is a whole number the column takes, and the product of their decimals has it as its integer part, or
is not positive where it is zero. -/
def ManualMatches (cfg : TopUpConfig) (topUp : TopUp) (quota : ℚ) : PaymentProvider → Prop
  | .creem => topUp.amount.toInt = 0 ∨ 0 < topUp.amount.toInt ∧
      (2 : ℤ) ^ 64 ∣ ⌊(topUp.amount.toInt : ℚ) * (cfg.newFromFloat cfg.quotaPerUnit - 1)⌋
  | .stripe => ∃ n, ColumnTakes quota (topUp.money * cfg.quotaPerUnit) n ∧
      max 0 (intPart (cfg.newFromFloat topUp.money * cfg.newFromFloat cfg.quotaPerUnit)) = n
  | _ => True

theorem manualQuota_of_ne_stripe {cfg : TopUpConfig} {topUp : TopUp}
    (h : topUp.paymentProvider ≠ paymentProviderStripe) :
    cfg.manualQuota topUp = cfg.amountQuota topUp := by
  rw [TopUpConfig.manualQuota, if_neg h]

theorem max_eq_amount_iff {n a : ℤ} (hzero : a = 0 → n = 0) :
    max 0 n = a ↔ a = 0 ∨ 0 < a ∧ n = a := by
  omega

/-- What a report adds to a quota column. -/
def PaymentProvider.adds (cfg : TopUpConfig) (topUp : TopUp) (quota : ℚ) : PaymentProvider → ℚ
  | .creem => topUp.amount.toInt
  | .stripe => cfg.change quota (.double (topUp.money * cfg.quotaPerUnit))
  | _ => (max 0 (cfg.amountQuota topUp) : ℤ)

theorem addedQuota_callback {cfg : TopUpConfig} {s : TopUpStore} {t info : String} {topUp : TopUp}
    {user : TopUpUser} {now : ℤ} (provider : PaymentProvider) (ht : t ≠ "")
    (ho : s.order t = some topUp) (hpend : topUp.status = topUpStatusPending)
    (hprov : topUp.paymentProvider = provider.name) (hu : s.user topUp.userId = some user) :
    addedQuota topUp.userId s (topUpStep cfg s (provider.callback t info now)) =
      provider.adds cfg topUp user.quota := by
  have hsome : ∀ q, some provider.name = some q → topUp.paymentProvider = q := by
    intro q hq
    exact hprov.trans (Option.some.inj hq)
  cases provider with
  | epay => exact addedQuota_epayNotify ho hpend hprov hu
  | stripe => exact addedQuota_completeOrder ht ho hpend hsome hu
  | creem =>
    exact (addedQuota_completeOrder ht ho hpend hsome hu).trans (cfg.change_int user.quota _)
  | waffo | waffoPancake =>
    exact (addedQuota_completeOrder ht ho hpend hsome hu).trans (change_of_refused user.quota _)

theorem addedQuota_callback_of_none {cfg : TopUpConfig} {s : TopUpStore} {t info : String}
    {topUp : TopUp} {now : ℤ} (provider : PaymentProvider) (ho : s.order t = some topUp)
    (hu : s.user topUp.userId = none) :
    addedQuota topUp.userId s (topUpStep cfg s (provider.callback t info now)) = 0 := by
  cases provider with
  | epay => exact addedQuota_epayNotify_of_none ho hu
  | stripe => exact addedQuota_completeOrder_of_none ho hu
  | creem => exact addedQuota_completeOrder_of_none ho hu
  | waffo => exact addedQuota_completeOrder_of_none ho hu
  | waffoPancake => exact addedQuota_completeOrder_of_none ho hu

/-- What the two calls add is the same exactly if it is for the user there is. -/
theorem manual_callback_iff {cfg : TopUpConfig} {s : TopUpStore} {t info : String} {topUp : TopUp}
    {now : ℤ} (provider : PaymentProvider) (ht : t ≠ "") (ho : s.order t = some topUp)
    (hpend : topUp.status = topUpStatusPending)
    (hprov : topUp.paymentProvider = provider.name) :
    addedQuota topUp.userId s (topUpStep cfg s (.manualComplete t now)) =
        addedQuota topUp.userId s (topUpStep cfg s (provider.callback t info now)) ↔
      ∀ user, s.user topUp.userId = some user →
        ((max 0 (cfg.manualQuota topUp) : ℤ) : ℚ) = provider.adds cfg topUp user.quota := by
  cases hu : s.user topUp.userId with
  | none =>
    have hmanual : addedQuota topUp.userId s (topUpStep cfg s (.manualComplete t now)) = 0 :=
      addedQuota_completeOrder_of_none ho hu
    rw [hmanual, addedQuota_callback_of_none provider ho hu]
    simp
  | some user =>
    have hmanual : addedQuota topUp.userId s (topUpStep cfg s (.manualComplete t now)) =
        (max 0 (cfg.manualQuota topUp) : ℤ) := addedQuota_manual ht ho hpend hu
    rw [hmanual, addedQuota_callback provider ht ho hpend hprov hu]
    simp

/-- **Completing an order by hand adds what its gateway's report adds, on every database, exactly for
the orders that match.** -/
theorem manual_adds_like_callback_iff (cfg : TopUpConfig) (s : TopUpStore) (t : String)
    (topUp : TopUp) (provider : PaymentProvider) (info : String) (now : ℤ)
    (hunit : 0 < cfg.quotaPerUnit) (ht : t ≠ "") (ho : s.order t = some topUp)
    (hpend : topUp.status = topUpStatusPending)
    (hprov : topUp.paymentProvider = provider.name) :
    (∀ add, AddsWhole add →
      addedQuota topUp.userId s (topUpStep (cfg.withDatabase add) s (.manualComplete t now)) =
        addedQuota topUp.userId s
          (topUpStep (cfg.withDatabase add) s (provider.callback t info now))) ↔
      ∀ user, s.user topUp.userId = some user →
        ManualMatches cfg topUp user.quota provider := by
  obtain ⟨lawful, hlawful, -⟩ := exists_addsWhole
  have hmanual : ∀ add, (cfg.withDatabase add).manualQuota topUp = cfg.manualQuota topUp :=
    fun _ => rfl
  simp only [manual_callback_iff provider ht ho hpend hprov, hmanual]
  rw [show (∀ add, AddsWhole add → ∀ user, s.user topUp.userId = some user → _) ↔ _ from
    ⟨fun h user hu add hadd => h add hadd user hu, fun h add hadd user hu => h user hu add hadd⟩]
  refine forall_congr' fun user => imp_congr_right fun _ => ?_
  -- the completion by hand asks for the name of the provider
  cases provider with
  | stripe =>
    have hmoney : cfg.manualQuota topUp = cfg.moneyQuota topUp := if_pos hprov
    rw [hmoney]
    exact @change_double_iff cfg user.quota (topUp.money * cfg.quotaPerUnit)
      (max 0 (cfg.moneyQuota topUp))
  | creem =>
    have hne : topUp.paymentProvider ≠ paymentProviderStripe := by rw [hprov]; decide
    simp only [manualQuota_of_ne_stripe hne, ManualMatches, PaymentProvider.adds, Int.cast_inj]
    rw [← or_congr_right (and_congr_right fun hpos => amountQuota_eq_amount_iff hunit hpos),
      ← max_eq_amount_iff amountQuota_of_zero]
    exact ⟨fun h => h lawful hlawful, fun h _ _ => h⟩
  | epay | waffo | waffoPancake =>
    have hne : topUp.paymentProvider ≠ paymentProviderStripe := by rw [hprov]; decide
    exact ⟨fun _ => trivial, fun _ _ _ => by rw [manualQuota_of_ne_stripe hne]; rfl⟩

/-- A Stripe order of ten units of money is credited the same both ways, on every database. -/
theorem manual_adds_like_callback_stripe :
    let s := storeWith (pendingTopUp paymentProviderStripe 10) [1]
    ∀ add, AddsWhole add →
      addedQuota 1 s (topUpStep (defaultTopUpConfig.withDatabase add) s
          (.manualComplete "USR1NO1" 5)) =
        addedQuota 1 s (topUpStep (defaultTopUpConfig.withDatabase add) s
          (.recharge "USR1NO1" "" 5)) := by
  refine (manual_adds_like_callback_iff defaultTopUpConfig _ "USR1NO1"
    (pendingTopUp paymentProviderStripe 10) .stripe "" 5 (by decide) (by decide) (by decide) rfl
    rfl).2 fun user huser => ⟨5000000, ⟨by decide +kernel, 0, ?_⟩, by decide +kernel⟩
  obtain rfl : ⟨1, 0, "", ""⟩ = user := Option.some.inj huser
  exact ⟨rfl, by decide, by decide, by decide⟩

/-- **A Creem order is credited many times over by hand**: its amount is a quota already, and is
multiplied by the quota per unit. -/
theorem manual_creem_multiplies :
    let s := storeWith (pendingTopUp paymentProviderCreem 500000) [1]
    addedQuota 1 s (topUpStep defaultTopUpConfig s (.rechargeCreem "USR1NO1" "" 5)) = 500000 ∧
      addedQuota 1 s (topUpStep defaultTopUpConfig s (.manualComplete "USR1NO1" 5)) =
        250000000000 := by
  decide +kernel

end NewApi

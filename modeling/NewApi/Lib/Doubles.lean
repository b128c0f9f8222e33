/-
**The arithmetic of doubles, on the rational numbers.**

A finite double is a rational number, and the result of an operation is the exact one, rounded to the
double that is nearest; of two that are as near, to the one with an even last digit.  A result beyond
the largest double is none, and so is every result that is computed from it by the operations here.

Main definitions:

* `Doubles.ulp` — the distance of the doubles about a number;
* `Doubles.rounded` — the double nearest to a number;
* `Doubles.ofRat`, `Doubles.mul` — the operations.

Main results:

* `Doubles.rounded_intCast` — whole numbers up to 2⁵³ are doubles;
* `Doubles.rounded_mono`, `Doubles.rounded_nonneg` — rounding keeps the order;
* `Doubles.rounded_error` — **what rounding changes**.
-/

import Mathlib

set_option autoImplicit false

namespace Doubles

/-! ### Rounding to a whole number -/

/-- The nearest whole number, and the even one of two that are as near. -/
def halfEven (x : ℚ) : ℤ :=
  if x - ⌊x⌋ < 1 / 2 then ⌊x⌋
  else if 1 / 2 < x - ⌊x⌋ then ⌊x⌋ + 1
  else if ⌊x⌋ % 2 = 0 then ⌊x⌋
  else ⌊x⌋ + 1

theorem floor_le_halfEven (x : ℚ) : ⌊x⌋ ≤ halfEven x := by
  unfold halfEven
  split_ifs <;> omega

theorem halfEven_le_floor (x : ℚ) : halfEven x ≤ ⌊x⌋ + 1 := by
  unfold halfEven
  split_ifs <;> omega

@[simp] theorem halfEven_intCast (n : ℤ) : halfEven n = n := by
  unfold halfEven
  rw [Int.floor_intCast, sub_self, if_pos (by norm_num)]

theorem halfEven_mono {x y : ℚ} (h : x ≤ y) : halfEven x ≤ halfEven y := by
  rcases (Int.floor_le_floor h).lt_or_eq with hlt | heq
  · exact (halfEven_le_floor x).trans (hlt.trans_le (floor_le_halfEven y))
  · -- between two whole numbers the larger one is nearer to the number above
    unfold halfEven
    rw [heq]
    split_ifs <;> first | omega | (exfalso; linarith)

theorem abs_halfEven_sub (x : ℚ) : |(halfEven x : ℚ) - x| ≤ 1 / 2 := by
  have hlow := Int.floor_le x
  have hhigh := Int.lt_floor_add_one x
  unfold halfEven
  split_ifs <;> push_cast <;> rw [abs_le] <;> constructor <;> linarith

/-! ### Rounding to a double -/

/-- The exponent of the last of the 53 binary digits of a number; the digits end at 2⁻¹⁰⁷⁴. -/
def exponent (x : ℚ) : ℤ := max (Int.log 2 x - 52) (-1074)

/-- The distance of the doubles about a number. -/
def ulp (x : ℚ) : ℚ := 2 ^ exponent x

theorem ulp_pos (x : ℚ) : 0 < ulp x := zpow_pos two_pos _

/-- The double nearest to a number that is not negative. -/
def nearest (x : ℚ) : ℚ := halfEven (x / ulp x) * ulp x

/-- The double nearest to a number. -/
def rounded (x : ℚ) : ℚ := if 0 ≤ x then nearest x else -nearest (-x)

/-- A multiple of the distance is a double. -/
theorem nearest_of_multiple {x : ℚ} {m : ℤ} (h : x = m * ulp x) : nearest x = x := by
  have hdiv : x / ulp x = m := (div_eq_iff (ulp_pos x).ne').2 h
  rw [nearest, hdiv, halfEven_intCast, ← h]

/-- Rounding does not go beyond a power of two that is a multiple of the distance. -/
theorem nearest_le_zpow {x : ℚ} {k : ℤ} (hk : exponent x ≤ k) (h : x ≤ 2 ^ k) :
    nearest x ≤ 2 ^ k := by
  have hmul : (2 : ℚ) ^ k = ((2 : ℤ) ^ (k - exponent x).toNat : ℤ) * ulp x := by
    push_cast
    rw [ulp, ← zpow_natCast, ← zpow_add₀ two_ne_zero]
    congr 1
    omega
  have hround : halfEven (x / ulp x) ≤ (2 : ℤ) ^ (k - exponent x).toNat := by
    rw [← halfEven_intCast ((2 : ℤ) ^ (k - exponent x).toNat)]
    exact halfEven_mono ((div_le_iff₀ (ulp_pos x)).2 (h.trans_eq hmul))
  rw [hmul, nearest]
  exact mul_le_mul_of_nonneg_right (by exact_mod_cast hround) (ulp_pos x).le

theorem zpow_le_nearest {x : ℚ} {k : ℤ} (hk : exponent x ≤ k) (h : 2 ^ k ≤ x) :
    2 ^ k ≤ nearest x := by
  have hmul : (2 : ℚ) ^ k = ((2 : ℤ) ^ (k - exponent x).toNat : ℤ) * ulp x := by
    push_cast
    rw [ulp, ← zpow_natCast, ← zpow_add₀ two_ne_zero]
    congr 1
    omega
  have hround : (2 : ℤ) ^ (k - exponent x).toNat ≤ halfEven (x / ulp x) := by
    rw [← halfEven_intCast ((2 : ℤ) ^ (k - exponent x).toNat)]
    exact halfEven_mono ((le_div_iff₀ (ulp_pos x)).2 (hmul.symm.trans_le h))
  rw [hmul, nearest]
  exact mul_le_mul_of_nonneg_right (by exact_mod_cast hround) (ulp_pos x).le

theorem nearest_mono {x y : ℚ} (hx : 0 < x) (h : x ≤ y) : nearest x ≤ nearest y := by
  have hlog := Int.log_mono_right (b := 2) hx h
  have hexp : exponent x ≤ exponent y := by
    unfold exponent
    omega
  rcases hexp.eq_or_lt with heq | hlt
  · have hulp : ulp x = ulp y := by rw [ulp, ulp, heq]
    have hdiv : x / ulp y ≤ y / ulp y := div_le_div_of_nonneg_right h (ulp_pos y).le
    rw [nearest, nearest, hulp]
    exact mul_le_mul_of_nonneg_right (by exact_mod_cast halfEven_mono hdiv) (ulp_pos y).le
  · -- a power of two lies between the two
    have hlogs : Int.log 2 x + 1 ≤ Int.log 2 y := by
      unfold exponent at hlt
      omega
    have hle : exponent y ≤ Int.log 2 y := by
      unfold exponent at hlt ⊢
      omega
    have hbelow : x ≤ (2 : ℚ) ^ Int.log 2 y :=
      (Int.lt_zpow_succ_log_self (R := ℚ) one_lt_two x).le.trans
        (zpow_le_zpow_right₀ one_le_two hlogs)
    have habove : (2 : ℚ) ^ Int.log 2 y ≤ y :=
      Int.zpow_log_le_self (R := ℚ) one_lt_two (hx.trans_le h)
    exact (nearest_le_zpow (hlt.le.trans hle) hbelow).trans (zpow_le_nearest hle habove)

@[simp] theorem nearest_zero : nearest 0 = 0 := by
  rw [nearest, zero_div]
  norm_num [halfEven]

theorem nearest_nonneg {x : ℚ} (h : 0 ≤ x) : 0 ≤ nearest x := by
  have hround : 0 ≤ halfEven (x / ulp x) :=
    (Int.floor_nonneg.2 (div_nonneg h (ulp_pos x).le)).trans (floor_le_halfEven _)
  exact mul_nonneg (by exact_mod_cast hround) (ulp_pos x).le

theorem rounded_of_nonneg {x : ℚ} (h : 0 ≤ x) : rounded x = nearest x := if_pos h

@[simp] theorem rounded_zero : rounded 0 = 0 := by rw [rounded_of_nonneg le_rfl, nearest_zero]

theorem rounded_nonneg {x : ℚ} (h : 0 ≤ x) : 0 ≤ rounded x := by
  rw [rounded_of_nonneg h]
  exact nearest_nonneg h

theorem rounded_mono {x y : ℚ} (hx : 0 ≤ x) (h : x ≤ y) : rounded x ≤ rounded y := by
  rcases hx.eq_or_lt with rfl | hpos
  · rw [rounded_zero]
    exact rounded_nonneg h
  · rw [rounded_of_nonneg hx, rounded_of_nonneg (hx.trans h)]
    exact nearest_mono hpos h

/-- Rounding changes a number by half a unit of its 53rd digit at most, or of the last digit there
is. -/
theorem rounded_error {x : ℚ} (h : 0 ≤ x) : |rounded x - x| ≤ x / 2 ^ 53 + 2 ^ (-1075 : ℤ) := by
  have hnear : |nearest x - x| ≤ ulp x / 2 := by
    have hx : x = x / ulp x * ulp x := (div_mul_cancel₀ x (ulp_pos x).ne').symm
    calc |nearest x - x| = |(halfEven (x / ulp x) - x / ulp x) * ulp x| := by
          rw [nearest, sub_mul, ← hx]
      _ = |halfEven (x / ulp x) - x / ulp x| * ulp x := by rw [abs_mul, abs_of_pos (ulp_pos x)]
      _ ≤ 1 / 2 * ulp x := mul_le_mul_of_nonneg_right (abs_halfEven_sub _) (ulp_pos x).le
      _ = ulp x / 2 := by ring
  rw [rounded_of_nonneg h]
  rcases h.eq_or_lt with rfl | hpos
  · rw [nearest_zero]
    norm_num [zpow_pos]
  · refine hnear.trans ?_
    have hlog : (2 : ℚ) ^ Int.log 2 x ≤ x := Int.zpow_log_le_self (R := ℚ) one_lt_two hpos
    have hulp : ulp x ≤ 2 ^ (Int.log 2 x - 52) + 2 ^ (-1074 : ℤ) := by
      have hone := zpow_pos (two_pos (α := ℚ)) (Int.log 2 x - 52)
      have htwo := zpow_pos (two_pos (α := ℚ)) (-1074)
      unfold ulp exponent
      rcases max_cases (Int.log 2 x - 52) (-1074) with ⟨he, _⟩ | ⟨he, _⟩ <;> rw [he] <;> linarith
    have hsplit : (2 : ℚ) ^ (Int.log 2 x - 52) = 2 ^ Int.log 2 x / 2 ^ 52 := by
      rw [zpow_sub₀ two_ne_zero]
      rfl
    have hlast : (2 : ℚ) ^ (-1074 : ℤ) = 2 * 2 ^ (-1075 : ℤ) := by
      rw [← zpow_one_add₀ two_ne_zero]
      rfl
    rw [hsplit, hlast] at hulp
    generalize (2 : ℚ) ^ (-1075 : ℤ) = last at hulp ⊢
    norm_num at hulp ⊢
    linarith

/-- A whole number with at most 53 digits is a double. -/
theorem nearest_natCast {n : ℕ} (h : n ≤ 2 ^ 53) : nearest n = n := by
  have hlog : Int.log 2 (n : ℚ) = Nat.log 2 n := Int.log_natCast 2 n
  rcases h.eq_or_lt with rfl | hlt
  · have hpow : Nat.log 2 (2 ^ 53) = 53 := Nat.log_pow one_lt_two 53
    refine nearest_of_multiple (m := 2 ^ 52) ?_
    rw [ulp, exponent, hlog, hpow]
    norm_num
  · have hsmall : Nat.log 2 n ≤ 52 := by
      rcases n.eq_zero_or_pos with rfl | hpos
      · simp
      · exact Nat.le_of_lt_succ ((Nat.log_lt_iff_lt_pow one_lt_two hpos.ne').2 hlt)
    have hexp : exponent n = -((52 - Nat.log 2 n : ℕ) : ℤ) := by
      rw [exponent, hlog]
      omega
    refine nearest_of_multiple (m := n * 2 ^ (52 - Nat.log 2 n)) ?_
    rw [ulp, hexp, zpow_neg, zpow_natCast]
    push_cast
    rw [mul_assoc, mul_inv_cancel₀ (by positivity), mul_one]

/-- **Whole numbers up to 2⁵³ are doubles.** -/
theorem rounded_intCast {n : ℤ} (h : |n| ≤ 2 ^ 53) : rounded n = n := by
  have hnat : n.natAbs ≤ 2 ^ 53 := by
    rw [Int.abs_eq_natAbs] at h
    exact_mod_cast h
  have hdouble := nearest_natCast hnat
  unfold rounded
  split
  · rename_i hnonneg
    have hn : (n : ℚ) = n.natAbs := by
      rw [Nat.cast_natAbs, abs_of_nonneg (by exact_mod_cast hnonneg)]
    rw [hn, hdouble]
  · rename_i hneg
    have hn : -(n : ℚ) = n.natAbs := by
      rw [Nat.cast_natAbs, abs_of_neg (by exact_mod_cast not_le.1 hneg), Int.cast_neg]
    rw [hn, hdouble, ← hn, neg_neg]

/-! ### Operations -/

/-- The double nearest to a number, unless it is too large for one. -/
def ofRat (x : ℚ) : Option ℚ := if |rounded x| < 2 ^ 1024 then some (rounded x) else none

def mul (x y : Option ℚ) : Option ℚ := x.bind fun a => y.bind fun b => ofRat (a * b)

theorem ofRat_eq {x y : ℚ} (h : ofRat x = some y) : y = rounded x := by
  unfold ofRat at h
  split at h
  · exact (Option.some.inj h).symm
  · cases h

theorem ofRat_nonneg {x y : ℚ} (hx : 0 ≤ x) (h : ofRat x = some y) : 0 ≤ y := by
  rw [ofRat_eq h]
  exact rounded_nonneg hx

@[simp] theorem ofRat_zero : ofRat 0 = some 0 := by
  rw [ofRat, rounded_zero, if_pos (by rw [abs_zero]; positivity)]

/-- What is not larger than a number that has a double has one too. -/
theorem ofRat_mono {x x' y : ℚ} (hx : 0 ≤ x') (hle : x' ≤ x) (h : ofRat x = some y) :
    ∃ y', ofRat x' = some y' ∧ 0 ≤ y' ∧ y' ≤ y := by
  have hmono := rounded_mono hx hle
  have hsmall : |rounded x| < 2 ^ 1024 := by
    by_contra hlarge
    rw [ofRat, if_neg hlarge] at h
    cases h
  rw [abs_of_nonneg (rounded_nonneg (hx.trans hle))] at hsmall
  refine ⟨rounded x', ?_, rounded_nonneg hx, hmono.trans_eq (ofRat_eq h).symm⟩
  rw [ofRat, abs_of_nonneg (rounded_nonneg hx), if_pos (hmono.trans_lt hsmall)]

theorem mul_eq_some {x y : Option ℚ} {z : ℚ} :
    mul x y = some z ↔ ∃ a b, x = some a ∧ y = some b ∧ ofRat (a * b) = some z := by
  simp only [mul, Option.bind_eq_some_iff]
  constructor
  · rintro ⟨a, ha, b, hb, hz⟩
    exact ⟨a, b, ha, hb, hz⟩
  · rintro ⟨a, b, ha, hb, hz⟩
    exact ⟨a, ha, b, hb, hz⟩

/-- A number that has a double is not much larger than the largest one. -/
theorem lt_of_ofRat {x y : ℚ} (hx : 0 ≤ x) (h : ofRat x = some y) : x < 2 ^ 1025 := by
  have hsmall : |rounded x| < 2 ^ 1024 := by
    by_contra hlarge
    rw [ofRat, if_neg hlarge] at h
    cases h
  rw [abs_of_nonneg (rounded_nonneg hx)] at hsmall
  have herr := abs_le.1 (rounded_error hx)
  have hone : (2 : ℚ) ^ (-1075 : ℤ) ≤ 1 := zpow_le_one_of_nonpos₀ one_le_two (by norm_num)
  have hlarge : (4 : ℚ) ≤ 2 ^ 1024 :=
    (show (4 : ℚ) = 2 ^ 2 by norm_num).trans_le (pow_le_pow_right₀ one_le_two (by norm_num))
  rw [pow_succ]
  generalize (2 : ℚ) ^ 1024 = bound at *
  linarith

/-- **What the product of two rounded numbers is off**: at most 2⁻⁵¹ of it, and less than one. -/
theorem rounded_mul_error {a b a' b' : ℚ} (ha : 0 ≤ a) (hb : 0 ≤ b) (ha' : 0 ≤ a') (hb' : 0 ≤ b')
    (hfinite : a < 2 ^ 1025) (hfinite' : b < 2 ^ 1025)
    (herr : |a' - a| ≤ a / 2 ^ 53 + 2 ^ (-1075 : ℤ))
    (herr' : |b' - b| ≤ b / 2 ^ 53 + 2 ^ (-1075 : ℤ)) :
    |rounded (a' * b') - a * b| ≤ a * b / 2 ^ 51 + 1 := by
  have hpos : (0 : ℚ) < 2 ^ (-1075 : ℤ) := zpow_pos two_pos _
  have hone : (2 : ℚ) ^ (-1075 : ℤ) ≤ 1 / 16 :=
    (zpow_le_zpow_right₀ one_le_two (by norm_num : (-1075 : ℤ) ≤ -4)).trans_eq (by norm_num)
  have hsmall : (2 : ℚ) ^ 1025 * 2 ^ (-1075 : ℤ) ≤ 1 / 16 := by
    rw [← zpow_natCast, ← zpow_add₀ two_ne_zero]
    norm_num
  have hround := abs_le.1 (rounded_error (mul_nonneg ha' hb'))
  obtain ⟨hlow, hhigh⟩ := abs_le.1 herr
  obtain ⟨hlow', hhigh'⟩ := abs_le.1 herr'
  have hal := mul_le_mul_of_nonneg_right hfinite.le hpos.le
  have hbl := mul_le_mul_of_nonneg_right hfinite'.le hpos.le
  generalize (2 : ℚ) ^ (-1075 : ℤ) = last at *
  generalize (2 : ℚ) ^ 1025 = bound at *
  have habove : a' * b' ≤ (a * (1 + 1 / 2 ^ 53) + last) * (b * (1 + 1 / 2 ^ 53) + last) :=
    mul_le_mul (by linarith) (by linarith) hb' (by positivity)
  have hbelow : (a * (1 - 1 / 2 ^ 53) - last) * b' ≤ a' * b' :=
    mul_le_mul_of_nonneg_right (by linarith) hb'
  have hbelow' : a * (1 - 1 / 2 ^ 53) * (b * (1 - 1 / 2 ^ 53) - last) ≤
      a * (1 - 1 / 2 ^ 53) * b' :=
    mul_le_mul_of_nonneg_left (by linarith) (mul_nonneg ha (by norm_num))
  have hrest : last * b' ≤ last * (b * (1 + 1 / 2 ^ 53) + last) :=
    mul_le_mul_of_nonneg_left (by linarith) hpos.le
  have hab := mul_nonneg ha hb
  have hll : last * last ≤ last := by nlinarith
  have hal' := mul_nonneg ha hpos.le
  have hbl' := mul_nonneg hb hpos.le
  rw [abs_le]
  constructor <;> nlinarith

end Doubles

/-
  Recast numbers — fractions of naturals.

  What is compared and rounded in naturals are rationals.

  * `raised_eq`, `div_raised`: a scaled fraction has the scaled value; `mul_raised_le_iff`,
    `le_mul_raised_iff`: comparing it is comparing values;
  * `binaryExponent_spec`, `decimalExponent_spec`: the power of two, of ten below a fraction;
  * `roundDiv_eq`: a quotient is rounded to `m` if it is at most a half away, an exact half only for
    an even `m`; `abs_sub_roundDiv_le`: no natural is nearer;
  * `roundDiv_congr`: rounding depends on the value of a fraction alone.
-/
import Mathlib.Algebra.Order.Field.Basic
import Mathlib.Algebra.Order.Field.Power
import Mathlib.Algebra.Order.Ring.Rat
import Mathlib.Data.Rat.Cast.Order
import Mathlib.Tactic.FieldSimp
import Mathlib.Tactic.Linarith
import Mathlib.Tactic.NormNum
import Mathlib.Tactic.Ring
import Recast.Number.Shortest

namespace Recast.Number

/-! ## Powers -/

theorem raised_pos {base : Nat} (hbase : 0 < base) (e : Int) : 0 < raised base e :=
  Nat.pow_pos hbase

/-- A scaled fraction has the scaled value. -/
theorem raised_eq {base : Nat} (hbase : 0 < base) (e : Int) :
    (raised base e : ℚ) = (base : ℚ) ^ e * raised base (-e) := by
  have hne : (base : ℚ) ≠ 0 := by exact_mod_cast hbase.ne'
  unfold raised
  rcases Int.le_total 0 e with he | he
  · obtain ⟨n, rfl⟩ := Int.eq_ofNat_of_zero_le he
    simp
  · obtain ⟨n, hn⟩ := Int.eq_ofNat_of_zero_le (Int.neg_nonneg.2 he)
    obtain rfl : e = -(n : Int) := by omega
    simp [hne]

theorem div_raised {base : Nat} (hbase : 0 < base) (a b : Nat) (e : Int) :
    ((a * raised base (-e) : Nat) : ℚ) / ((b * raised base e : Nat) : ℚ) =
      (a : ℚ) / b / (base : ℚ) ^ e := by
  have hne : (base : ℚ) ≠ 0 := by exact_mod_cast hbase.ne'
  have hraised : (raised base (-e) : ℚ) ≠ 0 := by exact_mod_cast (raised_pos hbase _).ne'
  push_cast
  rw [raised_eq hbase e]
  field_simp

section Compare

variable {base : Nat} (hbase : 0 < base) (a : Nat) {b : Nat} (hb : 0 < b) (n : Nat) (e : Int)
include hbase hb

theorem mul_raised_le_iff : a * raised base (-e) ≤ n * (b * raised base e) ↔
    (a : ℚ) / b ≤ n * (base : ℚ) ^ e := by
  have hden : (0 : ℚ) < (b * raised base e : Nat) := by
    exact_mod_cast Nat.mul_pos hb (raised_pos hbase e)
  have hpow : (0 : ℚ) < (base : ℚ) ^ e := zpow_pos (by exact_mod_cast hbase) e
  rw [← div_le_iff₀ hpow, ← div_raised hbase, div_le_iff₀ hden]
  norm_cast

theorem le_mul_raised_iff : n * (b * raised base e) ≤ a * raised base (-e) ↔
    n * (base : ℚ) ^ e ≤ (a : ℚ) / b := by
  have hden : (0 : ℚ) < (b * raised base e : Nat) := by
    exact_mod_cast Nat.mul_pos hb (raised_pos hbase e)
  have hpow : (0 : ℚ) < (base : ℚ) ^ e := zpow_pos (by exact_mod_cast hbase) e
  rw [← le_div_iff₀ hpow, ← div_raised hbase, le_div_iff₀ hden]
  norm_cast

end Compare

/-! ## Binary exponents -/

section Exponent

variable {a b : Nat} (ha : 0 < a) (hb : 0 < b)
include ha hb

theorem log2_bounds : (2 : ℚ) ^ ((a.log2 : Int) - b.log2 - 1) ≤ (a : ℚ) / b ∧
    (a : ℚ) / b < (2 : ℚ) ^ ((a.log2 : Int) - b.log2 + 1) := by
  have hpos : (0 : ℚ) < b := by exact_mod_cast hb
  have hlow : (2 : ℚ) ^ a.log2 ≤ a := by exact_mod_cast Nat.log2_self_le ha.ne'
  have hhigh : (a : ℚ) < 2 ^ (a.log2 + 1) := by exact_mod_cast Nat.lt_log2_self
  have hlow' : (2 : ℚ) ^ b.log2 ≤ b := by exact_mod_cast Nat.log2_self_le hb.ne'
  have hhigh' : (b : ℚ) < 2 ^ (b.log2 + 1) := by exact_mod_cast Nat.lt_log2_self
  constructor
  · rw [le_div_iff₀ hpos]
    calc (2 : ℚ) ^ ((a.log2 : Int) - b.log2 - 1) * b
        ≤ 2 ^ ((a.log2 : Int) - b.log2 - 1) * 2 ^ (b.log2 + 1) := by gcongr
      _ = 2 ^ a.log2 := by
        rw [← zpow_natCast, ← zpow_natCast, ← zpow_add₀ (by norm_num)]
        congr 1
        push_cast
        ring
      _ ≤ a := hlow
  · rw [div_lt_iff₀ hpos]
    calc (a : ℚ) < 2 ^ (a.log2 + 1) := hhigh
      _ = 2 ^ ((a.log2 : Int) - b.log2 + 1) * 2 ^ b.log2 := by
        rw [← zpow_natCast, ← zpow_natCast, ← zpow_add₀ (by norm_num)]
        congr 1
        push_cast
        ring
      _ ≤ 2 ^ ((a.log2 : Int) - b.log2 + 1) * b := by gcongr

/-- **The binary exponent is the exponent of the power of two below a fraction.** -/
theorem binaryExponent_spec : (2 : ℚ) ^ binaryExponent a b ≤ (a : ℚ) / b ∧
    (a : ℚ) / b < (2 : ℚ) ^ (binaryExponent a b + 1) := by
  obtain ⟨hlow, hhigh⟩ := log2_bounds ha hb
  have hstep := le_mul_raised_iff two_pos a hb 1 (a.log2 - b.log2)
  rw [Nat.one_mul, Nat.cast_one, one_mul] at hstep
  unfold binaryExponent
  dsimp only
  split_ifs with hlt
  · rw [sub_add_cancel]
    exact ⟨hlow, not_le.1 fun h => absurd (hstep.2 h) (not_le.2 hlt)⟩
  · exact ⟨hstep.1 (not_lt.1 hlt), hhigh⟩

theorem binaryExponent_eq {e : Int} (hlow : (2 : ℚ) ^ e ≤ (a : ℚ) / b)
    (hhigh : (a : ℚ) / b < (2 : ℚ) ^ (e + 1)) : binaryExponent a b = e := by
  obtain ⟨hlow', hhigh'⟩ := binaryExponent_spec ha hb
  have hle : binaryExponent a b < e + 1 :=
    (zpow_lt_zpow_iff_right₀ (by norm_num)).1 (hlow'.trans_lt hhigh)
  have hge : e < binaryExponent a b + 1 :=
    (zpow_lt_zpow_iff_right₀ (by norm_num)).1 (hlow.trans_lt hhigh')
  omega

end Exponent

/-! ## Decimal exponents -/

theorem exists_decimalLength_eq {n : Nat} (hn : 0 < n) :
    ∃ k, decimalLength n = k + 1 ∧ 10 ^ k ≤ n ∧ n < 10 ^ (k + 1) := by
  have hpos : 0 < decimalLength n := Nat.length_toDigits_pos
  obtain ⟨k, hk⟩ : ∃ k, decimalLength n = k + 1 := ⟨decimalLength n - 1, by omega⟩
  have hlt : n < 10 ^ decimalLength n :=
    (Nat.length_toDigits_le_iff (by norm_num) hpos).1 le_rfl
  refine ⟨k, hk, ?_, hk ▸ hlt⟩
  rcases Nat.eq_zero_or_pos k with rfl | hkpos
  · exact hn
  · refine not_lt.1 fun hfewer => ?_
    have hle : decimalLength n ≤ k := (Nat.length_toDigits_le_iff (by norm_num) hkpos).2 hfewer
    omega

/-- The least natural that is not below `b / a`, less one. -/
theorem ceil_sub_one_spec {a b : Nat} (ha : 0 < a) (hlt : a < b) :
    0 < (b + a - 1) / a - 1 ∧ a * ((b + a - 1) / a - 1) < b ∧ b ≤ a * ((b + a - 1) / a - 1 + 1) := by
  have hdivmod := Nat.div_add_mod (b + a - 1) a
  have hmod := Nat.mod_lt (b + a - 1) ha
  obtain ⟨c, hc⟩ : ∃ c, (b + a - 1) / a = c + 1 :=
    ⟨(b + a - 1) / a - 1, by have := Nat.div_pos (by omega : a ≤ b + a - 1) ha; omega⟩
  rw [hc, Nat.mul_add, Nat.mul_one] at hdivmod
  rw [hc, Nat.add_sub_cancel, Nat.mul_add, Nat.mul_one]
  refine ⟨Nat.pos_of_ne_zero fun hzero => ?_, by omega, by omega⟩
  rw [hzero, Nat.mul_zero] at hdivmod
  omega

section Exponent

variable {a b : Nat} (hb : 0 < b)
include hb

theorem decimalExponent_of_le (hle : b ≤ a) : (10 : ℚ) ^ decimalExponent a b ≤ (a : ℚ) / b ∧
    (a : ℚ) / b < (10 : ℚ) ^ (decimalExponent a b + 1) := by
  have hden : (0 : ℚ) < b := by exact_mod_cast hb
  obtain ⟨k, hk, hlow, hhigh⟩ := exists_decimalLength_eq (Nat.div_pos hle hb)
  have hexponent : decimalExponent a b = k := by
    rw [decimalExponent, if_pos hle, hk]
    push_cast
    ring
  rw [Nat.le_div_iff_mul_le hb] at hlow
  rw [Nat.div_lt_iff_lt_mul hb] at hhigh
  rw [hexponent, le_div_iff₀ hden, div_lt_iff₀ hden]
  exact ⟨by exact_mod_cast hlow, by exact_mod_cast hhigh⟩

theorem decimalExponent_of_lt (ha : 0 < a) (hlt : a < b) :
    (10 : ℚ) ^ decimalExponent a b ≤ (a : ℚ) / b ∧
      (a : ℚ) / b < (10 : ℚ) ^ (decimalExponent a b + 1) := by
  have hden : (0 : ℚ) < b := by exact_mod_cast hb
  obtain ⟨hpos, hbelow, habove⟩ := ceil_sub_one_spec ha hlt
  obtain ⟨k, hk, hlow, hhigh⟩ := exists_decimalLength_eq hpos
  have hexponent : decimalExponent a b = -((k + 1 : Nat) : Int) := by
    rw [decimalExponent, if_neg (not_le.2 hlt), hk]
  have hnext : -((k + 1 : Nat) : Int) + 1 = -(k : Int) := by
    push_cast
    ring
  have hleast : b ≤ a * 10 ^ (k + 1) := habove.trans (Nat.mul_le_mul_left a hhigh)
  have hmost : a * 10 ^ k < b := lt_of_le_of_lt (Nat.mul_le_mul_left a hlow) hbelow
  rw [hexponent, hnext, zpow_neg, zpow_neg, zpow_natCast, zpow_natCast, le_div_iff₀ hden,
    div_lt_iff₀ hden, inv_mul_le_iff₀ (by positivity), ← div_eq_inv_mul, lt_div_iff₀ (by positivity)]
  rw [Nat.mul_comm] at hleast
  exact ⟨by exact_mod_cast hleast, by exact_mod_cast hmost⟩

/-- **The decimal exponent is the exponent of the power of ten below a fraction.** -/
theorem decimalExponent_spec (ha : 0 < a) : (10 : ℚ) ^ decimalExponent a b ≤ (a : ℚ) / b ∧
    (a : ℚ) / b < (10 : ℚ) ^ (decimalExponent a b + 1) := by
  rcases le_or_gt b a with hle | hlt
  · exact decimalExponent_of_le hb hle
  · exact decimalExponent_of_lt hb ha hlt

end Exponent

/-! ## Rounded quotients -/

section Quotient

variable {a b : Nat} (hb : 0 < b)
include hb

theorem roundDiv_le {n : Nat} (h : a ≤ n * b) : roundDiv a b ≤ n := by
  have hdivmod := Nat.div_add_mod a b
  have hq : a / b ≤ n := Nat.div_le_of_le_mul (by rwa [Nat.mul_comm])
  have hexact : a / b = n → a % b = 0 := by
    intro hn
    rw [hn, Nat.mul_comm] at hdivmod
    omega
  unfold roundDiv
  dsimp only
  split_ifs <;> omega

theorem le_roundDiv {n : Nat} (h : n * b ≤ a) : n ≤ roundDiv a b := by
  have hq : n ≤ a / b := (Nat.le_div_iff_mul_le hb).2 h
  unfold roundDiv
  dsimp only
  split_ifs <;> omega

/-- A quotient is its whole part and a fraction, and it is rounded by whether that is less than a
    half. -/
theorem exists_fraction : ∃ f : ℚ, (a : ℚ) / b = (a / b : Nat) + f ∧ 0 ≤ f ∧ f < 1 ∧
    (2 * (a % b) < b ↔ f < 1 / 2) ∧ (b < 2 * (a % b) ↔ 1 / 2 < f) := by
  have hpos : (0 : ℚ) < b := by exact_mod_cast hb
  refine ⟨((a % b : Nat) : ℚ) / b, ?_, by positivity, ?_, ?_, ?_⟩
  · field_simp
    exact_mod_cast (Nat.div_add_mod a b).symm
  · rw [div_lt_one hpos]
    exact_mod_cast Nat.mod_lt a hb
  · rw [div_lt_iff₀ hpos, ← Nat.cast_lt (α := ℚ)]
    push_cast
    constructor <;> intro h <;> linarith
  · rw [lt_div_iff₀ hpos, ← Nat.cast_lt (α := ℚ)]
    push_cast
    constructor <;> intro h <;> linarith

/-- **A quotient is rounded to the nearest natural, an exact half to the even one.** -/
theorem roundDiv_eq {m : Nat} (hlow : (m : ℚ) - 1 / 2 ≤ (a : ℚ) / b) (hhigh : (a : ℚ) / b ≤ m + 1 / 2)
    (heven : m % 2 = 1 → (m : ℚ) - 1 / 2 < (a : ℚ) / b ∧ (a : ℚ) / b < m + 1 / 2) :
    roundDiv a b = m := by
  obtain ⟨f, hvalue, hnonneg, hlt, hbelow, habove⟩ := exists_fraction hb (a := a)
  rw [hvalue] at hlow hhigh heven
  unfold roundDiv
  dsimp only
  split_ifs with h₁ h₂
  · have hm : (m : ℚ) < (a / b : Nat) + 1 := by linarith [hbelow.1 h₁]
    have hq : ((a / b : Nat) : ℚ) < m + 1 := by linarith
    norm_cast at hm hq
    omega
  · have hm : (m : ℚ) < (a / b : Nat) + 2 := by linarith
    have hq : ((a / b : Nat) : ℚ) < m := by linarith [habove.1 h₂]
    norm_cast at hm hq
    omega
  · have hhalf : f = 1 / 2 :=
      le_antisymm (not_lt.1 fun h => h₂ (habove.2 h)) (not_lt.1 fun h => h₁ (hbelow.2 h))
    rw [hhalf] at hlow hhigh heven
    have hm : (m : ℚ) ≤ (a / b : Nat) + 1 := by linarith
    have hq : ((a / b : Nat) : ℚ) ≤ m := by linarith
    have hodd : m % 2 = 1 → (m : ℚ) < (a / b : Nat) + 1 ∧ ((a / b : Nat) : ℚ) < m := fun hm => by
      obtain ⟨hleft, hright⟩ := heven hm
      constructor <;> linarith
    norm_cast at hm hq hodd
    omega

/-- The rounded quotient is at most a half away. -/
theorem abs_sub_roundDiv_le_half : |(a : ℚ) / b - roundDiv a b| ≤ 1 / 2 := by
  obtain ⟨f, hvalue, hnonneg, hlt, hbelow, habove⟩ := exists_fraction hb (a := a)
  rw [hvalue, abs_le]
  unfold roundDiv
  dsimp only
  split_ifs with h₁ h₂
  · have := hbelow.1 h₁
    constructor <;> linarith
  · have := habove.1 h₂
    push_cast
    constructor <;> linarith
  · have hhalf : f = 1 / 2 :=
      le_antisymm (not_lt.1 fun h => h₂ (habove.2 h)) (not_lt.1 fun h => h₁ (hbelow.2 h))
    have heven : ((a / b % 2 : Nat) : ℚ) = 0 ∨ ((a / b % 2 : Nat) : ℚ) = 1 := by
      rcases Nat.mod_two_eq_zero_or_one (a / b) with hmod | hmod <;> simp [hmod]
    push_cast at heven ⊢
    rw [hhalf]
    rcases heven with hmod | hmod <;> rw [hmod] <;> constructor <;> linarith

/-- No natural is nearer to a quotient than the rounded one. -/
theorem abs_sub_roundDiv_le (n : Nat) : |(a : ℚ) / b - roundDiv a b| ≤ |(a : ℚ) / b - n| := by
  have hhalf := abs_sub_roundDiv_le_half hb (a := a)
  by_cases hn : n = roundDiv a b
  · rw [hn]
  · have hone : (1 : ℚ) ≤ |(n : ℚ) - roundDiv a b| := by
      have hint : (1 : Int) ≤ |(n : Int) - roundDiv a b| := Int.one_le_abs (by omega)
      exact_mod_cast hint
    have htriangle := abs_sub_le (n : ℚ) ((a : ℚ) / b) (roundDiv a b)
    rw [abs_sub_comm (n : ℚ) ((a : ℚ) / b)] at htriangle
    linarith

end Quotient

theorem roundDiv_mul_right (a b : Nat) {c : Nat} (hc : 0 < c) :
    roundDiv (a * c) (b * c) = roundDiv a b := by
  unfold roundDiv
  dsimp only
  rw [Nat.mul_div_mul_right _ _ hc, Nat.mul_mod_mul_right, ← Nat.mul_assoc]
  simp only [Nat.mul_lt_mul_right hc]

theorem roundDiv_congr {a b c d : Nat} (hb : 0 < b) (hd : 0 < d) (h : (a : ℚ) / b = (c : ℚ) / d) :
    roundDiv a b = roundDiv c d := by
  have hcross : a * d = c * b := by
    rw [div_eq_div_iff (by exact_mod_cast hb.ne') (by exact_mod_cast hd.ne')] at h
    exact_mod_cast h
  rw [← roundDiv_mul_right a b hd, hcross, Nat.mul_comm b d, roundDiv_mul_right c d hb]

end Recast.Number

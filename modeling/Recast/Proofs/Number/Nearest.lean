/-
  Recast numbers — the double nearest to a fraction.

  A double is canonical if its significand uses all 53 binary digits, or its power is the least one;
  every result of an operation is.

  * `Binary64.value`, `Interval.Contains`: the rational of a double, and those in an interval;
  * `isCanonical_of_nearest?`: the nearest double is canonical;
  * `nearest?_of_contains`: a fraction in the interval of a canonical double is rounded to it.
-/
import Recast.Proofs.Number.Fraction

namespace Recast.Number

/-! ## Nearest doubles -/

namespace Binary64

/-- The rational that a double stands for. -/
def value (x : Binary64) : ℚ :=
  x.significand * 2 ^ x.power

/-- A double as operations return it: 53 binary digits, or the least power. -/
structure IsCanonical (x : Binary64) : Prop where
  significand_lt : x.significand < 2 * leastNormal
  normal : leastNormal ≤ x.significand ∨ x.power = leastPower
  leastPower_le : leastPower ≤ x.power
  le_mostPower : x.power ≤ mostPower

end Binary64

/-- The rationals in an interval. -/
def Interval.Contains (i : Interval) (v : ℚ) : Prop :=
  if i.closed then i.low * 2 ^ i.power ≤ v ∧ v ≤ i.high * 2 ^ i.power
  else i.low * 2 ^ i.power < v ∧ v < i.high * 2 ^ i.power

namespace Binary64

theorem cast_leastNormal : (leastNormal : ℚ) = 2 ^ (52 : Int) := by
  norm_num [leastNormal]

theorem isCanonical_zero : zero.IsCanonical :=
  ⟨by decide, by decide, by decide, by decide⟩

theorem IsCanonical.eq_zero {x : Binary64} (hx : x.IsCanonical) (h : x.significand = 0) :
    x = zero := by
  have hpower : x.power = leastPower := by
    refine hx.normal.resolve_left fun hnormal => ?_
    rw [h] at hnormal
    exact absurd hnormal (by decide)
  cases x
  simp_all [zero]

/-- The power of the double nearest to a fraction, before its digits are rounded. -/
def nearestPower (a b : Nat) : Int :=
  max (binaryExponent a b - 52) leastPower

/-- The digits of a fraction in that power, rounded. -/
def nearestDigits (a b : Nat) : Nat :=
  roundDiv (a * raised 2 (-nearestPower a b)) (b * raised 2 (nearestPower a b))

theorem leastPower_le_nearestPower (a b : Nat) : leastPower ≤ nearestPower a b :=
  le_max_right _ _

/-- The nearest double has the rounded digits, and if these are one too many the next power. -/
theorem nearest?_eq_some_iff {a b : Nat} (ha : 0 < a) {x : Binary64} :
    nearest? a b = some x ↔ x.power ≤ mostPower ∧
      (nearestDigits a b = 2 * leastNormal ∧ x = ⟨leastNormal, nearestPower a b + 1⟩ ∨
        nearestDigits a b ≠ 2 * leastNormal ∧ x = ⟨nearestDigits a b, nearestPower a b⟩) := by
  have hnearest : nearest? a b =
      let rounded : Binary64 :=
        if nearestDigits a b = 2 * leastNormal then ⟨leastNormal, nearestPower a b + 1⟩
        else ⟨nearestDigits a b, nearestPower a b⟩
      if rounded.power ≤ mostPower then some rounded else none := if_neg ha.ne'
  rw [hnearest, Option.ite_none_right_eq_some, Option.some.injEq]
  by_cases hcarry : nearestDigits a b = 2 * leastNormal
  · rw [if_pos hcarry]
    constructor
    · rintro ⟨hmost, rfl⟩
      exact ⟨hmost, .inl ⟨hcarry, rfl⟩⟩
    · rintro ⟨hmost, ⟨-, rfl⟩ | ⟨hne, -⟩⟩
      · exact ⟨hmost, rfl⟩
      · exact absurd hcarry hne
  · rw [if_neg hcarry]
    constructor
    · rintro ⟨hmost, rfl⟩
      exact ⟨hmost, .inr ⟨hcarry, rfl⟩⟩
    · rintro ⟨hmost, ⟨heq, -⟩ | ⟨-, rfl⟩⟩
      · exact absurd heq hcarry
      · exact ⟨hmost, rfl⟩

section Digits

variable {a b : Nat} (hb : 0 < b)
include hb

theorem nearestDigits_eq {m : Nat} {power : Int} (hpower : nearestPower a b = power)
    (hlow : (m : ℚ) - 1 / 2 ≤ (a : ℚ) / b / 2 ^ power)
    (hhigh : (a : ℚ) / b / 2 ^ power ≤ m + 1 / 2)
    (hodd : m % 2 = 1 →
      (m : ℚ) - 1 / 2 < (a : ℚ) / b / 2 ^ power ∧ (a : ℚ) / b / 2 ^ power < m + 1 / 2) :
    nearestDigits a b = m := by
  have hvalue := div_raised two_pos a b power
  rw [Nat.cast_two] at hvalue
  rw [← hvalue] at hlow hhigh hodd
  rw [nearestDigits, hpower]
  exact roundDiv_eq (Nat.mul_pos hb (raised_pos two_pos _)) hlow hhigh hodd

theorem nearestDigits_bounds (ha : 0 < a) : nearestDigits a b ≤ 2 * leastNormal ∧
    (leastNormal ≤ nearestDigits a b ∨ nearestPower a b = leastPower) := by
  have hden : 0 < b * raised 2 (nearestPower a b) := Nat.mul_pos hb (raised_pos two_pos _)
  obtain ⟨hlow, hhigh⟩ := binaryExponent_spec ha hb
  constructor
  · refine roundDiv_le hden ((mul_raised_le_iff two_pos a hb _ _).2 (hhigh.le.trans ?_))
    calc (2 : ℚ) ^ (binaryExponent a b + 1)
        ≤ 2 ^ (53 + nearestPower a b) := by
          apply zpow_le_zpow_right₀ (by norm_num)
          have hle : binaryExponent a b - 52 ≤ nearestPower a b := le_max_left _ _
          omega
      _ = (2 * leastNormal : Nat) * ((2 : Nat) : ℚ) ^ nearestPower a b := by
          rw [zpow_add₀ (by norm_num)]
          norm_num [leastNormal]
  · by_cases hnormal : leastPower ≤ binaryExponent a b - 52
    · left
      refine le_roundDiv hden ((le_mul_raised_iff two_pos a hb _ _).2 (le_trans (le_of_eq ?_) hlow))
      rw [nearestPower, max_eq_left hnormal, zpow_sub₀ (by norm_num)]
      norm_num [leastNormal]
      ring
    · exact .inr (max_eq_right (by omega))

/-- **The nearest double is canonical.** -/
theorem isCanonical_of_nearest? {x : Binary64} (h : nearest? a b = some x) : x.IsCanonical := by
  rcases Nat.eq_zero_or_pos a with rfl | ha
  · exact Option.some.inj h ▸ isCanonical_zero
  · obtain ⟨hle, hge⟩ := nearestDigits_bounds hb ha
    have hleast := leastPower_le_nearestPower a b
    obtain ⟨hmost, ⟨-, rfl⟩ | ⟨hcarry, rfl⟩⟩ := (nearest?_eq_some_iff ha).1 h
    · exact ⟨by dsimp only; decide, .inl le_rfl, by dsimp only; omega, hmost⟩
    · exact ⟨lt_of_le_of_ne hle hcarry, hge, hleast, hmost⟩

/-- The double nearest to a fraction that is not below one is not zero. -/
theorem significand_pos_of_nearest? (hab : b ≤ a) {x : Binary64} (h : nearest? a b = some x) :
    0 < x.significand := by
  have ha : 0 < a := hb.trans_le hab
  have hleast : 0 < leastNormal := by decide
  have hexponent : 0 < binaryExponent a b + 1 := by
    have hone : (2 : ℚ) ^ (0 : Int) ≤ (a : ℚ) / b := by
      rw [zpow_zero, one_le_div (by exact_mod_cast hb)]
      exact_mod_cast hab
    exact (zpow_lt_zpow_iff_right₀ (by norm_num)).1 (hone.trans_lt (binaryExponent_spec ha hb).2)
  have hpower : nearestPower a b ≠ leastPower := by
    unfold nearestPower leastPower
    omega
  have hnormal := (nearestDigits_bounds hb ha).2.resolve_right hpower
  obtain ⟨-, ⟨-, rfl⟩ | ⟨-, rfl⟩⟩ := (nearest?_eq_some_iff ha).1 h
  · exact hleast
  · exact hleast.trans_le hnormal

end Digits

theorem isCanonical_ofNat? {n : Nat} {x : Binary64} (h : ofNat? n = some x) : x.IsCanonical :=
  isCanonical_of_nearest? one_pos h

theorem isCanonical_mul? {x y z : Binary64} (h : x.mul? y = some z) : z.IsCanonical :=
  isCanonical_of_nearest? (Nat.mul_pos one_pos (raised_pos two_pos _)) h

theorem isCanonical_div? {x y z : Binary64} (hy : 0 < y.significand) (h : x.div? y = some z) :
    z.IsCanonical :=
  isCanonical_of_nearest? (Nat.mul_pos hy (raised_pos two_pos _)) h

/-! ## Intervals -/

/-- The least rational of the interval of a double, in units of its last place. -/
theorem low_interval {x : Binary64} (hpos : 0 < x.significand) :
    (x.interval.low : ℚ) / 4 = x.significand -
      if x.significand = leastNormal ∧ leastPower < x.power then 1 / 4 else 1 / 2 := by
  unfold interval
  dsimp only
  split_ifs
  · rw [Nat.cast_sub (by omega)]
    push_cast
    ring
  · rw [Nat.cast_sub (by omega)]
    push_cast
    ring

theorem contains_interval_iff {x : Binary64} {v : ℚ} :
    x.interval.Contains v ↔
      if x.significand % 2 = 0 then
        (x.interval.low : ℚ) / 4 ≤ v / 2 ^ x.power ∧ v / 2 ^ x.power ≤ x.significand + 1 / 2
      else (x.interval.low : ℚ) / 4 < v / 2 ^ x.power ∧ v / 2 ^ x.power < x.significand + 1 / 2 := by
  have hunit : (0 : ℚ) < 2 ^ x.power := zpow_pos (by norm_num) _
  have hlow : (x.interval.low : ℚ) * 2 ^ x.interval.power = x.interval.low / 4 * 2 ^ x.power := by
    have hpower : x.interval.power = x.power - 2 := rfl
    rw [hpower, zpow_sub₀ (by norm_num)]
    ring
  have hhigh : (x.interval.high : ℚ) * 2 ^ x.interval.power =
      (x.significand + 1 / 2) * 2 ^ x.power := by
    have hpower : x.interval.power = x.power - 2 := rfl
    have hend : x.interval.high = 4 * x.significand + 2 := rfl
    rw [hpower, hend, zpow_sub₀ (by norm_num)]
    push_cast
    ring
  have hclosed : x.interval.closed = true ↔ x.significand % 2 = 0 := decide_eq_true_iff
  unfold Interval.Contains
  rw [hlow, hhigh, le_div_iff₀ hunit, div_le_iff₀ hunit, lt_div_iff₀ hunit, div_lt_iff₀ hunit]
  exact iff_of_eq (if_congr hclosed rfl rfl)

/-- The interval of a double reaches half a unit of its last place, and below a power of two a
    quarter; an odd significand does not have the ends. -/
theorem bounds_of_contains {x : Binary64} (hpos : 0 < x.significand) {v : ℚ}
    (h : x.interval.Contains v) :
    (x.significand : ℚ) - 1 / 2 ≤ v / 2 ^ x.power ∧ v / 2 ^ x.power ≤ x.significand + 1 / 2 ∧
      (x.significand % 2 = 1 →
        (x.significand : ℚ) - 1 / 2 < v / 2 ^ x.power ∧ v / 2 ^ x.power < x.significand + 1 / 2) ∧
      (x.significand = leastNormal ∧ leastPower < x.power →
        (x.significand : ℚ) - 1 / 4 ≤ v / 2 ^ x.power) := by
  rw [contains_interval_iff, low_interval hpos] at h
  have hwide : (x.significand : ℚ) - 1 / 2 ≤ x.significand -
      if x.significand = leastNormal ∧ leastPower < x.power then 1 / 4 else 1 / 2 := by
    split_ifs <;> linarith
  split_ifs at h with heven hfirst hfirst
  · exact ⟨by linarith, h.2, by omega, fun _ => h.1⟩
  · exact ⟨h.1, h.2, by omega, fun hfirst' => absurd hfirst' hfirst⟩
  · exact ⟨by linarith, h.2.le, fun _ => ⟨by linarith, h.2⟩, fun _ => h.1.le⟩
  · exact ⟨h.1.le, h.2.le, fun _ => h, fun hfirst' => absurd hfirst' hfirst⟩

theorem pos_of_contains {x : Binary64} (hpos : 0 < x.significand) {v : ℚ}
    (h : x.interval.Contains v) : 0 < v := by
  have hunit : (0 : ℚ) < 2 ^ x.power := zpow_pos (by norm_num) _
  have hone : (1 : ℚ) ≤ x.significand := by exact_mod_cast hpos
  have hv : 0 < v / 2 ^ x.power := by linarith [(bounds_of_contains hpos h).1]
  exact (div_pos_iff_of_pos_right hunit).1 hv

section Contains

variable {a b : Nat} (ha : 0 < a) (hb : 0 < b) {x : Binary64} (hx : x.IsCanonical)
  (hpos : 0 < x.significand) (h : x.interval.Contains (a / b))
include ha hb hx hpos h

/-- Below a power of two the digits of the next lower binade are rounded up to it. -/
theorem nearest?_of_contains_below (hfirst : x.significand = leastNormal ∧ leastPower < x.power)
    (hbelow : (a : ℚ) / b < leastNormal * 2 ^ x.power) : nearest? a b = some x := by
  have hunit : (0 : ℚ) < 2 ^ x.power := zpow_pos (by norm_num) _
  have hhalf : (2 : ℚ) ^ (x.power - 1) = 2 ^ x.power / 2 := by
    rw [zpow_sub₀ (by norm_num), zpow_one]
  have hquarter := (bounds_of_contains hpos h).2.2.2 hfirst
  rw [hfirst.1, le_div_iff₀ hunit, cast_leastNormal] at hquarter
  rw [cast_leastNormal] at hbelow
  have hexponent : binaryExponent a b = x.power + 51 := by
    apply binaryExponent_eq ha hb
    · rw [zpow_add₀ (by norm_num)]
      norm_num at hquarter ⊢
      linarith
    · rw [add_assoc, zpow_add₀ (by norm_num)]
      norm_num at hbelow ⊢
      linarith
  have hpower : nearestPower a b = x.power - 1 := by
    rw [nearestPower, hexponent, max_eq_left (by omega)]
    ring
  have hcarry : nearestDigits a b = 2 * leastNormal := by
    apply nearestDigits_eq hb hpower
    · rw [hhalf, le_div_iff₀ (by positivity), Nat.cast_mul, cast_leastNormal]
      norm_num at hquarter ⊢
      linarith
    · rw [hhalf, div_le_iff₀ (by positivity), Nat.cast_mul, cast_leastNormal]
      norm_num at hbelow ⊢
      linarith
    · exact fun hodd => absurd hodd (by decide)
  refine (nearest?_eq_some_iff ha).2 ⟨hx.le_mostPower, .inl ⟨hcarry, ?_⟩⟩
  rw [hpower, sub_add_cancel, ← hfirst.1]

/-- Otherwise the fraction has the power of the double. -/
theorem nearestPower_of_contains
    (habove : leastPower < x.power → leastNormal * 2 ^ x.power ≤ (a : ℚ) / b) :
    nearestPower a b = x.power := by
  have hunit : (0 : ℚ) < 2 ^ x.power := zpow_pos (by norm_num) _
  have hhigh := (bounds_of_contains hpos h).2.1
  obtain ⟨hbelow, hover⟩ := binaryExponent_spec ha hb
  have hlt : binaryExponent a b < 53 + x.power := by
    refine (zpow_lt_zpow_iff_right₀ (by norm_num : (1 : ℚ) < 2)).1 (hbelow.trans_lt ?_)
    have hmost : (x.significand : ℚ) + 1 ≤ 2 * leastNormal := by exact_mod_cast hx.significand_lt
    rw [div_le_iff₀ hunit] at hhigh
    calc (a : ℚ) / b ≤ (x.significand + 1 / 2) * 2 ^ x.power := hhigh
      _ < 2 * leastNormal * 2 ^ x.power := by
        gcongr
        linarith
      _ = 2 ^ (53 + x.power) := by
        rw [zpow_add₀ (by norm_num), cast_leastNormal]
        norm_num
  have hge : leastPower < x.power → 52 + x.power < binaryExponent a b + 1 := fun hpower => by
    refine (zpow_lt_zpow_iff_right₀ (by norm_num : (1 : ℚ) < 2)).1 (lt_of_le_of_lt ?_ hover)
    rw [zpow_add₀ (by norm_num), ← cast_leastNormal]
    exact habove hpower
  have hleastPower := hx.leastPower_le
  unfold nearestPower
  omega

theorem nearest?_of_contains_above
    (habove : leastPower < x.power → leastNormal * 2 ^ x.power ≤ (a : ℚ) / b) :
    nearest? a b = some x := by
  obtain ⟨hlow, hhigh, hodd, -⟩ := bounds_of_contains hpos h
  have hpower := nearestPower_of_contains ha hb hx hpos h habove
  have hdigits : nearestDigits a b = x.significand := nearestDigits_eq hb hpower hlow hhigh hodd
  refine (nearest?_eq_some_iff ha).2 ⟨hx.le_mostPower, .inr ⟨?_, ?_⟩⟩
  · rw [hdigits]
    exact hx.significand_lt.ne
  · rw [hdigits, hpower]

end Contains

/-- **A fraction in the interval of a double is rounded to it.** -/
theorem nearest?_of_contains {a b : Nat} (hb : 0 < b) {x : Binary64} (hx : x.IsCanonical)
    (hpos : 0 < x.significand) (h : x.interval.Contains (a / b)) : nearest? a b = some x := by
  have hden : (0 : ℚ) < b := by exact_mod_cast hb
  have hunit : (0 : ℚ) < 2 ^ x.power := zpow_pos (by norm_num) _
  have ha : 0 < a := by
    have hv := (div_pos_iff_of_pos_right hden).1 (pos_of_contains hpos h)
    exact_mod_cast hv
  by_cases hbelow : (x.significand = leastNormal ∧ leastPower < x.power) ∧
      (a : ℚ) / b < leastNormal * 2 ^ x.power
  · exact nearest?_of_contains_below ha hb hx hpos h hbelow.1 hbelow.2
  · refine nearest?_of_contains_above ha hb hx hpos h fun hpower => ?_
    by_cases hfirst : x.significand = leastNormal
    · exact not_lt.1 fun hlt => hbelow ⟨⟨hfirst, hpower⟩, hlt⟩
    · have hnormal := hx.normal.resolve_right hpower.ne'
      have hmore : (leastNormal : ℚ) + 1 ≤ x.significand := by
        exact_mod_cast lt_of_le_of_ne hnormal (Ne.symm hfirst)
      have hlow := (bounds_of_contains hpos h).1
      rw [le_div_iff₀ hunit] at hlow
      calc (leastNormal : ℚ) * 2 ^ x.power ≤ (x.significand - 1 / 2) * 2 ^ x.power := by
            gcongr
            linarith
        _ ≤ a / b := hlow

end Binary64

end Recast.Number

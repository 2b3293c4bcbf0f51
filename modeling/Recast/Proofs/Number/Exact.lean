/-
  Recast numbers — rounding to nearest.

  * `abs_sub_nearest?_le`: no double is nearer to a fraction than the one that it is rounded to;
  * `nearest?_congr`: rounding depends on the value of a fraction alone;
  * `exists_nearest?_eq`: fewer than 54 binary digits times a power of two are not rounded;
  * `mul?_eq`, `div?_eq`: a product, a quotient is the exact one, rounded.
-/
import Recast.Proofs.Number.Nearest

namespace Recast.Number

namespace Binary64

/-! ## The nearest double -/

theorem value_zero : zero.value = 0 := by
  simp [value, zero]

theorem value_of_nearest? {a b : Nat} (ha : 0 < a) {x : Binary64} (h : nearest? a b = some x) :
    x.value = nearestDigits a b * 2 ^ nearestPower a b := by
  obtain ⟨-, ⟨hcarry, rfl⟩ | ⟨-, rfl⟩⟩ := (nearest?_eq_some_iff ha).1 h
  · rw [hcarry, value, zpow_add₀ (by norm_num)]
    push_cast
    ring
  · rfl

/-- No multiple of the power that is rounded to is nearer than the nearest double. -/
theorem abs_sub_value_le_mul {a b : Nat} (ha : 0 < a) (hb : 0 < b) {x : Binary64}
    (h : nearest? a b = some x) (n : Nat) :
    |(a : ℚ) / b - x.value| ≤ |(a : ℚ) / b - n * 2 ^ nearestPower a b| := by
  have hunit : (0 : ℚ) < 2 ^ nearestPower a b := zpow_pos (by norm_num) _
  have hden : 0 < b * raised 2 (nearestPower a b) := Nat.mul_pos hb (raised_pos two_pos _)
  have hscaled : ∀ m : Nat, |(a : ℚ) / b - m * 2 ^ nearestPower a b| =
      |(a : ℚ) / b / 2 ^ nearestPower a b - m| * 2 ^ nearestPower a b := by
    intro m
    rw [← abs_of_pos hunit, ← abs_mul, abs_of_pos hunit, sub_mul, div_mul_cancel₀ _ hunit.ne']
  have hnearest := abs_sub_roundDiv_le (a := a * raised 2 (-nearestPower a b)) hden n
  rw [div_raised two_pos, Nat.cast_two] at hnearest
  rw [value_of_nearest? ha h, hscaled, hscaled]
  exact mul_le_mul_of_nonneg_right hnearest hunit.le

/-- **No double is nearer to a fraction than the one that it is rounded to.** -/
theorem abs_sub_nearest?_le {a b : Nat} (hb : 0 < b) {x : Binary64} (h : nearest? a b = some x)
    {y : Binary64} (hy : y.IsCanonical) : |(a : ℚ) / b - x.value| ≤ |(a : ℚ) / b - y.value| := by
  rcases Nat.eq_zero_or_pos a with rfl | ha
  · obtain rfl : zero = x := Option.some.inj h
    rw [Nat.cast_zero, zero_div, value_zero, sub_zero, abs_zero]
    exact abs_nonneg _
  rcases le_or_gt (nearestPower a b) y.power with hle | hgt
  · -- the other double is a multiple of the power that is rounded to
    obtain ⟨n, hn⟩ := Int.eq_ofNat_of_zero_le (sub_nonneg.2 hle)
    have hmultiple : y.value = ((y.significand * 2 ^ n : Nat) : ℚ) * 2 ^ nearestPower a b := by
      have hpower : y.power = n + nearestPower a b := by omega
      rw [value, hpower, zpow_add₀ (by norm_num), zpow_natCast]
      push_cast
      ring
    rw [hmultiple]
    exact abs_sub_value_le_mul ha hb h _
  · -- the other double lies below the power of two below the fraction
    have hnearest := abs_sub_value_le_mul ha hb h leastNormal
    have hleast := hy.leastPower_le
    have hexponent : 52 + nearestPower a b = binaryExponent a b := by
      unfold nearestPower at hgt ⊢
      omega
    have hbinade : (leastNormal : ℚ) * 2 ^ nearestPower a b = 2 ^ binaryExponent a b := by
      rw [← hexponent, zpow_add₀ (by norm_num)]
      norm_num [leastNormal]
    have hlow := (binaryExponent_spec ha hb).1
    have hbelow : y.value ≤ leastNormal * 2 ^ nearestPower a b := by
      have hdigits : (y.significand : ℚ) ≤ 2 * leastNormal := by exact_mod_cast hy.significand_lt.le
      calc y.value ≤ 2 * leastNormal * 2 ^ y.power := by
            unfold value
            gcongr
        _ = leastNormal * 2 ^ (y.power + 1) := by
            rw [zpow_add₀ (by norm_num), zpow_one]
            ring
        _ ≤ leastNormal * 2 ^ nearestPower a b := by
            gcongr
            · norm_num
            · omega
    have habove : 0 ≤ (a : ℚ) / b - leastNormal * 2 ^ nearestPower a b := by linarith
    have hother : 0 ≤ (a : ℚ) / b - y.value := by linarith
    rw [abs_of_nonneg habove] at hnearest
    rw [abs_of_nonneg hother]
    linarith

/-- Rounding depends on the value of a fraction alone. -/
theorem nearest?_congr {a b c d : Nat} (hb : 0 < b) (hd : 0 < d) (h : (a : ℚ) / b = (c : ℚ) / d) :
    nearest? a b = nearest? c d := by
  have hzero : a = 0 ↔ c = 0 := by
    have hvalues : (a : ℚ) / b = 0 ↔ (c : ℚ) / d = 0 := by rw [h]
    simpa [hb.ne', hd.ne'] using hvalues
  by_cases ha : a = 0
  · rw [nearest?, nearest?, if_pos ha, if_pos (hzero.1 ha)]
  have hc : c ≠ 0 := fun hc => ha (hzero.2 hc)
  have hexponent : binaryExponent a b = binaryExponent c d := by
    obtain ⟨hlow, hhigh⟩ := binaryExponent_spec (Nat.pos_of_ne_zero hc) hd
    exact binaryExponent_eq (Nat.pos_of_ne_zero ha) hb (h ▸ hlow) (h ▸ hhigh)
  have hpower : nearestPower a b = nearestPower c d := by
    rw [nearestPower, nearestPower, hexponent]
  have hdigits : nearestDigits a b = nearestDigits c d := by
    rw [nearestDigits, nearestDigits, hpower]
    apply roundDiv_congr (Nat.mul_pos hb (raised_pos two_pos _))
      (Nat.mul_pos hd (raised_pos two_pos _))
    rw [div_raised two_pos, div_raised two_pos, h]
  refine Option.ext fun x => ?_
  rw [nearest?_eq_some_iff (Nat.pos_of_ne_zero ha), nearest?_eq_some_iff (Nat.pos_of_ne_zero hc),
    hdigits, hpower]

/-- **Fewer than 54 binary digits are not rounded.** -/
theorem exists_nearest?_eq {a b : Nat} (hb : 0 < b) {c : Nat} {k : Int} (hc : c < 2 * leastNormal)
    (hleast : leastPower ≤ k) (hmost : k < mostPower) (h : (a : ℚ) / b = c * 2 ^ k) :
    ∃ x, nearest? a b = some x ∧ x.value = c * 2 ^ k := by
  rcases Nat.eq_zero_or_pos a with rfl | ha
  · exact ⟨zero, rfl, by rw [value_zero, ← h, Nat.cast_zero, zero_div]⟩
  have hpower : nearestPower a b ≤ k := by
    have hexponent : binaryExponent a b < 53 + k := by
      refine (zpow_lt_zpow_iff_right₀ (by norm_num : (1 : ℚ) < 2)).1 ?_
      calc (2 : ℚ) ^ binaryExponent a b ≤ c * 2 ^ k := h ▸ (binaryExponent_spec ha hb).1
        _ < (2 * leastNormal : Nat) * 2 ^ k := by
          gcongr
        _ = 2 ^ (53 + k) := by
          rw [zpow_add₀ (by norm_num)]
          norm_num [leastNormal]
    unfold nearestPower
    omega
  obtain ⟨n, hn⟩ := Int.eq_ofNat_of_zero_le (sub_nonneg.2 hpower)
  have hvalue : (c : ℚ) * 2 ^ k = ((c * 2 ^ n : Nat) : ℚ) * 2 ^ nearestPower a b := by
    have hk : k = n + nearestPower a b := by omega
    rw [hk, zpow_add₀ (by norm_num), zpow_natCast]
    push_cast
    ring
  have hdigits : nearestDigits a b = c * 2 ^ n := by
    have hexact : (a : ℚ) / b / 2 ^ nearestPower a b = (c * 2 ^ n : Nat) := by
      rw [h, hvalue, mul_div_cancel_right₀ _ (zpow_ne_zero _ (by norm_num))]
    apply nearestDigits_eq hb rfl <;> rw [hexact]
    · linarith
    · linarith
    · exact fun _ => ⟨by linarith, by linarith⟩
  obtain ⟨x, hx⟩ : ∃ x, nearest? a b = some x := by
    by_cases hcarry : nearestDigits a b = 2 * leastNormal
    · exact ⟨_, (nearest?_eq_some_iff ha).2 ⟨by dsimp only; omega, .inl ⟨hcarry, rfl⟩⟩⟩
    · exact ⟨_, (nearest?_eq_some_iff ha).2 ⟨by dsimp only; omega, .inr ⟨hcarry, rfl⟩⟩⟩
  exact ⟨x, hx, by rw [value_of_nearest? ha hx, hdigits, hvalue]⟩

/-! ## Products and quotients -/

theorem nearestScaled?_eq {a b c d : Nat} (hb : 0 < b) (hd : 0 < d) {power : Int}
    (h : (a : ℚ) / b * 2 ^ power = (c : ℚ) / d) : nearestScaled? a b power = nearest? c d := by
  refine nearest?_congr (Nat.mul_pos hb (raised_pos two_pos _)) hd ?_
  have hscaled := div_raised two_pos a b (-power)
  rw [neg_neg, Nat.cast_two, zpow_neg, div_inv_eq_mul] at hscaled
  rw [hscaled, h]

/-- A product is the exact product, rounded. -/
theorem mul?_eq {x y : Binary64} {c d : Nat} (hd : 0 < d) (h : x.value * y.value = (c : ℚ) / d) :
    x.mul? y = nearest? c d := by
  refine nearestScaled?_eq one_pos hd ?_
  rw [← h, value, value, zpow_add₀ (by norm_num)]
  push_cast
  ring

/-- A quotient is the exact quotient, rounded. -/
theorem div?_eq {x y : Binary64} (hy : 0 < y.significand) {c d : Nat} (hd : 0 < d)
    (h : x.value / y.value = (c : ℚ) / d) : x.div? y = nearest? c d := by
  refine nearestScaled?_eq hy hd ?_
  have hunit : (2 : ℚ) ^ y.power ≠ 0 := zpow_ne_zero _ (by norm_num)
  have hdigits : (y.significand : ℚ) ≠ 0 := by exact_mod_cast hy.ne'
  rw [← h, value, value, zpow_sub₀ (by norm_num)]
  field_simp

end Binary64

end Recast.Number

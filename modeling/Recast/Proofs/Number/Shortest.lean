/-
  Recast numbers — the shortest decimal lies in the interval.

  * `Interval.contains_of_nearestAt?`: the multiple of a power of ten that is found lies in the
    interval; `exists_nearestAt?`: one is found if the power is small enough;
  * `Binary64.exists_shortest_eq`: so the shortest decimal of a double lies in its interval, and it has
    at most seventeen digits.
-/
import Recast.Proofs.Number.Nearest

namespace Recast.Number

/-! ## Multiples of a power of ten -/

namespace Interval

variable (i : Interval) (place : Int)

/-- The value of an interval counted in powers of ten, rounded down. -/
def below : Nat :=
  i.value * (raised 2 i.power * raised 10 (-place)) / (raised 10 place * raised 2 (-i.power))

/-- What is compared in naturals are the rationals, multiplied by what they have in common. -/
theorem scale_eq (n c : Nat) : ∃ k : ℚ, 0 < k ∧
    ((n * (raised 10 place * raised 2 (-i.power)) : Nat) : ℚ) = n * 10 ^ place * k ∧
      ((c * (raised 2 i.power * raised 10 (-place)) : Nat) : ℚ) = c * 2 ^ i.power * k := by
  refine ⟨raised 10 (-place) * raised 2 (-i.power), ?_, ?_, ?_⟩
  · have hten : 0 < raised 10 (-place) := raised_pos (by norm_num) _
    have htwo : 0 < raised 2 (-i.power) := raised_pos two_pos _
    exact_mod_cast Nat.mul_pos hten htwo
  · push_cast
    rw [raised_eq (by norm_num : 0 < 10) place]
    push_cast
    ring
  · push_cast
    rw [raised_eq two_pos i.power]
    push_cast
    ring

theorem mul_step_le_iff (n c : Nat) : n * (raised 10 place * raised 2 (-i.power)) ≤
    c * (raised 2 i.power * raised 10 (-place)) ↔ (n : ℚ) * 10 ^ place ≤ c * 2 ^ i.power := by
  obtain ⟨k, hk, hn, hc⟩ := i.scale_eq place n c
  rw [← Nat.cast_le (α := ℚ), hn, hc, mul_le_mul_iff_left₀ hk]

theorem mul_scale_le_iff (n c : Nat) : c * (raised 2 i.power * raised 10 (-place)) ≤
    n * (raised 10 place * raised 2 (-i.power)) ↔ (c : ℚ) * 2 ^ i.power ≤ n * 10 ^ place := by
  obtain ⟨k, hk, hn, hc⟩ := i.scale_eq place n c
  rw [← Nat.cast_le (α := ℚ), hn, hc, mul_le_mul_iff_left₀ hk]

theorem below_bounds : (i.below place : ℚ) * 10 ^ place ≤ i.value * 2 ^ i.power ∧
    i.value * 2 ^ i.power < ((i.below place + 1 : Nat) : ℚ) * 10 ^ place := by
  have hstep : 0 < raised 10 place * raised 2 (-i.power) :=
    Nat.mul_pos (raised_pos (by norm_num) _) (raised_pos two_pos _)
  constructor
  · exact (i.mul_step_le_iff place _ _).1 (Nat.div_mul_le_self _ _)
  · have hlt : ¬ (i.below place + 1) * (raised 10 place * raised 2 (-i.power)) ≤
        i.value * (raised 2 i.power * raised 10 (-place)) := by
      rw [not_le, Nat.mul_comm (_ + 1)]
      exact Nat.lt_mul_div_succ _ hstep
    exact not_le.1 fun h => hlt ((i.mul_step_le_iff place _ _).2 h)

/-- Whether a multiple of the power of ten lies in the interval, as it is decided in naturals. -/
def inside (n : Nat) : Bool :=
  let step := raised 10 place * raised 2 (-i.power)
  let scale := raised 2 i.power * raised 10 (-place)
  if i.closed then i.low * scale ≤ n * step && n * step ≤ i.high * scale
  else i.low * scale < n * step && n * step < i.high * scale

theorem inside_iff (n : Nat) : i.inside place n = true ↔ i.Contains (n * 10 ^ place) := by
  unfold inside Contains
  dsimp only
  split_ifs with hclosed
  · rw [Bool.and_eq_true, decide_eq_true_eq, decide_eq_true_eq, mul_scale_le_iff, mul_step_le_iff]
  · rw [Bool.and_eq_true, decide_eq_true_eq, decide_eq_true_eq, ← not_le, ← not_le, ← not_le,
      ← not_le, mul_scale_le_iff, mul_step_le_iff]

theorem nearestAt?_eq : ∃ nearer : Nat, (nearer = i.below place ∨ nearer = i.below place + 1) ∧
    i.nearestAt? place =
      if i.inside place (i.below place) then
        some (if i.inside place (i.below place + 1) then nearer else i.below place)
      else if i.inside place (i.below place + 1) then some (i.below place + 1) else none := by
  refine ⟨_, ?_, rfl⟩
  dsimp only
  split
  · exact .inl rfl
  · split
    · exact .inr rfl
    · split
      · exact .inl rfl
      · exact .inr rfl

/-- **What is found is one of the two neighbours of the value, and in the interval.** -/
theorem contains_of_nearestAt? {n : Nat} (h : i.nearestAt? place = some n) :
    i.Contains (n * 10 ^ place) ∧ i.below place ≤ n ∧ n ≤ i.below place + 1 := by
  obtain ⟨nearer, hnearer, hfound⟩ := i.nearestAt?_eq place
  rw [hfound] at h
  split_ifs at h with hbelow habove habove
  · obtain rfl := Option.some.inj h
    rcases hnearer with rfl | rfl
    · exact ⟨(i.inside_iff place _).1 hbelow, by omega, by omega⟩
    · exact ⟨(i.inside_iff place _).1 habove, by omega, by omega⟩
  · obtain rfl := Option.some.inj h
    exact ⟨(i.inside_iff place _).1 hbelow, by omega, by omega⟩
  · obtain rfl := Option.some.inj h
    exact ⟨(i.inside_iff place _).1 habove, by omega, by omega⟩

theorem exists_nearestAt? {n : Nat} (hn : n = i.below place ∨ n = i.below place + 1)
    (h : i.Contains (n * 10 ^ place)) : ∃ m, i.nearestAt? place = some m := by
  obtain ⟨nearer, -, hfound⟩ := i.nearestAt?_eq place
  rw [hfound]
  have hinside := (i.inside_iff place n).2 h
  rcases hn with rfl | rfl
  · exact ⟨_, if_pos hinside⟩
  · simp only [hinside, if_true]
    split_ifs <;> exact ⟨_, rfl⟩

end Interval

/-! ## Shortest decimals -/

namespace Binary64

variable {x : Binary64} (hx : x.IsCanonical) (hpos : 0 < x.significand)

theorem value_interval (x : Binary64) : (x.interval.value : ℚ) * 2 ^ x.interval.power = x.value := by
  have hvalue : x.interval.value = 4 * x.significand := rfl
  have hpower : x.interval.power = x.power - 2 := rfl
  rw [hvalue, hpower, zpow_sub₀ (by norm_num), value]
  push_cast
  ring

/-- The decimal exponent of a double. -/
def exponent (x : Binary64) : Int :=
  decimalExponent (x.interval.value * raised 2 x.interval.power) (raised 2 (-x.interval.power))

include hpos

theorem exponent_spec : (10 : ℚ) ^ x.exponent ≤ x.value ∧ x.value < (10 : ℚ) ^ (x.exponent + 1) := by
  have hnum : 0 < x.interval.value * raised 2 x.interval.power :=
    Nat.mul_pos (by unfold interval; dsimp only; omega) (raised_pos two_pos _)
  have hden : 0 < raised 2 (-x.interval.power) := raised_pos two_pos _
  have hvalue : ((x.interval.value * raised 2 x.interval.power : Nat) : ℚ) /
      (raised 2 (-x.interval.power) : Nat) = x.value := by
    rw [div_eq_iff (by exact_mod_cast hden.ne'), ← value_interval]
    push_cast
    rw [raised_eq two_pos x.interval.power]
    push_cast
    ring
  rw [← hvalue]
  exact decimalExponent_spec hden hnum

/-- Counted in a power of ten that is up to sixteen places lower, a double has one to seventeen
    digits. -/
theorem below_exponent_bounds {more : Nat} (hmore : more ≤ 16) :
    0 < x.interval.below (x.exponent - more) ∧ x.interval.below (x.exponent - more) < 10 ^ 17 := by
  obtain ⟨hbelow, habove⟩ := x.interval.below_bounds (x.exponent - more)
  rw [value_interval] at hbelow habove
  obtain ⟨hlow, hhigh⟩ := exponent_spec hpos
  constructor
  · refine Nat.pos_of_ne_zero fun hzero => ?_
    rw [hzero, Nat.zero_add, Nat.cast_one, one_mul] at habove
    have hle : (10 : ℚ) ^ (x.exponent - more) ≤ 10 ^ x.exponent :=
      zpow_le_zpow_right₀ (by norm_num) (by omega)
    linarith
  · have hstep : (0 : ℚ) ≤ 10 ^ (x.exponent - more) := (zpow_pos (by norm_num) _).le
    have hmost : (10 : ℚ) ^ (x.exponent + 1) ≤ 10 ^ 17 * 10 ^ (x.exponent - more) := by
      rw [← zpow_natCast (10 : ℚ) 17, ← zpow_add₀ (by norm_num)]
      exact zpow_le_zpow_right₀ (by norm_num) (by push_cast; omega)
    have hproduct := hbelow.trans_lt (hhigh.trans_le hmost)
    exact_mod_cast lt_of_mul_lt_mul_right hproduct hstep

include hx

/-- A rational that differs from a double by at most one part in `2 * 10 ^ 16` is in its interval. -/
theorem contains_of_near {v : ℚ} (h : |v - x.value| ≤ x.value / (2 * 10 ^ 16)) :
    x.interval.Contains v := by
  have hunit : (0 : ℚ) < 2 ^ x.power := zpow_pos (by norm_num) _
  obtain ⟨w, rfl⟩ : ∃ w, v = w * 2 ^ x.power := ⟨v / 2 ^ x.power, by field_simp⟩
  have hnear : |w - x.significand| ≤ x.significand / (2 * 10 ^ 16) := by
    refine le_of_mul_le_mul_right ?_ hunit
    calc |w - x.significand| * 2 ^ x.power = |w * 2 ^ x.power - x.value| := by
          rw [value, ← sub_mul, abs_mul, abs_of_pos hunit]
      _ ≤ x.value / (2 * 10 ^ 16) := h
      _ = x.significand / (2 * 10 ^ 16) * 2 ^ x.power := by
          rw [value]
          ring
  obtain ⟨hbelow, habove⟩ := abs_le.1 hnear
  have hmost : (x.significand : ℚ) < 2 * leastNormal := by exact_mod_cast hx.significand_lt
  have hleast : (leastNormal : ℚ) = 4503599627370496 := by norm_num [leastNormal]
  have hlow : (x.interval.low : ℚ) / 4 < w := by
    rw [low_interval hpos]
    split_ifs with hfirst
    · rw [hfirst.1] at hbelow ⊢
      linarith
    · linarith
  have hhigh : w < x.significand + 1 / 2 := by linarith
  rw [contains_interval_iff, mul_div_cancel_right₀ _ hunit.ne']
  split_ifs
  · exact ⟨hlow.le, hhigh.le⟩
  · exact ⟨hlow, hhigh⟩

/-- With seventeen digits one of the two neighbours is near enough. -/
theorem exists_nearestAt?_exponent :
    ∃ m, x.interval.nearestAt? (x.exponent - (16 : Nat)) = some m := by
  have hstep : (0 : ℚ) < 10 ^ (x.exponent - (16 : Nat)) := zpow_pos (by norm_num) _
  have hsmall : (10 : ℚ) ^ (x.exponent - (16 : Nat)) ≤ x.value / 10 ^ 16 := by
    rw [zpow_sub₀ (by norm_num), zpow_natCast]
    exact div_le_div_of_nonneg_right (exponent_spec hpos).1 (by norm_num)
  obtain ⟨hbelow, habove⟩ := x.interval.below_bounds (x.exponent - (16 : Nat))
  rw [value_interval] at hbelow habove
  push_cast at habove
  by_cases hnearer : x.value - x.interval.below (x.exponent - (16 : Nat)) *
      10 ^ (x.exponent - (16 : Nat)) ≤ x.value / (2 * 10 ^ 16)
  · refine x.interval.exists_nearestAt? _ (.inl rfl) (contains_of_near hx hpos ?_)
    rw [abs_sub_comm, abs_of_nonneg (by linarith)]
    exact hnearer
  · refine x.interval.exists_nearestAt? _ (.inr rfl) (contains_of_near hx hpos ?_)
    push_cast
    rw [abs_of_nonneg (by linarith)]
    linarith

/-- Some number of digits is found, at the latest with seventeen. -/
theorem exists_found : ∃ (more : Nat) (n : Nat), more ≤ 16 ∧
    x.interval.nearestAt? (x.exponent - more) = some n ∧
      x.shortest = Scientific.ofPlaces n (x.exponent - more) := by
  obtain ⟨found, hfound⟩ : ∃ found, (List.range 17).findSome? (fun (more : Nat) =>
      (x.interval.nearestAt? (x.exponent - more)).map
        fun digits => Scientific.ofPlaces digits (x.exponent - more)) = some found := by
    obtain ⟨m, hm⟩ := exists_nearestAt?_exponent hx hpos
    rw [← Option.isSome_iff_exists, List.findSome?_isSome_iff]
    refine ⟨16, by simp, ?_⟩
    rw [Option.isSome_map]
    exact Option.isSome_iff_exists.2 ⟨m, hm⟩
  obtain ⟨more, hmore, hplace⟩ := List.exists_of_findSome?_eq_some hfound
  obtain ⟨n, hn, rfl⟩ := Option.map_eq_some_iff.1 hplace
  exact ⟨more, n, Nat.lt_succ_iff.1 (List.mem_range.1 hmore), hn,
    congrArg (Option.getD · _) hfound⟩

/-- **The shortest decimal of a double lies in its interval.** -/
theorem exists_shortest_eq : ∃ (n : Nat) (place : Int),
    x.shortest = Scientific.ofPlaces n place ∧ 0 < n ∧ n ≤ 10 ^ 17 ∧
      x.interval.Contains (n * 10 ^ place) := by
  obtain ⟨more, n, hmore, hn, hshortest⟩ := exists_found hx hpos
  obtain ⟨hcontains, hge, hle⟩ := x.interval.contains_of_nearestAt? _ hn
  obtain ⟨hpositive, hlt⟩ := below_exponent_bounds hpos hmore
  exact ⟨n, x.exponent - more, hshortest, by omega, by omega, hcontains⟩

end Binary64

end Recast.Number

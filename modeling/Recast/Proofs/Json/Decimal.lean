/-
  Recast JSON — the decimal that a number is spelled as.

  * `NumberLiteral.digits`, `NumberLiteral.place`: all digits of a number and the power of ten of the
    last; `magnitude?_eq_scaled?`: they are what is read, if the digits fit into 64 bits;
  * `NumberLiteral.nearest?` is the double nearest to the decimal that is spelled;
  * `Scientific.digits_literal`, `Scientific.ofPlaces_spec`: a decimal is written with the digits that
    are found, but for zeros at the end;
  * `nearest?_magnitudeLiteral`: **a double is the nearest to the decimal that it is written as**.
-/
import Recast.Proofs.Json.Number
import Recast.Proofs.Number.Shortest

namespace Recast

open Recast.Number

namespace Json

/-! ## Digits -/

theorem digitsValue_cons (c : Char) (s : Text) :
    digitsValue (c :: s) = digitValue c * 10 ^ s.length + digitsValue s := by
  have hsingle : digitsValue [c] = digitValue c := by simp [digitsValue]
  rw [← List.singleton_append, digitsValue_append, hsingle]

theorem digitsValue_replicate (n : Nat) : digitsValue (List.replicate n '0') = 0 := by
  induction n with
  | zero => rfl
  | succ n ih =>
    have hzero : digitValue '0' = 0 := rfl
    rw [List.replicate_succ, digitsValue_cons, ih, hzero, Nat.zero_mul]

theorem digitsValue_zeros_append (n : Nat) (s : Text) :
    digitsValue (List.replicate n '0' ++ s) = digitsValue s := by
  rw [digitsValue_append, digitsValue_replicate, Nat.zero_mul, Nat.zero_add]

theorem digitsValue_append_zeros (s : Text) (n : Nat) :
    digitsValue (s ++ List.replicate n '0') = digitsValue s * 10 ^ n := by
  rw [digitsValue_append, digitsValue_replicate, List.length_replicate, Nat.add_zero]

/-- Digits that fit into 64 bits are all gathered. -/
theorem gather_of_lt {significand : Nat} {s : Text}
    (h : significand * 10 ^ s.length + digitsValue s < wordBound) :
    gather significand s = ⟨significand * 10 ^ s.length + digitsValue s, s.length, 0⟩ := by
  induction s generalizing significand with
  | nil => simp [gather, digitsValue]
  | cons c rest ih =>
    have hlonger : significand * 10 ^ (c :: rest).length + digitsValue (c :: rest) =
        (significand * 10 + digitValue c) * 10 ^ rest.length + digitsValue rest := by
      rw [digitsValue_cons, List.length_cons, pow_succ]
      ring
    rw [hlonger] at h
    have hfits : significand * 10 + digitValue c < wordBound := by
      have hpow : 0 < 10 ^ rest.length := by positivity
      nlinarith
    rw [gather, if_pos hfits, ih h, hlonger]
    rfl

/-! ## Decimals -/

namespace NumberLiteral

/-- All digits of a number. -/
def digits (literal : NumberLiteral) : Text :=
  literal.whole ++ literal.fraction.getD []

/-- The power of ten of the last digit. -/
def place (literal : NumberLiteral) : Int :=
  literal.exponentValue - (literal.fraction.getD []).length

/-- The double nearest to the magnitude that is spelled, rounded once. -/
def nearest? (literal : NumberLiteral) : Option Binary64 :=
  Binary64.nearest? (digitsValue literal.digits * raised 10 literal.place)
    (raised 10 (-literal.place))

theorem magnitude?_eq_scaled? {literal : NumberLiteral} (h : digitsValue literal.digits < wordBound) :
    literal.magnitude? = scaled? (digitsValue literal.digits) literal.place := by
  unfold digits at h ⊢
  rw [digitsValue_append] at h ⊢
  have hwhole : gather 0 literal.whole =
      ⟨digitsValue literal.whole, literal.whole.length, 0⟩ := by
    have hpow : 0 < 10 ^ (literal.fraction.getD []).length := by positivity
    rw [gather_of_lt] <;> rw [Nat.zero_mul, Nat.zero_add]
    nlinarith
  unfold magnitude? place
  rw [hwhole]
  dsimp only
  rw [gather_of_lt h]
  dsimp only
  congr 1
  push_cast
  ring

end NumberLiteral

end Json

/-! ## Written decimals -/

namespace Number.Scientific

open Recast.Json

theorem digits_positional_of_neg {s : Scientific} (h : s.exponent < 0) :
    digitsValue s.positionalLiteral.digits = digitsValue s.digits ∧
      s.positionalLiteral.place = s.exponent + 1 - s.digits.length := by
  rw [positionalLiteral, if_pos h]
  constructor
  · have hzero : digitsValue ['0'] = 0 := rfl
    rw [NumberLiteral.digits, Option.getD_some, digitsValue_append, digitsValue_zeros_append, hzero,
      Nat.zero_mul, Nat.zero_add]
  · simp only [NumberLiteral.place, NumberLiteral.exponentValue, Option.getD_some,
      List.length_append, List.length_replicate]
    omega

theorem digits_positional_of_nonneg {s : Scientific} (h : 0 ≤ s.exponent) : ∃ zeros : Nat,
    digitsValue s.positionalLiteral.digits = digitsValue s.digits * 10 ^ zeros ∧
      s.positionalLiteral.place = s.exponent + 1 - s.digits.length - zeros := by
  rw [positionalLiteral, if_neg (not_lt.2 h)]
  dsimp only
  by_cases hshort : s.digits.length ≤ s.exponent.toNat + 1
  · -- digits and zeros up to the point, and one more zero behind it
    refine ⟨s.exponent.toNat + 1 - s.digits.length + 1, ?_, ?_⟩
    · have hall : s.digits ++ List.replicate (s.exponent.toNat + 1 - s.digits.length) '0' ++ ['0'] =
          s.digits ++ List.replicate (s.exponent.toNat + 1 - s.digits.length + 1) '0' := by
        rw [List.append_assoc, ← List.replicate_succ']
      rw [List.drop_eq_nil_of_le hshort, List.take_of_length_le hshort, NumberLiteral.digits]
      simp only [List.isEmpty_nil, if_true, Option.getD_some, hall]
      exact digitsValue_append_zeros _ _
    · rw [List.drop_eq_nil_of_le hshort]
      simp only [NumberLiteral.place, NumberLiteral.exponentValue, List.isEmpty_nil, if_true,
        Option.getD_some, List.length_singleton]
      omega
  · have hrest : s.digits.drop (s.exponent.toNat + 1) ≠ [] := by
      rw [Ne, List.drop_eq_nil_iff]
      exact hshort
    have hpad : s.exponent.toNat + 1 - s.digits.length = 0 := by omega
    refine ⟨0, ?_, ?_⟩
    · rw [hpad, NumberLiteral.digits]
      simp [hrest]
    · simp only [NumberLiteral.place, NumberLiteral.exponentValue, List.isEmpty_iff, hrest, if_false,
        Option.getD_some, List.length_drop]
      omega

theorem digits_exponential {s : Scientific} (h : s.digits ≠ []) :
    digitsValue s.exponentialLiteral.digits = digitsValue s.digits ∧
      s.exponentialLiteral.place = s.exponent + 1 - s.digits.length := by
  obtain ⟨c, rest, hdigits⟩ := List.exists_cons_of_ne_nil h
  have hfraction : (if rest.isEmpty then none else some rest).getD [] = rest := by
    cases rest <;> rfl
  unfold exponentialLiteral NumberLiteral.digits NumberLiteral.place NumberLiteral.exponentValue
  rw [hdigits]
  dsimp only
  rw [List.drop_one, List.tail_cons, hfraction, Text.ofNat, digitsValue_toDigits]
  refine ⟨rfl, ?_⟩
  split_ifs with hsign <;> rw [List.length_cons] <;> simp only [decide_eq_true_eq] at hsign <;> omega

/-- A decimal is written with its digits, and maybe with zeros behind them. -/
theorem digits_literal {s : Scientific} (h : s.digits ≠ []) : ∃ zeros : Nat,
    digitsValue s.literal.digits = digitsValue s.digits * 10 ^ zeros ∧
      s.literal.place = s.exponent + 1 - s.digits.length - zeros := by
  unfold literal
  split_ifs
  · rcases lt_or_ge s.exponent 0 with hneg | hnonneg
    · obtain ⟨hdigits, hplace⟩ := digits_positional_of_neg hneg
      exact ⟨0, by rw [hdigits, pow_zero, Nat.mul_one], by rw [hplace]; simp⟩
    · exact digits_positional_of_nonneg hnonneg
  · obtain ⟨hdigits, hplace⟩ := digits_exponential h
    exact ⟨0, by rw [hdigits, pow_zero, Nat.mul_one], by rw [hplace]; simp⟩

/-- A decimal by its digits and the power of ten of the last, as it is found. -/
theorem ofPlaces_spec {n : Nat} (hn : 0 < n) (place : Int) : ∃ zeros : Nat,
    n = digitsValue (ofPlaces n place).digits * 10 ^ zeros ∧
      (ofPlaces n place).exponent + 1 - (ofPlaces n place).digits.length = place + zeros ∧
      (ofPlaces n place).IsProper := by
  obtain ⟨zeros, hspelled⟩ : ∃ zeros, Nat.toDigits 10 n =
      (ofPlaces n place).digits ++ List.replicate zeros '0' := by
    refine ⟨((Nat.toDigits 10 n).reverse.takeWhile (· = '0')).length, ?_⟩
    have hzeros : (Nat.toDigits 10 n).reverse.takeWhile (· = '0') =
        List.replicate ((Nat.toDigits 10 n).reverse.takeWhile (· = '0')).length '0' :=
      List.eq_replicate_of_mem fun c hc => by simpa using List.mem_takeWhile_imp hc
    rw [← List.reverse_inj, List.reverse_append, List.reverse_replicate, ← hzeros]
    simp [ofPlaces]
  have hvalue : n = digitsValue (ofPlaces n place).digits * 10 ^ zeros := by
    rw [← digitsValue_append_zeros, ← hspelled, digitsValue_toDigits]
  have hne : (ofPlaces n place).digits ≠ [] := by
    intro hnil
    rw [hnil] at hvalue
    simp [digitsValue] at hvalue
    omega
  refine ⟨zeros, hvalue, ?_, ⟨hne, fun c hc => ?_⟩, ?_⟩
  · have hlength := congrArg List.length hspelled
    rw [List.length_append, List.length_replicate] at hlength
    have hexponent : (ofPlaces n place).exponent = place + (Nat.toDigits 10 n).length - 1 := rfl
    omega
  · exact (isDigits_toDigits n).isDigit c (hspelled ▸ List.mem_append_left _ hc)
  · have hhead := head?_toDigits_ne_zero hn
    rwa [hspelled, List.head?_append_of_ne_nil _ hne] at hhead

end Number.Scientific

/-! ## Written doubles -/

namespace Json

/-- The magnitude that is spelled, as a rational. -/
theorem NumberLiteral.div_raised_place (literal : NumberLiteral) :
    ((digitsValue literal.digits * raised 10 literal.place : Nat) : ℚ) /
      (raised 10 (-literal.place) : Nat) = digitsValue literal.digits * 10 ^ literal.place := by
  have hden : 0 < raised 10 (-literal.place) := raised_pos (by norm_num) _
  rw [div_eq_iff (by exact_mod_cast hden.ne'), Nat.cast_mul,
    raised_eq (by norm_num : 0 < 10) literal.place]
  push_cast
  ring

section Double

variable {x : Binary64} (hx : x.IsCanonical)
include hx

theorem exists_shortest_literal (hpos : 0 < x.significand) : x.shortest.IsProper ∧
    x.interval.Contains (digitsValue x.shortest.literal.digits * 10 ^ x.shortest.literal.place) := by
  obtain ⟨n, place, hshortest, hn, -, hcontains⟩ := Binary64.exists_shortest_eq hx hpos
  obtain ⟨dropped, hvalue, hexponent, hproper⟩ := Scientific.ofPlaces_spec hn place
  rw [← hshortest] at hvalue hexponent hproper
  obtain ⟨zeros, hdigits, hplace⟩ := Scientific.digits_literal hproper.digits.ne_nil
  refine ⟨hproper, ?_⟩
  have hsame : (digitsValue x.shortest.literal.digits : ℚ) * 10 ^ x.shortest.literal.place =
      n * 10 ^ place := by
    rw [hdigits, hplace, hexponent, hvalue]
    push_cast
    rw [zpow_sub₀ (by norm_num), zpow_add₀ (by norm_num), zpow_natCast, zpow_natCast]
    field_simp
  rwa [hsame]

theorem isProper_magnitudeLiteral : (magnitudeLiteral x).IsProper := by
  unfold magnitudeLiteral
  split_ifs with hzero
  · exact ⟨isDigits_zero, fun _ => rfl, by simp [isDigits_zero], by simp⟩
  · exact Scientific.isProper_literal (exists_shortest_literal hx (Nat.pos_of_ne_zero hzero)).1

/-- **A double is the nearest to the decimal that it is written as.** -/
theorem nearest?_magnitudeLiteral : (magnitudeLiteral x).nearest? = some x := by
  unfold magnitudeLiteral
  split_ifs with hzero
  · rw [hx.eq_zero hzero]
    rfl
  · have hpos := Nat.pos_of_ne_zero hzero
    obtain ⟨-, hcontains⟩ := exists_shortest_literal hx hpos
    rw [← NumberLiteral.div_raised_place] at hcontains
    exact Binary64.nearest?_of_contains (raised_pos (by norm_num) _) hx hpos hcontains

end Double

end Json

end Recast

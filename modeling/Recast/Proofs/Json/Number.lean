/-
  Recast JSON — how numbers are spelled.

  * `Number.literal` is the number as it is spelled, and `text_literal`: that is how it is written;
  * `NumberLiteral.IsWordInteger literal`: an integer is spelled, other than `-0`, that fits into 64
    bits with or without a sign; `integer?_eq_some_iff`: these are the integers that are exact;
  * `ofLiteral?_literal_integer`: an integer that fits into 64 bits is read back.
-/
import Recast.Proofs.Json.Literal

namespace Recast

open Recast.Json

/-! ## Decimals -/

namespace Number.Scientific

/-- A decimal with all its places, as a number that is spelled. -/
def positionalLiteral (s : Scientific) : NumberLiteral :=
  if s.exponent < 0 then
    ⟨false, ['0'], some (List.replicate (-s.exponent - 1).toNat '0' ++ s.digits), none⟩
  else
    let places := s.exponent.toNat + 1
    let fraction := s.digits.drop places
    ⟨false, s.digits.take places ++ List.replicate (places - s.digits.length) '0',
      some (if fraction.isEmpty then ['0'] else fraction), none⟩

/-- A decimal with an exponent, as a number that is spelled. -/
def exponentialLiteral (s : Scientific) : NumberLiteral :=
  let fraction := s.digits.drop 1
  ⟨false, s.digits.take 1, if fraction.isEmpty then none else some fraction,
    some (s.exponent < 0, Text.ofNat s.exponent.natAbs)⟩

/-- A decimal as a number that is spelled. -/
def literal (s : Scientific) : NumberLiteral :=
  if isPositional s.exponent then s.positionalLiteral else s.exponentialLiteral

theorem negative_literal (s : Scientific) : s.literal.negative = false := by
  unfold literal positionalLiteral exponentialLiteral
  split_ifs <;> rfl

theorem text_literal (s : Scientific) : s.literal.text = s.text := by
  unfold literal text
  split_ifs
  · unfold positionalLiteral positional
    split_ifs
    · simp [NumberLiteral.text, NumberLiteral.fractionText, NumberLiteral.exponentText]
    · simp [NumberLiteral.text, NumberLiteral.fractionText, NumberLiteral.exponentText]
  · unfold exponentialLiteral exponential
    by_cases hfraction : s.digits.tail = [] <;>
      simp [NumberLiteral.text, NumberLiteral.fractionText, NumberLiteral.exponentText, hfraction]

/-- The digits of a decimal are digits, and the first is not zero. -/
structure IsProper (s : Scientific) : Prop where
  digits : IsDigits s.digits
  head : s.digits.head? ≠ some '0'

theorem isProper_literal {s : Scientific} (h : s.IsProper) : s.literal.IsProper := by
  have hfirst : ∀ n : Nat, (s.digits.take (n + 1)).head? ≠ some '0' := by
    intro n
    rw [List.head?_take, if_neg (Nat.succ_ne_zero n)]
    exact h.head
  unfold literal positionalLiteral exponentialLiteral
  split_ifs with hpositional hsmall
  · refine ⟨isDigits_zero, fun _ => rfl, fun digits hdigits => ?_, by simp⟩
    obtain rfl := Option.some.inj hdigits
    exact h.digits.zeros_append _
  · refine ⟨(h.digits.take_succ _).append_zeros _, fun hzero => ?_, fun digits hdigits => ?_, by simp⟩
    · rw [List.head?_append_of_ne_nil _ (h.digits.take_succ _).ne_nil] at hzero
      exact absurd hzero (hfirst _)
    · obtain rfl := Option.some.inj hdigits
      split_ifs with hempty
      · exact isDigits_zero
      · exact h.digits.drop (by simpa using hempty)
  · refine ⟨h.digits.take_succ 0, fun hzero => absurd hzero (hfirst 0), fun digits hdigits => ?_,
      fun negative digits hdigits => ?_⟩
    · dsimp only at hdigits
      split_ifs at hdigits with hempty
      obtain rfl := Option.some.inj hdigits
      exact h.digits.drop (by simpa using hempty)
    · obtain ⟨-, rfl⟩ := Prod.mk.inj (Option.some.inj hdigits)
      exact isDigits_toDigits _

end Number.Scientific

namespace Json

open Recast.Number (Binary64)

/-! ## Numbers -/

/-- A literal with a sign, or without. -/
def NumberLiteral.withSign (literal : NumberLiteral) (negative : Bool) : NumberLiteral :=
  { literal with negative := negative }

theorem NumberLiteral.text_withSign {literal : NumberLiteral} (h : literal.negative = false)
    (negative : Bool) :
    (literal.withSign negative).text = if negative then '-' :: literal.text else literal.text := by
  cases negative <;> simp [text, withSign, h]

/-- A nonnegative double as it is spelled. -/
def magnitudeLiteral (x : Binary64) : NumberLiteral :=
  if x.significand = 0 then ⟨false, ['0'], some ['0'], none⟩ else x.shortest.literal

theorem negative_magnitudeLiteral (x : Binary64) : (magnitudeLiteral x).negative = false := by
  unfold magnitudeLiteral
  split_ifs
  · rfl
  · exact x.shortest.negative_literal

theorem text_magnitudeLiteral (x : Binary64) : (magnitudeLiteral x).text = magnitudeText x := by
  unfold magnitudeLiteral magnitudeText
  split_ifs
  · rfl
  · exact x.shortest.text_literal

/-- A number as it is spelled. -/
def Number.literal : Number → NumberLiteral
  | .integer value => ⟨value < 0, Text.ofNat value.natAbs, none, none⟩
  | .double negative magnitude => (magnitudeLiteral magnitude).withSign negative

theorem Number.text_literal (n : Number) : n.literal.text = n.text := by
  cases n with
  | integer value =>
    by_cases hvalue : value < 0 <;>
      simp [literal, text, integerText, NumberLiteral.text, NumberLiteral.fractionText,
        NumberLiteral.exponentText, hvalue]
  | double negative magnitude =>
    rw [literal, NumberLiteral.text_withSign (negative_magnitudeLiteral _), text_magnitudeLiteral]
    rfl

theorem isProper_literal_integer (value : Int) : (Number.integer value).literal.IsProper := by
  refine ⟨isDigits_toDigits _, fun hzero => ?_, by simp [Number.literal], by simp [Number.literal]⟩
  rcases Nat.eq_zero_or_pos value.natAbs with hvalue | hvalue
  · simp [Number.literal, hvalue, Text.ofNat]
  · exact absurd hzero (head?_toDigits_ne_zero hvalue)

/-! ## Integers of 64 bits -/

/-- An integer is spelled, other than `-0`, that fits into 64 bits with or without a sign. -/
structure NumberLiteral.IsWordInteger (literal : NumberLiteral) : Prop where
  fraction : literal.fraction = none
  exponent : literal.exponent = none
  least : literal.negative = true →
    0 < digitsValue literal.whole ∧ digitsValue literal.whole ≤ 2 ^ 63
  most : literal.negative = false → digitsValue literal.whole < 2 ^ 64

/-- The integer that a literal without fraction and exponent spells. -/
def NumberLiteral.integerValue (literal : NumberLiteral) : Int :=
  if literal.negative then -(digitsValue literal.whole : Int) else digitsValue literal.whole

/-- **The exact integers are those that fit into 64 bits.** -/
theorem NumberLiteral.integer?_eq_some_iff {literal : NumberLiteral} {value : Int} :
    literal.integer? = some value ↔ literal.IsWordInteger ∧ literal.integerValue = value := by
  have hbound : wordBound = 2 ^ 64 := rfl
  constructor
  · intro h
    unfold integer? at h
    have hpoint : literal.fraction = none ∧ literal.exponent = none := by
      by_contra hpoint
      simp_all [Option.isSome_iff_ne_none]
    simp only [hpoint, Option.isSome_none, Bool.or_self, Bool.false_eq_true, if_false] at h
    unfold integerValue
    split_ifs at h ⊢ with hnegative hleast hmost
    · exact ⟨⟨hpoint.1, hpoint.2, fun _ => ⟨hleast.1, by omega⟩, by simp [hnegative]⟩,
        Option.some.inj h⟩
    · exact ⟨⟨hpoint.1, hpoint.2, by simp [hnegative], fun _ => hbound ▸ hmost⟩, Option.some.inj h⟩
  · rintro ⟨h, rfl⟩
    unfold integer? integerValue
    rw [h.fraction, h.exponent]
    cases hnegative : literal.negative with
    | false =>
      have hmost : digitsValue literal.whole < wordBound := h.most hnegative
      simp [hmost]
    | true =>
      have hleast : 0 < digitsValue literal.whole ∧ digitsValue literal.whole ≤ wordBound / 2 :=
        h.least hnegative
      simp [hleast]

instance (literal : NumberLiteral) : Decidable literal.IsWordInteger :=
  decidable_of_iff (literal.integer?.isSome = true) <| by
    simp [Option.isSome_iff_exists, NumberLiteral.integer?_eq_some_iff]

theorem NumberLiteral.IsWordInteger.ofLiteral? {literal : NumberLiteral} (h : literal.IsWordInteger) :
    Number.ofLiteral? literal = some (.integer literal.integerValue) := by
  rw [Number.ofLiteral?, NumberLiteral.integer?_eq_some_iff.2 ⟨h, rfl⟩]

theorem NumberLiteral.IsWordInteger.bounds {literal : NumberLiteral} (h : literal.IsWordInteger) :
    -2 ^ 63 ≤ literal.integerValue ∧ literal.integerValue < 2 ^ 64 := by
  unfold integerValue
  cases hnegative : literal.negative with
  | false =>
    have hmost := h.most hnegative
    simp only [Bool.false_eq_true, if_false]
    omega
  | true =>
    have hleast := h.least hnegative
    simp only [if_true]
    omega

section Word

variable {value : Int} (hleast : -2 ^ 63 ≤ value) (hmost : value < 2 ^ 64)
include hleast hmost

theorem isWordInteger_literal_integer : (Number.integer value).literal.IsWordInteger := by
  have hdigits : digitsValue (Number.integer value).literal.whole = value.natAbs :=
    digitsValue_toDigits _
  refine ⟨rfl, rfl, fun hnegative => ?_, fun hnegative => ?_⟩
  · have hvalue : value < 0 := of_decide_eq_true hnegative
    rw [hdigits]
    omega
  · have hvalue : ¬ value < 0 := of_decide_eq_false hnegative
    rw [hdigits]
    omega

/-- **An integer that fits into 64 bits is read back.** -/
theorem ofLiteral?_literal_integer :
    Number.ofLiteral? (Number.integer value).literal = some (.integer value) := by
  have hvalue : (Number.integer value).literal.integerValue = value := by
    simp only [NumberLiteral.integerValue, Number.literal, Text.ofNat, digitsValue_toDigits,
      decide_eq_true_eq]
    split_ifs <;> omega
  rw [(isWordInteger_literal_integer hleast hmost).ofLiteral?, hvalue]

end Word

end Json

end Recast

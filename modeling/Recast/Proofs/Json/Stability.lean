/-
  Recast JSON — numbers that are laid out again.

  A number is written as the shortest decimal that a correctly rounding reader takes for it.  The reader
  here rounds more than once, and so it may take another number for it.

  * `isCanonical_of_ofLiteral?`: the doubles that are read are canonical;
  * `Number.eq_of_text_eq`: numbers that are read and written alike are the same;
  * `Number.ofLiteral?_literal_double_iff`: a double is read back exactly if the steps of reading round
    its decimal to the nearest double;
  * `reformat_reformat_iff`: the text of a number is laid out as it is exactly if that is so;
  * `reformat_ne_reformat`: it is not for every number; `reformat_text_of_short`: it is for those with
    at most fifteen digits whose last is worth from `10 ^ (-22)` to `10 ^ 22`.
-/
import Recast.Proofs.Json.Decimal
import Recast.Proofs.Json.Reformat
import Recast.Proofs.Number.Exact

namespace Recast.Json

open Recast.Number

/-! ## Doubles that are read -/

theorem significand_pos_of_tenPower? {n : Nat} {x : Binary64} (h : tenPower? n = some x) :
    0 < x.significand :=
  Binary64.significand_pos_of_nearest? one_pos (raised_pos (by norm_num) _) h

theorem isCanonical_of_divideDown? {times : Nat} {x y : Binary64} (hx : x.IsCanonical)
    (h : divideDown? times x = some y) : y.IsCanonical := by
  induction times generalizing x with
  | zero => exact Option.some.inj h ▸ hx
  | succ times ih =>
    rw [divideDown?] at h
    split_ifs at h
    · exact Option.some.inj h ▸ hx
    · obtain ⟨ten, hten, h⟩ := Option.bind_eq_some_iff.1 h
      obtain ⟨quotient, hquotient, h⟩ := Option.bind_eq_some_iff.1 h
      exact ih (Binary64.isCanonical_div? (significand_pos_of_tenPower? hten) hquotient) h

theorem isCanonical_of_scaled? {significand : Nat} {exponent : Int} {x : Binary64}
    (h : scaled? significand exponent = some x) : x.IsCanonical := by
  obtain ⟨start, hstart, h⟩ := Option.bind_eq_some_iff.1 h
  have hcanonical := Binary64.isCanonical_ofNat? hstart
  split_ifs at h with hlarge hzero hnonneg
  · exact Option.some.inj h ▸ hcanonical
  · obtain ⟨ten, hten, h⟩ := Option.bind_eq_some_iff.1 h
    exact Binary64.isCanonical_mul? h
  · obtain ⟨down, hdown, h⟩ := Option.bind_eq_some_iff.1 h
    split_ifs at h
    · exact Option.some.inj h ▸ isCanonical_of_divideDown? hcanonical hdown
    · obtain ⟨ten, hten, h⟩ := Option.bind_eq_some_iff.1 h
      exact Binary64.isCanonical_div? (significand_pos_of_tenPower? hten) h

theorem isCanonical_of_ofLiteral? {literal : NumberLiteral} {negative : Bool} {x : Binary64}
    (h : Number.ofLiteral? literal = some (.double negative x)) : x.IsCanonical := by
  unfold Number.ofLiteral? at h
  split at h
  · simp at h
  · obtain ⟨magnitude, hmagnitude, hx⟩ := Option.map_eq_some_iff.1 h
    obtain ⟨-, rfl⟩ := Number.double.inj hx
    exact isCanonical_of_scaled? hmagnitude

/-! ## Numbers by their text -/

/-- A double is written with a point or with an exponent. -/
theorem integer?_literal_double (negative : Bool) (x : Binary64) :
    (Number.double negative x).literal.integer? = none := by
  have hpoint : (magnitudeLiteral x).fraction.isSome || (magnitudeLiteral x).exponent.isSome := by
    unfold magnitudeLiteral Scientific.literal Scientific.positionalLiteral
      Scientific.exponentialLiteral
    split_ifs <;> simp
  exact if_pos hpoint

theorem not_isWordInteger_literal_double (negative : Bool) (x : Binary64) :
    ¬ (Number.double negative x).literal.IsWordInteger := by
  intro hword
  have hinteger := NumberLiteral.integer?_eq_some_iff.2 ⟨hword, rfl⟩
  rw [integer?_literal_double] at hinteger
  simp at hinteger

theorem ofLiteral?_literal_double (negative : Bool) (x : Binary64) :
    Number.ofLiteral? (Number.double negative x).literal =
      (magnitudeLiteral x).magnitude?.map (.double negative) := by
  rw [Number.ofLiteral?, integer?_literal_double]
  rfl

section Read

variable {literal : NumberLiteral} {n : Number} (h : Number.ofLiteral? literal = some n)
include h

theorem isProper_literal_of_ofLiteral? : n.literal.IsProper := by
  cases n with
  | integer value => exact isProper_literal_integer value
  | double negative x =>
    have hproper := isProper_magnitudeLiteral (isCanonical_of_ofLiteral? h)
    exact ⟨hproper.whole, hproper.head_whole, hproper.fraction, hproper.exponent⟩

theorem ofText?_text_of_ofLiteral? : NumberLiteral.ofText? n.text = some n.literal := by
  rw [← n.text_literal]
  exact NumberLiteral.ofText?_text (isProper_literal_of_ofLiteral? h)

theorem isWordInteger_literal_of_integer {value : Int} (hn : n = .integer value) :
    n.literal.IsWordInteger ∧ Number.ofLiteral? n.literal = some n := by
  subst hn
  unfold Number.ofLiteral? at h
  split at h
  · rename_i read hread
    obtain ⟨hword, hvalue⟩ := NumberLiteral.integer?_eq_some_iff.1 hread
    obtain rfl := Number.integer.inj (Option.some.inj h)
    obtain ⟨hleast, hmost⟩ := hvalue ▸ hword.bounds
    exact ⟨isWordInteger_literal_integer hleast hmost, ofLiteral?_literal_integer hleast hmost⟩
  · simp at h

end Read

/-- **Numbers that are read and written alike are the same.** -/
theorem Number.eq_of_text_eq {first second : NumberLiteral} {m n : Number}
    (hm : Number.ofLiteral? first = some m) (hn : Number.ofLiteral? second = some n)
    (htext : m.text = n.text) : m = n := by
  have hliteral : m.literal = n.literal := by
    have hread := ofText?_text_of_ofLiteral? hm
    rw [htext, ofText?_text_of_ofLiteral? hn] at hread
    exact (Option.some.inj hread).symm
  cases m with
  | integer value =>
    obtain ⟨hword, hback⟩ := isWordInteger_literal_of_integer hm rfl
    cases n with
    | integer other =>
      rw [hliteral, (isWordInteger_literal_of_integer hn rfl).2] at hback
      exact (Option.some.inj hback).symm
    | double negative x => exact absurd (hliteral ▸ hword) (not_isWordInteger_literal_double _ _)
  | double negative x =>
    cases n with
    | integer value =>
      obtain ⟨hword, -⟩ := isWordInteger_literal_of_integer hn rfl
      exact absurd (hliteral ▸ hword) (not_isWordInteger_literal_double _ _)
    | double other y =>
      have hsign : negative = other := congrArg NumberLiteral.negative hliteral
      have hnearest : (magnitudeLiteral x).nearest? = (magnitudeLiteral y).nearest? := by
        change (Number.double negative x).literal.nearest? = (Number.double other y).literal.nearest?
        rw [hliteral]
      rw [nearest?_magnitudeLiteral (isCanonical_of_ofLiteral? hm),
        nearest?_magnitudeLiteral (isCanonical_of_ofLiteral? hn)] at hnearest
      rw [hsign, Option.some.inj hnearest]

/-! ## Numbers laid out again -/

/-- **A double is read back exactly if its decimal is rounded to the nearest double.** -/
theorem Number.ofLiteral?_literal_double_iff {negative : Bool} {x : Binary64} (hx : x.IsCanonical) :
    Number.ofLiteral? (Number.double negative x).literal = some (.double negative x) ↔
      (Number.double negative x).literal.magnitude? = (Number.double negative x).literal.nearest? := by
  have hnearest : (Number.double negative x).literal.nearest? = some x := nearest?_magnitudeLiteral hx
  have hmagnitude : (Number.double negative x).literal.magnitude? =
      (magnitudeLiteral x).magnitude? := rfl
  rw [ofLiteral?_literal_double, hnearest, hmagnitude, Option.map_eq_some_iff]
  constructor
  · rintro ⟨y, hy, heq⟩
    rw [hy, (Number.double.inj heq).2]
  · exact fun hy => ⟨x, hy, rfl⟩

theorem reformat_number_iff {s t : Text} {literal : NumberLiteral}
    (hs : tokens? s = some [.number literal]) :
    reformat "0".toList s = .ok t ↔ ∃ n, Number.ofLiteral? literal = some n ∧ n.text = t := by
  have hindent : Indent.ofText? "0".toList = some (.spaces 0) := by decide
  have htree : Tree.ofText? s = some (.number literal) := by
    rw [Tree.ofText?, hs]
    rfl
  rw [reformat_eq_ok_iff]
  constructor
  · rintro ⟨indent, value, -, hvalue, rfl⟩
    rw [Value.ofText?, htree] at hvalue
    obtain ⟨n, hn, rfl⟩ := Option.map_eq_some_iff.1 hvalue
    exact ⟨n, hn, rfl⟩
  · rintro ⟨n, hn, rfl⟩
    refine ⟨.spaces 0, .number n, hindent, ?_, rfl⟩
    rw [Value.ofText?, htree, Option.bind_some, Value.ofTree?, hn]
    rfl

theorem reformat_text_iff {literal : NumberLiteral} {n : Number}
    (h : Number.ofLiteral? literal = some n) :
    reformat "0".toList n.text = .ok n.text ↔ Number.ofLiteral? n.literal = some n := by
  have htokens : tokens? n.text = some [.number n.literal] := by
    rw [← n.text_literal]
    exact (spells_number (NumberLiteral.isWritten_text (isProper_literal_of_ofLiteral? h))).tokens?_eq
  rw [reformat_number_iff htokens]
  constructor
  · rintro ⟨m, hm, htext⟩
    rw [hm, Number.eq_of_text_eq hm h htext]
  · exact fun hn => ⟨n, hn, rfl⟩

/-- **A number is laid out as it is exactly if reading it rounds to nearest.**  The text `t` of a number
    spells an integer that fits into 64 bits, or a decimal; it is laid out as `t` again if and only
    if in the second case the steps of reading give the double nearest to the decimal. -/
theorem reformat_reformat_iff {s t : Text} {literal : NumberLiteral}
    (hs : tokens? s = some [.number literal]) (ht : reformat "0".toList s = .ok t) :
    reformat "0".toList t = .ok t ↔ ∃ written, NumberLiteral.ofText? t = some written ∧
      (written.IsWordInteger ∨ written.magnitude? = written.nearest?) := by
  obtain ⟨n, hn, rfl⟩ := (reformat_number_iff hs).1 ht
  have hwritten : (∃ written, NumberLiteral.ofText? n.text = some written ∧
      (written.IsWordInteger ∨ written.magnitude? = written.nearest?)) ↔
        n.literal.IsWordInteger ∨ n.literal.magnitude? = n.literal.nearest? := by
    simp [ofText?_text_of_ofLiteral? hn]
  rw [hwritten, reformat_text_iff hn]
  cases n with
  | integer value =>
    obtain ⟨hword, hback⟩ := isWordInteger_literal_of_integer hn rfl
    exact iff_of_true hback (.inl hword)
  | double negative x =>
    rw [Number.ofLiteral?_literal_double_iff (isCanonical_of_ofLiteral? hn),
      or_iff_right (not_isWordInteger_literal_double negative x)]

theorem reformat_reformat_iff_six :
    reformat "0".toList "6.0000000000000004e+97".toList = .ok "6.0000000000000004e+97".toList ↔
      ∃ written, NumberLiteral.ofText? "6.0000000000000004e+97".toList = some written ∧
        (written.IsWordInteger ∨ written.magnitude? = written.nearest?) :=
  have htokens : tokens? "6e97".toList =
      some [.number ⟨false, ['6'], none, some (false, ['9', '7'])⟩] := by decide +kernel
  reformat_reformat_iff htokens (by decide +kernel)

/-- The double that `6e97` is read as is not the nearest one, and it is written with seventeen digits;
    they are read as the nearest one. -/
theorem reformat_ne_reformat :
    tokens? "6e97".toList = some [.number ⟨false, ['6'], none, some (false, ['9', '7'])⟩] ∧
      reformat "0".toList "6e97".toList = .ok "6.0000000000000004e+97".toList ∧
      reformat "0".toList "6.0000000000000004e+97".toList = .ok "6e+97".toList := by
  decide +kernel

/-! ## Short numbers -/

/-- The powers of ten up to `10 ^ 22` are doubles. -/
theorem exists_tenPower?_eq {n : Nat} (hn : n ≤ 22) :
    ∃ ten, tenPower? n = some ten ∧ ten.value = 10 ^ n := by
  have hvalue : ((raised 10 n : Nat) : ℚ) / (1 : Nat) = (5 ^ n : Nat) * 2 ^ (n : Int) := by
    have hraised : raised 10 n = 5 ^ n * 2 ^ n := by
      rw [← Nat.mul_pow]
      rfl
    rw [hraised, zpow_natCast]
    push_cast
    rw [div_one]
  have hfive : 5 ^ n < 2 * Binary64.leastNormal :=
    lt_of_le_of_lt (Nat.pow_le_pow_right (by norm_num) hn) (by decide)
  have hleast : Binary64.leastPower ≤ n := by
    unfold Binary64.leastPower
    omega
  have hmost : (n : Int) < Binary64.mostPower := by
    unfold Binary64.mostPower
    omega
  obtain ⟨ten, hten, hexact⟩ := Binary64.exists_nearest?_eq one_pos hfive hleast hmost hvalue
  refine ⟨ten, hten, hexact.trans ?_⟩
  rw [zpow_natCast]
  push_cast
  rw [← mul_pow]
  norm_num

/-- **Few digits with a small exponent are read as the nearest double.**  Digits and power of ten are
    both exact, so that only their product or quotient is rounded. -/
theorem NumberLiteral.magnitude?_eq_nearest? {literal : NumberLiteral}
    (hdigits : digitsValue literal.digits < 2 * Binary64.leastNormal) (hlow : -22 ≤ literal.place)
    (hhigh : literal.place ≤ 22) : literal.magnitude? = literal.nearest? := by
  have hfits : digitsValue literal.digits < wordBound := hdigits.trans (by decide)
  have hden : 0 < raised 10 (-literal.place) := raised_pos (by norm_num) _
  have hexact : ((digitsValue literal.digits : Nat) : ℚ) / (1 : Nat) =
      digitsValue literal.digits * 2 ^ (0 : Int) := by simp
  obtain ⟨x, hx, hvalue⟩ :=
    Binary64.exists_nearest?_eq one_pos hdigits (by decide) (by decide) hexact
  rw [zpow_zero, mul_one] at hvalue
  have hstart : Binary64.ofNat? (digitsValue literal.digits) = some x := hx
  have hlarge : ¬ (mostTenPower : Int) < literal.place := by
    unfold mostTenPower
    omega
  rw [NumberLiteral.magnitude?_eq_scaled? hfits, scaled?, hstart]
  simp only [Option.bind_eq_bind, Option.bind_some, if_neg hlarge]
  split_ifs with hnonneg
  · obtain ⟨ten, hten, hpower⟩ := exists_tenPower?_eq (n := literal.place.toNat) (by omega)
    rw [hten, Option.bind_some]
    refine Binary64.mul?_eq hden ?_
    rw [literal.div_raised_place, hvalue, hpower, ← zpow_natCast, Int.toNat_of_nonneg hnonneg]
  · obtain ⟨ten, hten, hpower⟩ := exists_tenPower?_eq (n := (-literal.place).toNat) (by omega)
    have hpositive := significand_pos_of_tenPower? hten
    have htimes : ((-literal.place).toNat - mostTenPower + (mostTenPower - 1)) / mostTenPower = 0 := by
      unfold mostTenPower
      omega
    rw [htimes, divideDown?, Option.bind_some, Nat.zero_mul, Nat.sub_zero, hten, Option.bind_some]
    split_ifs with hzero
    · have hnone : digitsValue literal.digits = 0 := by
        rw [Binary64.value, hzero, Nat.cast_zero, zero_mul] at hvalue
        exact_mod_cast hvalue.symm
      rw [(Binary64.isCanonical_ofNat? hstart).eq_zero hzero, nearest?, hnone, Nat.zero_mul]
      rfl
    · refine Binary64.div?_eq hpositive hden ?_
      rw [literal.div_raised_place, hvalue, hpower, ← zpow_natCast,
        Int.toNat_of_nonneg (by omega), zpow_neg, div_inv_eq_mul]

/-- A number that is written with few digits and a small exponent is laid out as it is. -/
theorem reformat_text_of_short {literal : NumberLiteral} {n : Number}
    (h : Number.ofLiteral? literal = some n)
    (hdigits : digitsValue n.literal.digits < 2 * Binary64.leastNormal)
    (hlow : -22 ≤ n.literal.place) (hhigh : n.literal.place ≤ 22) :
    reformat "0".toList n.text = .ok n.text := by
  rw [reformat_text_iff h]
  cases n with
  | integer value => exact (isWordInteger_literal_of_integer h rfl).2
  | double negative x =>
    rw [Number.ofLiteral?_literal_double_iff (isCanonical_of_ofLiteral? h)]
    exact NumberLiteral.magnitude?_eq_nearest? hdigits hlow hhigh

end Recast.Json

/-
  Recast JSON — numbers as they are spelled.

  * `NumberLiteral.text` spells a number, and `NumberLiteral.IsProper` says that its digits are digits;
  * `NumberLiteral.IsWritten literal s`: a number may be written as `s`, of which its own spelling is
    one way; `ofText?_of_isWritten`: it is read however it is written;
  * `ofAtom?_of_isWritten`: so is the token, and no character of it ends an atom;
  * `digitsValue_append`, `digitsValue_toDigits`: the number that digits spell.
-/
import Mathlib.Algebra.Group.Int.Defs
import Mathlib.Algebra.Group.Nat.Defs
import Mathlib.Data.List.Basic
import Mathlib.Data.List.TakeDrop
import Mathlib.Data.List.TakeWhile
import Recast.Json.Number

namespace Recast.Json

/-! ## Digits -/

/-- At least one digit, and nothing else. -/
structure IsDigits (s : Text) : Prop where
  ne_nil : s ≠ []
  isDigit : ∀ c ∈ s, c.isDigit = true

theorem isDigits_toDigits (n : Nat) : IsDigits (Nat.toDigits 10 n) :=
  ⟨Nat.toDigits_ne_nil, fun _ => Nat.isDigit_of_mem_toDigits (by decide) (by decide)⟩

theorem isDigits_zero : IsDigits ['0'] :=
  ⟨by decide, List.forall_mem_singleton.2 rfl⟩

theorem isDigit_of_mem_replicate {n : Nat} {c : Char} (h : c ∈ List.replicate n '0') :
    c.isDigit = true := by
  rw [(List.mem_replicate.1 h).2]
  decide

namespace IsDigits

variable {s : Text} (h : IsDigits s)
include h

theorem take_succ (n : Nat) : IsDigits (s.take (n + 1)) := by
  obtain ⟨c, rest, rfl⟩ := List.exists_cons_of_ne_nil h.ne_nil
  exact ⟨by simp, fun d hd => h.isDigit d (List.mem_of_mem_take hd)⟩

theorem drop {n : Nat} (hne : s.drop n ≠ []) : IsDigits (s.drop n) :=
  ⟨hne, fun d hd => h.isDigit d (List.mem_of_mem_drop hd)⟩

theorem zeros_append (n : Nat) : IsDigits (List.replicate n '0' ++ s) :=
  ⟨by simp [h.ne_nil], fun d hd => (List.mem_append.1 hd).elim isDigit_of_mem_replicate (h.isDigit d)⟩

theorem append_zeros (n : Nat) : IsDigits (s ++ List.replicate n '0') :=
  ⟨by simp [h.ne_nil], fun d hd => (List.mem_append.1 hd).elim (h.isDigit d) isDigit_of_mem_replicate⟩

end IsDigits

/-- The numeral of a positive number does not begin with zero. -/
theorem head?_toDigits_ne_zero {n : Nat} (h : 0 < n) : (Nat.toDigits 10 n).head? ≠ some '0' := by
  have hdigit : ∀ n < 10, 0 < n → [n.digitChar].head? ≠ some '0' := by decide
  induction n using Nat.strongRecOn with
  | ind n ih =>
    rw [Nat.toDigits_eq_if (by decide)]
    split_ifs with hlt
    · exact hdigit n hlt h
    · rw [List.head?_append_of_ne_nil _ Nat.toDigits_ne_nil]
      exact ih (n / 10) (Nat.div_lt_self h (by decide)) (Nat.div_pos (by omega) (by decide))

theorem digitsValue_eq (s : Text) : digitsValue s = Nat.ofDigitChars 10 s 0 := by
  rw [Nat.ofDigitChars_eq_foldl]
  simp only [digitsValue, digitValue, Nat.mul_comm]

@[simp] theorem digitsValue_toDigits (n : Nat) : digitsValue (Nat.toDigits 10 n) = n := by
  rw [digitsValue_eq, Nat.ofDigitChars_toDigits (by decide) (by decide)]

theorem digitsValue_append (s t : Text) :
    digitsValue (s ++ t) = digitsValue s * 10 ^ t.length + digitsValue t := by
  rw [digitsValue_eq, Nat.ofDigitChars_append, Nat.ofDigitChars_eq_ofDigitChars_zero,
    ← digitsValue_eq, ← digitsValue_eq, Nat.mul_comm]

theorem digits?_append {digits rest : Text} (h : IsDigits digits)
    (hrest : ∀ c ∈ rest.head?, c.isDigit = false) : digits? (digits ++ rest) = some (digits, rest) := by
  have htake : (digits ++ rest).takeWhile Char.isDigit = digits := by
    rw [List.takeWhile_append_of_pos h.isDigit, List.takeWhile_eq_nil_iff.2, List.append_nil]
    intro hpos
    simpa using hrest rest[0] (List.head?_eq_getElem? ▸ List.getElem?_eq_getElem hpos)
  have hdrop : (digits ++ rest).dropWhile Char.isDigit = rest := by
    have happend := List.takeWhile_append_dropWhile (p := Char.isDigit) (l := digits ++ rest)
    rw [htake] at happend
    exact List.append_cancel_left happend
  unfold digits?
  rw [List.span_eq_takeWhile_dropWhile, htake, hdrop]
  simp [h.ne_nil]

/-! ## Numbers -/

namespace NumberLiteral

/-- A fraction as it is spelled. -/
def fractionText : Option Text → Text
  | none => []
  | some digits => '.' :: digits

/-- An exponent as it is spelled. -/
def exponentText : Option (Bool × Text) → Text
  | none => []
  | some (negative, digits) => 'e' :: (if negative then '-' else '+') :: digits

/-- A number as it is spelled. -/
def text (literal : NumberLiteral) : Text :=
  (if literal.negative then ['-'] else []) ++
    (literal.whole ++ (fractionText literal.fraction ++ exponentText literal.exponent))

/-- The digits of a number are digits, and no zero stands before others. -/
structure IsProper (literal : NumberLiteral) : Prop where
  whole : IsDigits literal.whole
  head_whole : literal.whole.head? = some '0' → literal.whole.length = 1
  fraction : ∀ digits, literal.fraction = some digits → IsDigits digits
  exponent : ∀ negative digits, literal.exponent = some (negative, digits) → IsDigits digits

/-- The ways to write an exponent: with either letter, and without a minus also without a sign. -/
inductive IsExponent : Option (Bool × Text) → Text → Prop
  | none : IsExponent none []
  | minus {mark : Char} (digits : Text) : mark = 'e' ∨ mark = 'E' →
      IsExponent (some (true, digits)) (mark :: '-' :: digits)
  | plus {mark : Char} (digits : Text) : mark = 'e' ∨ mark = 'E' →
      IsExponent (some (false, digits)) (mark :: '+' :: digits)
  | unsigned {mark : Char} (digits : Text) : mark = 'e' ∨ mark = 'E' →
      IsExponent (some (false, digits)) (mark :: digits)

/-- The ways to write a number, which differ in the exponent only. -/
structure IsWritten (literal : NumberLiteral) (s : Text) : Prop where
  proper : literal.IsProper
  exists_exponent : ∃ exponent, IsExponent literal.exponent exponent ∧
    s = (if literal.negative then ['-'] else []) ++
      (literal.whole ++ (fractionText literal.fraction ++ exponent))

theorem isExponent_exponentText (exponent : Option (Bool × Text)) :
    IsExponent exponent (exponentText exponent) := by
  rcases exponent with _ | ⟨_ | _, digits⟩
  · exact .none
  · exact .plus digits (.inl rfl)
  · exact .minus digits (.inl rfl)

theorem isWritten_text {literal : NumberLiteral} (h : literal.IsProper) :
    literal.IsWritten literal.text :=
  ⟨h, _, isExponent_exponentText _, rfl⟩

section Reading

variable {literal : NumberLiteral} {exponent : Option (Bool × Text)} {s : Text}

theorem isDigit_head_exponent (h : IsExponent exponent s) : ∀ c ∈ s.head?, c.isDigit = false := by
  have hmark : ∀ {mark : Char} {rest : Text}, mark = 'e' ∨ mark = 'E' →
      ∀ c ∈ (mark :: rest).head?, c.isDigit = false := by
    rintro _ _ (rfl | rfl) c hc <;> obtain rfl := Option.some.inj hc <;> decide
  cases h with
  | none => simp
  | minus digits h => exact hmark h
  | plus digits h => exact hmark h
  | unsigned digits h => exact hmark h

theorem isDigit_head_fraction (fraction : Option Text) (h : IsExponent exponent s) :
    ∀ c ∈ (fractionText fraction ++ s).head?, c.isDigit = false := by
  cases fraction with
  | none => exact isDigit_head_exponent h
  | some digits => simp [fractionText]

/-- Digits have no sign before them. -/
theorem exponentSign_of_isDigits {digits : Text} (h : IsDigits digits) :
    exponentSign digits = (false, digits) := by
  obtain ⟨c, rest, rfl⟩ := List.exists_cons_of_ne_nil h.ne_nil
  have hc := h.isDigit c List.mem_cons_self
  unfold exponentSign
  split
  · next heq => exact absurd ((List.cons.inj heq).1 ▸ hc) (by decide)
  · next heq => exact absurd ((List.cons.inj heq).1 ▸ hc) (by decide)
  · rfl

theorem exponent?_of_isExponent (h : IsExponent exponent s)
    (hdigits : ∀ negative digits, exponent = some (negative, digits) → IsDigits digits) :
    exponent? s = some (exponent, []) := by
  have hread : ∀ {digits}, IsDigits digits → digits? digits = some (digits, []) := by
    intro digits h
    have hall := @digits?_append _ [] h (by simp)
    rwa [List.append_nil] at hall
  cases h with
  | none => rfl
  | minus digits h => simp [exponent?, h, exponentSign, hread (hdigits _ _ rfl)]
  | plus digits h => simp [exponent?, h, exponentSign, hread (hdigits _ _ rfl)]
  | unsigned digits h =>
    have hproper := hdigits _ _ rfl
    simp [exponent?, h, exponentSign_of_isDigits hproper, hread hproper]

theorem fraction?_append {fraction : Option Text}
    (hfraction : ∀ digits, fraction = some digits → IsDigits digits) (h : IsExponent exponent s) :
    fraction? (fractionText fraction ++ s) = some (fraction, s) := by
  cases fraction with
  | none =>
    have hpoint : ∀ rest, s ≠ '.' :: rest := by
      rintro rest rfl
      cases h <;> simp_all
    unfold fraction?
    split
    · next heq => exact absurd heq (hpoint _)
    · rfl
  | some digits =>
    have hdigits := digits?_append (hfraction digits rfl) (isDigit_head_exponent h)
    simp [fractionText, fraction?, hdigits]

theorem whole?_append (hproper : literal.IsProper) (h : IsExponent exponent s) :
    whole? (literal.whole ++ (fractionText literal.fraction ++ s)) =
      some (literal.whole, fractionText literal.fraction ++ s) := by
  have hdigits := digits?_append hproper.whole (isDigit_head_fraction literal.fraction h)
  have hhead : ¬ (literal.whole.head? = some '0' ∧ literal.whole.length ≠ 1) := fun hzero =>
    hzero.2 (hproper.head_whole hzero.1)
  simp only [whole?, hdigits, Option.bind_eq_bind, Option.bind_some, if_neg hhead]

/-- **A number is read however it is written.** -/
theorem ofText?_of_isWritten (h : literal.IsWritten s) : ofText? s = some literal := by
  obtain ⟨hproper, exponent, hexponent, rfl⟩ := h
  have hwhole := whole?_append hproper hexponent
  have hfraction := fraction?_append hproper.fraction hexponent
  have hread := exponent?_of_isExponent hexponent hproper.exponent
  have hsign : ∀ rest : Text, (literal.whole ++ rest).head? ≠ some '-' := by
    intro rest hhead
    rw [List.head?_append_of_ne_nil _ hproper.whole.ne_nil] at hhead
    exact absurd (hproper.whole.isDigit '-' (List.mem_of_mem_head? hhead)) (by decide)
  unfold ofText?
  cases hnegative : literal.negative with
  | false =>
    simp only [Bool.false_eq_true, if_false, List.nil_append, hsign, decide_false]
    simp only [hwhole, hfraction, hread, Option.bind_eq_bind, Option.bind_some, List.isEmpty_nil,
      if_true, ← hnegative]
  | true =>
    simp only [if_true, List.cons_append, List.nil_append, List.head?_cons, decide_true,
      List.drop_succ_cons, List.drop_zero]
    simp only [hwhole, hfraction, hread, Option.bind_eq_bind, Option.bind_some, List.isEmpty_nil,
      if_true, ← hnegative]

theorem ofText?_text (h : literal.IsProper) : ofText? literal.text = some literal :=
  ofText?_of_isWritten (isWritten_text h)

/-! ## Atoms -/

theorem isAtomChar_of_isDigit {c : Char} (h : c.isDigit = true) : isAtomChar c = true := by
  simp [isAtomChar, Char.isAlphanum, h]

theorem isAtomChar_of_mem_exponent (h : IsExponent exponent s)
    (hdigits : ∀ negative digits, exponent = some (negative, digits) → IsDigits digits) :
    ∀ c ∈ s, isAtomChar c = true := by
  have hmark : ∀ {mark : Char}, mark = 'e' ∨ mark = 'E' → isAtomChar mark = true := by
    rintro _ (rfl | rfl) <;> decide
  have hrest : ∀ negative digits, exponent = some (negative, digits) →
      ∀ c ∈ digits, isAtomChar c = true := fun negative digits hexponent c hc =>
    isAtomChar_of_isDigit ((hdigits negative digits hexponent).isDigit c hc)
  cases h with
  | none => simp
  | minus digits h =>
    exact List.forall_mem_cons.2 ⟨hmark h, List.forall_mem_cons.2 ⟨by decide, hrest _ _ rfl⟩⟩
  | plus digits h =>
    exact List.forall_mem_cons.2 ⟨hmark h, List.forall_mem_cons.2 ⟨by decide, hrest _ _ rfl⟩⟩
  | unsigned digits h => exact List.forall_mem_cons.2 ⟨hmark h, hrest _ _ rfl⟩

theorem isAtomChar_of_mem_fractionText {fraction : Option Text}
    (h : ∀ digits, fraction = some digits → IsDigits digits) :
    ∀ c ∈ fractionText fraction, isAtomChar c = true := by
  cases fraction with
  | none => simp [fractionText]
  | some digits =>
    intro c hc
    rcases List.mem_cons.1 hc with rfl | hc
    · decide
    · exact isAtomChar_of_isDigit ((h digits rfl).isDigit c hc)

/-- No character of a written number ends an atom. -/
theorem isAtomChar_of_mem (h : literal.IsWritten s) : ∀ c ∈ s, isAtomChar c = true := by
  obtain ⟨hproper, exponent, hexponent, rfl⟩ := h
  intro c hc
  rcases List.mem_append.1 hc with hc | hc
  · split_ifs at hc
    · rw [List.mem_singleton.1 hc]
      decide
    · exact absurd hc List.not_mem_nil
  · rcases List.mem_append.1 hc with hc | hc
    · exact isAtomChar_of_isDigit (hproper.whole.isDigit c hc)
    · rcases List.mem_append.1 hc with hc | hc
      · exact isAtomChar_of_mem_fractionText hproper.fraction c hc
      · exact isAtomChar_of_mem_exponent hexponent hproper.exponent c hc

/-- A written number begins with the sign or with a digit, and so is no word. -/
theorem exists_eq_cons (h : literal.IsWritten s) :
    ∃ c rest, s = c :: rest ∧ (c = '-' ∨ c.isDigit = true) := by
  obtain ⟨hproper, exponent, -, rfl⟩ := h
  split_ifs
  · exact ⟨_, _, rfl, .inl rfl⟩
  · cases hwhole : literal.whole with
    | nil => exact absurd hwhole hproper.whole.ne_nil
    | cons c rest =>
      exact ⟨c, _, rfl, .inr (hproper.whole.isDigit c (hwhole ▸ List.mem_cons_self))⟩

theorem ofAtom?_of_isWritten (h : literal.IsWritten s) :
    Token.ofAtom? s = some (.number literal) := by
  obtain ⟨c, rest, htext, hc⟩ := exists_eq_cons h
  have hword : ∀ (d : Char) (word : Text), d ≠ '-' → d.isDigit = false → s ≠ d :: word := by
    rintro d word hsign hdigit heq
    rw [htext] at heq
    obtain ⟨rfl, -⟩ := List.cons.inj heq
    rcases hc with hc | hc
    · exact hsign hc
    · exact absurd hc (by simp [hdigit])
  have hnull : s ≠ "null".toList := hword 'n' _ (by decide) (by decide)
  have htrue : s ≠ "true".toList := hword 't' _ (by decide) (by decide)
  have hfalse : s ≠ "false".toList := hword 'f' _ (by decide) (by decide)
  unfold Token.ofAtom?
  rw [if_neg hnull, if_neg htrue, if_neg hfalse, ofText?_of_isWritten h]
  rfl

end Reading

end NumberLiteral

end Recast.Json

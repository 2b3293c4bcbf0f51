/-
  Recast letters — ASCII letters and digits.

  * `toNat_lt_of_isAlphanum`: ASCII letters and digits are below 128;
  * `IsHexDigit c n`: a character is the hexadecimal digit of a number, as URIs and documents write it;
  * `IsHexDigit.of_forall`: what holds of the small digits and of the capitals holds of each digit;
    `IsHexDigit.toNat_lt`, `IsHexDigit.utf8Size`: a digit is a byte of its own.
-/
namespace Recast.Letter

/-- ASCII letters and digits are below 128. -/
theorem toNat_lt_of_isAlphanum {c : Char} (h : c.isAlphanum = true) : c.toNat < 128 := by
  have hbound : ∀ {high : UInt32}, c.val ≤ high → high.toNat < 128 → c.toNat < 128 :=
    fun hle hhigh => Nat.lt_of_le_of_lt (UInt32.le_iff_toNat_le.1 hle) hhigh
  rcases Bool.or_eq_true_iff.1 h with halpha | hdigit
  · rcases Bool.or_eq_true_iff.1 halpha with hupper | hlower
    · exact hbound (of_decide_eq_true hupper).2 (by decide)
    · exact hbound (of_decide_eq_true (Bool.and_eq_true_iff.1 hlower).2) (by decide)
  · exact hbound (of_decide_eq_true (Bool.and_eq_true_iff.1 hdigit).2) (by decide)

/-! ## Hexadecimal digits -/

/-- A character is the hexadecimal digit of a number, as a small letter or as a capital. -/
def IsHexDigit (c : Char) (n : Nat) : Prop :=
  n < 16 ∧ (c = Nat.digitChar n ∨ c = (Nat.digitChar n).toUpper)

namespace IsHexDigit

variable {c : Char} {n : Nat}

/-- What holds of the small digits and of the capitals holds of each digit. -/
theorem of_forall {p : Char → Nat → Prop} (hsmall : ∀ m < 16, p (Nat.digitChar m) m)
    (hcapital : ∀ m < 16, p (Nat.digitChar m).toUpper m) (h : IsHexDigit c n) : p c n := by
  obtain ⟨hn, rfl | rfl⟩ := h
  · exact hsmall n hn
  · exact hcapital n hn

theorem isAlphanum (h : IsHexDigit c n) : c.isAlphanum = true :=
  h.of_forall (p := fun c _ => c.isAlphanum = true) (by decide) (by decide)

theorem toNat_lt (h : IsHexDigit c n) : c.toNat < 128 :=
  toNat_lt_of_isAlphanum h.isAlphanum

theorem utf8Size (h : IsHexDigit c n) : c.utf8Size = 1 := by
  rw [Char.utf8Size_eq_one_iff, UInt32.le_iff_toNat_le]
  exact Nat.le_of_lt_succ h.toNat_lt

end IsHexDigit

end Recast.Letter

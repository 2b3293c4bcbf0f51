/-
  Recast texts.

  A text is the list of its characters, so that every operation is a recursion on it.  Where bytes
  matter, they are those of UTF-8.

  * `byteSize s` counts the bytes of `s`; `charIndex? s n` is the number of characters in its first
    `n` bytes;
  * `ofNat n` is the decimal numeral of `n`;
  * `trimStart`, `trimEnd`, `trim` remove white space at the ends;
  * `charIndex?_byteSize`: a whole number of characters is recovered from its bytes.
-/
import Recast.Letter.Blank

namespace Recast

/-- A text: its characters in order. -/
abbrev Text := List Char

namespace Text

/-! ## Measures -/

/-- The number of bytes of a text in UTF-8. -/
def byteSize (s : Text) : Nat :=
  s.foldr (fun c size => c.utf8Size + size) 0

/-- The number of characters that the first `n` bytes of a text hold; none if byte `n` is inside a
    character or past the end. -/
def charIndex? : Text → Nat → Option Nat
  | _, 0 => some 0
  | [], _ + 1 => none
  | c :: rest, n + 1 =>
    if c.utf8Size ≤ n + 1 then (charIndex? rest (n + 1 - c.utf8Size)).map (· + 1) else none

theorem charIndex?_zero (s : Text) : charIndex? s 0 = some 0 := by
  cases s <;> rfl

/-- The bytes before a boundary count the characters before it. -/
theorem charIndex?_byteSize (s t : Text) : charIndex? (s ++ t) (byteSize s) = some s.length := by
  induction s with
  | nil => exact charIndex?_zero t
  | cons c rest ih =>
    have size : byteSize (c :: rest) = c.utf8Size + byteSize rest := rfl
    have pos : 0 < c.utf8Size := c.utf8Size_pos
    obtain ⟨n, hn⟩ : ∃ n, c.utf8Size + byteSize rest = n + 1 :=
      ⟨c.utf8Size + byteSize rest - 1, by omega⟩
    rw [size, hn, List.cons_append, charIndex?, if_pos (by omega),
      show n + 1 - c.utf8Size = byteSize rest by omega, ih]
    rfl

/-- The decimal numeral of a number. -/
def ofNat (n : Nat) : Text :=
  Nat.toDigits 10 n

/-! ## White space at the ends -/

/-- A text without the white space it begins with. -/
def trimStart (s : Text) : Text :=
  s.dropWhile Letter.isBlank

/-- A text without the white space it ends with. -/
def trimEnd (s : Text) : Text :=
  (trimStart s.reverse).reverse

/-- A text without the white space at either end. -/
def trim (s : Text) : Text :=
  trimEnd (trimStart s)

end Text

end Recast

/-
  Recast JSON — tokens.

  A token keeps how it was spelled as far as that may matter later: a string keeps its escapes of
  UTF-16 units, a number its digits.

  * `StringLiteral.text?` is the text a string stands for: the units must pair up;
  * `NumberLiteral.ofText?` reads a number in the strict JSON grammar;
  * `Token.ofAtom?` reads what is written without quotes or brackets: a number, `true`, `false` or
    `null`.
-/
import Recast.Text.Basic

namespace Recast.Json

/-! ## Strings -/

/-- A part of a string: a character, as itself or by a short escape, or a UTF-16 unit by an escape
    of four hexadecimal digits. -/
inductive StringPart where
  | char (c : Char)
  | unit (code : Nat)
  deriving DecidableEq, Repr

/-- A string by its parts. -/
abbrev StringLiteral := List StringPart

/-- The units that open a pair. -/
def isHighSurrogate (code : Nat) : Bool :=
  0xD800 ≤ code && code < 0xDC00

/-- The units that close a pair. -/
def isLowSurrogate (code : Nat) : Bool :=
  0xDC00 ≤ code && code < 0xE000

/-- The character written by a pair of units. -/
def pairedChar (high low : Nat) : Char :=
  Char.ofNat (0x10000 + (high - 0xD800) * 0x400 + (low - 0xDC00))

/-- The text of a string; none if a unit that belongs to a pair stands alone. -/
def StringLiteral.text? : StringLiteral → Option Text
  | [] => some []
  | .char c :: rest => (text? rest).map (c :: ·)
  | .unit high :: .unit low :: rest =>
    if isHighSurrogate high then
      if isLowSurrogate low then (text? rest).map (pairedChar high low :: ·) else none
    else if isLowSurrogate high then none
    else (text? (.unit low :: rest)).map (Char.ofNat high :: ·)
  | .unit code :: rest =>
    if isHighSurrogate code || isLowSurrogate code then none
    else (text? rest).map (Char.ofNat code :: ·)

/-! ## Numbers -/

/-- A number as it is spelled: sign, digits before and behind the point, and the exponent, if it
    has one, with its sign. -/
structure NumberLiteral where
  negative : Bool
  whole : Text
  fraction : Option Text
  exponent : Option (Bool × Text)
  deriving DecidableEq, Repr

/-- The digits a text begins with, which must be there, and what follows. -/
def digits? (s : Text) : Option (Text × Text) :=
  let (digits, rest) := s.span Char.isDigit
  if digits.isEmpty then none else some (digits, rest)

/-- The digits before the point: no zero before another digit. -/
def whole? (s : Text) : Option (Text × Text) := do
  let (digits, rest) ← digits? s
  if digits.head? = some '0' ∧ digits.length ≠ 1 then none else some (digits, rest)

/-- The digits behind a point, if there is one. -/
def fraction? : Text → Option (Option Text × Text)
  | '.' :: rest => (digits? rest).map fun (digits, rest) => (some digits, rest)
  | rest => some (none, rest)

/-- The sign of an exponent, which may be left out. -/
def exponentSign : Text → Bool × Text
  | '-' :: rest => (true, rest)
  | '+' :: rest => (false, rest)
  | rest => (false, rest)

/-- The exponent, if there is one; its first entry says that it is negative. -/
def exponent? : Text → Option (Option (Bool × Text) × Text)
  | [] => some (none, [])
  | c :: rest =>
    if c = 'e' ∨ c = 'E' then
      let (negative, rest) := exponentSign rest
      (digits? rest).map fun (digits, rest) => (some (negative, digits), rest)
    else some (none, c :: rest)

/-- The number that a whole text spells. -/
def NumberLiteral.ofText? (s : Text) : Option NumberLiteral := do
  let negative := s.head? = some '-'
  let (whole, rest) ← whole? (if negative then s.drop 1 else s)
  let (fraction, rest) ← fraction? rest
  let (exponent, rest) ← exponent? rest
  if rest.isEmpty then some ⟨negative, whole, fraction, exponent⟩ else none

/-! ## Tokens -/

/-- A token. -/
inductive Token where
  | beginArray
  | endArray
  | beginObject
  | endObject
  | colon
  | comma
  | null
  | bool (value : Bool)
  | number (literal : NumberLiteral)
  | string (literal : StringLiteral)
  deriving DecidableEq, Repr

/-- The characters of tokens that have no quotes or brackets. -/
def isAtomChar (c : Char) : Bool :=
  c.isAlphanum || c = '-' || c = '+' || c = '.'

/-- The token spelled by a longest run of such characters. -/
def Token.ofAtom? (s : Text) : Option Token :=
  if s = "null".toList then some .null
  else if s = "true".toList then some (.bool true)
  else if s = "false".toList then some (.bool false)
  else (NumberLiteral.ofText? s).map .number

end Recast.Json

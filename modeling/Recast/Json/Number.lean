/-
  Recast JSON — numbers.

  A number without fraction and exponent that fits into 64 bits, signed or unsigned, is an integer
  and exact.  Every other number is a double, and `-0` is one too.

  A double is read in three steps, which round more than once.  First the digits are gathered into a
  significand below 2^64: digits of the whole part that no longer fit are dropped and counted, and
  digits of the fraction are taken while they fit.  Then the significand is rounded to a double.  Then
  it is multiplied or divided by a power of ten, itself rounded, and by `10 ^ 308` more than once if
  the exponent asks for it.

  * `Number.ofLiteral?` reads a number, none if it is too large for a double;
  * `Number.text` writes it, a double by its shortest digits.
-/
import Recast.Json.Token
import Recast.Number.Shortest

namespace Recast.Json

open Recast.Number

/-- A number: an exact integer or a finite double. -/
inductive Number where
  | integer (value : Int)
  | double (negative : Bool) (magnitude : Binary64)
  deriving DecidableEq, Repr

/-! ## Reading -/

/-- The value of a decimal digit. -/
def digitValue (c : Char) : Nat :=
  c.toNat - '0'.toNat

/-- The number that digits spell. -/
def digitsValue (digits : Text) : Nat :=
  digits.foldl (fun n c => n * 10 + digitValue c) 0

/-- Digits gathered into a significand. -/
structure Gathered where
  significand : Nat
  /-- how many digits went in -/
  taken : Nat
  /-- how many were left over -/
  dropped : Nat
  deriving DecidableEq, Repr

/-- The naturals below it fit into 64 bits. -/
def wordBound : Nat := 0x10000000000000000

/-- Puts digits at the end of a significand until one does not fit into 64 bits. -/
def gather (significand : Nat) : Text → Gathered
  | [] => ⟨significand, 0, 0⟩
  | c :: rest =>
    let longer := significand * 10 + digitValue c
    if longer < wordBound then
      let more := gather longer rest
      { more with taken := more.taken + 1 }
    else ⟨significand, 0, rest.length + 1⟩

/-- The double nearest to a power of ten. -/
def tenPower? (n : Nat) : Option Binary64 :=
  Binary64.ofNat? (raised 10 n)

/-- The largest power of ten that is a double. -/
def mostTenPower : Nat := 308

/-- Divides a double by the largest power of ten, up to `times` times but not below zero. -/
def divideDown? : (times : Nat) → Binary64 → Option Binary64
  | 0, x => some x
  | times + 1, x =>
    if x.significand = 0 then some x
    else (tenPower? mostTenPower).bind fun ten => (x.div? ten).bind (divideDown? times)

/-- A significand times a power of ten, rounded at each step; none if it is too large. -/
def scaled? (significand : Nat) (exponent : Int) : Option Binary64 := do
  let x ← Binary64.ofNat? significand
  if (mostTenPower : Int) < exponent then
    if x.significand = 0 then some x else none
  else if 0 ≤ exponent then
    x.mul? (← tenPower? exponent.toNat)
  else
    let below := (-exponent).toNat
    let times := (below - mostTenPower + (mostTenPower - 1)) / mostTenPower
    let x ← divideDown? times x
    if x.significand = 0 then some x else x.div? (← tenPower? (below - times * mostTenPower))

/-- The exponent that a number is spelled with. -/
def NumberLiteral.exponentValue (literal : NumberLiteral) : Int :=
  match literal.exponent with
  | none => 0
  | some (negative, digits) => if negative then -digitsValue digits else digitsValue digits

/-- The magnitude of a number as a double. -/
def NumberLiteral.magnitude? (literal : NumberLiteral) : Option Binary64 :=
  let whole := gather 0 literal.whole
  let all := gather whole.significand (literal.fraction.getD [])
  scaled? all.significand (whole.dropped - all.taken + literal.exponentValue)

/-- The integer that a number is, if it is spelled as one and fits into 64 bits. -/
def NumberLiteral.integer? (literal : NumberLiteral) : Option Int :=
  if literal.fraction.isSome || literal.exponent.isSome then none
  else
    let n := digitsValue literal.whole
    if literal.negative then (if 0 < n ∧ n ≤ wordBound / 2 then some (-n) else none)
    else if n < wordBound then some n else none

/-- The value of a number; none if it is too large for a double. -/
def Number.ofLiteral? (literal : NumberLiteral) : Option Number :=
  match literal.integer? with
  | some value => some (.integer value)
  | none => literal.magnitude?.map (.double literal.negative)

/-! ## Writing -/

/-- The text of an integer. -/
def integerText (n : Int) : Text :=
  if n < 0 then '-' :: Text.ofNat n.natAbs else Text.ofNat n.natAbs

/-- The text of a nonnegative double. -/
def magnitudeText (x : Binary64) : Text :=
  if x.significand = 0 then "0.0".toList else x.shortest.text

/-- The text of a number. -/
def Number.text : Number → Text
  | .integer value => integerText value
  | .double negative magnitude =>
    if negative then '-' :: magnitudeText magnitude else magnitudeText magnitude

end Recast.Json

/-
  Recast numbers — the shortest decimal of a double.

  The reals that round to a double form an interval, which holds its ends if the significand is even.
  Of the decimals in it, those with the fewest digits are taken, of those the nearest to the double,
  and of two equally near ones the one with the even last digit.

  * `Scientific` is a decimal `d.ddd · 10 ^ exponent` by its digits;
  * `Binary64.shortest x` is the shortest decimal of `x`;
  * `Scientific.text` writes it: with all its places if the exponent is from -5 to 15, else with
    an exponent.
-/
import Recast.Number.Binary64
import Recast.Text.Basic

namespace Recast.Number

/-- A positive decimal: its digits, the point after the first, times a power of ten. -/
structure Scientific where
  digits : Text
  exponent : Int
  deriving DecidableEq, Repr

/-! ## Shortest digits -/

/-- The interval of reals that round to a double, in units of `2 ^ power`. -/
structure Interval where
  low : Nat
  value : Nat
  high : Nat
  power : Int
  closed : Bool

/-- The interval of a double that is not zero.  Its units are quarters of the last place, since the
    doubles below a power of two are twice as close as those above it. -/
def Binary64.interval (x : Binary64) : Interval where
  low := 4 * x.significand -
    (if x.significand = Binary64.leastNormal ∧ Binary64.leastPower < x.power then 1 else 2)
  value := 4 * x.significand
  high := 4 * x.significand + 2
  power := x.power - 2
  closed := x.significand % 2 = 0

/-- The number of decimal digits of a positive natural. -/
def decimalLength (n : Nat) : Nat :=
  (Nat.toDigits 10 n).length

/-- The exponent `e` with `10 ^ e ≤ a / b < 10 ^ (e + 1)`, for `a` and `b` that are not zero. -/
def decimalExponent (a b : Nat) : Int :=
  if b ≤ a then decimalLength (a / b) - 1 else -decimalLength ((b + a - 1) / a - 1)

/-- The multiple of `10 ^ place` in an interval that is nearest to its value, if it is one of the
    two neighbours of the value. -/
def Interval.nearestAt? (i : Interval) (place : Int) : Option Nat :=
  let step := raised 10 place * raised 2 (-i.power)
  let scale := raised 2 i.power * raised 10 (-place)
  let inside (n : Nat) : Bool :=
    if i.closed then i.low * scale ≤ n * step && n * step ≤ i.high * scale
    else i.low * scale < n * step && n * step < i.high * scale
  let below := i.value * scale / step
  let above := below + 1
  let nearer :=
    let fromBelow := i.value * scale - below * step
    let fromAbove := above * step - i.value * scale
    if fromBelow < fromAbove then below
    else if fromAbove < fromBelow then above
    else if below % 2 = 0 then below else above
  if inside below then some (if inside above then nearer else below)
  else if inside above then some above
  else none

/-- A decimal without the zeros at its end. -/
def Scientific.ofPlaces (digits : Nat) (place : Int) : Scientific :=
  let spelled := Nat.toDigits 10 digits
  ⟨(spelled.reverse.dropWhile (· = '0')).reverse, place + spelled.length - 1⟩

/-- The shortest decimal of a double that is not zero; seventeen digits always suffice. -/
def Binary64.shortest (x : Binary64) : Scientific :=
  let i := x.interval
  let exponent := decimalExponent (i.value * raised 2 i.power) (raised 2 (-i.power))
  let found := (List.range 17).findSome? fun (more : Nat) =>
    let place := exponent - more
    (i.nearestAt? place).map fun digits => Scientific.ofPlaces digits place
  found.getD ⟨['0'], 0⟩

/-! ## Writing a decimal -/

/-- The exponents of the decimals that are written with all their places. -/
def isPositional (exponent : Int) : Bool :=
  -5 ≤ exponent && exponent ≤ 15

/-- A decimal with all its places, at least one of them behind the point. -/
def Scientific.positional (s : Scientific) : Text :=
  if s.exponent < 0 then
    '0' :: '.' :: (List.replicate (-s.exponent - 1).toNat '0' ++ s.digits)
  else
    let places := s.exponent.toNat + 1
    let whole := s.digits.take places ++ List.replicate (places - s.digits.length) '0'
    let fraction := s.digits.drop places
    whole ++ '.' :: (if fraction.isEmpty then ['0'] else fraction)

/-- A decimal with one digit before the point, if it has a point, and an exponent. -/
def Scientific.exponential (s : Scientific) : Text :=
  let fraction := s.digits.drop 1
  s.digits.take 1 ++ (if fraction.isEmpty then [] else '.' :: fraction) ++
    'e' :: (if s.exponent < 0 then '-' else '+') :: Text.ofNat s.exponent.natAbs

/-- The text of a decimal. -/
def Scientific.text (s : Scientific) : Text :=
  if isPositional s.exponent then s.positional else s.exponential

end Recast.Number

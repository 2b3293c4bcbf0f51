/-
  Recast JSON — laying a document out anew.

  * `wordOfDigits?` is the word that digits spell, if it fits into 64 bits;
  * `Indent.ofText?` reads the width of an indent: `t` for a tab, or a decimal number of spaces, with
    white space around it and any number of digits, of which at most ten spaces are used;
  * `reformat indent s` is the document `s` with that indent.  No spaces at all means one line.
-/
import Recast.Json.Printer

namespace Recast.Json

/-! ## Words -/

/-- A number as a word; none if it does not fit into 64 bits. -/
def word? (n : Nat) : Option UInt64 :=
  if n < wordBound then some (UInt64.ofNat n) else none

/-- A word with one more digit behind it; none if the product or the sum does not fit. -/
def pushDigit? (word : UInt64) (c : Char) : Option UInt64 := do
  let shifted ← word? (word.toNat * 10)
  word? (shifted.toNat + digitValue c)

/-- The word that digits spell; none as soon as it does not fit. -/
def wordOfDigits? (digits : Text) : Option UInt64 :=
  digits.foldlM pushDigit? 0

/-! ## Indents -/

/-- How far each container indents its elements. -/
inductive Indent where
  | tab
  | spaces (count : Nat)
  deriving DecidableEq, Repr

/-- The widest indent. -/
def mostSpaces : Nat := 10

/-- The indent that a text asks for. -/
def Indent.ofText? (s : Text) : Option Indent :=
  if s = ['t'] then some .tab
  else
    let digits := Text.trim s
    if digits.isEmpty || !digits.all Char.isDigit then none
    else
      -- digits that spell no word ask for more than the widest indent
      let count := ((wordOfDigits? digits).map UInt64.toNat).getD mostSpaces
      some (.spaces (min count mostSpaces))

/-- The layout with a given indent. -/
def Indent.layout : Indent → Layout
  | .tab => .indented ['\t']
  | .spaces 0 => .compact
  | .spaces count => .indented (List.replicate count ' ')

/-! ## Documents -/

/-- What may be wrong with a document or with the indent asked for. -/
inductive ReformatError where
  | invalidIndent (asked : Text)
  | invalidJson
  deriving DecidableEq, Repr

/-- The error in words. -/
def ReformatError.message : ReformatError → Text
  | .invalidIndent asked =>
    "invalid indent '".toList ++ asked ++ "', expected 't' or a number of spaces".toList
  | .invalidJson => "invalid JSON".toList

/-- A document with a given indent.  The indent is looked at first. -/
def reformat (indent s : Text) : Except ReformatError Text :=
  match Indent.ofText? indent with
  | none => .error (.invalidIndent indent)
  | some indent =>
    match Value.ofText? s with
    | none => .error .invalidJson
    | some value => .ok (value.text indent.layout)

end Recast.Json

/-
  Recast texts — lower case, upper case and capitals.

  * `lowercase`, `uppercase` map every character.  Of the two small sigmas, `ς` is written at the
    end of a word: after a cased character and not before one, where characters that casing ignores
    are looked past;
  * `capitalize` puts the first character of every run of letters, ASCII digits and `_` in upper
    case.
-/
import Recast.Letter.Alphabetic
import Recast.Letter.Case
import Recast.Letter.Cased
import Recast.Text.Basic

namespace Recast.Text

/-! ## Whole texts -/

/-- Whether the first character that casing does not ignore is cased. -/
def meetsCased (s : Text) : Bool :=
  (s.dropWhile Letter.isCaseIgnorable).head?.any Letter.isCased

/-- The lower case of a character between the text before it, in reverse, and the text after it. -/
def lowerBetween (before : Text) (c : Char) (after : Text) : Text :=
  if c = 'Σ' then [if meetsCased before && !meetsCased after then 'ς' else 'σ']
  else Letter.lower c

/-- The lower case of a text that continues another one, given in reverse. -/
def lowercaseAfter (before : Text) : Text → Text
  | [] => []
  | c :: after => lowerBetween before c after ++ lowercaseAfter (c :: before) after

/-- A text in lower case. -/
def lowercase (s : Text) : Text :=
  lowercaseAfter [] s

/-- A text in upper case. -/
def uppercase (s : Text) : Text :=
  s.flatMap Letter.upper

/-! ## Capitals -/

/-- Whether a character continues a run that is written with one capital. -/
def inRun (c : Char) : Bool :=
  Letter.isAlphabetic c || c.isDigit || c = '_'

/-- Capitals for a text, whose first character continues a run if `within` says so. -/
def capitalizeFrom (within : Bool) : Text → Text
  | [] => []
  | c :: rest =>
    (if inRun c && !within then Letter.upper c else [c]) ++ capitalizeFrom (inRun c) rest

/-- A text with a capital at the start of every run. -/
def capitalize (s : Text) : Text :=
  capitalizeFrom false s

end Recast.Text

/-
  Recast texts — words, identifiers and slugs.

  * `words s` are the longest runs of word characters of `s`, in order;
  * `camelCase`, `pascalCase`, `snakeCase` spell the words as one identifier.  Case inside a word
    makes no boundary;
  * `transliterate` spells letters in Latin where the table has a spelling; `slugify` joins the
    words of the Latin spelling.
-/
import Recast.Letter.Latin
import Recast.Text.Casing

namespace Recast.Text

/-! ## Words -/

/-- The words of a text. -/
def words (s : Text) : List Text :=
  (s.splitOnP fun c => !Letter.isWordChar c).filter fun word => !word.isEmpty

/-! ## Identifiers -/

/-- A word with its first character in upper case. -/
def upperFirst : Text → Text
  | [] => []
  | c :: rest => Letter.upper c ++ rest

/-- A word with its first character in lower case. -/
def lowerFirst : Text → Text
  | [] => []
  | c :: rest => Letter.lower c ++ rest

/-- The words of a text run together, each with a capital. -/
def pascalCase (s : Text) : Text :=
  (words s).flatMap upperFirst

/-- The words of a text run together, each but the first with a capital. -/
def camelCase (s : Text) : Text :=
  match words s with
  | [] => []
  | word :: more => lowerFirst word ++ more.flatMap upperFirst

/-- The words of a text joined by `_`, in lower case. -/
def snakeCase (s : Text) : Text :=
  lowercase (['_'].intercalate (words s))

/-! ## Slugs -/

/-- A text with Latin spellings in place of the letters that have one. -/
def transliterate (s : Text) : Text :=
  s.flatMap fun c => (Letter.latin? c).getD [c]

/-- The words of the Latin spelling of a text, joined by `joiner`. -/
def slugify (joiner s : Text) : Text :=
  joiner.intercalate (words (transliterate s))

end Recast.Text

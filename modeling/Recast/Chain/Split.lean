/-
  Recast chains — where the chain of an input begins.

  An input is a subject, and behind a separator the chain that recasts it.  A subject may contain the
  separator, and so may a chain.  The chain begins behind the first occurrence of the separator whose
  remainder is clean, where white space and the characters of the separator are glue.  If there is
  none, it begins behind the last occurrence.

  * `split grammar separator input` is the subject with the chain, if there is an occurrence.
-/
import Recast.Chain.Clean
import Recast.Text.Search

namespace Recast.Chain

/-- An input divided into the text to recast and the chain, if there is one. -/
structure Split where
  subject : Text
  chain : Option Text
  deriving DecidableEq, Repr

/-- The glue of a separator: white space and its own characters. -/
def isGlueOf (separator : Text) (c : Char) : Bool :=
  Letter.isBlank c || separator.contains c

/-- The first occurrence whose remainder is clean, asked of one scan; `width` is the length of the
    separator. -/
def firstClean? (width : Nat) (scan : Scan) : List Text.Occurrence → Option Text.Occurrence
  | [] => none
  | occurrence :: more =>
    let (tail, scan) := scan.tailAt (occurrence.start + width) occurrence.after
    if tail = .tokens then some occurrence else firstClean? width scan more

/-- The subject and the chain of an input. -/
def split (grammar : Grammar) (separator input : Text) : Split :=
  let occurrences := Text.occurrences separator input
  let scan := Scan.start grammar (isGlueOf separator) input
  match (firstClean? separator.length scan occurrences).or occurrences.getLast? with
  | some occurrence => ⟨input.take occurrence.start, some occurrence.after⟩
  | none => ⟨input, none⟩

end Recast.Chain

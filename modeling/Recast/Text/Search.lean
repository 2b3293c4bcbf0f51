/-
  Recast texts — occurrences of one text in another.

  * `occurrences sep s` are the places where `sep` stands in `s`, found from left to right without
    overlap, each with the text after it.  The empty text has none;
  * `replace sub replacement s` puts a text in place of each occurrence of `sub`.  The empty text is taken to
    stand before, between and after the characters.
-/
import Recast.Text.Cover

namespace Recast.Text

/-- Finds a nonempty text; the item is what follows it. -/
def finder (sep : Text) : Finder Text := fun c rest =>
  (sep.isPrefixOf? (c :: rest)).map fun after => (after, sep.length - 1)

/-- A place where a text was found: the number of characters before it and the text after it. -/
structure Occurrence where
  start : Nat
  after : Text
  deriving DecidableEq, Repr

/-- The places of the items of a cover, each of which takes `width` characters. -/
def locate (width : Nat) : (start : Nat) → List (Piece Text) → List Occurrence
  | _, [] => []
  | start, .item after :: more => ⟨start, after⟩ :: locate width (start + width) more
  | start, .loose _ :: more => locate width (start + 1) more

/-- The occurrences of a text, from left to right and without overlap. -/
def occurrences (sep s : Text) : List Occurrence :=
  if sep.isEmpty then [] else locate sep.length 0 (cover (finder sep) s)

/-- A text with each occurrence of `sub` replaced. -/
def replace (sub replacement s : Text) : Text :=
  if sub.isEmpty then replacement ++ s.flatMap fun c => c :: replacement
  else (cover (finder sub) s).flatMap (Piece.spelled fun _ => replacement)

end Recast.Text

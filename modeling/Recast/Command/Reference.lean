/-
  Recast commands — the reference of a catalog.

  * `Catalog.reference` is a plain text with one line for each entry: key, name, number of arguments
    and hint, with a mark if the entry is hidden.
-/
import Recast.Command.Catalog

namespace Recast

/-- The width of the column of names. -/
def nameColumn : Nat := 12

/-- A text filled up with blanks. -/
def padded (width : Nat) (s : Text) : Text :=
  s ++ List.replicate (width - s.length) ' '

/-- The number of arguments an entry takes, or the least and the most. -/
def Arity.reference (arity : Arity) : Text :=
  if arity.total = 0 then []
  else if arity.required = arity.total then
    " (".toList ++ Text.ofNat arity.total ++ " args)".toList
  else
    " (".toList ++ Text.ofNat arity.required ++ '-' :: Text.ofNat arity.total ++ " args)".toList

/-- The line of an entry. -/
def Entry.reference (entry : Entry) : Text :=
  Text.trimEnd
    ("  ".toList ++ [entry.key] ++ "  ".toList ++ padded nameColumn entry.name ++
      entry.arity.reference ++ (entry.hint.map (' ' :: ·)).getD [] ++
      if entry.hidden then " (hidden from preview)".toList else [])

/-- The reference of a catalog. -/
def Catalog.reference (catalog : Catalog) : Text :=
  ['\n'].intercalate ("Commands:".toList :: catalog.entries.map Entry.reference)

end Recast

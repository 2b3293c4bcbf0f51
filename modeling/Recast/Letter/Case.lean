/-
  Recast letters — the case mappings of one character.

  * `lower c` and `upper c` are the full mappings: one character may become several, as `ß` becomes
    `SS`.  Neither looks at the characters around `c`.
-/
import Recast.Letter.CaseTable

namespace Recast.Letter

/-- The image of a character under a table of runs and a table of longer images. -/
def mapped (runs : Runs) (many : List (Nat × List Nat)) (c : Char) : List Char :=
  match runs.image? c.toNat with
  | some image => [Char.ofNat image]
  | none =>
    match many.lookup c.toNat with
    | some images => images.map Char.ofNat
    | none => [c]

/-- The lower case of a character. -/
def lower (c : Char) : List Char :=
  if c.toNat < 0x80 then [c.toLower] else mapped lowerRuns lowerMany c

/-- The upper case of a character. -/
def upper (c : Char) : List Char :=
  if c.toNat < 0x80 then [c.toUpper] else mapped upperRuns upperMany c

end Recast.Letter

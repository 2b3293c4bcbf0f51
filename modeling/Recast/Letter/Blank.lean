/-
  Recast letters — white space.

  * `blank` lists the ranges of the Unicode property `White_Space`; `isBlank c` says whether the
    character `c` has it.  The zero-width space, the byte-order mark and the separators U+001C to
    U+001F do not.
-/
import Recast.Letter.Ranges

namespace Recast.Letter

/-- The ranges of the property `White_Space`. -/
def blank : Ranges :=
  [(0x9, 0xD), (0x20, 0x20), (0x85, 0x85), (0xA0, 0xA0), (0x1680, 0x1680), (0x2000, 0x200A),
    (0x2028, 0x2029), (0x202F, 0x202F), (0x205F, 0x205F), (0x3000, 0x3000)]

/-- Whether a character is white space. -/
def isBlank (c : Char) : Bool :=
  blank.has c.toNat

end Recast.Letter

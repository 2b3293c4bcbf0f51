/-
  Recast URIs — percent-encoding of a whole URI.

  The delimiters that give a URI its structure, and the unreserved marks, stand for themselves, as
  ASCII letters and digits do.  Every other character is written as one escape `%XX` for each byte
  of its UTF-8 form.

  * `isReserved c`: the delimiters;
  * `encode s`: the encoding of `s`; `encode_append`: it goes character by character.
-/
import Recast.Text.Basic

namespace Recast.Uri

/-- The delimiters of a URI. -/
def isReserved (c : Char) : Bool :=
  [';', '/', '?', ':', '@', '&', '=', '+', '$', ',', '#'].contains c

/-- The marks that need no escape. -/
def isMark (c : Char) : Bool :=
  ['-', '_', '.', '!', '~', '*', '\'', '(', ')'].contains c

/-- Whether a character stands for itself in an encoded URI. -/
def isKept (c : Char) : Bool :=
  c.isAlphanum || isMark c || isReserved c

/-- The hexadecimal digit of a number below sixteen, as a capital. -/
def hexDigit (n : Nat) : Char :=
  if n < 10 then Char.ofNat ('0'.toNat + n) else Char.ofNat ('A'.toNat + (n - 10))

/-- The escape of a byte. -/
def escape (b : UInt8) : Text :=
  ['%', hexDigit (b.toNat / 16), hexDigit (b.toNat % 16)]

/-- The encoding of one character. -/
def encodeChar (c : Char) : Text :=
  if isKept c then [c] else (String.utf8EncodeChar c).flatMap escape

/-- The encoding of a text. -/
def encode (s : Text) : Text :=
  s.flatMap encodeChar

theorem encode_append (s t : Text) : encode (s ++ t) = encode s ++ encode t :=
  List.flatMap_append

end Recast.Uri

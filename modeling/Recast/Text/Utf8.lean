/-
  Recast texts — UTF-8.

  * `utf8 s` are the bytes of a text; `utf8_eq_utf8Encode`: they are those of the standard encoder;
  * `codePoint bytes` puts the payload bits of a group of bytes together;
  * `ofUtf8? bytes` is the character whose UTF-8 form is a group of bytes;
  * `ofUtf8?_eq_some_iff`: it is there exactly if some character has that form.  So overlong forms,
    surrogates and values that are too large are refused without being listed;
  * `width? lead`: the number of bytes of a group, as its first byte announces it.
-/
import Recast.Text.Basic

namespace Recast.Text

/-- The bytes of a text. -/
def utf8 (s : Text) : ByteArray :=
  (s.flatMap String.utf8EncodeChar).toByteArray

theorem utf8_eq_utf8Encode (s : Text) : utf8 s = List.utf8Encode s :=
  rfl

/-- The number in the payload bits of a group of bytes: the low bits of the lead, fewer in a longer
    group, and then six bits of each byte that follows. -/
def codePoint : List UInt8 → Nat
  | [] => 0
  | lead :: more =>
    more.foldl (fun n b => n * 64 + b.toNat % 64)
      (lead.toNat % if more.isEmpty then 128 else 64 >>> more.length)

/-- The character with a given UTF-8 form. -/
def ofUtf8? (bytes : List UInt8) : Option Char :=
  let c := Char.ofNat (codePoint bytes)
  if String.utf8EncodeChar c = bytes then some c else none

/-- The payload of the UTF-8 form of a character is the character. -/
theorem codePoint_utf8EncodeChar (c : Char) : codePoint (String.utf8EncodeChar c) = c.toNat := by
  have small : c.val.toNat < 0x110000 := by
    rcases c.valid with h | h
    · have : c.val.toNat < 0xD800 := h
      omega
    · exact h.2
  have same : c.toNat = c.val.toNat := rfl
  unfold String.utf8EncodeChar
  simp only
  split
  · simp [codePoint]; omega
  · split
    · simp [codePoint]; omega
    · split
      · simp [codePoint]; omega
      · simp [codePoint]; omega

/-- **UTF-8, exactly.**  A group of bytes is read as `c` if and only if it is the UTF-8 form of
    `c`. -/
theorem ofUtf8?_eq_some_iff {bytes : List UInt8} {c : Char} :
    ofUtf8? bytes = some c ↔ bytes = String.utf8EncodeChar c := by
  unfold ofUtf8?
  constructor
  · intro h
    dsimp only at h
    split at h
    · next form => exact Option.some.inj h ▸ form.symm
    · nomatch h
  · rintro rfl
    simp [codePoint_utf8EncodeChar]

/-- The length of the group that a byte leads; none for a byte that cannot lead one. -/
def width? (lead : UInt8) : Option Nat :=
  if lead < 0x80 then some 1
  else if lead < 0xC0 then none
  else if lead < 0xE0 then some 2
  else if lead < 0xF0 then some 3
  else if lead < 0xF8 then some 4
  else none

end Recast.Text

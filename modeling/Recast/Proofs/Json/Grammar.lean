/-
  Recast JSON — the ways to write a document.

  A document can be written in many ways: with white space around its tokens, with the characters of
  its strings as themselves or escaped, with either letter before an exponent.

  * `StringLiteral.IsWritten literal s`, `Tree.IsWritten tree s`: `s` is a way to write a string, a
    document;
  * `StringLiteral.Means literal text`: a string stands for a text, each character of which is there
    as itself or by its units in UTF-16; `text?_of_means`: it is read as that text;
  * `isWritten_quote`, `means_map_quotePart`: a quoted text is written in one of these ways.
-/
import Mathlib.Data.List.Forall2
import Recast.Json.Printer
import Recast.Proofs.Json.Literal
import Recast.Proofs.Letter.Ascii

namespace Recast.Json

open Letter (IsHexDigit)

/-! ## The grammar -/

/-- The short escapes, by the character behind the backslash and the one that they stand for. -/
def shortEscapes : List (Char × Char) :=
  [('"', '"'), ('\\', '\\'), ('/', '/'), ('b', '\x08'), ('f', '\x0c'), ('n', '\n'), ('r', '\r'),
    ('t', '\t')]

/-- The ways to write a part of a string. -/
inductive StringPart.IsWritten : StringPart → Text → Prop
  | plain {c : Char} : 0x20 ≤ c.toNat → c ≠ '"' → c ≠ '\\' → IsWritten (.char c) [c]
  | short {mark c : Char} : (mark, c) ∈ shortEscapes → IsWritten (.char c) ['\\', mark]
  | unit {a b c d : Char} {i j k l : Nat} : IsHexDigit a i → IsHexDigit b j → IsHexDigit c k →
      IsHexDigit d l → IsWritten (.unit (((i * 16 + j) * 16 + k) * 16 + l)) ['\\', 'u', a, b, c, d]

/-- The ways to write a string: its parts between quotes. -/
def StringLiteral.IsWritten (literal : StringLiteral) (s : Text) : Prop :=
  ∃ parts, List.Forall₂ StringPart.IsWritten literal parts ∧ s = '"' :: (parts.flatten ++ ['"'])

/-- A member of an object, with its key and its value as they are written. -/
structure WrittenMember where
  key : StringLiteral
  keyText : Text
  value : Tree
  valueText : Text

namespace WrittenMember

/-- A member without its spelling. -/
def member (written : WrittenMember) : StringLiteral × Tree :=
  (written.key, written.value)

/-- A member as it is written. -/
def text (written : WrittenMember) : Text :=
  written.keyText ++ ':' :: written.valueText

end WrittenMember

/-- The ways to write a document. -/
inductive Tree.IsWritten : Tree → Text → Prop
  | null : IsWritten .null "null".toList
  | boolTrue : IsWritten (.bool true) "true".toList
  | boolFalse : IsWritten (.bool false) "false".toList
  | number {literal : NumberLiteral} {s : Text} : literal.IsWritten s → IsWritten (.number literal) s
  | string {literal : StringLiteral} {s : Text} : literal.IsWritten s → IsWritten (.string literal) s
  | array {elements : List (Tree × Text)} {gap : Text} : (∀ c ∈ gap, isGap c = true) →
      (∀ element ∈ elements, IsWritten element.1 element.2) →
      IsWritten (.array (elements.map Prod.fst))
        ('[' :: ([','].intercalate (elements.map Prod.snd) ++ gap ++ [']']))
  | object {members : List WrittenMember} {gap : Text} : (∀ c ∈ gap, isGap c = true) →
      (∀ member ∈ members, IsWritten (.string member.key) member.keyText) →
      (∀ member ∈ members, IsWritten member.value member.valueText) →
      IsWritten (.object (members.map WrittenMember.member))
        ('{' :: ([','].intercalate (members.map WrittenMember.text) ++ gap ++ ['}']))
  /-- white space may stand around every value and around every key -/
  | padded {tree : Tree} {before s after : Text} : (∀ c ∈ before, isGap c = true) →
      (∀ c ∈ after, isGap c = true) → IsWritten tree s → IsWritten tree (before ++ s ++ after)

/-! ## What a string stands for -/

/-- The units of a character in UTF-16. -/
def utf16 (c : Char) : List Nat :=
  if c.toNat < 0x10000 then [c.toNat]
  else [0xD800 + (c.toNat - 0x10000) / 0x400, 0xDC00 + (c.toNat - 0x10000) % 0x400]

/-- A string stands for a text: each character is there as itself or by its units. -/
inductive StringLiteral.Means : StringLiteral → Text → Prop
  | nil : Means [] []
  | char {literal : StringLiteral} {s : Text} (c : Char) :
      Means literal s → Means (.char c :: literal) (c :: s)
  | units {literal : StringLiteral} {s : Text} (c : Char) :
      Means literal s → Means ((utf16 c).map .unit ++ literal) (c :: s)

theorem text?_cons_unit {code : Nat} (hhigh : isHighSurrogate code = false)
    (hlow : isLowSurrogate code = false) (rest : StringLiteral) :
    StringLiteral.text? (.unit code :: rest) =
      (StringLiteral.text? rest).map (Char.ofNat code :: ·) := by
  rcases rest with _ | ⟨_ | _, rest⟩ <;> simp [StringLiteral.text?, hhigh, hlow]

/-- The units of a character are read as that character. -/
theorem text?_utf16_append (c : Char) (rest : StringLiteral) :
    StringLiteral.text? ((utf16 c).map .unit ++ rest) =
      (StringLiteral.text? rest).map (c :: ·) := by
  unfold utf16
  split_ifs with hc
  · have hvalid : c.toNat < 0xD800 ∨ 0xDFFF < c.toNat := c.valid.imp id And.left
    have hhigh : isHighSurrogate c.toNat = false := by simp [isHighSurrogate]; omega
    have hlow : isLowSurrogate c.toNat = false := by simp [isLowSurrogate]; omega
    simpa using text?_cons_unit hhigh hlow rest
  · have hlt : c.toNat < 0x110000 := c.valid.elim (fun h => Nat.lt_trans h (by decide)) And.right
    have hhigh : isHighSurrogate (0xD800 + (c.toNat - 0x10000) / 0x400) = true := by
      simp [isHighSurrogate]; omega
    have hlow : isLowSurrogate (0xDC00 + (c.toNat - 0x10000) % 0x400) = true := by
      simp [isLowSurrogate]; omega
    have hpair : pairedChar (0xD800 + (c.toNat - 0x10000) / 0x400)
        (0xDC00 + (c.toNat - 0x10000) % 0x400) = c := by
      have hcode : 0x10000 + (0xD800 + (c.toNat - 0x10000) / 0x400 - 0xD800) * 0x400 +
          (0xDC00 + (c.toNat - 0x10000) % 0x400 - 0xDC00) = c.toNat := by omega
      rw [pairedChar, hcode, Char.ofNat_toNat]
    simp [StringLiteral.text?, hhigh, hlow, hpair]

/-- **A string is read as the text that it stands for.** -/
theorem text?_of_means {literal : StringLiteral} {s : Text} (h : literal.Means s) :
    literal.text? = some s := by
  induction h with
  | nil => rfl
  | char c _ ih => rw [StringLiteral.text?, ih, Option.map_some]
  | units c _ ih => rw [text?_utf16_append, ih, Option.map_some]

theorem StringLiteral.Means.unique {literal : StringLiteral} {s t : Text} (h : literal.Means s)
    (ht : literal.Means t) : s = t :=
  Option.some.inj ((text?_of_means h).symm.trans (text?_of_means ht))

/-! ## Quoted texts -/

/-- How a character is spelled inside a string. -/
def quotePart (c : Char) : StringPart :=
  if c.toNat < 0x20 ∧ c ∉ ['\x08', '\x0c', '\n', '\r', '\t'] then .unit c.toNat else .char c

theorem isHexDigit_hexDigit {n : Nat} (h : n < 16) : IsHexDigit (hexDigit n) n := by
  have hall : ∀ m < 16, hexDigit m = Nat.digitChar m := by decide
  exact ⟨h, .inl (hall n h)⟩

theorem isWritten_quoteChar (c : Char) : (quotePart c).IsWritten (quoteChar c) := by
  unfold quoteChar quotePart
  by_cases hshort : c ∈ ['"', '\\', '\x08', '\x0c', '\n', '\r', '\t']
  · simp only [List.mem_cons, List.not_mem_nil, or_false] at hshort
    rcases hshort with rfl | rfl | rfl | rfl | rfl | rfl | rfl <;> exact .short (by decide)
  · simp only [List.mem_cons, List.not_mem_nil, or_false, not_or] at hshort
    obtain ⟨hquote, hslash, hbackspace, hfeed, hnewline, hreturn, htab⟩ := hshort
    simp only [hquote, hslash, hbackspace, hfeed, hnewline, hreturn, htab, if_false, List.mem_cons,
      List.not_mem_nil, or_self, not_false_eq_true, and_true]
    split_ifs with hcontrol
    · have hzero := isHexDigit_hexDigit (n := 0) (by decide)
      have hhigh := isHexDigit_hexDigit (n := c.toNat / 16) (by omega)
      have hlow := isHexDigit_hexDigit (n := c.toNat % 16) (by omega)
      have hunit := StringPart.IsWritten.unit hzero hzero hhigh hlow
      have hcode : ((0 * 16 + 0) * 16 + c.toNat / 16) * 16 + c.toNat % 16 = c.toNat := by omega
      rwa [hcode] at hunit
    · exact .plain (Nat.not_lt.1 hcontrol) hquote hslash

theorem forall₂_quoteChar (s : Text) :
    List.Forall₂ StringPart.IsWritten (s.map quotePart) (s.map quoteChar) := by
  rw [List.forall₂_map_left_iff, List.forall₂_map_right_iff, List.forall₂_same]
  exact fun c _ => isWritten_quoteChar c

theorem isWritten_quote (s : Text) : StringLiteral.IsWritten (s.map quotePart) (quote s) :=
  ⟨s.map quoteChar, forall₂_quoteChar s, rfl⟩

theorem means_map_quotePart (s : Text) : StringLiteral.Means (s.map quotePart) s := by
  induction s with
  | nil => exact .nil
  | cons c rest ih =>
    rw [List.map_cons, quotePart]
    split_ifs with hc
    · have hunits : (utf16 c).map StringPart.unit = [.unit c.toNat] := by
        rw [utf16, if_pos (by omega), List.map_singleton]
      have hmeans := StringLiteral.Means.units c ih
      rwa [hunits] at hmeans
    · exact .char c ih

/-- **A text is read back from how it is quoted.** -/
theorem text?_map_quotePart (s : Text) : StringLiteral.text? (s.map quotePart) = some s :=
  text?_of_means (means_map_quotePart s)

end Recast.Json

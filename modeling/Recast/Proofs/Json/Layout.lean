/-
  Recast JSON — one document in several layouts.

  Layouts differ in the white space between tokens and in nothing else.

  * `withoutBlanks s` is a text without the white space that is not inside a string;
  * `Condenses s t`: where `s` stands outside strings, that leaves `t` of it;
  * `condenses_textAt`: of a value in any layout, it leaves the value on one line;
  * `le_toNat_of_mem_textAt_compact`: on that line there is no control character;
  * `newline_mem_text_iff`: an indented value has several lines if and only if it is a container that
    is not empty (`Value.hasParts`);
  * `reformat_withoutBlanks`: what this says of a document that is laid out anew.
-/
import Recast.Proofs.Json.Reformat

namespace Recast.Json

open Recast.Number
open Letter (IsHexDigit)
open NumberLiteral (isAtomChar_of_isDigit)

/-! ## White space outside strings -/

/-- Where a character of a document stands: outside strings, inside one, or there behind a
    backslash. -/
inductive Zone where
  | outside
  | inside
  | escaped
  deriving DecidableEq, Repr

/-- A text, read from a zone on, without the white space outside strings. -/
def withoutBlanksFrom : Zone → Text → Text
  | _, [] => []
  | .outside, c :: rest =>
    if c = '"' then c :: withoutBlanksFrom .inside rest
    else if Letter.isBlank c then withoutBlanksFrom .outside rest
    else c :: withoutBlanksFrom .outside rest
  | .inside, c :: rest =>
    if c = '"' then c :: withoutBlanksFrom .outside rest
    else if c = '\\' then c :: withoutBlanksFrom .escaped rest
    else c :: withoutBlanksFrom .inside rest
  | .escaped, c :: rest => c :: withoutBlanksFrom .inside rest

/-- A text without the white space outside strings. -/
def withoutBlanks (s : Text) : Text :=
  withoutBlanksFrom .outside s

/-- Where `s` stands outside strings, `t` is left of it without white space, whatever follows. -/
def Condenses (s t : Text) : Prop :=
  ∀ rest, withoutBlanksFrom .outside (s ++ rest) = t ++ withoutBlanksFrom .outside rest

theorem Condenses.withoutBlanks_eq {s t : Text} (h : Condenses s t) : withoutBlanks s = t := by
  have hall := h []
  rw [List.append_nil] at hall
  rw [withoutBlanks, hall]
  exact List.append_nil t

theorem Condenses.append {s t s' t' : Text} (h : Condenses s t) (h' : Condenses s' t') :
    Condenses (s ++ s') (t ++ t') := by
  intro rest
  rw [List.append_assoc, h, h', List.append_assoc]

theorem condenses_nil : Condenses [] [] :=
  fun _ => rfl

theorem isBlank_of_isGap {c : Char} (h : isGap c = true) : Letter.isBlank c = true ∧ c ≠ '"' := by
  simp only [isGap, Bool.or_eq_true, decide_eq_true_eq] at h
  rcases h with ((rfl | rfl) | rfl) | rfl <;> decide

theorem condenses_gap {s : Text} (h : ∀ c ∈ s, isGap c = true) : Condenses s [] := by
  intro rest
  induction s with
  | nil => rfl
  | cons c s ih =>
    obtain ⟨hblank, hquote⟩ := isBlank_of_isGap (h c List.mem_cons_self)
    rw [List.cons_append, withoutBlanksFrom, if_neg hquote, if_pos hblank]
    exact ih fun d hd => h d (List.mem_cons_of_mem _ hd)

/-- A character that is printed, and neither a quote nor white space. -/
structure IsPlain (c : Char) : Prop where
  printed : 0x20 ≤ c.toNat
  ne_quote : c ≠ '"'
  isBlank : Letter.isBlank c = false

theorem condenses_plain {s : Text} (h : ∀ c ∈ s, IsPlain c) : Condenses s s := by
  intro rest
  induction s with
  | nil => rfl
  | cons c s ih =>
    have hc := h c List.mem_cons_self
    rw [List.cons_append, withoutBlanksFrom, if_neg hc.ne_quote, if_neg (by simp [hc.isBlank]),
      ih fun d hd => h d (List.mem_cons_of_mem _ hd)]
    rfl

theorem isPlain_of_punctuation {c : Char} {token : Token} (h : punctuation? c = some token) :
    IsPlain c := by
  unfold punctuation? at h
  split at h <;> first | exact ⟨by decide, by decide, by decide⟩ | exact absurd h (by simp)

theorem Condenses.punctuation_cons {c : Char} {token : Token} {s t : Text}
    (hc : punctuation? c = some token) (h : Condenses s t) : Condenses (c :: s) (c :: t) :=
  (condenses_plain (List.forall_mem_singleton.2 (isPlain_of_punctuation hc))).append h

/-- A closing bracket stays, but not the line break before it. -/
theorem condenses_close {layout : Layout} (hblank : layout.IsBlank) {c : Char} {token : Token}
    (hc : punctuation? c = some token) (depth : Nat) :
    Condenses (layout.lineBreak depth ++ [c]) [c] :=
  (condenses_gap (hblank depth)).append (.punctuation_cons hc condenses_nil)

/-! ## Tokens -/

theorem isPlain_of_isAtomChar {c : Char} (h : isAtomChar c = true) : IsPlain c := by
  have hsmall : ∀ n < 128, isAtomChar (Char.ofNat n) = true →
      0x20 ≤ (Char.ofNat n).toNat ∧ Char.ofNat n ≠ '"' ∧ Letter.isBlank (Char.ofNat n) = false := by
    decide
  have hlt : c.toNat < 128 := by
    simp only [isAtomChar, Bool.or_eq_true, decide_eq_true_eq] at h
    rcases h with ((h | rfl) | rfl) | rfl
    · exact Letter.toNat_lt_of_isAlphanum h
    · decide
    · decide
    · decide
  obtain ⟨hprinted, hquote, hblank⟩ := hsmall c.toNat hlt (by rwa [Char.ofNat_toNat])
  rw [Char.ofNat_toNat] at hprinted hquote hblank
  exact ⟨hprinted, hquote, hblank⟩

theorem isHexDigit_spec {c : Char} {n : Nat} (h : IsHexDigit c n) :
    0x20 ≤ c.toNat ∧ c ≠ '"' ∧ c ≠ '\\' :=
  h.of_forall (p := fun c _ => 0x20 ≤ c.toNat ∧ c ≠ '"' ∧ c ≠ '\\') (by decide) (by decide)

/-- Inside a string, a part stays as it is written. -/
theorem withoutBlanksFrom_part {part : StringPart} {s : Text} (h : part.IsWritten s) (rest : Text) :
    withoutBlanksFrom .inside (s ++ rest) = s ++ withoutBlanksFrom .inside rest := by
  cases h with
  | plain _ hquote hslash => simp [withoutBlanksFrom, hquote, hslash]
  | short _ => simp [withoutBlanksFrom]
  | unit ha hb hc hd =>
    simp [withoutBlanksFrom, (isHexDigit_spec ha).2, (isHexDigit_spec hb).2, (isHexDigit_spec hc).2,
      (isHexDigit_spec hd).2]

theorem condenses_string {literal : StringLiteral} {s : Text} (h : literal.IsWritten s) :
    Condenses s s := by
  obtain ⟨parts, hparts, rfl⟩ := h
  have hinside : ∀ rest, withoutBlanksFrom .inside (parts.flatten ++ rest) =
      parts.flatten ++ withoutBlanksFrom .inside rest := by
    intro rest
    induction hparts with
    | nil => rfl
    | cons hpart _ ih =>
      rw [List.flatten_cons, List.append_assoc, withoutBlanksFrom_part hpart, ih, List.append_assoc]
  intro rest
  rw [List.cons_append, withoutBlanksFrom, if_pos rfl, List.append_assoc, hinside]
  simp [withoutBlanksFrom]

theorem le_toNat_of_mem_part {part : StringPart} {s : Text} (h : part.IsWritten s) :
    ∀ c ∈ s, 0x20 ≤ c.toNat := by
  cases h with
  | plain hprinted _ _ => exact List.forall_mem_singleton.2 hprinted
  | @short mark c hshort =>
    have hmark : ∀ escape ∈ shortEscapes, 0x20 ≤ escape.1.toNat := by decide
    exact List.forall_mem_cons.2 ⟨by decide, List.forall_mem_singleton.2 (hmark _ hshort)⟩
  | unit ha hb hc hd =>
    simp only [List.forall_mem_cons]
    exact ⟨by decide, by decide, (isHexDigit_spec ha).1, (isHexDigit_spec hb).1,
      (isHexDigit_spec hc).1, (isHexDigit_spec hd).1, List.forall_mem_nil _⟩

/-- A string is written without control characters. -/
theorem le_toNat_of_mem_string {literal : StringLiteral} {s : Text} (h : literal.IsWritten s) :
    ∀ c ∈ s, 0x20 ≤ c.toNat := by
  obtain ⟨parts, hparts, rfl⟩ := h
  have hinside : ∀ c ∈ parts.flatten, 0x20 ≤ c.toNat := by
    induction hparts with
    | nil => exact List.forall_mem_nil _
    | cons hpart _ ih =>
      rw [List.flatten_cons, List.forall_mem_append]
      exact ⟨le_toNat_of_mem_part hpart, ih⟩
  rw [List.forall_mem_cons, List.forall_mem_append]
  exact ⟨by decide, hinside, List.forall_mem_singleton.2 (by decide)⟩

/-! ## Numbers -/

/-- The digits of a decimal are digits, so its text is an atom. -/
theorem isAtomChar_of_mem_scientific {s : Scientific} (h : ∀ c ∈ s.digits, c.isDigit = true)
    {c : Char} (hc : c ∈ s.text) : isAtomChar c = true := by
  unfold Scientific.text at hc
  split_ifs at hc
  · unfold Scientific.positional at hc
    split_ifs at hc
    · simp only [List.mem_cons, List.mem_append] at hc
      rcases hc with rfl | rfl | hc | hc
      · decide
      · decide
      · exact isAtomChar_of_isDigit (isDigit_of_mem_replicate hc)
      · exact isAtomChar_of_isDigit (h c hc)
    · simp only [List.mem_cons, List.mem_append] at hc
      rcases hc with (hc | hc) | rfl | hc
      · exact isAtomChar_of_isDigit (h c (List.mem_of_mem_take hc))
      · exact isAtomChar_of_isDigit (isDigit_of_mem_replicate hc)
      · decide
      · split_ifs at hc
        · rw [List.mem_singleton.1 hc]
          decide
        · exact isAtomChar_of_isDigit (h c (List.mem_of_mem_drop hc))
  · simp only [Scientific.exponential, List.mem_cons, List.mem_append] at hc
    rcases hc with (hc | hc) | rfl | hc | hc
    · exact isAtomChar_of_isDigit (h c (List.mem_of_mem_take hc))
    · split_ifs at hc
      · exact absurd hc List.not_mem_nil
      · rcases List.mem_cons.1 hc with rfl | hc
        · decide
        · exact isAtomChar_of_isDigit (h c (List.mem_of_mem_drop hc))
    · decide
    · subst hc
      split_ifs <;> decide
    · exact isAtomChar_of_isDigit ((isDigits_toDigits _).isDigit c hc)

theorem isDigit_of_mem_shortest {x : Binary64} {c : Char} (hc : c ∈ x.shortest.digits) :
    c.isDigit = true := by
  unfold Binary64.shortest at hc
  dsimp only at hc
  generalize hfound : List.findSome? _ _ = found at hc
  cases found with
  | none =>
    rw [Option.getD_none] at hc
    rw [List.mem_singleton.1 hc]
    decide
  | some s =>
    obtain ⟨more, -, hmore⟩ := List.exists_of_findSome?_eq_some hfound
    obtain ⟨n, -, rfl⟩ := Option.map_eq_some_iff.1 hmore
    have hmem := (List.dropWhile_suffix _).mem (List.mem_reverse.1 hc)
    exact (isDigits_toDigits n).isDigit c (List.mem_reverse.1 hmem)

/-- A number is written as an atom. -/
theorem isAtomChar_of_mem_text_number {n : Number} {c : Char} (hc : c ∈ n.text) :
    isAtomChar c = true := by
  have hmagnitude : ∀ {x : Binary64}, c ∈ magnitudeText x → isAtomChar c = true := by
    intro x hc
    unfold magnitudeText at hc
    split_ifs at hc
    · exact isAtomChar_of_mem_scientific (s := ⟨['0'], 0⟩) (List.forall_mem_singleton.2 rfl) hc
    · exact isAtomChar_of_mem_scientific (fun _ => isDigit_of_mem_shortest) hc
  cases n with
  | integer value =>
    have hnumeral : c ∈ Text.ofNat value.natAbs → isAtomChar c = true :=
      fun hc => isAtomChar_of_isDigit ((isDigits_toDigits _).isDigit c hc)
    simp only [Number.text, integerText] at hc
    split_ifs at hc
    · rcases List.mem_cons.1 hc with rfl | hc
      · decide
      · exact hnumeral hc
    · exact hnumeral hc
  | double negative magnitude =>
    simp only [Number.text] at hc
    split_ifs at hc
    · rcases List.mem_cons.1 hc with rfl | hc
      · decide
      · exact hmagnitude hc
    · exact hmagnitude hc

theorem isPlain_of_mem_text_number {n : Number} : ∀ c ∈ n.text, IsPlain c :=
  fun _ hc => isPlain_of_isAtomChar (isAtomChar_of_mem_text_number hc)

/-! ## Values -/

section

variable {layout : Layout} (hblank : layout.IsBlank)

theorem condenses_word {s : Text} (h : s.all isAtomChar = true) : Condenses s s :=
  condenses_plain fun c hc => isPlain_of_isAtomChar (List.all_eq_true.1 h c hc)

theorem condenses_colon (layout : Layout) : Condenses layout.colon [':'] := by
  have hcolon : Condenses [':'] [':'] := .punctuation_cons rfl condenses_nil
  cases layout with
  | compact => exact hcolon
  | indented unit => exact hcolon.append (condenses_gap (List.forall_mem_singleton.2 rfl))

include hblank

mutual

/-- **Without white space, a value in any layout is the value on one line.** -/
theorem condenses_textAt : ∀ (value : Value) (depth other : Nat),
    Condenses (value.textAt layout depth) (value.textAt .compact other)
  | .null, _, _ => condenses_word (s := "null".toList) rfl
  | .bool true, _, _ => condenses_word (s := "true".toList) rfl
  | .bool false, _, _ => condenses_word (s := "false".toList) rfl
  | .number value, _, _ => condenses_plain isPlain_of_mem_text_number
  | .string value, _, _ => condenses_string (isWritten_quote value)
  | .array [], _, _ => .punctuation_cons rfl (.punctuation_cons rfl condenses_nil)
  | .array (first :: more), depth, other => by
    have hfirst := condenses_textAt first (depth + 1) (other + 1)
    have hmore := condenses_elementsText more (depth + 1) (other + 1)
    have hclose := condenses_close hblank (c := ']') rfl depth
    have hall := (((condenses_gap (hblank (depth + 1))).append hfirst).append hmore).append hclose
    simpa [Value.textAt, Layout.lineBreak] using
      Condenses.punctuation_cons (c := '[') rfl hall
  | .object [], _, _ => .punctuation_cons rfl (.punctuation_cons rfl condenses_nil)
  | .object ((key, first) :: more), depth, other => by
    have hkey := (condenses_string (isWritten_quote key)).append (condenses_colon layout)
    have hfirst := condenses_textAt first (depth + 1) (other + 1)
    have hmore := condenses_membersText more (depth + 1) (other + 1)
    have hclose := condenses_close hblank (c := '}') rfl depth
    have hall := (((condenses_gap (hblank (depth + 1))).append
      (hkey.append hfirst)).append hmore).append hclose
    simpa [Value.textAt, Layout.lineBreak, Layout.colon] using
      Condenses.punctuation_cons (c := '{') rfl hall

theorem condenses_elementsText : ∀ (elements : List Value) (depth other : Nat),
    Condenses (Value.elementsText layout depth elements) (Value.elementsText .compact other elements)
  | [], _, _ => condenses_nil
  | value :: more, depth, other => by
    have hvalue := condenses_textAt value depth other
    have hmore := condenses_elementsText more depth other
    have hall := ((condenses_gap (hblank depth)).append hvalue).append hmore
    simpa [Value.elementsText, Layout.lineBreak] using
      Condenses.punctuation_cons (c := ',') rfl hall

theorem condenses_membersText : ∀ (members : List (Text × Value)) (depth other : Nat),
    Condenses (Value.membersText layout depth members) (Value.membersText .compact other members)
  | [], _, _ => condenses_nil
  | (key, value) :: more, depth, other => by
    have hkey := (condenses_string (isWritten_quote key)).append (condenses_colon layout)
    have hvalue := condenses_textAt value depth other
    have hmore := condenses_membersText more depth other
    have hall := ((condenses_gap (hblank depth)).append (hkey.append hvalue)).append hmore
    simpa [Value.membersText, Layout.lineBreak, Layout.colon] using
      Condenses.punctuation_cons (c := ',') rfl hall

end

end

mutual

/-- **On one line, a value is written without control characters.** -/
theorem le_toNat_of_mem_textAt_compact : ∀ (value : Value) (depth : Nat),
    ∀ c ∈ value.textAt .compact depth, 0x20 ≤ c.toNat
  | .null, _ => by simp [Value.textAt]
  | .bool true, _ => by simp [Value.textAt]
  | .bool false, _ => by simp [Value.textAt]
  | .number value, _ => fun c hc => (isPlain_of_mem_text_number c hc).printed
  | .string value, _ => le_toNat_of_mem_string (isWritten_quote value)
  | .array [], _ => by simp [Value.textAt]
  | .array (first :: more), depth => by
    have hfirst := le_toNat_of_mem_textAt_compact first (depth + 1)
    have hmore := le_toNat_of_mem_elementsText_compact more (depth + 1)
    simp only [Value.textAt, Layout.lineBreak, List.forall_mem_cons, List.forall_mem_append]
    exact ⟨by decide, ⟨⟨⟨by simp, hfirst⟩, hmore⟩, by simp⟩, by simp⟩
  | .object [], _ => by simp [Value.textAt]
  | .object ((key, first) :: more), depth => by
    have hkey := le_toNat_of_mem_string (isWritten_quote key)
    have hfirst := le_toNat_of_mem_textAt_compact first (depth + 1)
    have hmore := le_toNat_of_mem_membersText_compact more (depth + 1)
    simp only [Value.textAt, Layout.lineBreak, List.forall_mem_cons, List.forall_mem_append]
    exact ⟨by decide, ⟨⟨⟨⟨⟨by simp, hkey⟩, by simp [Layout.colon]⟩, hfirst⟩, hmore⟩, by simp⟩, by simp⟩

theorem le_toNat_of_mem_elementsText_compact : ∀ (elements : List Value) (depth : Nat),
    ∀ c ∈ Value.elementsText .compact depth elements, 0x20 ≤ c.toNat
  | [], _ => by simp [Value.elementsText]
  | value :: more, depth => by
    have hvalue := le_toNat_of_mem_textAt_compact value depth
    have hmore := le_toNat_of_mem_elementsText_compact more depth
    simp only [Value.elementsText, Layout.lineBreak, List.forall_mem_cons, List.forall_mem_append]
    exact ⟨by decide, ⟨by simp, hvalue⟩, hmore⟩

theorem le_toNat_of_mem_membersText_compact : ∀ (members : List (Text × Value)) (depth : Nat),
    ∀ c ∈ Value.membersText .compact depth members, 0x20 ≤ c.toNat
  | [], _ => by simp [Value.membersText]
  | (key, value) :: more, depth => by
    have hkey := le_toNat_of_mem_string (isWritten_quote key)
    have hvalue := le_toNat_of_mem_textAt_compact value depth
    have hmore := le_toNat_of_mem_membersText_compact more depth
    simp only [Value.membersText, Layout.lineBreak, List.forall_mem_cons, List.forall_mem_append]
    exact ⟨by decide, ⟨⟨⟨by simp, hkey⟩, by simp [Layout.colon]⟩, hvalue⟩, hmore⟩

end

/-! ## Lines -/

/-- Whether a value is a container that is not empty. -/
def Value.hasParts : Value → Bool
  | .array elements => !elements.isEmpty
  | .object members => !members.isEmpty
  | _ => false

/-- What is no container, or an empty one, is written the same in every layout. -/
theorem Value.text_of_not_hasParts {value : Value} (h : value.hasParts = false) (layout : Layout) :
    value.text layout = value.text .compact := by
  unfold text
  cases value with
  | array elements =>
    cases elements with
    | nil => rfl
    | cons first more => exact absurd h (by simp [hasParts])
  | object members =>
    cases members with
    | nil => rfl
    | cons first more => exact absurd h (by simp [hasParts])
  | bool value => cases value <;> rfl
  | null | number | string => rfl

/-- **Indented, a value has several lines if and only if it has parts.** -/
theorem newline_mem_text_iff (unit : Text) (value : Value) :
    '\n' ∈ value.text (.indented unit) ↔ value.hasParts = true := by
  constructor
  · intro hmem
    by_contra hparts
    rw [Value.text_of_not_hasParts (by simpa using hparts)] at hmem
    exact absurd (le_toNat_of_mem_textAt_compact value 0 _ hmem) (by decide)
  · intro hparts
    unfold Value.text
    cases value with
    | array elements =>
      cases elements with
      | nil => exact absurd hparts (by decide)
      | cons first more => simp [Value.textAt, Layout.lineBreak]
    | object members =>
      cases members with
      | nil => exact absurd hparts (by decide)
      | cons first more => simp [Value.textAt, Layout.lineBreak]
    | _ => exact absurd hparts (by simp [Value.hasParts])

/-! ## Documents -/

theorem Indent.exists_layout_eq {indent : Indent} (h : indent ≠ .spaces 0) :
    ∃ unit, indent.layout = .indented unit := by
  rcases indent with _ | count
  · exact ⟨_, rfl⟩
  · cases count with
    | zero => exact absurd rfl h
    | succ count => exact ⟨_, rfl⟩

/-- **A document that is laid out in some way can be laid out on one line**, and that is what is left
    of it without white space. -/
theorem reformat_withoutBlanks {i s written : Text} (h : reformat i s = .ok written) :
    reformat ['0'] s = .ok (withoutBlanks written) ∧
      ∀ c ∈ withoutBlanks written, 0x20 ≤ c.toNat := by
  obtain ⟨indent, value, -, hvalue, rfl⟩ := reformat_eq_ok_iff.1 h
  have hline := (condenses_textAt indent.isBlank_layout value 0 0).withoutBlanks_eq
  unfold Value.text
  rw [hline]
  exact ⟨reformat_eq_ok_iff.2 ⟨.spaces 0, value, rfl, hvalue, rfl⟩,
    le_toNat_of_mem_textAt_compact value 0⟩

end Recast.Json

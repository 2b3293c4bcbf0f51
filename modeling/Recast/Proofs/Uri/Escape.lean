/-
  Recast URIs — escapes, as they are written and as they are read.

  An escape is written in characters and read from bytes.

  * `isHexDigit_of_hexValue?`, `hexValue?_of_isHexDigit`: the bytes that are read as digits; `Escape` is
    a `%` with the two digits of a byte;
  * `escaped?_eq_some_iff`: a byte is read where its escape is written;
  * `extend_eq_ok_iff`, `read_eq_ok_iff`: a group of escapes is read where as many are written as the
    first byte announces.
-/
import Mathlib.Data.List.Basic
import Recast.Proofs.Letter.Ascii
import Recast.Proofs.Text.Utf8
import Recast.Uri.Decode

namespace Recast.Uri

open Letter (IsHexDigit)
open Text (byteSize utf8)

/-! ## Digits -/

theorem hexValue?_of_isHexDigit {c : Char} {n : Nat} (h : IsHexDigit c n) :
    hexValue? (UInt8.ofNat c.toNat) = some n :=
  h.of_forall (p := fun c n => hexValue? (UInt8.ofNat c.toNat) = some n) (by decide) (by decide)

theorem isHexDigit_of_hexValue? {b : UInt8} {n : Nat} (h : hexValue? b = some n) :
    IsHexDigit (Char.ofNat b.toNat) n ∧ b.toNat < 128 := by
  have hdecimal : ∀ m < 10, Char.ofNat (0x30 + m) = Nat.digitChar m := by decide
  have hsmall : ∀ m < 6, Char.ofNat (0x61 + m) = Nat.digitChar (m + 10) := by decide
  have hcapital : ∀ m < 6, Char.ofNat (0x41 + m) = (Nat.digitChar (m + 10)).toUpper := by decide
  simp only [hexValue?, UInt8.le_iff_toNat_le, UInt8.reduceToNat] at h
  split_ifs at h with hb hb hb <;> obtain rfl := Option.some.inj h
  · refine ⟨⟨by omega, .inl ?_⟩, by omega⟩
    rw [← hdecimal _ (by omega), Nat.add_sub_cancel' hb.1]
  · refine ⟨⟨by omega, .inl ?_⟩, by omega⟩
    rw [← hsmall _ (by omega), Nat.add_sub_cancel' hb.1]
  · refine ⟨⟨by omega, .inr ?_⟩, by omega⟩
    rw [← hcapital _ (by omega), Nat.add_sub_cancel' hb.1]

theorem hexValue?_utf8_eq_some_iff {s t : Text} {n : Nat} :
    (utf8 (s ++ t))[byteSize s]?.bind hexValue? = some n ↔
      ∃ c rest, t = c :: rest ∧ IsHexDigit c n := by
  rw [Option.bind_eq_some_iff]
  constructor
  · rintro ⟨b, hb, hvalue⟩
    obtain ⟨hdigit, hlt⟩ := isHexDigit_of_hexValue? hvalue
    obtain ⟨rest, rfl⟩ := (Text.getElem?_utf8_eq_some_iff hlt).1 hb
    exact ⟨_, rest, rfl, hdigit⟩
  · rintro ⟨c, rest, rfl, hdigit⟩
    have hlt := hdigit.toNat_lt
    have hb : (UInt8.ofNat c.toNat).toNat = c.toNat := by
      rw [UInt8.toNat_ofNat', Nat.mod_eq_of_lt (by omega)]
    refine ⟨_, (Text.getElem?_utf8_eq_some_iff (by rw [hb]; exact hlt)).2 ⟨rest, ?_⟩,
      hexValue?_of_isHexDigit hdigit⟩
    rw [hb, Char.ofNat_toNat]

theorem getElem?_utf8_eq_percent_iff {s t : Text} :
    (utf8 (s ++ t))[byteSize s]? = some percent ↔ ∃ rest, t = '%' :: rest :=
  Text.getElem?_utf8_eq_some_iff (by decide)

/-! ## One escape -/

/-- A byte as it is written: `%` and its two digits. -/
structure Escape where
  byte : UInt8
  high : Char
  low : Char
  isHexDigit_high : IsHexDigit high (byte.toNat / 16)
  isHexDigit_low : IsHexDigit low (byte.toNat % 16)

namespace Escape

/-- The characters of an escape. -/
def text (e : Escape) : Text :=
  ['%', e.high, e.low]

@[simp] theorem byteSize_text (e : Escape) : byteSize e.text = 3 := by
  have hpercent : '%'.utf8Size = 1 := by decide
  simp [text, hpercent, e.isHexDigit_high.utf8Size, e.isHexDigit_low.utf8Size]

theorem byteSize_flatMap_text (es : List Escape) : byteSize (es.flatMap text) = 3 * es.length := by
  induction es with
  | nil => rfl
  | cons e es ih =>
    rw [List.flatMap_cons, Text.byteSize_append, ih, byteSize_text, List.length_cons]
    omega

end Escape

/-- **A byte is read where its escape is written.** -/
theorem escaped?_eq_some_iff {s rest : Text} {b : UInt8} :
    escaped? (utf8 (s ++ '%' :: rest)) (byteSize s) = some b ↔
      ∃ e : Escape, e.byte = b ∧ e.text <+: '%' :: rest := by
  have hpercent : '%'.utf8Size = 1 := by decide
  have hhigh : ∀ {n}, (utf8 (s ++ '%' :: rest))[byteSize s + 1]?.bind hexValue? = some n ↔
      ∃ c after, rest = c :: after ∧ IsHexDigit c n := by
    intro n
    have h := @hexValue?_utf8_eq_some_iff (s ++ ['%']) rest n
    simpa [hpercent] using h
  have hlow : ∀ {c after n}, c.utf8Size = 1 → rest = c :: after →
      ((utf8 (s ++ '%' :: rest))[byteSize s + 2]?.bind hexValue? = some n ↔
        ∃ d more, after = d :: more ∧ IsHexDigit d n) := by
    rintro c after n hc rfl
    have h := @hexValue?_utf8_eq_some_iff (s ++ ['%', c]) after n
    simpa [hpercent, hc] using h
  constructor
  · intro h
    obtain ⟨high, hreadHigh, h⟩ := Option.bind_eq_some_iff.1 h
    obtain ⟨low, hreadLow, hb⟩ := Option.bind_eq_some_iff.1 h
    obtain ⟨c, after, hrest, hc⟩ := hhigh.1 hreadHigh
    obtain ⟨d, more, rfl, hd⟩ := (hlow hc.utf8Size hrest).1 hreadLow
    obtain ⟨hlt, hlt'⟩ := And.intro hc.1 hd.1
    have hbyte : b.toNat = high * 16 + low := by
      rw [← Option.some.inj hb, UInt8.toNat_ofNat', Nat.mod_eq_of_lt (by omega)]
    have hdiv : b.toNat / 16 = high := by omega
    have hmod : b.toNat % 16 = low := by omega
    exact ⟨⟨b, c, d, hdiv ▸ hc, hmod ▸ hd⟩, rfl, more, by rw [hrest]; rfl⟩
  · rintro ⟨⟨b, c, d, hc, hd⟩, rfl, more, h⟩
    have hrest : rest = c :: d :: more := (List.cons.inj h).2.symm
    unfold escaped?
    rw [hhigh.2 ⟨c, _, hrest, hc⟩, (hlow hc.utf8Size hrest).2 ⟨d, more, rfl, hd⟩]
    change some (UInt8.ofNat (b.toNat / 16 * 16 + b.toNat % 16)) = some b
    rw [Nat.div_add_mod', UInt8.ofNat_toNat]

/-! ## Groups -/

section
variable {more last : Nat} {s t rest : Text} {written : List UInt8} {g : Group}

/-- Where an escape is written, it is read, and the others are read behind it. -/
theorem extend_succ (hlast : byteSize s = last + 3) (e : Escape) (after : Text) :
    Group.extend (utf8 (s ++ (e.text ++ after))) (more + 1) ⟨written, last⟩ =
      Group.extend (utf8 ((s ++ e.text) ++ after)) more ⟨written ++ [e.byte], last + 3⟩ := by
  have hpercent : (utf8 (s ++ (e.text ++ after)))[last + 3]? = some percent := by
    rw [← hlast]
    exact getElem?_utf8_eq_percent_iff.2 ⟨_, rfl⟩
  have hbyte : escaped? (utf8 (s ++ (e.text ++ after))) (last + 3) = some e.byte := by
    rw [← hlast]
    exact escaped?_eq_some_iff.2 ⟨e, rfl, List.prefix_append _ _⟩
  rw [Group.extend]
  dsimp only
  rw [if_pos hpercent, hbyte, List.append_assoc]

theorem exists_escape_of_extend (hlast : byteSize s = last + 3)
    (h : Group.extend (utf8 (s ++ t)) (more + 1) ⟨written, last⟩ = .ok g) :
    ∃ (e : Escape) (after : Text), t = e.text ++ after := by
  unfold Group.extend at h
  dsimp only at h
  split at h
  · next hpercent =>
    rw [← hlast] at hpercent h
    obtain ⟨rest, rfl⟩ := getElem?_utf8_eq_percent_iff.1 hpercent
    split at h
    · next b hb =>
      obtain ⟨e, -, after, hafter⟩ := escaped?_eq_some_iff.1 hb
      exact ⟨e, after, hafter.symm⟩
    · exact absurd h (by simp)
  · exact absurd h (by simp)

/-- The escapes behind the first one are read where they are written, as many as are asked for. -/
theorem extend_eq_ok_iff (hlast : byteSize s = last + 3) :
    Group.extend (utf8 (s ++ t)) more ⟨written, last⟩ = .ok g ↔
      ∃ es : List Escape, es.length = more ∧ es.flatMap Escape.text <+: t ∧
        g = ⟨written ++ es.map Escape.byte, last + 3 * more⟩ := by
  induction more generalizing s t written last with
  | zero =>
    constructor
    · intro h
      obtain rfl := Except.ok.inj h
      exact ⟨[], rfl, List.nil_prefix, by simp⟩
    · rintro ⟨es, hes, -, rfl⟩
      obtain rfl := List.eq_nil_of_length_eq_zero hes
      simp [Group.extend]
  | succ more ih =>
    have hplace : ∀ e : Escape, byteSize (s ++ e.text) = last + 3 + 3 := by
      intro e
      rw [Text.byteSize_append, hlast, Escape.byteSize_text]
    have hgroup : ∀ (e : Escape) (es : List Escape),
        (⟨written ++ [e.byte] ++ es.map Escape.byte, last + 3 + 3 * more⟩ : Group) =
          ⟨written ++ (e :: es).map Escape.byte, last + 3 * (more + 1)⟩ := by
      intro e es
      rw [List.append_assoc, Group.mk.injEq]
      exact ⟨rfl, by omega⟩
    constructor
    · intro h
      obtain ⟨e, after, rfl⟩ := exists_escape_of_extend hlast h
      rw [extend_succ hlast, ih (hplace e)] at h
      obtain ⟨es, hes, hprefix, rfl⟩ := h
      exact ⟨e :: es, by rw [List.length_cons, hes],
        (List.prefix_append_right_inj _).2 hprefix, hgroup e es⟩
    · rintro ⟨es, hes, ⟨after, rfl⟩, rfl⟩
      cases es with
      | nil => exact absurd hes (by simp)
      | cons e es =>
        rw [List.flatMap_cons, List.append_assoc, extend_succ hlast, ih (hplace e)]
        exact ⟨es, Nat.succ.inj hes, List.prefix_append _ _, (hgroup e es).symm⟩

/-- **A group is read where it is written**, with as many escapes as its first byte announces. -/
theorem read_eq_ok_iff :
    Group.read (utf8 (s ++ '%' :: rest)) (byteSize s) = .ok g ↔
      ∃ (e : Escape) (es : List Escape), Text.width? e.byte = some (es.length + 1) ∧
        (e :: es).flatMap Escape.text <+: '%' :: rest ∧
        g = ⟨(e :: es).map Escape.byte, byteSize s + 3 * es.length⟩ := by
  have hextend : ∀ (e : Escape) (after : Text), e.text ++ after = '%' :: rest → ∀ more,
      Group.extend (utf8 (s ++ '%' :: rest)) more ⟨[e.byte], byteSize s⟩ = .ok g ↔
        ∃ es : List Escape, es.length = more ∧ es.flatMap Escape.text <+: after ∧
          g = ⟨(e :: es).map Escape.byte, byteSize s + 3 * more⟩ := by
    intro e after hafter more
    rw [← hafter, ← List.append_assoc, extend_eq_ok_iff (by simp)]
    rfl
  constructor
  · intro h
    unfold Group.read at h
    split at h
    · exact absurd h (by simp)
    · next b hb =>
      obtain ⟨e, rfl, after, hafter⟩ := escaped?_eq_some_iff.1 hb
      split at h
      · exact absurd h (by simp)
      · next width hwidth =>
        obtain ⟨es, hes, hprefix, rfl⟩ := (hextend e after hafter _).1 h
        have hpos := (Text.width?_bounds hwidth).1
        refine ⟨e, es, ?_, ?_, by rw [hes]⟩
        · rw [hwidth, hes, Nat.sub_add_cancel hpos]
        · rw [← hafter]
          exact (List.prefix_append_right_inj _).2 hprefix
  · rintro ⟨e, es, hwidth, ⟨after, hafter⟩, rfl⟩
    rw [List.flatMap_cons, List.append_assoc] at hafter
    have hb : escaped? (utf8 (s ++ '%' :: rest)) (byteSize s) = some e.byte :=
      escaped?_eq_some_iff.2 ⟨e, rfl, _, hafter⟩
    unfold Group.read
    rw [hb]
    dsimp only
    rw [hwidth]
    exact (hextend e _ hafter _).2 ⟨es, rfl, List.prefix_append _ _, rfl⟩

end

end Recast.Uri

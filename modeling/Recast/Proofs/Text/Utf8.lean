/-
  Recast texts — the bytes of a text.

  * `getElem?_utf8_append`, `extract_utf8`: where the bytes of a part of a text are;
  * `utf8EncodeChar_eq_of_mem`: a byte below 128 is a character of its own, never a part of another one;
  * `width?_of_utf8EncodeChar`: the first byte of a character announces how many bytes it has.
-/
import Mathlib.Data.List.Basic
import Recast.Text.Utf8

namespace Recast.Text

/-! ## Places -/

theorem byteSize_eq_length (s : Text) :
    byteSize s = (s.flatMap String.utf8EncodeChar).length := by
  induction s with
  | nil => rfl
  | cons c s ih =>
    rw [List.flatMap_cons, List.length_append, String.length_utf8EncodeChar, ← ih]
    rfl

@[simp] theorem byteSize_nil : byteSize [] = 0 :=
  rfl

@[simp] theorem byteSize_cons (c : Char) (s : Text) :
    byteSize (c :: s) = c.utf8Size + byteSize s :=
  rfl

@[simp] theorem byteSize_append (s t : Text) : byteSize (s ++ t) = byteSize s + byteSize t := by
  simp [byteSize_eq_length]

theorem utf8_append (s t : Text) : utf8 (s ++ t) = utf8 s ++ utf8 t := by
  unfold utf8
  rw [List.flatMap_append, List.toByteArray_append]

@[simp] theorem size_utf8 (s : Text) : (utf8 s).size = byteSize s := by
  rw [utf8, List.size_toByteArray, byteSize_eq_length]

theorem getElem?_utf8 (s : Text) (i : Nat) :
    (utf8 s)[i]? = (s.flatMap String.utf8EncodeChar)[i]? := by
  by_cases h : i < (utf8 s).size
  · rw [getElem?_pos (utf8 s) i h]
    have hi : i < (s.flatMap String.utf8EncodeChar).length := by
      rwa [← byteSize_eq_length, ← size_utf8]
    rw [List.getElem?_eq_getElem hi]
    exact congrArg some List.getElem_toByteArray
  · rw [getElem?_neg (utf8 s) i h, List.getElem?_eq_none]
    rwa [← byteSize_eq_length, ← size_utf8, ← Nat.not_lt]

/-- Behind a text, the bytes are those of what follows it. -/
theorem getElem?_utf8_append (s t : Text) (i : Nat) :
    (utf8 (s ++ t))[byteSize s + i]? = (utf8 t)[i]? := by
  rw [getElem?_utf8, getElem?_utf8, List.flatMap_append, byteSize_eq_length,
    List.getElem?_append_right (Nat.le_add_right _ _), Nat.add_sub_cancel_left]

/-- The bytes between two places are those of the text between them. -/
theorem extract_utf8 (s t rest : Text) :
    (utf8 (s ++ (t ++ rest))).extract (byteSize s) (byteSize s + byteSize t) = utf8 t := by
  have hbehind := ByteArray.extract_append_size_add' (a := utf8 s) (b := utf8 (t ++ rest))
    (i := 0) (j := byteSize t) (size_utf8 s).symm
  rw [Nat.add_zero] at hbehind
  rw [utf8_append, hbehind, utf8_append]
  exact ByteArray.extract_append_eq_left (size_utf8 t).symm

/-! ## Characters -/

theorem utf8EncodeChar_injective : Function.Injective String.utf8EncodeChar := by
  intro c d h
  have hc : ofUtf8? (String.utf8EncodeChar d) = some c := ofUtf8?_eq_some_iff.2 h.symm
  exact Option.some_inj.1 (hc.symm.trans (ofUtf8?_eq_some_iff.2 rfl))

/-- A byte below 128 is the UTF-8 form of one character, and in no other. -/
theorem utf8EncodeChar_eq_of_mem {c : Char} {b : UInt8} (h : b ∈ String.utf8EncodeChar c)
    (hb : b.toNat < 128) : String.utf8EncodeChar c = [b] := by
  unfold String.utf8EncodeChar at h ⊢
  simp only at h ⊢
  split_ifs at h ⊢ with h1 h2 h3
  · rw [List.mem_singleton.1 h]
  all_goals
    -- the bytes of a longer form have their highest bit set
    exfalso
    simp only [List.mem_cons, List.not_mem_nil, or_false, ← UInt8.toNat_inj,
      UInt8.toNat_ofNat'] at h
    omega

theorem utf8EncodeChar_ofNat {b : UInt8} (hb : b.toNat < 128) :
    String.utf8EncodeChar (Char.ofNat b.toNat) = [b] := by
  have hval : (Char.ofNat b.toNat).val.toNat = b.toNat := by
    rw [Char.ofNat, dif_pos (.inl (by omega))]
    rfl
  unfold String.utf8EncodeChar
  simp only [hval]
  rw [if_pos (by omega), UInt8.ofNat_toNat]

/-- A byte below 128 at a character boundary is a character. -/
theorem getElem?_utf8_eq_some_iff {s t : Text} {b : UInt8} (hb : b.toNat < 128) :
    (utf8 (s ++ t))[byteSize s]? = some b ↔ ∃ rest, t = Char.ofNat b.toNat :: rest := by
  have hplace := getElem?_utf8_append s t 0
  rw [Nat.add_zero] at hplace
  rw [hplace, getElem?_utf8]
  constructor
  · intro h
    cases t with
    | nil => exact absurd h (by simp)
    | cons c rest =>
      have hmem : b ∈ String.utf8EncodeChar c := by
        rw [List.flatMap_cons, List.getElem?_append_left (by simp [Char.utf8Size_pos])] at h
        exact List.mem_of_getElem? h
      have hform := utf8EncodeChar_eq_of_mem hmem hb
      rw [← utf8EncodeChar_ofNat hb] at hform
      exact ⟨rest, congrArg (· :: rest) (utf8EncodeChar_injective hform)⟩
  · rintro ⟨rest, rfl⟩
    rw [List.flatMap_cons, utf8EncodeChar_ofNat hb]
    rfl

/-- A byte announces from one to four bytes, or nothing. -/
theorem width?_bounds {lead : UInt8} {width : Nat} (h : width? lead = some width) :
    0 < width ∧ width ≤ 4 := by
  unfold width? at h
  split_ifs at h <;> obtain rfl := Option.some.inj h <;> decide

/-- The first byte of a character announces the number of its bytes. -/
theorem width?_of_utf8EncodeChar {c : Char} {lead : UInt8} {more : List UInt8}
    (h : String.utf8EncodeChar c = lead :: more) : width? lead = some (more.length + 1) := by
  have hwidth : width? lead =
      if lead.toNat < 128 then some 1
      else if lead.toNat < 192 then none
      else if lead.toNat < 224 then some 2
      else if lead.toNat < 240 then some 3
      else if lead.toNat < 248 then some 4
      else none := by
    simp only [width?, UInt8.lt_iff_toNat_lt]
    rfl
  rw [hwidth]
  unfold String.utf8EncodeChar at h
  simp only at h
  split_ifs at h <;> obtain ⟨rfl, rfl⟩ := List.cons.inj h <;>
    simp only [UInt8.toNat_ofNat', List.length_cons, List.length_nil]
  · rw [if_pos (by omega)]
  · rw [if_neg (by omega), if_neg (by omega), if_pos (by omega)]
  · rw [if_neg (by omega), if_neg (by omega), if_neg (by omega), if_pos (by omega)]
  · rw [if_neg (by omega), if_neg (by omega), if_neg (by omega), if_neg (by omega),
      if_pos (by omega)]

end Recast.Text

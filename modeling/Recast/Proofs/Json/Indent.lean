/-
  Recast JSON — what asks for an indent.

  The width of an indent is read into a word, digit by digit.  Digits that spell no word ask for the
  widest indent, which is what they would be clamped to if words had no bound.

  * `wordOfDigits?_eq`: digits spell a word if and only if their number fits into one;
  * `clamp_word?`: whether it fits makes no difference to what it is clamped to;
  * `Indent.ofText?_cases`: a text is `t`, or digits with white space around them, or neither;
  * `Indent.ofText?_exact`: the texts that ask for a tab, for a number of spaces and for neither.
-/
import Recast.Proofs.Json.Layout
import Recast.Proofs.Text.Trim

namespace Recast.Json

/-! ## Words -/

theorem word?_eq_some_iff {n : Nat} {word : UInt64} : word? n = some word ↔ word.toNat = n := by
  have hbound : wordBound = 2 ^ 64 := rfl
  unfold word?
  constructor
  · intro h
    split_ifs at h with hn
    rw [← Option.some.inj h, UInt64.toNat_ofNat', Nat.mod_eq_of_lt (hbound ▸ hn)]
  · rintro rfl
    rw [if_pos (hbound ▸ word.toNat_lt), UInt64.ofNat_toNat]

theorem word?_eq_none_iff {n : Nat} : word? n = none ↔ 2 ^ 64 ≤ n := by
  have hbound : wordBound = 2 ^ 64 := rfl
  simp [word?, hbound]

/-- A digit is put behind a word if and only if the longer number fits. -/
theorem bind_pushDigit? (n : Nat) (c : Char) :
    (word? n).bind (pushDigit? · c) = word? (n * 10 + digitValue c) := by
  -- a number that does not fit has no longer one that does
  have hgrows : ∀ m, m ≤ n * 10 + digitValue c → word? m = none →
      word? (n * 10 + digitValue c) = none := fun m hm h =>
    word?_eq_none_iff.2 (Nat.le_trans (word?_eq_none_iff.1 h) hm)
  cases hn : word? n with
  | none => exact (hgrows n (by omega) hn).symm
  | some word =>
    rw [Option.bind_some, pushDigit?, word?_eq_some_iff.1 hn]
    cases hshifted : word? (n * 10) with
    | none => exact (hgrows (n * 10) (by omega) hshifted).symm
    | some shifted => exact congrArg (fun m => word? (m + digitValue c)) (word?_eq_some_iff.1 hshifted)

/-- **Digits spell a word if and only if their number fits into one.** -/
theorem wordOfDigits?_eq (digits : Text) : wordOfDigits? digits = word? (digitsValue digits) := by
  induction digits using List.reverseRecOn with
  | nil => rfl
  | append_singleton digits c ih =>
    have hvalue : digitsValue (digits ++ [c]) = digitsValue digits * 10 + digitValue c := by
      simp [digitsValue]
    rw [hvalue, ← bind_pushDigit?, ← ih, wordOfDigits?, List.foldlM_append]
    simp [wordOfDigits?]

/-- A number that fits into no word is clamped to what stands for it. -/
theorem clamp_word? (n : Nat) :
    min (((word? n).map UInt64.toNat).getD mostSpaces) mostSpaces = min n mostSpaces := by
  cases h : word? n with
  | none =>
    have hlarge := word?_eq_none_iff.1 h
    have hmost : mostSpaces = 10 := rfl
    simp only [Option.map_none, Option.getD_none]
    omega
  | some word => rw [Option.map_some, Option.getD_some, word?_eq_some_iff.1 h]

/-! ## Indents -/

namespace Indent

open Text (Pads)

theorem trim_of_isDigits {digits s : Text} (h : IsDigits digits) (hpads : Pads digits s) :
    Text.trim s = digits := by
  have hblank : ∀ c ∈ digits, Letter.isBlank c = false := fun c hc =>
    (isPlain_of_isAtomChar (NumberLiteral.isAtomChar_of_isDigit (h.isDigit c hc))).isBlank
  exact Text.trim_eq_of_pads hpads h.ne_nil (fun c hc => hblank c (List.mem_of_mem_head? hc))
    fun c hc => hblank c (List.mem_of_mem_getLast? hc)

theorem isDigits_iff {s : Text} : IsDigits s ↔ (s.isEmpty || !s.all Char.isDigit) = false := by
  constructor
  · rintro ⟨hne, hdigits⟩
    simpa [hne] using hdigits
  · intro h
    simp only [Bool.or_eq_false_iff, Bool.not_eq_false', List.all_eq_true] at h
    exact ⟨by simpa using h.1, h.2⟩

/-- Digits with white space around them ask for their number of spaces, or for as many as there may
    be. -/
theorem ofText?_of_isDigits {digits s : Text} (h : IsDigits digits) (hpads : Pads digits s) :
    ofText? s = some (.spaces (min (digitsValue digits) mostSpaces)) := by
  have htrim := trim_of_isDigits h hpads
  have htab : s ≠ ['t'] := by
    rintro rfl
    exact absurd (h.isDigit 't' (htrim ▸ List.mem_singleton_self _)) (by decide)
  simp only [ofText?, if_neg htab, htrim, isDigits_iff.1 h, wordOfDigits?_eq, clamp_word?,
    Bool.false_eq_true, if_false]

theorem ofText?_of_other {s : Text} (htab : s ≠ ['t'])
    (h : ¬ ∃ digits, IsDigits digits ∧ Pads digits s) : ofText? s = none := by
  have htrim : ¬ IsDigits (Text.trim s) := fun hdigits => h ⟨_, hdigits, Text.pads_trim s⟩
  rw [isDigits_iff, Bool.not_eq_false] at htrim
  simp only [ofText?, if_neg htab, htrim, if_true]

/-- A text is `t`, or digits with white space around them, or asks for nothing. -/
theorem ofText?_cases (s : Text) :
    (s = ['t'] ∧ ofText? s = some .tab) ∨
    (∃ digits, IsDigits digits ∧ Pads digits s ∧
      ofText? s = some (.spaces (min (digitsValue digits) mostSpaces))) ∨
    (s ≠ ['t'] ∧ (¬ ∃ digits, IsDigits digits ∧ Pads digits s) ∧ ofText? s = none) := by
  by_cases htab : s = ['t']
  · exact .inl ⟨htab, by rw [ofText?, if_pos htab]⟩
  · by_cases h : ∃ digits, IsDigits digits ∧ Pads digits s
    · obtain ⟨digits, hdigits, hpads⟩ := h
      exact .inr (.inl ⟨digits, hdigits, hpads, ofText?_of_isDigits hdigits hpads⟩)
    · exact .inr (.inr ⟨htab, h, ofText?_of_other htab h⟩)

theorem ofText?_eq_tab_iff {s : Text} : ofText? s = some .tab ↔ s = ['t'] := by
  constructor
  · intro h
    rcases ofText?_cases s with ⟨hs, -⟩ | ⟨digits, -, -, hs⟩ | ⟨-, -, hs⟩
    · exact hs
    · exact absurd (hs.symm.trans h) (by simp)
    · exact absurd (hs.symm.trans h) (by simp)
  · rintro rfl
    rfl

theorem ofText?_eq_spaces_iff {s : Text} {count : Nat} :
    ofText? s = some (.spaces count) ↔
      ∃ digits, IsDigits digits ∧ Pads digits s ∧ count = min (digitsValue digits) mostSpaces := by
  constructor
  · intro h
    rcases ofText?_cases s with ⟨-, hs⟩ | ⟨digits, hdigits, hpads, hs⟩ | ⟨-, -, hs⟩
    · exact absurd (hs.symm.trans h) (by simp)
    · exact ⟨digits, hdigits, hpads, by simpa using h.symm.trans hs⟩
    · exact absurd (hs.symm.trans h) (by simp)
  · rintro ⟨digits, hdigits, hpads, rfl⟩
    exact ofText?_of_isDigits hdigits hpads

theorem ofText?_eq_none_iff {s : Text} :
    ofText? s = none ↔ s ≠ ['t'] ∧ ¬ ∃ digits, IsDigits digits ∧ Pads digits s := by
  refine ⟨fun h => ?_, fun h => ofText?_of_other h.1 h.2⟩
  rcases ofText?_cases s with ⟨-, hs⟩ | ⟨digits, -, -, hs⟩ | ⟨htab, hdigits, -⟩
  · exact absurd (hs.symm.trans h) (by simp)
  · exact absurd (hs.symm.trans h) (by simp)
  · exact ⟨htab, hdigits⟩

/-- An indent is invalid before the document is looked at. -/
theorem reformat_eq_invalidIndent_iff {s document asked : Text} :
    reformat s document = .error (.invalidIndent asked) ↔ asked = s ∧ ofText? s = none := by
  unfold reformat
  cases ofText? s with
  | none => simp [eq_comm]
  | some indent => cases Value.ofText? document <;> simp

/-- **What asks for an indent, exactly.**  A tab is asked for by `t` and nothing else; spaces by digits
    with white space around them, as many as the digits say, whatever their number, but at most ten.
    Every other text is an invalid indent, as it stands and whatever the document.  Digits are no word
    if and only if their number does not fit into 64 bits, and what stands for the number then is
    clamped to the same. -/
theorem ofText?_exact (s : Text) :
    (ofText? s = some .tab ↔ s = ['t']) ∧
    (∀ count, ofText? s = some (.spaces count) ↔
      ∃ digits, IsDigits digits ∧ Pads digits s ∧ count = min (digitsValue digits) 10) ∧
    (∀ document asked, reformat s document = .error (.invalidIndent asked) ↔
      asked = s ∧ s ≠ ['t'] ∧ ¬ ∃ digits, IsDigits digits ∧ Pads digits s) ∧
    ∀ digits, (wordOfDigits? digits = none ↔ 2 ^ 64 ≤ digitsValue digits) ∧
      min (((wordOfDigits? digits).map UInt64.toNat).getD mostSpaces) mostSpaces =
        min (digitsValue digits) mostSpaces := by
  refine ⟨ofText?_eq_tab_iff, fun count => ofText?_eq_spaces_iff, fun document asked => ?_,
    fun digits => ?_⟩
  · rw [reformat_eq_invalidIndent_iff, ofText?_eq_none_iff]
  · rw [wordOfDigits?_eq]
    exact ⟨word?_eq_none_iff, clamp_word? _⟩

/-- Leading zeros, and the least number that fits into no word, between a tab and a wide space. -/
example : ofText? "\t0000000000000000000018446744073709551616\u3000".toList = some (.spaces 10) ∧
    ofText? "0000000000000000000000000000007".toList = some (.spaces 7) := by
  decide

end Indent

end Recast.Json

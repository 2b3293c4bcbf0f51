/-
  Recast letters — the case of word characters.

  Casing stays inside words, although the capital of `ß` is two letters.

  * `wordChars` lists the word characters;
  * `exists_lower_eq`: in lower case a word character is one word character, with the same capital;
  * `exists_upper_eq`: in upper case it is word characters that are capitals.
-/
import Recast.Proofs.Letter.Ascii
import Recast.Text.Words

namespace Recast.Letter

/-- The word characters. -/
def wordChars : List Char :=
  ((List.range 128).map Char.ofNat).filter Char.isAlphanum ++ latinSpellings.map Prod.fst

theorem mem_wordChars {c : Char} (h : isWordChar c = true) : c ∈ wordChars := by
  rcases Bool.or_eq_true_iff.1 h with hascii | hlatin
  · have hmem : c ∈ (List.range 128).map Char.ofNat :=
      List.mem_map.2 ⟨c.toNat, List.mem_range.2 (toNat_lt_of_isAlphanum hascii), c.ofNat_toNat⟩
    exact List.mem_append_left _ (List.mem_filter.2 ⟨hmem, hascii⟩)
  · rw [latin?, Option.isSome_map] at hlatin
    obtain ⟨spelling, hfound⟩ := Option.isSome_iff_exists.1 hlatin
    exact List.mem_append_right _ (List.mem_map.2 ⟨_, mem_of_lookup_eq_some hfound, rfl⟩)

theorem exists_lower_eq {c : Char} (h : isWordChar c = true) :
    ∃ d, lower c = [d] ∧ isWordChar d = true ∧ lower d = [d] ∧ upper d = upper c := by
  -- with `∀ c ∈ wordChars` instead, every character there is would be tried
  have hall : wordChars.all fun c => (lower c).length = 1 &&
      (lower c).all fun d => isWordChar d && lower d = [d] && upper d = upper c := by decide +kernel
  have hc := List.all_eq_true.1 hall c (mem_wordChars h)
  obtain ⟨hlength, hmem⟩ := Bool.and_eq_true_iff.1 hc
  obtain ⟨d, hd⟩ := List.length_eq_one_iff.1 (of_decide_eq_true hlength)
  have hsmall := List.all_eq_true.1 hmem d (by simp [hd])
  simp only [Bool.and_eq_true, decide_eq_true_eq, and_assoc] at hsmall
  exact ⟨d, hd, hsmall⟩

theorem exists_upper_eq {c : Char} (h : isWordChar c = true) :
    ∃ d more, upper c = d :: more ∧ ∀ e ∈ upper c, isWordChar e = true ∧ upper e = [e] := by
  have hall : wordChars.all fun c => upper c ≠ [] &&
      (upper c).all fun e => isWordChar e && upper e = [e] := by decide +kernel
  have hc := List.all_eq_true.1 hall c (mem_wordChars h)
  obtain ⟨hne, hmem⟩ := Bool.and_eq_true_iff.1 hc
  obtain ⟨d, more, hcons⟩ := List.exists_cons_of_ne_nil (of_decide_eq_true hne)
  simp only [List.all_eq_true, Bool.and_eq_true, decide_eq_true_eq] at hmem
  exact ⟨d, more, hcons, hmem⟩

end Recast.Letter

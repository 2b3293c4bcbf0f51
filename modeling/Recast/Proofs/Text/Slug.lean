/-
  Recast texts — slugs.

  A slug is made of Latin words.  It does not matter whether a text is spelled in Latin before it falls
  into words or after, although a letter may be spelled by several or by none.

  * `words_transliterate`: the words of the Latin spelling are the Latin spellings of the words, but
    for those that vanish;
  * `slugify_eq_and_stable`: what a slug is, and that it is the slug of itself.
-/
import Recast.Proofs.Text.Words

namespace Recast.Text

open Letter (isWordChar latin?)

/-! ## Latin spellings -/

theorem latin?_of_not_isWordChar {c : Char} (h : isWordChar c = false) : latin? c = none := by
  simpa using (Bool.or_eq_false_iff.1 h).2

theorem isWordChar_of_isAlphanum {c : Char} (h : c.isAlphanum = true) : isWordChar c = true := by
  simp [isWordChar, h]

/-- Word characters are spelled by ASCII letters and digits. -/
theorem isAlphanum_of_mem_transliterate {s : Text} (h : ∀ c ∈ s, isWordChar c = true) {d : Char}
    (hd : d ∈ transliterate s) : d.isAlphanum = true := by
  obtain ⟨c, hc, hd⟩ := List.mem_flatMap.1 hd
  cases hlatin : latin? c with
  | some spelling =>
    rw [hlatin] at hd
    exact Letter.isAlphanum_of_latin? hlatin hd
  | none =>
    rw [hlatin] at hd
    obtain rfl := List.mem_singleton.1 hd
    simpa [isWordChar, hlatin] using h d hc

/-- A cut stays where it is. -/
theorem transliterate_append_cons {c : Char} (hc : isWordChar c = false) (s t : Text) :
    transliterate (s ++ c :: t) = transliterate s ++ c :: transliterate t := by
  simp [transliterate, latin?_of_not_isWordChar hc]

/-- What has no Latin spelling stays as it is. -/
theorem transliterate_eq_self {s : Text} (h : ∀ c ∈ s, latin? c = none) : transliterate s = s :=
  flatMap_eq_self fun c hc => by rw [h c hc, Option.getD_none]

/-- The Latin spellings of the words of a text, without those that are empty. -/
def latinWords (s : Text) : List Text :=
  ((words s).map transliterate).filter fun word => !word.isEmpty

/-- **Words may be spelled in Latin before they are told apart, or after.** -/
theorem words_transliterate (s : Text) : words (transliterate s) = latinWords s := by
  induction s using cutInduction with
  | word s hs =>
    have hlatin : ∀ d ∈ transliterate s, isWordChar d = true := fun d hd =>
      isWordChar_of_isAlphanum (isAlphanum_of_mem_transliterate hs hd)
    rw [latinWords, words_of_isWordChar hlatin, words_of_isWordChar hs]
    cases s with
    | nil => rfl
    | cons c s => simp
  | cut before c after hc ihb iha =>
    rw [transliterate_append_cons hc, words_append_cons hc, ihb, iha]
    simp [latinWords, words_append_cons hc]

theorem latinWords_spec {s word : Text} (h : word ∈ latinWords s) :
    word ≠ [] ∧ ∀ c ∈ word, c.isAlphanum = true := by
  obtain ⟨hmem, hne⟩ := List.mem_filter.1 h
  obtain ⟨before, hbefore, rfl⟩ := List.mem_map.1 hmem
  exact ⟨by simpa using hne, fun c hc =>
    isAlphanum_of_mem_transliterate (isWord_of_mem_words hbefore).isWordChar hc⟩

/-! ## Slugs -/

section
variable {joiner : Text} (hjoiner : ∀ c ∈ joiner, isWordChar c = false) {parts : List Text}
  (hparts : ∀ part ∈ parts, part ≠ [] ∧ ∀ c ∈ part, c.isAlphanum = true)

include hparts in
theorem isWord_of_latin {part : Text} (hpart : part ∈ parts) : IsWord part :=
  ⟨(hparts part hpart).1, fun c hc => isWordChar_of_isAlphanum ((hparts part hpart).2 c hc)⟩

include hjoiner hparts

/-- A text of Latin words and joiners is the slug of itself. -/
theorem slugify_intercalate :
    slugify joiner (joiner.intercalate parts) = joiner.intercalate parts := by
  have hlatin : ∀ c ∈ joiner.intercalate parts, latin? c = none := by
    intro c hc
    rcases mem_intercalate hc with hc | ⟨part, hpart, hc⟩
    · exact latin?_of_not_isWordChar (hjoiner c hc)
    · exact Letter.latin?_of_isAlphanum ((hparts part hpart).2 c hc)
  rw [slugify, transliterate_eq_self hlatin]
  by_cases hne : joiner = []
  · -- without a joiner, all that is left is one word
    subst hne
    have hone : ∀ c ∈ ([] : Text).intercalate parts, isWordChar c = true := by
      intro c hc
      rcases mem_intercalate hc with hc | ⟨part, hpart, hc⟩
      · exact absurd hc List.not_mem_nil
      · exact (isWord_of_latin hparts hpart).isWordChar c hc
    rw [words_of_isWordChar hone]
    cases ([] : Text).intercalate parts <;> simp
  · rw [words_intercalate hjoiner hne fun part => isWord_of_latin hparts]

/-- A joiner is at no end. -/
theorem not_prefix_and_not_suffix_intercalate (hne : joiner ≠ []) :
    ¬ joiner <+: joiner.intercalate parts ∧ ¬ joiner <:+ joiner.intercalate parts := by
  by_cases hnone : parts = []
  · subst hnone
    simp [hne]
  · obtain ⟨first, last, hfirst, hlast, hfirst', hlast'⟩ :=
      exists_ends_intercalate joiner (fun part => isWord_of_latin hparts) hnone
    constructor
    · rintro ⟨rest, hrest⟩
      rw [← hrest, List.head?_append, List.head?_eq_some_head hne, Option.some_or] at hfirst
      obtain rfl := Option.some.inj hfirst
      exact absurd hfirst' (by simp [hjoiner _ (List.head_mem hne)])
    · rintro ⟨rest, hrest⟩
      rw [← hrest, List.getLast?_append, List.getLast?_eq_some_getLast hne, Option.some_or] at hlast
      obtain rfl := Option.some.inj hlast
      exact absurd hlast' (by simp [hjoiner _ (List.getLast_mem hne)])

end

/-- **What a slug is.**  It is the Latin spellings of the words of the text, without those that are
    empty, joined.  If no character of the joiner belongs to words, then all else in a slug is ASCII
    letters and digits, no joiner is at its beginning or end, and it is the slug of itself. -/
theorem slugify_eq_and_stable (joiner s : Text) :
    slugify joiner s = joiner.intercalate (latinWords s) ∧
    (∀ word ∈ latinWords s, word ≠ [] ∧ ∀ c ∈ word, c.isAlphanum = true) ∧
    ((∀ c ∈ joiner, isWordChar c = false) →
      (joiner ≠ [] → ¬ joiner <+: slugify joiner s ∧ ¬ joiner <:+ slugify joiner s) ∧
      slugify joiner (slugify joiner s) = slugify joiner s) := by
  have hslug : slugify joiner s = joiner.intercalate (latinWords s) := by
    rw [slugify, words_transliterate]
  refine ⟨hslug, fun word => latinWords_spec, fun hjoiner => ?_⟩
  rw [hslug]
  exact ⟨not_prefix_and_not_suffix_intercalate hjoiner fun word => latinWords_spec,
    slugify_intercalate hjoiner fun word => latinWords_spec⟩

/-- Two words vanish, and one letter is spelled by three. -/
theorem slugify_eq_and_stable_vanishing :
    let joiner := " /".toList
    let slug := "esche /Strasse /obem /5".toList
    (∀ c ∈ joiner, isWordChar c = false) ∧
      slugify joiner "  Ъ ещё-ь Straße, объём 5%".toList = slug ∧
      ¬ joiner <+: slug ∧ ¬ joiner <:+ slug ∧ slugify joiner slug = slug := by
  intro joiner slug
  have hall : joiner.all fun c => !isWordChar c := by decide
  have hjoiner : ∀ c ∈ joiner, isWordChar c = false := by simpa using hall
  have hslug : slugify joiner "  Ъ ещё-ь Straße, объём 5%".toList = slug := by decide +kernel
  obtain ⟨-, -, hstable⟩ := slugify_eq_and_stable joiner "  Ъ ещё-ь Straße, объём 5%".toList
  obtain ⟨hends, hslug'⟩ := hstable hjoiner
  rw [hslug] at hends hslug'
  obtain ⟨hfirst, hlast⟩ := hends (by decide)
  exact ⟨hjoiner, hslug, hfirst, hlast, hslug'⟩

end Recast.Text

/-
  Recast texts — identifiers.

  An identifier is spelled from the words of a text, and spelling it again changes nothing: casing
  makes word characters of word characters, so an identifier has no cut that the words did not have.

  * `pascalCase_of_isWordChar`, `camelCase_of_isWordChar`: a single word is cased at its first letter;
  * `lowercase_eq_flatMap`: without a sigma, every character is cased by itself;
  * `snakeCase_eq`: the words of an identifier with underscores;
  * `identifiers_stable`: the three styles, one after the other.
-/
import Recast.Proofs.Letter.WordCase
import Recast.Proofs.Text.Words

namespace Recast.Text

open Letter (isWordChar lower upper exists_lower_eq exists_upper_eq)

/-! ## First letters -/

section
variable {word : Text} (hword : IsWord word) (rest : Text)
include hword

theorem upperFirst_upperFirst_append :
    upperFirst (upperFirst word ++ rest) = upperFirst word ++ rest := by
  obtain ⟨c, more, rfl⟩ := List.exists_cons_of_ne_nil hword.ne_nil
  obtain ⟨d, tail, hupper, hcapital⟩ := exists_upper_eq (hword.isWordChar c List.mem_cons_self)
  have hd : upper d = [d] := (hcapital d (by simp [hupper])).2
  simp [upperFirst, hupper, hd]

theorem lowerFirst_lowerFirst_append :
    lowerFirst (lowerFirst word ++ rest) = lowerFirst word ++ rest := by
  obtain ⟨c, more, rfl⟩ := List.exists_cons_of_ne_nil hword.ne_nil
  obtain ⟨d, hlower, -, hd, -⟩ := exists_lower_eq (hword.isWordChar c List.mem_cons_self)
  simp [lowerFirst, hlower, hd]

/-- A small letter has the capital of the letter it was made from. -/
theorem upperFirst_lowerFirst_append :
    upperFirst (lowerFirst word ++ rest) = upperFirst word ++ rest := by
  obtain ⟨c, more, rfl⟩ := List.exists_cons_of_ne_nil hword.ne_nil
  obtain ⟨d, hlower, -, -, hd⟩ := exists_lower_eq (hword.isWordChar c List.mem_cons_self)
  simp [upperFirst, lowerFirst, hlower, hd]

end

theorem isWordChar_of_mem_upperFirst {word : Text} (h : ∀ c ∈ word, isWordChar c = true) :
    ∀ c ∈ upperFirst word, isWordChar c = true := by
  cases word with
  | nil => exact h
  | cons c more =>
    obtain ⟨hc, hmore⟩ := List.forall_mem_cons.1 h
    obtain ⟨-, -, -, hcapital⟩ := exists_upper_eq hc
    exact List.forall_mem_append.2 ⟨fun d hd => (hcapital d hd).1, hmore⟩

theorem isWordChar_of_mem_lowerFirst {word : Text} (h : ∀ c ∈ word, isWordChar c = true) :
    ∀ c ∈ lowerFirst word, isWordChar c = true := by
  cases word with
  | nil => exact h
  | cons c more =>
    obtain ⟨hc, hmore⟩ := List.forall_mem_cons.1 h
    obtain ⟨d, hlower, hd, -, -⟩ := exists_lower_eq hc
    rw [lowerFirst, hlower]
    exact List.forall_mem_cons.2 ⟨hd, hmore⟩

/-! ## Capitals -/

theorem isWordChar_of_mem_pascalCase (s : Text) : ∀ c ∈ pascalCase s, isWordChar c = true := by
  intro c hc
  obtain ⟨word, hword, hc⟩ := List.mem_flatMap.1 hc
  exact isWordChar_of_mem_upperFirst (isWord_of_mem_words hword).isWordChar c hc

theorem isWordChar_of_mem_camelCase (s : Text) : ∀ c ∈ camelCase s, isWordChar c = true := by
  intro c hc
  unfold camelCase at hc
  cases hwords : words s with
  | nil => simp [hwords] at hc
  | cons word more =>
    have hall : ∀ other ∈ word :: more, IsWord other := fun other hother =>
      isWord_of_mem_words (hwords ▸ hother)
    rw [hwords] at hc
    rcases List.mem_append.1 hc with hc | hc
    · exact isWordChar_of_mem_lowerFirst (hall word List.mem_cons_self).isWordChar c hc
    · obtain ⟨other, hother, hc⟩ := List.mem_flatMap.1 hc
      exact isWordChar_of_mem_upperFirst
        (hall other (List.mem_cons_of_mem _ hother)).isWordChar c hc

theorem pascalCase_of_isWordChar {s : Text} (h : ∀ c ∈ s, isWordChar c = true) :
    pascalCase s = upperFirst s := by
  rw [pascalCase, words_of_isWordChar h]
  cases s with
  | nil => rfl
  | cons c s => simp

theorem camelCase_of_isWordChar {s : Text} (h : ∀ c ∈ s, isWordChar c = true) :
    camelCase s = lowerFirst s := by
  rw [camelCase, words_of_isWordChar h]
  cases s with
  | nil => rfl
  | cons c s => simp

/-- Spelling an identifier with capitals again changes its first letter at most. -/
theorem capitals_stable (s : Text) : pascalCase (pascalCase s) = pascalCase s ∧
    camelCase (camelCase s) = camelCase s ∧ pascalCase (camelCase s) = pascalCase s := by
  rw [pascalCase_of_isWordChar (isWordChar_of_mem_pascalCase s),
    camelCase_of_isWordChar (isWordChar_of_mem_camelCase s),
    pascalCase_of_isWordChar (isWordChar_of_mem_camelCase s)]
  unfold pascalCase camelCase
  cases hwords : words s with
  | nil => exact ⟨rfl, rfl, rfl⟩
  | cons word more =>
    have hword : IsWord word := isWord_of_mem_words (hwords ▸ List.mem_cons_self)
    exact ⟨upperFirst_upperFirst_append hword _, lowerFirst_lowerFirst_append hword _,
      upperFirst_lowerFirst_append hword _⟩

/-! ## Small letters -/

theorem lowercase_eq_flatMap {s : Text} (h : 'Σ' ∉ s) : lowercase s = s.flatMap lower := by
  have hafter : ∀ before, lowercaseAfter before s = s.flatMap lower := by
    induction s with
    | nil => exact fun _ => rfl
    | cons c s ih =>
      intro before
      have hc : c ≠ 'Σ' := fun hc => h (by simp [hc])
      have hs : 'Σ' ∉ s := fun hs => h (List.mem_cons_of_mem _ hs)
      rw [lowercaseAfter, lowerBetween, if_neg hc, ih hs, List.flatMap_cons]
  exact hafter []

section
variable {word : Text} (hword : IsWord word)
include hword

theorem notMem_of_isWord {c : Char} (hc : isWordChar c = false) : c ∉ word := fun hmem =>
  absurd ((hword.isWordChar c hmem).symm.trans hc) (by simp)

theorem lowercase_of_isWord : lowercase word = word.flatMap lower :=
  lowercase_eq_flatMap (notMem_of_isWord hword (by decide))

/-- In lower case, a word is word characters that stay as they are. -/
theorem mem_lowercase {d : Char} (hd : d ∈ lowercase word) :
    isWordChar d = true ∧ lower d = [d] := by
  rw [lowercase_of_isWord hword] at hd
  obtain ⟨c, hc, hd⟩ := List.mem_flatMap.1 hd
  obtain ⟨e, hlower, hchar, hsmall, -⟩ := exists_lower_eq (hword.isWordChar c hc)
  rw [hlower] at hd
  obtain rfl := List.mem_singleton.1 hd
  exact ⟨hchar, hsmall⟩

theorem isWord_lowercase : IsWord (lowercase word) := by
  refine ⟨?_, fun d hd => (mem_lowercase hword hd).1⟩
  obtain ⟨c, more, rfl⟩ := List.exists_cons_of_ne_nil hword.ne_nil
  obtain ⟨d, hlower, -⟩ := exists_lower_eq (hword.isWordChar c List.mem_cons_self)
  rw [lowercase_of_isWord hword]
  simp [hlower]

theorem lowercase_lowercase : lowercase (lowercase word) = lowercase word := by
  rw [lowercase_of_isWord (isWord_lowercase hword)]
  exact flatMap_eq_self fun d hd => (mem_lowercase hword hd).2

end

theorem isWord_of_mem_map_lowercase {s word : Text} (h : word ∈ (words s).map lowercase) :
    IsWord word := by
  obtain ⟨before, hbefore, rfl⟩ := List.mem_map.1 h
  exact isWord_lowercase (isWord_of_mem_words hbefore)

/-- **Words in small letters, joined by underscores.**  Casing the joined text cases each word. -/
theorem snakeCase_eq (s : Text) : snakeCase s = ['_'].intercalate ((words s).map lowercase) := by
  -- only a sigma is cased by what stands around it, and no word has one
  have hsigma : 'Σ' ∉ ['_'].intercalate (words s) := by
    intro hmem
    rcases mem_intercalate hmem with h | ⟨word, hword, h⟩
    · exact absurd h (by decide)
    · exact notMem_of_isWord (isWord_of_mem_words hword) (by decide) h
  have hwords : (words s).map (fun word => word.flatMap lower) = (words s).map lowercase :=
    List.map_congr_left fun word hword => (lowercase_of_isWord (isWord_of_mem_words hword)).symm
  rw [snakeCase, lowercase_eq_flatMap hsigma, flatMap_intercalate, hwords]
  rfl

theorem words_snakeCase (s : Text) : words (snakeCase s) = (words s).map lowercase := by
  rw [snakeCase_eq]
  have hunderscore : ∀ c ∈ ['_'], isWordChar c = false := List.forall_mem_singleton.2 (by decide)
  exact words_intercalate hunderscore (by decide) fun word => isWord_of_mem_map_lowercase

theorem snakeCase_snakeCase (s : Text) : snakeCase (snakeCase s) = snakeCase s := by
  rw [snakeCase_eq (snakeCase s), words_snakeCase, snakeCase_eq s, List.map_map]
  congr 1
  exact List.map_congr_left fun word hword => lowercase_lowercase (isWord_of_mem_words hword)

/-- No underscore is at an end. -/
theorem ends_snakeCase (s : Text) :
    (snakeCase s).head? ≠ some '_' ∧ (snakeCase s).getLast? ≠ some '_' := by
  rw [snakeCase_eq]
  by_cases hnone : (words s).map lowercase = []
  · simp [hnone]
  · obtain ⟨first, last, hfirst, hlast, hfirst', hlast'⟩ := exists_ends_intercalate ['_']
      (fun word => isWord_of_mem_map_lowercase) hnone
    have hne : ∀ c, isWordChar c = true → some c ≠ some '_' := by
      rintro c hc ⟨⟩
      exact absurd hc (by decide)
    rw [hfirst, hlast]
    exact ⟨hne first hfirst', hne last hlast'⟩

/-- **Identifiers are stable.**  Each style leads to itself, and camel case to the same pascal case as
    the text.  Camel and pascal case hold word characters only.  Snake case is the words in small
    letters with one underscore between any two and none elsewhere. -/
theorem identifiers_stable (s : Text) :
    snakeCase (snakeCase s) = snakeCase s ∧ pascalCase (pascalCase s) = pascalCase s ∧
    camelCase (camelCase s) = camelCase s ∧ pascalCase (camelCase s) = pascalCase s ∧
    (∀ c ∈ camelCase s, isWordChar c = true) ∧ (∀ c ∈ pascalCase s, isWordChar c = true) ∧
    snakeCase s = ['_'].intercalate ((words s).map lowercase) ∧
    (∀ word ∈ (words s).map lowercase, word ≠ [] ∧ '_' ∉ word) ∧
    (snakeCase s).head? ≠ some '_' ∧ (snakeCase s).getLast? ≠ some '_' := by
  obtain ⟨hpascal, hcamel, hboth⟩ := capitals_stable s
  exact ⟨snakeCase_snakeCase s, hpascal, hcamel, hboth, isWordChar_of_mem_camelCase s,
    isWordChar_of_mem_pascalCase s, snakeCase_eq s,
    fun word hmem => have hword := isWord_of_mem_map_lowercase hmem
      ⟨hword.ne_nil, notMem_of_isWord hword (by decide)⟩,
    ends_snakeCase s⟩

example : pascalCase "ß-Ёж 2x".toList = "SSЁж2x".toList := by decide +kernel

end Recast.Text

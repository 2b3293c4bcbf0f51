/-
  Recast texts — how texts fall into words.

  A character that belongs to no word cuts a text in two, and the words of the text are those of both
  sides.  What is not cut is one word, or empty.

  * `words_append_cons`, `words_of_isWordChar`: the two equations, and `cutInduction`, by which
    anything about the words of a text comes down to them;
  * `words_intercalate`: words are found again where such characters stand between them;
  * `exists_ends_intercalate`: what is joined begins and ends with a character of a word;
  * `flatMap_intercalate`: a map of characters goes through the joined parts.
-/
import Recast.Text.Words

namespace Recast.Text

/-- A word: word characters, and at least one. -/
structure IsWord (word : Text) : Prop where
  ne_nil : word ≠ []
  isWordChar : ∀ c ∈ word, Letter.isWordChar c = true

theorem words_append_cons {c : Char} (hc : Letter.isWordChar c = false) (s t : Text) :
    words (s ++ c :: t) = words s ++ words t := by
  rw [words, List.splitOnP_append_cons s t (by simp [hc]), List.filter_append]
  rfl

theorem words_of_isWordChar {s : Text} (h : ∀ c ∈ s, Letter.isWordChar c = true) :
    words s = [s].filter fun word => !word.isEmpty := by
  rw [words, List.splitOnP_eq_singleton fun c hc => by simp [h c hc]]

theorem words_nil : words [] = [] :=
  words_of_isWordChar (s := []) (fun _ hc => absurd hc List.not_mem_nil)

theorem IsWord.words_eq {word : Text} (h : IsWord word) : words word = [word] := by
  rw [words_of_isWordChar h.isWordChar]
  simp [h.ne_nil]

/-- A text has word characters only, or one that is none cuts it in two. -/
theorem exists_cut (s : Text) : (∀ c ∈ s, Letter.isWordChar c = true) ∨
    ∃ before c after, s = before ++ c :: after ∧ Letter.isWordChar c = false := by
  by_cases h : ∀ c ∈ s, Letter.isWordChar c = true
  · exact .inl h
  · obtain ⟨c, hmem, hc⟩ : ∃ c ∈ s, Letter.isWordChar c = false := by simpa using h
    obtain ⟨before, after, hs⟩ := List.append_of_mem hmem
    exact .inr ⟨before, c, after, hs, hc⟩

/-- What holds of texts of word characters, and of texts cut in two, holds of all. -/
@[elab_as_elim]
theorem cutInduction {motive : Text → Prop}
    (word : ∀ s, (∀ c ∈ s, Letter.isWordChar c = true) → motive s)
    (cut : ∀ before c after, Letter.isWordChar c = false → motive before → motive after →
      motive (before ++ c :: after)) (s : Text) : motive s := by
  rcases exists_cut s with h | ⟨before, c, after, rfl, hc⟩
  · exact word s h
  · exact cut before c after hc (cutInduction word cut before) (cutInduction word cut after)
termination_by s.length

theorem isWord_of_mem_words {s word : Text} (h : word ∈ words s) : IsWord word := by
  induction s using cutInduction with
  | word s hs =>
    rw [words_of_isWordChar hs] at h
    obtain ⟨hmem, hne⟩ := List.mem_filter.1 h
    obtain rfl := List.mem_singleton.1 hmem
    exact ⟨by simpa using hne, hs⟩
  | cut before c after hc ihb iha =>
    rw [words_append_cons hc] at h
    exact (List.mem_append.1 h).elim ihb iha

/-! ## Joined words -/

section
variable {joiner : Text} (hjoiner : ∀ c ∈ joiner, Letter.isWordChar c = false)
include hjoiner

theorem words_joiner_append (s : Text) : words (joiner ++ s) = words s := by
  induction joiner with
  | nil => rfl
  | cons c joiner ih =>
    obtain ⟨hc, hmore⟩ := List.forall_mem_cons.1 hjoiner
    have hcut := words_append_cons hc [] (joiner ++ s)
    rw [words_nil, ih hmore] at hcut
    exact hcut

variable (hne : joiner ≠ [])
include hne

theorem words_append_joiner_append (s t : Text) :
    words (s ++ (joiner ++ t)) = words s ++ words t := by
  obtain ⟨c, more, rfl⟩ := List.exists_cons_of_ne_nil hne
  obtain ⟨hc, hmore⟩ := List.forall_mem_cons.1 hjoiner
  rw [List.cons_append, words_append_cons hc, words_joiner_append hmore]

/-- **Words that are joined are found again.** -/
theorem words_intercalate {ws : List Text} (hwords : ∀ word ∈ ws, IsWord word) :
    words (joiner.intercalate ws) = ws := by
  induction ws with
  | nil => rw [List.intercalate_nil, words_nil]
  | cons word ws ih =>
    obtain ⟨hword, hmore⟩ := List.forall_mem_cons.1 hwords
    cases ws with
    | nil => rw [List.intercalate_singleton, hword.words_eq]
    | cons next ws =>
      rw [List.intercalate_cons_cons, List.append_assoc,
        words_append_joiner_append hjoiner hne, hword.words_eq, ih hmore]
      rfl

end

theorem mem_intercalate {joiner : Text} {parts : List Text} {c : Char}
    (h : c ∈ joiner.intercalate parts) : c ∈ joiner ∨ ∃ part ∈ parts, c ∈ part := by
  induction parts with
  | nil => simp at h
  | cons part parts ih =>
    cases parts with
    | nil => exact .inr ⟨part, by simp, by simpa using h⟩
    | cons next parts =>
      rw [List.intercalate_cons_cons, List.append_assoc, List.mem_append, List.mem_append] at h
      rcases h with h | h | h
      · exact .inr ⟨part, List.mem_cons_self, h⟩
      · exact .inl h
      · exact (ih h).imp_right fun ⟨other, hother, hc⟩ => ⟨other, List.mem_cons_of_mem _ hother, hc⟩

/-- Where words are joined, the first and the last character belong to them. -/
theorem exists_ends_intercalate (joiner : Text) {ws : List Text}
    (hwords : ∀ word ∈ ws, IsWord word) (hne : ws ≠ []) :
    ∃ first last, (joiner.intercalate ws).head? = some first ∧
      (joiner.intercalate ws).getLast? = some last ∧
      Letter.isWordChar first = true ∧ Letter.isWordChar last = true := by
  induction ws with
  | nil => exact absurd rfl hne
  | cons word ws ih =>
    obtain ⟨hword, hmore⟩ := List.forall_mem_cons.1 hwords
    have hhead := List.head?_eq_some_head hword.ne_nil
    have hfirst := hword.isWordChar _ (List.head_mem hword.ne_nil)
    cases ws with
    | nil =>
      have hlast := hword.isWordChar _ (List.getLast_mem hword.ne_nil)
      rw [List.intercalate_singleton]
      exact ⟨_, _, hhead, List.getLast?_eq_some_getLast hword.ne_nil, hfirst, hlast⟩
    | cons next ws =>
      obtain ⟨-, last, -, hlast, -, hchar⟩ := ih hmore (List.cons_ne_nil _ _)
      rw [List.intercalate_cons_cons]
      exact ⟨_, last, by simp [hhead], by simp [hlast], hfirst, hchar⟩

theorem flatMap_intercalate (f : Char → Text) (joiner : Text) (parts : List Text) :
    (joiner.intercalate parts).flatMap f =
      (joiner.flatMap f).intercalate (parts.map fun part => part.flatMap f) := by
  induction parts with
  | nil => simp
  | cons part parts ih =>
    cases parts with
    | nil => simp
    | cons next parts =>
      rw [List.intercalate_cons_cons, List.flatMap_append, List.flatMap_append, ih]
      simp [List.intercalate_cons_cons]

/-- Characters that a map keeps one by one are kept together. -/
theorem flatMap_eq_self {f : Char → Text} {s : Text} (h : ∀ c ∈ s, f c = [c]) :
    s.flatMap f = s := by
  induction s with
  | nil => rfl
  | cons c s ih =>
    obtain ⟨hc, hs⟩ := List.forall_mem_cons.1 h
    rw [List.flatMap_cons, hc, ih hs, List.singleton_append]

end Recast.Text

/-
  Recast texts — which occurrences are found.

  * `FoundFrom sep s place found`: `found` are the occurrences of `sep` in `s` from a place on, each
    the first one that begins behind the one before;
  * `foundFrom_occurrences`: these are what `occurrences` finds, and nothing else
    (`FoundFrom.unique`);
  * they divide the text (`FoundFrom.take_append`), come in order (`FoundFrom.pairwise_start`), and
    none is left behind the last (`FoundFrom.not_isInfix_of_getLast?`);
  * `EndsAt sep s`: in `s` followed by `sep` and anything else, the first occurrence is the one
    behind `s`;
  * `OverlapsItself sep`: an occurrence of `sep` can begin inside another one, which is then not found;
    `IsLastPlace sep s place`: the last of all occurrences, found or not;
  * `FoundFrom.exists_getLast?`: the last one that is found begins with it or reaches into it.
-/
import Mathlib.Data.List.Infix
import Recast.Text.Search

namespace Recast.Text

/-- The occurrences of `sep` in `s` from a place on: none, or the first one and those behind it. -/
inductive FoundFrom (sep s : Text) : (place : Nat) → List Occurrence → Prop where
  | none {place : Nat} (hnone : ∀ other, place ≤ other → ¬ sep <+: s.drop other) :
      FoundFrom sep s place []
  | next {place start : Nat} {more : List Occurrence} (hle : place ≤ start)
      (hfirst : ∀ other, place ≤ other → other < start → ¬ sep <+: s.drop other)
      (hhere : sep <+: s.drop start) (hmore : FoundFrom sep s (start + sep.length) more) :
      FoundFrom sep s place (⟨start, s.drop (start + sep.length)⟩ :: more)

namespace FoundFrom

variable {sep s : Text} {place : Nat} {found : List Occurrence}

theorem unique {other : List Occurrence} (h : FoundFrom sep s place found)
    (hother : FoundFrom sep s place other) : found = other := by
  induction h generalizing other with
  | none hnone =>
    cases hother with
    | none => rfl
    | next hle _ hhere => exact absurd hhere (hnone _ hle)
  | @next place start more hle hfirst hhere _ ih =>
    cases hother with
    | none hnone => exact absurd hhere (hnone _ hle)
    | @next _ start' _ hle' hfirst' hhere' hmore' =>
      obtain rfl : start = start' := by
        rcases Nat.lt_trichotomy start start' with hlt | heq | hlt
        · exact absurd hhere (hfirst' _ hle hlt)
        · exact heq
        · exact absurd hhere' (hfirst _ hle' hlt)
      rw [ih hmore']

/-- Where none begins, the search may go on behind the character. -/
theorem of_succ (h : FoundFrom sep s (place + 1) found) (hplace : ¬ sep <+: s.drop place) :
    FoundFrom sep s place found := by
  have hskip : ∀ other, place ≤ other → sep <+: s.drop other → place + 1 ≤ other := by
    intro other hle hother
    rcases Nat.eq_or_lt_of_le hle with rfl | hlt
    · exact absurd hother hplace
    · exact hlt
  cases h with
  | none hnone => exact .none fun other hle hother => hnone other (hskip other hle hother) hother
  | next hle hfirst hhere hmore =>
    exact .next (Nat.le_of_succ_le hle)
      (fun other hle' hlt hother => hfirst other (hskip other hle' hother) hlt hother) hhere hmore

theorem after_eq (h : FoundFrom sep s place found) {occurrence : Occurrence}
    (hmem : occurrence ∈ found) : occurrence.after = s.drop (occurrence.start + sep.length) := by
  induction h with
  | none => exact absurd hmem List.not_mem_nil
  | next _ _ _ _ ih =>
    rcases List.mem_cons.1 hmem with rfl | hmem
    · rfl
    · exact ih hmem

theorem take_append (h : FoundFrom sep s place found) {occurrence : Occurrence}
    (hmem : occurrence ∈ found) :
    s.take occurrence.start ++ (sep ++ occurrence.after) = s := by
  induction h with
  | none => exact absurd hmem List.not_mem_nil
  | next _ _ hhere _ ih =>
    rcases List.mem_cons.1 hmem with rfl | hmem
    · rw [← List.drop_drop, ← List.prefix_append_drop hhere, List.take_append_drop]
    · exact ih hmem

theorem prefix_drop (h : FoundFrom sep s place found) {occurrence : Occurrence}
    (hmem : occurrence ∈ found) : sep <+: s.drop occurrence.start := by
  induction h with
  | none => exact absurd hmem List.not_mem_nil
  | next _ _ hhere _ ih =>
    rcases List.mem_cons.1 hmem with rfl | hmem
    · exact hhere
    · exact ih hmem

theorem le_start (h : FoundFrom sep s place found) {occurrence : Occurrence}
    (hmem : occurrence ∈ found) : place ≤ occurrence.start := by
  induction h with
  | none => exact absurd hmem List.not_mem_nil
  | next hle _ _ _ ih =>
    rcases List.mem_cons.1 hmem with rfl | hmem
    · exact hle
    · exact hle.trans ((Nat.le_add_right _ _).trans (ih hmem))

theorem pairwise_start (hsep : sep ≠ []) (h : FoundFrom sep s place found) :
    found.Pairwise fun a b => a.start < b.start := by
  induction h with
  | none => exact .nil
  | next _ _ _ hmore ih =>
    refine .cons (fun other hmem => ?_) ih
    exact (Nat.lt_add_of_pos_right (List.length_pos_of_ne_nil hsep)).trans_le
      (hmore.le_start hmem)

/-- Where one occurrence begins the text and any other would overlap it, only the one is found. -/
theorem start_eq_zero (h : FoundFrom sep s 0 found) (hhere : sep <+: s)
    (hinside : ∀ other, sep <+: s.drop other → other < sep.length) {occurrence : Occurrence}
    (hmem : occurrence ∈ found) : occurrence.start = 0 := by
  cases h with
  | none => exact absurd hmem List.not_mem_nil
  | @next _ start more _ hfirst _ hmore =>
    obtain rfl : start = 0 := by
      by_contra hne
      exact hfirst 0 le_rfl (Nat.pos_of_ne_zero hne) hhere
    rcases List.mem_cons.1 hmem with rfl | hmem
    · rfl
    · have hle := hmore.le_start hmem
      have hlt := hinside occurrence.start (hmore.prefix_drop hmem)
      omega

/-- The first occurrence in the list that has a property is the first one in the text. -/
theorem find?_start (hsep : sep ≠ []) (h : FoundFrom sep s place found)
    {p : Occurrence → Bool} {occurrence : Occurrence} (hfind : found.find? p = some occurrence)
    {other : Occurrence} (hother : other ∈ found) (hlt : other.start < occurrence.start) :
    ¬ p other := by
  obtain ⟨-, front, back, rfl, hfront⟩ := List.find?_eq_some_iff_append.1 hfind
  rcases List.mem_append.1 hother with hother | hother
  · simpa using hfront other hother
  · have horder := (List.pairwise_append.1 (h.pairwise_start hsep)).2.1
    rcases List.mem_cons.1 hother with rfl | hother
    · exact absurd hlt (Nat.lt_irrefl _)
    · exact absurd hlt (Nat.lt_asymm (List.rel_of_pairwise_cons horder hother))

/-- The last occurrence in the list is the last one in the text. -/
theorem start_le_of_getLast? (hsep : sep ≠ []) (h : FoundFrom sep s place found)
    {last : Occurrence} (hlast : found.getLast? = some last) {other : Occurrence}
    (hother : other ∈ found) : other.start ≤ last.start := by
  obtain ⟨front, rfl⟩ := List.getLast?_eq_some_iff.1 hlast
  rcases List.mem_append.1 hother with hother | hother
  · have horder := List.pairwise_append.1 (h.pairwise_start hsep)
    exact (horder.2.2 other hother last (List.mem_singleton_self last)).le
  · rw [List.mem_singleton.1 hother]

/-- No occurrence is left behind the last. -/
theorem not_isInfix_of_getLast? (h : FoundFrom sep s place found) {last : Occurrence}
    (hlast : found.getLast? = some last) : ¬ sep <:+: last.after := by
  induction h with
  | none => exact absurd hlast (Option.some_ne_none _).symm
  | @next _ start more _ _ _ hmore ih =>
    cases hmore with
    | none hnone =>
      rw [List.getLast?_singleton] at hlast
      obtain rfl := Option.some.inj hlast
      rintro ⟨front, back, hinfix : _ = s.drop (start + sep.length)⟩
      refine hnone (start + sep.length + front.length) (Nat.le_add_right _ _) ⟨back, ?_⟩
      rw [← List.drop_drop, ← hinfix, List.append_assoc, List.drop_left]
    | next => exact ih (by rwa [List.getLast?_cons_cons] at hlast)

end FoundFrom

/-! ## A text before a separator -/

/-- The first occurrence of `sep` in `s ++ sep` is the one behind `s`. -/
def EndsAt (sep s : Text) : Prop :=
  ∀ place < s.length, ¬ sep <+: (s ++ sep).drop place

instance (sep s : Text) : Decidable (EndsAt sep s) :=
  inferInstanceAs (Decidable (∀ place < s.length, _))

/-- It is the first one still if more follows. -/
theorem EndsAt.not_prefix_drop {sep s : Text} (h : EndsAt sep s) (rest : Text) {place : Nat}
    (hplace : place < s.length) : ¬ sep <+: (s ++ sep ++ rest).drop place := by
  have hlength : place ≤ (s ++ sep).length := by
    rw [List.length_append]
    omega
  rw [List.drop_append_of_le_length hlength]
  intro hprefix
  refine h place hplace (List.prefix_of_prefix_length_le hprefix (List.prefix_append _ rest) ?_)
  rw [List.length_drop, List.length_append]
  omega

/-- So it is found first. -/
theorem EndsAt.exists_found {sep s rest : Text} {found : List Occurrence} (h : EndsAt sep s)
    (hfound : FoundFrom sep (s ++ sep ++ rest) 0 found) :
    ∃ more, found = ⟨s.length, rest⟩ :: more := by
  have hrest : (s ++ sep ++ rest).drop (s.length + sep.length) = rest := by
    rw [← List.length_append, List.drop_left]
  have hthere : sep <+: (s ++ sep ++ rest).drop s.length := by
    rw [List.append_assoc, List.drop_left]
    exact List.prefix_append _ _
  cases hfound with
  | none hnone => exact absurd hthere (hnone _ (Nat.zero_le _))
  | @next _ start more _ hfirst hhere hmore =>
    obtain rfl : start = s.length := by
      rcases Nat.lt_trichotomy start s.length with hlt | heq | hlt
      · exact absurd hhere (h.not_prefix_drop rest hlt)
      · exact heq
      · exact absurd hthere (hfirst _ (Nat.zero_le _) hlt)
    exact ⟨more, by rw [hrest]⟩

/-! ## Occurrences that overlap -/

/-- Occurrences of a text can overlap: an end of it is also its beginning. -/
def OverlapsItself (sep : Text) : Prop :=
  ∃ k < sep.length, 0 < k ∧ sep.drop k <+: sep

instance (sep : Text) : Decidable (OverlapsItself sep) :=
  inferInstanceAs (Decidable (∃ k < sep.length, 0 < k ∧ _))

theorem overlapsItself_of_prefix_drop {sep s : Text} {first second : Nat}
    (hfirst : sep <+: s.drop first) (hsecond : sep <+: s.drop second) (hlt : first < second)
    (hinside : second < first + sep.length) : OverlapsItself sep := by
  refine ⟨second - first, by omega, by omega, ?_⟩
  have hend : sep.drop (second - first) <+: s.drop second := by
    obtain ⟨after, hafter⟩ := hfirst
    rw [show second = first + (second - first) by omega, ← List.drop_drop, ← hafter,
      Nat.add_sub_cancel_left, List.drop_append_of_le_length (by omega)]
    exact List.prefix_append _ _
  exact List.prefix_of_prefix_length_le hend hsecond (by simp)

/-- The last place of a text where `sep` stands. -/
def IsLastPlace (sep s : Text) (place : Nat) : Prop :=
  sep <+: s.drop place ∧ ∀ other, sep <+: s.drop other → other ≤ place

/-- **The last occurrence that is found** begins at the last place, or else the last place is inside
    it. -/
theorem FoundFrom.exists_getLast? {sep s : Text} {found : List Occurrence} {last : Nat}
    (h : FoundFrom sep s 0 found) (hlast : IsLastPlace sep s last) :
    ∃ occurrence, found.getLast? = some occurrence ∧ sep <+: s.drop occurrence.start ∧
      occurrence.start ≤ last ∧ last < occurrence.start + sep.length := by
  obtain ⟨hthere, hgreatest⟩ := hlast
  cases hfound : found.getLast? with
  | none =>
    rw [List.getLast?_eq_none_iff.1 hfound] at h
    cases h with
    | none hnone => exact absurd hthere (hnone last (Nat.zero_le _))
  | some occurrence =>
    have hmem := List.mem_of_getLast? hfound
    have hhere := h.prefix_drop hmem
    refine ⟨occurrence, rfl, hhere, hgreatest _ hhere, ?_⟩
    by_contra hbehind
    refine h.not_isInfix_of_getLast? hfound ?_
    rw [h.after_eq hmem]
    have hsuffix : s.drop last <:+ s.drop (occurrence.start + sep.length) := by
      rw [show last = occurrence.start + sep.length + (last - (occurrence.start + sep.length)) by
        omega, ← List.drop_drop]
      exact List.drop_suffix _ _
    exact hthere.isInfix.trans hsuffix.isInfix

/-! ## The search -/

section
variable {sep : Text}

theorem finder_eq_none {c : Char} {rest : Text} (h : ¬ sep <+: c :: rest) :
    finder sep c rest = none := by
  rw [finder, Option.map_eq_none_iff]
  by_contra hsome
  obtain ⟨after, hafter⟩ := Option.ne_none_iff_exists'.1 hsome
  exact h ⟨after, List.append_eq_of_isPrefixOf?_eq_some hafter⟩

theorem finder_eq_some {c : Char} {rest : Text} (h : sep <+: c :: rest) :
    finder sep c rest = some ((c :: rest).drop sep.length, sep.length - 1) := by
  obtain ⟨after, hafter⟩ := h
  rw [finder, List.isPrefixOf?_eq_some_iff_append_eq.2 hafter, ← hafter, List.drop_left]
  rfl

/-- The search finds the occurrences from a place on.  The first `skip` characters of the rest belong
    to an occurrence found before. -/
theorem foundFrom_locate (hsep : sep ≠ []) {s : Text} {place skip : Nat} {rest : Text}
    (hrest : s.drop place = rest) :
    FoundFrom sep s (place + skip)
      (locate sep.length (place + skip) (coverFrom (finder sep) skip rest)) := by
  induction rest generalizing place skip with
  | nil =>
    have hcover : coverFrom (finder sep) skip [] = [] := by cases skip <;> rfl
    rw [hcover]
    refine .none fun other hle hother => hsep ?_
    rw [List.drop_eq_nil_of_le ((List.drop_eq_nil_iff.1 hrest).trans (by omega))] at hother
    exact List.prefix_nil.1 hother
  | cons c rest ih =>
    have hnext : s.drop (place + 1) = rest := by rw [← List.drop_drop, hrest]; rfl
    have hpos := List.length_pos_of_ne_nil hsep
    cases skip with
    | succ skip =>
      rw [Nat.add_succ, ← Nat.succ_add]
      exact ih hnext
    | zero =>
      unfold coverFrom
      by_cases hhere : sep <+: c :: rest
      · rw [finder_eq_some hhere, ← hrest, List.drop_drop]
        refine .next le_rfl (fun other hle hlt => absurd hle (Nat.not_le.2 hlt)) (hrest ▸ hhere) ?_
        rw [show place + 0 + sep.length = place + 1 + (sep.length - 1) by omega]
        exact ih hnext
      · rw [finder_eq_none hhere]
        have hmore := @ih (place + 1) 0 hnext
        exact hmore.of_succ (hrest ▸ hhere)

/-- **The search finds the occurrences** of a nonempty text. -/
theorem foundFrom_occurrences (hsep : sep ≠ []) (s : Text) :
    FoundFrom sep s 0 (occurrences sep s) := by
  rw [occurrences, if_neg (by simpa using hsep)]
  exact @foundFrom_locate sep hsep s 0 0 s rfl

end

end Recast.Text

/-
  Recast chains — where an input is divided.

  * `Continues grammar separator rest`: a remainder that may be a chain;
  * `firstClean?_eq_find?`: the occurrences share one scan, and still the one chosen is the first
    whose remainder continues;
  * `split_of_foundFrom`: the division of an input by its occurrences; `split_append`: a subject and
    a chain are found again;
  * `split_spec`: every input is divided by the occurrence it should be, and nothing is lost.
-/
import Recast.Chain.Split
import Recast.Proofs.Chain.Scan
import Recast.Proofs.Text.Occurrences

namespace Recast.Chain

/-- A remainder has a token and, outside its tokens, only white space and characters of the
    separator. -/
def Continues (grammar : Grammar) (separator rest : Text) : Prop :=
  grammar.tokens rest ≠ [] ∧
    ∀ c ∈ grammar.loose rest, Letter.isBlank c = true ∨ c ∈ separator

instance (grammar : Grammar) (separator rest : Text) :
    Decidable (Continues grammar separator rest) :=
  @instDecidableAnd _ _ inferInstance (List.decidableBAll _ _)

theorem tailOf_isGlueOf_eq_tokens_iff {grammar : Grammar} {separator rest : Text} :
    tailOf grammar (isGlueOf separator) rest = .tokens ↔ Continues grammar separator rest := by
  rw [tailOf_eq_tokens_iff, Continues]
  simp only [isGlueOf, Bool.or_eq_true, List.contains_iff_mem]

section
variable {grammar : Grammar} {separator input : Text} {found : List Text.Occurrence}

/-- **The choice of an occurrence.**  What the scan has noted about other occurrences does not
    matter. -/
theorem firstClean?_eq_find? {memo : Memo}
    (hscan : Scan.IsSound ⟨grammar, isGlueOf separator, input, memo⟩)
    (hafter : ∀ occurrence ∈ found,
      occurrence.after = input.drop (occurrence.start + separator.length)) :
    firstClean? separator.length ⟨grammar, isGlueOf separator, input, memo⟩ found =
      found.find? fun occurrence => Continues grammar separator occurrence.after := by
  induction found generalizing memo with
  | nil => rfl
  | cons occurrence found ih =>
    obtain ⟨hhere, hafter⟩ := List.forall_mem_cons.1 hafter
    obtain ⟨htail, memo', hmemo, hsound⟩ :=
      Scan.tailAt_spec hscan (occurrence.start + separator.length)
    have hasked : Scan.tailAt ⟨grammar, isGlueOf separator, input, memo⟩
        (occurrence.start + separator.length) occurrence.after =
          (tailOf grammar (isGlueOf separator) occurrence.after,
            ⟨grammar, isGlueOf separator, input, memo'⟩) := by
      rw [hhere]
      exact Prod.ext htail hmemo
    rw [firstClean?, hasked, List.find?_cons, ← ih hsound hafter]
    dsimp only
    by_cases hcontinues : Continues grammar separator occurrence.after
    · rw [if_pos (tailOf_isGlueOf_eq_tokens_iff.2 hcontinues), decide_eq_true hcontinues]
    · rw [if_neg (mt tailOf_isGlueOf_eq_tokens_iff.1 hcontinues), decide_eq_false hcontinues]

/-- The division of an input is by the first occurrence whose remainder continues, or else by the
    last one. -/
theorem split_of_foundFrom (hsep : separator ≠ [])
    (hfound : Text.FoundFrom separator input 0 found) :
    split grammar separator input =
      match (found.find? fun occurrence => Continues grammar separator occurrence.after).or
        found.getLast? with
      | some occurrence => ⟨input.take occurrence.start, some occurrence.after⟩
      | none => ⟨input, none⟩ := by
  have hafter : ∀ occurrence ∈ found, occurrence.after = _ := fun _ => hfound.after_eq
  have hscan := Scan.isSound_start grammar (isGlueOf separator) input
  rw [← firstClean?_eq_find? hscan hafter,
    hfound.unique (Text.foundFrom_occurrences hsep input)]
  rfl

/-- A chain behind a subject begins behind the separator between them. -/
theorem split_append (hsep : separator ≠ []) {subject chain : Text}
    (hsubject : Text.EndsAt separator subject) (hchain : Continues grammar separator chain) :
    split grammar separator (subject ++ separator ++ chain) = ⟨subject, some chain⟩ := by
  have hfound := Text.foundFrom_occurrences hsep (subject ++ separator ++ chain)
  obtain ⟨more, hmore⟩ := hsubject.exists_found hfound
  rw [hmore] at hfound
  have hfirst : (⟨subject.length, chain⟩ :: more : List Text.Occurrence).find?
      (fun occurrence => Continues grammar separator occurrence.after) =
        some ⟨subject.length, chain⟩ :=
    List.find?_cons_of_pos (decide_eq_true hchain)
  rw [split_of_foundFrom hsep hfound, hfirst]
  change Split.mk ((subject ++ separator ++ chain).take subject.length) _ = _
  rw [List.append_assoc, List.take_left]

end

/-- **Where the chain begins.**  An input without the separator is all subject.  Otherwise one
    occurrence divides it: the first whose remainder continues; or, only if there is none, the last
    occurrence, and then the separator is not in the chain. -/
theorem split_spec (grammar : Grammar) {separator : Text} (hsep : separator ≠ []) (input : Text) :
    ∃ found, (∀ other, Text.FoundFrom separator input 0 other ↔ other = found) ∧
      (found = [] → split grammar separator input = ⟨input, none⟩) ∧
      (found ≠ [] → ∃ occurrence ∈ found,
        split grammar separator input = ⟨input.take occurrence.start, some occurrence.after⟩ ∧
        input.take occurrence.start ++ separator ++ occurrence.after = input ∧
        (Continues grammar separator occurrence.after ∧
            (∀ other ∈ found, other.start < occurrence.start →
              ¬ Continues grammar separator other.after) ∨
          (∀ other ∈ found, ¬ Continues grammar separator other.after) ∧
            (∀ other ∈ found, other.start ≤ occurrence.start) ∧
            ¬ separator <:+: occurrence.after)) := by
  have hfound := Text.foundFrom_occurrences hsep input
  generalize Text.occurrences separator input = found at hfound
  have hdivide : ∀ occurrence ∈ found,
      input.take occurrence.start ++ separator ++ occurrence.after = input := by
    intro occurrence hmem
    rw [List.append_assoc]
    exact hfound.take_append hmem
  have hsplit := @split_of_foundFrom grammar separator input found hsep hfound
  refine ⟨found, fun other => ⟨fun hother => hother.unique hfound, fun h => h ▸ hfound⟩, ?_, ?_⟩
  · rintro rfl
    exact hsplit
  · intro hne
    cases hfind : found.find? fun occurrence => Continues grammar separator occurrence.after with
    | some occurrence =>
      rw [hfind] at hsplit
      have hmem := List.mem_of_find?_eq_some hfind
      refine ⟨occurrence, hmem, hsplit, hdivide _ hmem, .inl ⟨?_, ?_⟩⟩
      · have hcontinues := List.find?_some hfind
        exact of_decide_eq_true hcontinues
      · intro other hother hlt hcontinues
        exact hfound.find?_start hsep hfind hother hlt (decide_eq_true hcontinues)
    | none =>
      obtain ⟨last, hlast⟩ :=
        Option.ne_none_iff_exists'.1 (mt List.getLast?_eq_none_iff.1 hne)
      rw [hfind, hlast] at hsplit
      have hmem := List.mem_of_getLast? hlast
      refine ⟨last, hmem, hsplit, hdivide _ hmem, .inr ⟨?_, ?_, ?_⟩⟩
      · intro other hother hcontinues
        exact List.find?_eq_none.1 hfind other hother (decide_eq_true hcontinues)
      · exact fun other hother => hfound.start_le_of_getLast? hsep hlast hother
      · exact hfound.not_isInfix_of_getLast? hlast

/-- An input whose chain begins behind the second of three occurrences. -/
theorem split_spec_second :
    let catalog : Catalog :=
      ⟨[⟨'l', .lowercase, "Lowercase".toList, none, ⟨0, 0⟩, false, .bare⟩], by decide, by decide⟩
    ∃ grammar, Grammar.ofCatalog catalog = .ok grammar ∧ split grammar " /".toList
      "This /or that /l /l".toList = ⟨"This /or that".toList, some "l /l".toList⟩ := by
  intro catalog
  let grammar : Grammar := ⟨Regex.anyOf [Regex.sequence [.one ⟨false, ['l']⟩]]⟩
  refine ⟨grammar, rfl, ?_⟩
  obtain ⟨found, hfound, -, hsplit⟩ :=
    split_spec grammar (show " /".toList ≠ [] by decide) "This /or that /l /l".toList
  have hlist : found =
      [⟨4, "or that /l /l".toList⟩, ⟨13, "l /l".toList⟩, ⟨16, "l".toList⟩] :=
    ((hfound _).1 (Text.foundFrom_occurrences (by decide) _)).symm
  subst hlist
  have hsecond : Continues grammar " /".toList "l /l".toList := by decide
  obtain ⟨occurrence, hmem, hsplit, -, ⟨hcontinues, hfirst⟩ | ⟨hnone, -⟩⟩ := hsplit (by decide)
  · simp only [List.mem_cons, List.not_mem_nil, or_false] at hmem
    rcases hmem with rfl | rfl | rfl
    · exact absurd hcontinues (by decide)
    · exact hsplit
    · exact absurd hsecond (hfirst ⟨13, "l /l".toList⟩ (by decide) (by decide))
  · exact absurd hsecond (hnone ⟨13, "l /l".toList⟩ (by decide))

end Recast.Chain

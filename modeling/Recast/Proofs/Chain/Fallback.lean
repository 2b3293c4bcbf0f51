/-
  Recast chains — an input that no chain continues.

  If no remainder of an input is a chain, the input is divided at the last separator that is found.  As
  they are found from left to right and without overlap, a separator that overlaps itself may stand
  still further on.

  * `NoneContinues`: an input has no remainder that is a chain;
  * `exists_split_of_noneContinues`: such an input is divided at the last place of the separator, or
    where it stands just before that;
  * `IsStray`, `mem_loose_append`: characters that are never in a chain;
  * `fallsBackToLast_iff`: the last place divides every such input if and only if the separator does
    not overlap itself; `split_slashes`: an input that is divided otherwise.
-/
import Recast.Proofs.Chain.Split
import Recast.Proofs.Chain.Tokenization
import Recast.Proofs.Command.Builtin

namespace Recast.Chain

open Text (FoundFrom IsLastPlace OverlapsItself)

/-- Wherever the separator stands in an input, what is behind it is no chain. -/
def NoneContinues (grammar : Grammar) (separator input : Text) : Prop :=
  ∀ place, separator <+: input.drop place →
    ¬ Continues grammar separator (input.drop (place + separator.length))

/-- The division of an input by the separator that stands behind `place` characters. -/
def Split.at (separator input : Text) (place : Nat) : Split :=
  ⟨input.take place, some (input.drop (place + separator.length))⟩

section
variable {grammar : Grammar} {separator input : Text} (hsep : separator ≠ []) {last : Nat}
include hsep

/-- **Without a chain, the last separator that is found divides the input.**  It stands at the last
    place, or the last place is inside it. -/
theorem exists_split_of_noneContinues (hnone : NoneContinues grammar separator input)
    (hlast : IsLastPlace separator input last) :
    ∃ occurrence ∈ Text.occurrences separator input,
      split grammar separator input = .at separator input occurrence.start ∧
      occurrence.start ≤ last ∧ last < occurrence.start + separator.length := by
  have hfound := Text.foundFrom_occurrences hsep input
  obtain ⟨occurrence, hgetLast, -, hle, hlt⟩ := hfound.exists_getLast? hlast
  have hmem := List.mem_of_getLast? hgetLast
  have hfind : (Text.occurrences separator input).find?
      (fun occurrence => Continues grammar separator occurrence.after) = none := by
    refine List.find?_eq_none.2 fun other hother hcontinues => ?_
    rw [hfound.after_eq hother] at hcontinues
    exact hnone other.start (hfound.prefix_drop hother) (of_decide_eq_true hcontinues)
  have hsplit := @split_of_foundFrom grammar separator input _ hsep hfound
  rw [hfind, hgetLast] at hsplit
  refine ⟨occurrence, hmem, ?_, hle, hlt⟩
  rw [Split.at, ← hfound.after_eq hmem]
  exact hsplit

theorem split_of_not_overlapsItself (hoverlaps : ¬ OverlapsItself separator)
    (hnone : NoneContinues grammar separator input) (hlast : IsLastPlace separator input last) :
    split grammar separator input = .at separator input last := by
  obtain ⟨occurrence, hmem, hsplit, hle, hlt⟩ := exists_split_of_noneContinues hsep hnone hlast
  have hhere := (Text.foundFrom_occurrences hsep input).prefix_drop hmem
  rcases Nat.eq_or_lt_of_le hle with rfl | hbefore
  · exact hsplit
  · exact absurd (Text.overlapsItself_of_prefix_drop hhere hlast.1 hbefore hlt) hoverlaps

end

/-! ## Stray characters -/

/-- A character that is neither in the separator nor white space, and no key or quote. -/
structure IsStray (catalog : Catalog) (separator : Text) (c : Char) : Prop where
  notMem : c ∉ separator
  isBlank : Letter.isBlank c = false
  isQuote : isQuote c = false
  key_ne : ∀ entry ∈ catalog.entries, entry.key ≠ c

/-- A token ends with its key or with a quote. -/
theorem Token.Calls.getLast? {token : Token} {entry : Entry} {quoteds : List Quoted}
    (h : token.Calls entry quoteds) :
    token.text.getLast? = some entry.key ∨ ∃ quote, isQuote quote = true ∧
      token.text.getLast? = some quote := by
  rw [Token.text, h.key, h.tail]
  rcases List.eq_nil_or_concat' quoteds with rfl | ⟨front, quoted, rfl⟩
  · exact .inl rfl
  · refine .inr ⟨quoted.quote, quoted.isQuote_quote, ?_⟩
    have htext : entry.key :: Quoted.rowText (front ++ [quoted]) =
        (entry.key :: Quoted.rowText front ++ ' ' :: quoted.quote :: quoted.body) ++
          [quoted.quote] := by
      simp [Quoted.rowText, Quoted.text]
    rw [htext, List.getLast?_concat]

section
variable {catalog : Catalog} {grammar : Grammar}
  (hc : ∀ entry ∈ catalog.entries, entry.IsConsistent) (hg : Grammar.ofCatalog catalog = .ok grammar)
  {separator : Text} {c : Char} (hstray : IsStray catalog separator c)
include hc hg hstray

/-- A stray character at the end of a text is in no token. -/
theorem mem_loose_append (s : Text) : c ∈ grammar.loose (s ++ [c]) := by
  have hspelled := @Text.spelled_cover _ grammar.token? Token.text
    (fun _ _ _ _ => Grammar.text_of_token?) (s ++ [c])
  unfold Grammar.loose
  generalize hpieces : Text.cover grammar.token? (s ++ [c]) = pieces at hspelled
  rcases List.eq_nil_or_concat' pieces with rfl | ⟨front, piece, rfl⟩
  · exact absurd hspelled (by simp)
  · rw [List.flatMap_append, List.flatMap_singleton] at hspelled
    cases piece with
    | loose d =>
      obtain rfl := List.singleton_inj.1 (List.append_inj_right' hspelled rfl)
      exact List.mem_filterMap.2 ⟨.loose d, by simp, rfl⟩
    | item token =>
      have hmem : token ∈ grammar.tokens (s ++ [c]) := by
        unfold Grammar.tokens
        rw [hpieces]
        exact List.mem_filterMap.2 ⟨.item token, by simp, rfl⟩
      obtain ⟨entry, hentry, quoteds, hcalls⟩ := exists_calls_of_mem_tokens hc hg hmem
      -- the token would end the text, but it ends with a key or a quote
      have hend : token.text.getLast? = some c := by
        have hne : Text.Piece.spelled Token.text (.item token) ≠ [] := List.cons_ne_nil _ _
        have hgetLast := congrArg List.getLast? hspelled
        rwa [List.getLast?_concat, List.getLast?_append_of_ne_nil _ hne] at hgetLast
      exfalso
      rcases hcalls.getLast? with hkey | ⟨quote, hquote, hlast⟩
      · exact hstray.key_ne entry hentry (Option.some.inj (hkey.symm.trans hend))
      · obtain rfl := Option.some.inj (hlast.symm.trans hend)
        rw [hstray.isQuote] at hquote
        exact absurd hquote (by decide)

theorem not_continues_append (s : Text) : ¬ Continues grammar separator (s ++ [c]) := by
  rintro ⟨-, hloose⟩
  rcases hloose c (mem_loose_append hc hg hstray s) with hblank | hmem
  · rw [hstray.isBlank] at hblank
    exact absurd hblank (by decide)
  · exact hstray.notMem hmem

/-! ## Separators that overlap themselves -/

/-- Two separators that overlap, and a stray character: the second is at the last place, and no chain
    is behind either. -/
theorem isLastPlace_and_noneContinues {k : Nat} (hk : k < separator.length) :
    IsLastPlace separator (separator.take k ++ separator ++ [c]) k ∧
      NoneContinues grammar separator (separator.take k ++ separator ++ [c]) := by
  have hlength : (separator.take k).length = k := by rw [List.length_take]; omega
  have hgreatest : ∀ other, separator <+: (separator.take k ++ separator ++ [c]).drop other →
      other ≤ k := by
    intro other hother
    have hle := hother.length_le
    simp only [List.length_drop, List.length_append, hlength, List.length_singleton] at hle
    by_contra hlt
    obtain rfl : other = k + 1 := by omega
    -- so much further on, it would end with the stray character
    have heq := hother.eq_of_length (by simp [hlength]; omega)
    rw [List.drop_append_of_le_length (by simp [hlength]; omega)] at heq
    exact hstray.notMem (heq ▸ List.mem_append_right _ (List.mem_singleton_self c))
  refine ⟨⟨?_, hgreatest⟩, fun place hplace => ?_⟩
  · rw [List.append_assoc, List.drop_left' hlength]
    exact List.prefix_append _ _
  · have hle := hgreatest place hplace
    rw [List.drop_append_of_le_length (by simp [hlength]; omega)]
    exact not_continues_append hc hg hstray _

/-- There the first of the two is found, and it divides the input. -/
theorem split_of_overlapping {k : Nat} (hpos : 0 < k) (hk : k < separator.length)
    (hborder : separator.drop k <+: separator) :
    split grammar separator (separator.take k ++ separator ++ [c]) =
      .at separator (separator.take k ++ separator ++ [c]) 0 := by
  obtain ⟨hlast, hnone⟩ := isLastPlace_and_noneContinues hc hg hstray hk
  have hsep : separator ≠ [] := List.ne_nil_of_length_pos (hpos.trans hk)
  have hhere : separator <+: separator.take k ++ separator ++ [c] := by
    obtain ⟨more, hmore⟩ := hborder
    refine ⟨more ++ [c], ?_⟩
    calc separator ++ (more ++ [c])
        = (separator.take k ++ separator.drop k) ++ more ++ [c] := by
          rw [List.take_append_drop, List.append_assoc]
      _ = separator.take k ++ separator ++ [c] := by
          rw [List.append_assoc (separator.take k), hmore]
  obtain ⟨occurrence, hmem, hsplit, -⟩ := exists_split_of_noneContinues hsep hnone hlast
  have hzero := (Text.foundFrom_occurrences hsep _).start_eq_zero hhere
    (fun other hother => (hlast.2 other hother).trans_lt hk) hmem
  rw [hsplit, hzero]

end

/-- The rule that the last place divides an input without a chain. -/
def FallsBackToLast (grammar : Grammar) (separator : Text) : Prop :=
  ∀ input last, IsLastPlace separator input last → NoneContinues grammar separator input →
    split grammar separator input = .at separator input last

/-- **When the last place divides an input without a chain.**  For a separator that does not overlap
    itself it always does.  For one that does, it does not, if only some character is stray: the rule
    fails for some input.  Still, the input is then divided by a separator into which the last place
    falls. -/
theorem fallsBackToLast_iff {catalog : Catalog} {grammar : Grammar}
    (hc : ∀ entry ∈ catalog.entries, entry.IsConsistent)
    (hg : Grammar.ofCatalog catalog = .ok grammar) {separator : Text} (hsep : separator ≠ []) :
    (¬ OverlapsItself separator → FallsBackToLast grammar separator) ∧
    (∀ c, IsStray catalog separator c →
      (FallsBackToLast grammar separator ↔ ¬ OverlapsItself separator)) ∧
    ∀ input last, IsLastPlace separator input last → NoneContinues grammar separator input →
      ∃ start ≤ last, last < start + separator.length ∧ separator <+: input.drop start ∧
        split grammar separator input = .at separator input start := by
  have hfalls : ¬ OverlapsItself separator → FallsBackToLast grammar separator :=
    fun hoverlaps input last hlast hnone => split_of_not_overlapsItself hsep hoverlaps hnone hlast
  refine ⟨hfalls, fun c hstray => ⟨?_, hfalls⟩, fun input last hlast hnone => ?_⟩
  · rintro hlaw ⟨k, hk, hpos, hborder⟩
    obtain ⟨hlast, hnone⟩ := isLastPlace_and_noneContinues hc hg hstray hk
    have hsame := hlaw _ k hlast hnone
    rw [split_of_overlapping hc hg hstray hpos hk hborder] at hsame
    have hlength := congrArg (fun parts => parts.subject.length) hsame
    simp only [Split.at, List.length_take, List.length_append] at hlength
    omega
  · obtain ⟨occurrence, hmem, hsplit, hle, hlt⟩ := exists_split_of_noneContinues hsep hnone hlast
    exact ⟨occurrence.start, hle, hlt,
      (Text.foundFrom_occurrences hsep input).prefix_drop hmem, hsplit⟩

/-- The usual separator does not overlap itself, and of two the second divides the input. -/
theorem fallsBackToLast_space_slash :
    ∃ grammar, Grammar.ofCatalog (Catalog.builtin " /".toList) = .ok grammar ∧
      FallsBackToLast grammar " /".toList ∧
      IsLastPlace " /".toList "a /bxy /xyz".toList 6 ∧
      NoneContinues grammar " /".toList "a /bxy /xyz".toList ∧
      split grammar " /".toList "a /bxy /xyz".toList =
        ⟨"a /bxy".toList, some "xyz".toList⟩ := by
  have hc : ∀ entry ∈ (Catalog.builtin " /".toList).entries, entry.IsConsistent := by decide
  obtain ⟨grammar, hg⟩ : ∃ grammar, Grammar.ofCatalog (Catalog.builtin " /".toList) = .ok grammar :=
    ⟨_, Catalog.ofCatalog_of_isConsistent hc⟩
  have hstray : IsStray (Catalog.builtin " /".toList) " /".toList 'z' :=
    ⟨by decide, by decide, by decide, by decide⟩
  have hplaces : ∀ place, " /".toList <+: "a /bxy /xyz".toList.drop place →
      place = 1 ∨ place = 6 := by
    have hall : ∀ place < 11, " /".toList <+: "a /bxy /xyz".toList.drop place →
        place = 1 ∨ place = 6 := by decide
    intro place hplace
    rcases Nat.lt_or_ge place 11 with hlt | hge
    · exact hall place hlt hplace
    · rw [List.drop_eq_nil_of_le hge] at hplace
      exact absurd (List.prefix_nil.1 hplace) (by decide)
  have hlast : IsLastPlace " /".toList "a /bxy /xyz".toList 6 := by
    refine ⟨by decide, fun other hother => ?_⟩
    rcases hplaces other hother with rfl | rfl <;> decide
  have hnone : NoneContinues grammar " /".toList "a /bxy /xyz".toList := by
    intro place hplace
    rcases hplaces place hplace with rfl | rfl
    · exact not_continues_append hc hg hstray "bxy /xy".toList
    · exact not_continues_append hc hg hstray "xy".toList
  obtain ⟨hfalls, -⟩ := fallsBackToLast_iff hc hg (show " /".toList ≠ [] by decide)
  have hlaw := hfalls (by decide)
  exact ⟨grammar, hg, hlaw, hlast, hnone, hlaw _ 6 hlast hnone⟩

/-- Two slashes do, and of three the last one is taken for a part of the chain. -/
theorem split_slashes :
    ∃ grammar, Grammar.ofCatalog (Catalog.builtin "//".toList) = .ok grammar ∧
      IsLastPlace "//".toList "///b".toList 1 ∧
      NoneContinues grammar "//".toList "///b".toList ∧
      split grammar "//".toList "///b".toList = ⟨[], some "/b".toList⟩ ∧
      Split.at "//".toList "///b".toList 1 = ⟨"/".toList, some "b".toList⟩ := by
  have hc : ∀ entry ∈ (Catalog.builtin "//".toList).entries, entry.IsConsistent := by decide
  have hg := Catalog.ofCatalog_of_isConsistent hc
  have hstray : IsStray (Catalog.builtin "//".toList) "//".toList 'b' :=
    ⟨by decide, by decide, by decide, by decide⟩
  have hk : 1 < "//".toList.length := by decide
  obtain ⟨hlast, hnone⟩ := isLastPlace_and_noneContinues hc hg hstray hk
  exact ⟨_, hg, hlast, hnone, split_of_overlapping hc hg hstray Nat.one_pos hk (by decide), rfl⟩

end Recast.Chain

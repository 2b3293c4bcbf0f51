/-
  Recast chains — the tokens of any text.

  A text has tokens whether or not it is typed well.  What cannot begin a call is passed over, one
  character at a time.

  * `Token.Calls`: a token is the key of an entry with as many quoted arguments as the entry takes;
    `BeginsCall`: a text begins with such a token;
  * `token?_eq_some_iff_calls`, `token?_eq_none_iff`: the grammar sees the longest call, if there is
    one;
  * `IsTokenization entries chain found`: calls in a text, in order and apart, each as long as
    possible, and none is missed;
  * `exists_isTokenization`: there is exactly one such list, and it is that of the tokens.
-/
import Recast.Proofs.Chain.Typed
import Recast.Proofs.Text.Cover

namespace Recast.Chain

open Text (Placed)

/-- A token calls an entry: it is the key and as many quoted arguments as the entry takes. -/
structure Token.Calls (token : Token) (entry : Entry) (quoteds : List Quoted) : Prop where
  key : token.key = entry.key
  tail : token.tail = Quoted.rowText quoteds
  required_le : entry.arity.required ≤ quoteds.length
  length_le : quoteds.length ≤ entry.arity.total

theorem Token.Calls.arguments {token : Token} {entry : Entry} {quoteds : List Quoted}
    (h : token.Calls entry quoteds) : token.arguments = quoteds.map Quoted.body := by
  rw [Token.arguments, h.tail]
  exact Quoted.quotedFrom_rowText quoteds

theorem Token.Calls.length_arguments {token : Token} {entry : Entry} {quoteds : List Quoted}
    (h : token.Calls entry quoteds) : token.arguments.length = quoteds.length := by
  rw [h.arguments, List.length_map]

/-- A text begins with a call of an entry. -/
def BeginsCall (entries : List Entry) (s : Text) : Prop :=
  ∃ entry ∈ entries, ∃ token quoteds, Token.Calls token entry quoteds ∧ token.text <+: s

/-- The tokens of a text with their places. -/
structure IsTokenization (entries : List Entry) (chain : Text) (found : List (Placed Token)) :
    Prop where
  /-- each is a part of the text -/
  part : ∀ x ∈ found, x.item.text <+: chain.drop x.place
  /-- each ends before the next begins -/
  apart : found.Pairwise fun x y => x.stop Token.text ≤ y.place
  /-- each is a call, with the arguments that are between its quotes, and it has as many as its entry
      takes or no quoted argument follows it -/
  longest : ∀ x ∈ found, ∃ entry ∈ entries, ∃ quoteds, x.item.Calls entry quoteds ∧
    x.item.arguments = quoteds.map Quoted.body ∧
    (quoteds.length = entry.arity.total ∨
      ∀ quoted : Quoted, ¬ quoted.text <+: chain.drop (x.stop Token.text))
  /-- at each character outside them, no call begins -/
  not_missed : ∀ place < chain.length,
    (∀ x ∈ found, place < x.place ∨ x.stop Token.text ≤ place) →
      ¬ BeginsCall entries (chain.drop place)

section
variable {catalog : Catalog} {grammar : Grammar}
  (hc : ∀ entry ∈ catalog.entries, entry.IsConsistent) (hg : Grammar.ofCatalog catalog = .ok grammar)
  {c : Char} {rest chain : Text}
include hc hg

/-! ## At one character -/

/-- **The grammar sees the longest call.** -/
theorem token?_eq_some_iff_calls {token : Token} {more : Nat} :
    grammar.token? c rest = some (token, more) ↔
      token.text.length = more + 1 ∧ token.text <+: c :: rest ∧
        ∃ entry ∈ catalog.entries, ∃ quoteds, token.Calls entry quoteds ∧
          (quoteds.length = entry.arity.total ∨
            ∀ quoted : Quoted, ¬ quoted.text <+: (c :: rest).drop token.text.length) := by
  rw [Grammar.token?_eq_some_iff hc hg]
  constructor
  · rintro ⟨entry, hentry, ⟨hkey, hrequired⟩, rfl, rfl⟩
    refine ⟨rfl, ?_, entry, hentry, entry.row rest,
      ⟨hkey.symm, rfl, hrequired, Quoted.length_row_le _ _⟩, ?_⟩
    · exact (List.prefix_cons_inj c).2 (Quoted.rowText_row_prefix _ _)
    · refine (Quoted.length_row_eq_or_leading?_eq_none _ _).imp id fun hnone quoted hquoted => ?_
      have hsome : Quoted.leading? (rest.drop (Quoted.rowText (entry.row rest)).length) =
          some quoted := Quoted.leading?_eq_some_iff.2 hquoted
      exact Option.some_ne_none _ (hsome.symm.trans hnone)
  · rintro ⟨hlength, hprefix, entry, hentry, quoteds, hcalls, hend⟩
    obtain ⟨key, tail⟩ := token
    obtain ⟨hkey, htail, hrequired, htotal⟩ := hcalls
    dsimp only at hkey htail
    subst hkey htail
    obtain ⟨rfl, hrest⟩ := List.cons_prefix_cons.1 hprefix
    obtain ⟨after, rfl⟩ := hrest
    have hrow : entry.row (Quoted.rowText quoteds ++ after) = quoteds := by
      refine Quoted.row_rowText_append quoteds htotal (hend.imp id fun hnone => ?_)
      refine Option.eq_none_iff_forall_ne_some.2 fun quoted hquoted => hnone quoted ?_
      have hafter : ((entry.key :: Quoted.rowText quoteds) ++ after).drop
          (Token.text ⟨entry.key, Quoted.rowText quoteds⟩).length = after := List.drop_left
      rw [← List.cons_append, hafter]
      exact Quoted.leading?_eq_some_iff.1 hquoted
    refine ⟨entry, hentry, ⟨rfl, by rwa [hrow]⟩, by rw [hrow], ?_⟩
    rw [hrow]
    exact (Nat.succ.inj hlength).symm

theorem token?_eq_none_iff :
    grammar.token? c rest = none ↔ ¬ BeginsCall catalog.entries (c :: rest) := by
  constructor
  · rintro hnone ⟨entry, hentry, ⟨key, tail⟩, quoteds, ⟨hkey, htail, hrequired, htotal⟩, hprefix⟩
    dsimp only at hkey htail
    subst hkey htail
    obtain ⟨rfl, hrest⟩ := List.cons_prefix_cons.1 hprefix
    have hcalled : entry.IsCalled entry.key rest :=
      ⟨rfl, hrequired.trans (Quoted.length_le_length_row hrest htotal)⟩
    rw [(Grammar.token?_eq_some_iff hc hg).2 ⟨entry, hentry, hcalled, rfl, rfl⟩] at hnone
    exact absurd hnone (by simp)
  · intro hnot
    refine Option.eq_none_iff_forall_ne_some.2 fun ⟨token, more⟩ hsome => hnot ?_
    obtain ⟨-, hprefix, entry, hentry, quoteds, hcalls, -⟩ :=
      (token?_eq_some_iff_calls hc hg).1 hsome
    exact ⟨entry, hentry, token, quoteds, hcalls, hprefix⟩

/-- What begins no call is passed over, one character at a time. -/
theorem tokens_cons_of_not_beginsCall (h : ¬ BeginsCall catalog.entries (c :: rest)) :
    grammar.tokens (c :: rest) = grammar.tokens rest := by
  unfold Grammar.tokens
  rw [Text.cover_cons_of_none ((token?_eq_none_iff hc hg).2 h), Text.items_loose]

theorem exists_calls_of_mem_tokens {token : Token} (h : token ∈ grammar.tokens chain) :
    ∃ entry ∈ catalog.entries, ∃ quoteds, token.Calls entry quoteds := by
  obtain ⟨c, rest, more, hfind, -⟩ := Text.exists_of_mem_items h
  obtain ⟨-, -, entry, hentry, quoteds, hcalls, -⟩ := (token?_eq_some_iff_calls hc hg).1 hfind
  exact ⟨entry, hentry, quoteds, hcalls⟩

/-! ## In a text -/

theorem isTokenization_iff_isCoverFrom {found : List (Placed Token)} :
    IsTokenization catalog.entries chain found ↔
      Text.IsCoverFrom grammar.token? Token.text chain 0 found := by
  constructor
  · intro h
    refine ⟨fun x _ => Nat.zero_le _, fun x hx => ?_, h.apart,
      fun place c rest _ hdrop houtside => ?_⟩
    · obtain ⟨entry, hentry, quoteds, hcalls, -, hend⟩ := h.longest x hx
      have hpart := h.part x hx
      cases hdrop : chain.drop x.place with
      | nil =>
        rw [hdrop] at hpart
        exact absurd (List.prefix_nil.1 hpart) (List.cons_ne_nil _ _)
      | cons c rest =>
        refine ⟨c, rest, x.item.tail.length, rfl, (token?_eq_some_iff_calls hc hg).2
          ⟨rfl, hdrop ▸ hpart, entry, hentry, quoteds, hcalls, ?_⟩⟩
        rw [← hdrop, List.drop_drop]
        exact hend
    · have hlt : place < chain.length := by
        by_contra hge
        rw [List.drop_eq_nil_of_le (Nat.not_lt.1 hge)] at hdrop
        exact absurd hdrop (by simp)
      exact (token?_eq_none_iff hc hg).2 (hdrop ▸ h.not_missed place hlt houtside)
  · intro h
    refine ⟨fun x hx => ?_, h.apart, fun x hx => ?_, fun place hlt houtside => ?_⟩
    · obtain ⟨c, rest, more, hdrop, hseen⟩ := h.seen x hx
      rw [hdrop]
      exact ((token?_eq_some_iff_calls hc hg).1 hseen).2.1
    · obtain ⟨c, rest, more, hdrop, hseen⟩ := h.seen x hx
      obtain ⟨-, -, entry, hentry, quoteds, hcalls, hend⟩ :=
        (token?_eq_some_iff_calls hc hg).1 hseen
      refine ⟨entry, hentry, quoteds, hcalls, hcalls.arguments, ?_⟩
      rw [← hdrop, List.drop_drop] at hend
      exact hend
    · have hdrop := List.drop_eq_getElem_cons hlt
      rw [hdrop]
      exact (token?_eq_none_iff hc hg).1
        (h.not_missed place _ _ (Nat.zero_le _) hdrop houtside)

end

/-- **The tokens of any text.**  For a consistent catalog, a text has exactly one tokenization, and
    its tokens are those that the grammar finds.  A character at which no call begins is passed over,
    and the search goes on at the next one. -/
theorem exists_isTokenization {entries : List Entry} {catalog : Catalog} {grammar : Grammar}
    (hcatalog : Catalog.ofList entries = .ok catalog)
    (hc : ∀ entry ∈ entries, entry.IsConsistent) (hg : Grammar.ofCatalog catalog = .ok grammar)
    (chain : Text) :
    (∃ found, found.map Placed.item = grammar.tokens chain ∧
      ∀ other, IsTokenization entries chain other ↔ other = found) ∧
    ∀ c rest, chain = c :: rest → ¬ BeginsCall entries chain →
      grammar.tokens chain = grammar.tokens rest := by
  obtain rfl := Catalog.entries_of_ofList hcatalog
  refine ⟨⟨Text.placed Token.text 0 (Text.cover grammar.token? chain), ?_, fun other => ?_⟩, ?_⟩
  · exact Text.map_item_placed _ _ _
  · rw [isTokenization_iff_isCoverFrom hc hg,
      Text.isCoverFrom_iff fun _ _ _ _ => Grammar.text_of_token?, List.drop_zero]
  · rintro c rest rfl hnot
    exact tokens_cons_of_not_beginsCall hc hg hnot

/-- A text with quotes that are not closed, a quote without a space before it, and a key without its
    argument. -/
theorem exists_isTokenization_malformed :
    let entries : List Entry :=
      [⟨'l', .lowercase, "Lowercase".toList, none, ⟨0, 0⟩, false, .bare⟩,
        ⟨'S', .slugify, "Slugify".toList, none, ⟨0, 1⟩, false, .call 'S' ⟨0, 1⟩⟩,
        ⟨'R', .replace, "Replace".toList, none, ⟨1, 1⟩, false, .call 'R' ⟨1, 1⟩⟩]
    ∃ catalog grammar found, Catalog.ofList entries = .ok catalog ∧
      (∀ entry ∈ entries, entry.IsConsistent) ∧ Grammar.ofCatalog catalog = .ok grammar ∧
      IsTokenization entries "S'x'R \"it's\"l R \"S".toList found ∧
      found.map Placed.item =
        [⟨'S', []⟩, ⟨'R', " \"it's\"".toList⟩, ⟨'l', []⟩, ⟨'S', []⟩] := by
  intro entries
  let catalog : Catalog := ⟨entries, by decide, by decide⟩
  have hcatalog : Catalog.ofList entries = .ok catalog := rfl
  have hc : ∀ entry ∈ catalog.entries, entry.IsConsistent := by decide
  have hg := Catalog.ofCatalog_of_isConsistent hc
  obtain ⟨⟨found, htokens, hunique⟩, -⟩ :=
    exists_isTokenization hcatalog hc hg "S'x'R \"it's\"l R \"S".toList
  exact ⟨catalog, _, found, hcatalog, hc, hg, (hunique found).2 rfl, htokens.trans rfl⟩

end Recast.Chain

/-
  Recast chains — tokens whose keys are known.

  A token is found by a pattern and looked up by its key.  An entry has both, and nothing makes its
  pattern begin with its own key: a token that it finds may have the key of another entry, or of none.

  * `Entry.IsGenerated`: the pattern of an entry is empty, or that of some key and arity;
  * `exists_token?_iff`: with such patterns, a token is found where a key that is typed alone stands, or
    the key of a pattern with the arguments the pattern requires (`Takes`);
  * `isKnown_tokens_iff`: all tokens of all texts are known if and only if each pattern begins with the
    key of an entry; `exists_unknown_token_of_renamed`: an entry that only gets another key.
-/
import Recast.Proofs.Command.Catalog
import Recast.Proofs.Text.Cover

namespace Recast

open Regex
open Chain (Quoted Grammar Token)

/-- The pattern of an entry is empty or that of some key and arity, which need not be its own. -/
def Entry.IsGenerated (entry : Entry) : Prop :=
  entry.pattern = .bare ∨ ∃ key arity, entry.pattern = .call key arity

/-- The pattern of an entry is empty or begins with the key of one of the entries. -/
def Entry.IsCallable (entries : List Entry) (entry : Entry) : Prop :=
  entry.pattern = .bare ∨
    ∃ key arity, entry.pattern = .call key arity ∧ ∃ other ∈ entries, other.key = key

namespace Catalog

variable {catalog : Catalog} {key : Entry → Char} {arity : Entry → Arity}

/-- The pattern of a call has the key and the arity that are given for its entry. -/
def CallsBy (catalog : Catalog) (key : Entry → Char) (arity : Entry → Arity) : Prop :=
  ∀ entry ∈ catalog.calls, entry.pattern = .call (key entry) (arity entry)

theorem mem_calls {entry : Entry} (hentry : entry ∈ catalog.entries) {k : Char} {a : Arity}
    (hpattern : entry.pattern = .call k a) : entry ∈ catalog.calls := by
  refine List.mem_filter.2 ⟨hentry, ?_⟩
  simp [hpattern, Pattern.isEmpty, Pattern.call, escapedSource_ne_nil]

theorem exists_callsBy {p : Char → Prop} (h : ∀ entry ∈ catalog.entries,
      entry.pattern = .bare ∨ ∃ key arity, entry.pattern = .call key arity ∧ p key) :
    ∃ key arity, catalog.CallsBy key arity ∧ ∀ entry ∈ catalog.calls, p (key entry) := by
  have hcalls : ∀ entry ∈ catalog.calls, ∃ key arity, entry.pattern = .call key arity ∧ p key := by
    intro entry hentry
    obtain ⟨hmem, hempty⟩ := List.mem_filter.1 hentry
    refine (h entry hmem).resolve_left fun hbare => ?_
    rw [hbare] at hempty
    exact absurd hempty (by decide)
  have : Nonempty Arity := ⟨⟨0, 0⟩⟩
  choose! key arity hcalls using hcalls
  exact ⟨key, arity, fun entry hentry => (hcalls entry hentry).1,
    fun entry hentry => (hcalls entry hentry).2⟩

theorem ofCatalog_of_callsBy (hcalls : catalog.CallsBy key arity) :
    Grammar.ofCatalog catalog =
      .ok ⟨anyOf ((catalog.alternativesBy key arity).map Regex.sequence)⟩ :=
  ofCatalog_of_source_eq fun entry hentry => congrArg Pattern.source (hcalls entry hentry)

end Catalog

namespace Chain

section
variable {catalog : Catalog} {key : Entry → Char} {arity : Entry → Arity} {grammar : Grammar}
  (hcalls : catalog.CallsBy key arity) (hg : Grammar.ofCatalog catalog = .ok grammar)
include hcalls hg

/-- **Where a token is found**: where an alternative takes something. -/
theorem exists_token?_iff {c : Char} {rest : Text} :
    (∃ found, grammar.token? c rest = some found) ↔
      ∃ more, catalog.Takes key arity c rest more := by
  rw [Catalog.ofCatalog_of_callsBy hcalls] at hg
  obtain rfl := Except.ok.inj hg
  constructor
  · rintro ⟨⟨token, more⟩, hfound⟩
    exact ⟨more, Catalog.takes_of_match?_anyOf (Grammar.token?_spec.1 hfound).1⟩
  · rintro ⟨more, htakes⟩
    obtain ⟨more, hmore⟩ := htakes.exists_match?_anyOf
    exact ⟨_, Grammar.token?_spec.2 ⟨hmore, rfl⟩⟩

end

theorem Grammar.key_of_token? {grammar : Grammar} {c : Char} {rest : Text} {token : Token}
    {more : Nat} (h : grammar.token? c rest = some (token, more)) : token.key = c :=
  (List.cons.inj (Grammar.text_of_token? h)).1

theorem Token.isKnown_iff {catalog : Catalog} {token : Token} :
    token.isKnown catalog = true ↔ ∃ entry ∈ catalog.entries, entry.key = token.key := by
  unfold isKnown
  cases hresolve : catalog.resolve token.key with
  | ok entry => exact iff_of_true rfl ⟨entry, Catalog.resolve_eq_ok_iff.1 hresolve⟩
  | error error =>
    refine iff_of_false (by simp [Except.isOk, Except.toBool]) ?_
    rintro ⟨entry, hentry⟩
    rw [Catalog.resolve_eq_ok_iff.2 hentry] at hresolve
    exact absurd hresolve (by simp)

/-- A quoted argument that is empty. -/
def Quoted.blank : Quoted :=
  ⟨'\'', [], by decide, by simp⟩

/-- The shortest text that a pattern matches finds a token with the key of the pattern. -/
theorem exists_mem_tokens {catalog : Catalog} {key : Entry → Char} {arity : Entry → Arity}
    {grammar : Grammar} (hcalls : catalog.CallsBy key arity)
    (hg : Grammar.ofCatalog catalog = .ok grammar) {entry : Entry} (hentry : entry ∈ catalog.calls) :
    ∃ chain, ∃ token ∈ grammar.tokens chain, token.key = key entry := by
  have hrow : (arity entry).required ≤ (Quoted.row (arity entry).total
      (Quoted.rowText (List.replicate (arity entry).required Quoted.blank))).length := by
    have hle : (List.replicate (arity entry).required Quoted.blank).length ≤
        (arity entry).total := by
      rw [List.length_replicate]
      exact Nat.le_add_right _ _
    have hlength := Quoted.length_le_length_row (List.prefix_refl _) hle
    rwa [List.length_replicate] at hlength
  obtain ⟨⟨token, more⟩, hfound⟩ :=
    (exists_token?_iff hcalls hg).2 ⟨_, .call hentry rfl hrow⟩
  have htoken : token ∈ grammar.tokens (key entry ::
      Quoted.rowText (List.replicate (arity entry).required Quoted.blank)) := by
    rw [Grammar.tokens, Text.cover_cons_of_some hfound, Text.items_item]
    exact List.mem_cons_self
  exact ⟨_, token, htoken, Grammar.key_of_token? hfound⟩

/-- **When all tokens are known.**  Let the patterns of a catalog be empty or made of keys and
    arities.  Then its source is understood, and all tokens of all texts have keys of entries if and
    only if each pattern has one.  The tokens of a text are known if and only if as many commands are
    attempted as there are tokens. -/
theorem isKnown_tokens_iff {entries : List Entry} {catalog : Catalog}
    (hcatalog : Catalog.ofList entries = .ok catalog)
    (hgenerated : ∀ entry ∈ entries, entry.IsGenerated) :
    ∃ grammar, Grammar.ofCatalog catalog = .ok grammar ∧
      ((∀ chain, ∀ token ∈ grammar.tokens chain, token.isKnown catalog = true) ↔
        ∀ entry ∈ entries, entry.IsCallable entries) ∧
      ∀ chain, (∀ token ∈ grammar.tokens chain, token.isKnown catalog = true) ↔
        (attempted catalog (grammar.tokens chain)).length = (grammar.tokens chain).length := by
  obtain rfl := Catalog.entries_of_ofList hcatalog
  obtain ⟨key, arity, hcalls, -⟩ := Catalog.exists_callsBy (p := fun _ => True) fun entry hentry =>
    (hgenerated entry hentry).imp_right fun ⟨k, a, hpattern⟩ => ⟨k, a, hpattern, trivial⟩
  have hg := Catalog.ofCatalog_of_callsBy hcalls
  refine ⟨_, hg, ⟨fun hknown entry hentry => ?_, fun hcallable chain token htoken => ?_⟩,
    fun chain => ?_⟩
  · refine (hgenerated entry hentry).imp_right fun ⟨k, a, hpattern⟩ => ?_
    have hmem := Catalog.mem_calls hentry hpattern
    obtain ⟨chain, token, htoken, hkey⟩ := exists_mem_tokens hcalls hg hmem
    obtain ⟨other, hother, hotherkey⟩ := Token.isKnown_iff.1 (hknown chain token htoken)
    exact ⟨key entry, arity entry, hcalls entry hmem, other, hother, hotherkey.trans hkey⟩
  · -- the same grammar, seen through the keys that are those of entries
    obtain ⟨key', arity', hcalls', hkeys⟩ := Catalog.exists_callsBy hcallable
    obtain ⟨c, rest, more, hfound, -⟩ := Text.exists_of_mem_items htoken
    rw [Token.isKnown_iff, Grammar.key_of_token? hfound]
    obtain ⟨more, htakes⟩ := (exists_token?_iff hcalls' hg).1 ⟨_, hfound⟩
    cases htakes with
    | @bare entry hentry hkey => exact ⟨entry, (List.mem_filter.1 hentry).1, hkey⟩
    | @call entry hentry hkey => exact hkey ▸ hkeys entry hentry
  · rw [attempted_eq, List.length_map, steps, List.filterMap_length_eq_length]
    exact forall₂_congr fun token _ => by rw [Token.isKnown_eq]

/-- Two entries, each with the pattern of the other one's key. -/
theorem isKnown_tokens_swapped :
    let entries : List Entry :=
      [⟨'x', .replace, "Replace".toList, none, ⟨1, 1⟩, false, .call 'y' ⟨1, 1⟩⟩,
        ⟨'y', .slugify, "Slugify".toList, none, ⟨0, 1⟩, false, .call 'x' ⟨0, 2⟩⟩,
        ⟨'z', .trim, "Trim".toList, none, ⟨0, 0⟩, false, .bare⟩]
    ∃ catalog grammar, Catalog.ofList entries = .ok catalog ∧
      (∀ entry ∈ entries, entry.IsGenerated) ∧ Grammar.ofCatalog catalog = .ok grammar ∧
      (∀ entry ∈ entries, entry.IsCallable entries) ∧
      ∀ chain, ∀ token ∈ grammar.tokens chain, token.isKnown catalog = true := by
  intro entries
  let catalog : Catalog := ⟨entries, by decide, by decide⟩
  have hcatalog : Catalog.ofList entries = .ok catalog := rfl
  have hcallable : ∀ entry ∈ entries, entry.IsCallable entries :=
    List.forall_mem_cons.2 ⟨.inr ⟨'y', ⟨1, 1⟩, rfl, by decide⟩,
      List.forall_mem_cons.2 ⟨.inr ⟨'x', ⟨0, 2⟩, rfl, by decide⟩,
        List.forall_mem_singleton.2 (.inl rfl)⟩⟩
  have hgenerated : ∀ entry ∈ entries, entry.IsGenerated := fun entry hentry =>
    (hcallable entry hentry).imp_right fun ⟨k, a, hpattern, _⟩ => ⟨k, a, hpattern⟩
  obtain ⟨grammar, hg, hknown, -⟩ := isKnown_tokens_iff hcatalog hgenerated
  exact ⟨catalog, grammar, hcatalog, hgenerated, hg, hcallable, hknown.2 hcallable⟩

/-- **A token that is not known.**  An entry that gets another key, and keeps its pattern, makes a
    catalog whose grammar finds a token by the old key.  No entry has that key: the token is not
    attempted, and a run passes over it. -/
theorem exists_unknown_token_of_renamed :
    let entry : Entry := { Entry.ofCommand " /".toList .replace with key := 'x' }
    ∃ catalog grammar, Catalog.ofList [entry] = .ok catalog ∧
      Grammar.ofCatalog catalog = .ok grammar ∧
      grammar.tokens "R 'a'".toList = [⟨'R', " 'a'".toList⟩] ∧
      catalog.resolve 'R' = .error (.unknownKey 'R') ∧
      attempted catalog (grammar.tokens "R 'a'".toList) = [] ∧
      run catalog "banana".toList (grammar.tokens "R 'a'".toList) = .ok ⟨"banana".toList, []⟩ := by
  intro entry
  exact ⟨⟨[entry], by decide, by decide⟩, _, rfl, rfl, rfl, rfl, rfl, rfl⟩

end Chain

end Recast

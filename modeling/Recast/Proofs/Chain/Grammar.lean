/-
  Recast chains — the grammar of a consistent catalog.

  A catalog is consistent if the pattern of each entry is what its key and its arity say.  Its grammar
  is read from one source, in which the keys of all entries stand next to each other, escaped.

  * `Catalog.alternativesBy key arity` are the alternatives of a catalog in which the pattern of each
    call is that of some key and some arity; `ofCatalog_of_source_eq`: its source is understood;
  * `Takes` says what an alternative takes; `takes_of_match?_anyOf`, `Takes.exists_match?_anyOf`: all of
    them together take what one of them does, and something wherever one does;
  * `ofCatalog_of_isConsistent`: the source of a consistent catalog is understood, with the keys and
    arities of its entries;
  * `token?_eq_some_iff`: a token starts where an entry's key stands before as many quoted arguments
    as the entry requires, and takes as many as the entry allows.
-/
import Mathlib.Data.List.Nodup
import Recast.Proofs.Chain.Pattern

namespace Recast

open Regex
open Chain (Quoted Grammar Token)

/-- The pattern of an entry is what its key and its arity say: none for a key without arguments, and
    else the key, escaped, and its arguments. -/
def Entry.IsConsistent (entry : Entry) : Prop :=
  (entry.pattern.source = [] ∧ entry.arity = ⟨0, 0⟩) ∨
    (entry.pattern.source = escapedSource entry.key ++ entry.arity.source ∧ 0 < entry.arity.total)

instance (entry : Entry) : Decidable entry.IsConsistent :=
  inferInstanceAs (Decidable (_ ∨ _))

/-- The quoted arguments that belong to a call of an entry, if `rest` is behind its key. -/
def Entry.row (entry : Entry) (rest : Text) : List Quoted :=
  Quoted.row entry.arity.total rest

/-- An entry is called by the character `c` before `rest`. -/
def Entry.IsCalled (entry : Entry) (c : Char) (rest : Text) : Prop :=
  entry.key = c ∧ entry.arity.required ≤ (entry.row rest).length

theorem escapedSource_ne_nil (c : Char) : escapedSource c ≠ [] := by
  unfold escapedSource
  split <;> simp

namespace Catalog

variable {catalog : Catalog}

theorem eq_of_key_eq {entry other : Entry} (h : entry ∈ catalog.entries)
    (ho : other ∈ catalog.entries) (hkey : entry.key = other.key) : entry = other :=
  List.inj_on_of_nodup_map catalog.distinct h ho hkey

/-! ## The source -/

/-- The entries that are called by their keys alone. -/
def bare (catalog : Catalog) : List Entry :=
  catalog.entries.filter fun entry => entry.pattern.isEmpty

/-- The entries that are called with arguments. -/
def calls (catalog : Catalog) : List Entry :=
  catalog.entries.filter fun entry => !entry.pattern.isEmpty

/-- The sources of the alternatives: a class of keys, and the patterns of the calls. -/
def alternativeSources (catalog : Catalog) : List Text :=
  (if catalog.bare = [] then []
    else ['[' :: ((catalog.bare.map Entry.key).flatMap escapedSource ++ [']'])]) ++
    catalog.calls.map fun entry => entry.pattern.source

/-- The parts of the alternatives, if the pattern of each call is that of some key and some arity. -/
def alternativesBy (catalog : Catalog) (key : Entry → Char) (arity : Entry → Arity) :
    List (List Regex) :=
  (if catalog.bare = [] then [] else [[.one ⟨false, catalog.bare.map Entry.key⟩]]) ++
    catalog.calls.map fun entry => .one (.only (key entry)) :: (arity entry).parts

/-- The parts of the alternatives, if the pattern of each call is that of its own key and arity. -/
def alternatives (catalog : Catalog) : List (List Regex) :=
  catalog.alternativesBy Entry.key Entry.arity

theorem source_eq_intercalate (catalog : Catalog) :
    catalog.source = ['|'].intercalate catalog.alternativeSources := by
  have hkeys : (catalog.bare.flatMap fun entry => escapedSource entry.key).isEmpty = true ↔
      catalog.bare = [] := by
    rw [List.isEmpty_iff, List.flatMap_eq_nil_iff]
    constructor
    · intro h
      exact List.eq_nil_iff_forall_not_mem.2 fun entry hmem =>
        escapedSource_ne_nil _ (h entry hmem)
    · intro h entry hmem
      simp [h] at hmem
  unfold alternativeSources
  rw [List.flatMap_map]
  change ['|'].intercalate (_ ++ _) = _
  congr 2
  exact if_congr hkeys rfl rfl

section
variable {key : Entry → Char} {arity : Entry → Arity}
  (hcalls : ∀ entry ∈ catalog.calls,
    entry.pattern.source = escapedSource (key entry) ++ (arity entry).source)
include hcalls

theorem forall₂_spells : List.Forall₂ Spells catalog.alternativeSources
    (catalog.alternativesBy key arity) := by
  unfold alternativeSources alternativesBy
  refine List.rel_append ?_ ?_
  · by_cases hbare : catalog.bare = []
    · rw [if_pos hbare, if_pos hbare]
      exact .nil
    · rw [if_neg hbare, if_neg hbare]
      exact .cons (spells_class (by simpa using hbare)) .nil
  · rw [List.forall₂_map_left_iff, List.forall₂_map_right_iff, List.forall₂_same]
    intro entry h
    rw [hcalls entry h]
    exact (spells_escapedSource (key entry)).append (spells_source (arity entry))

theorem ofCatalog_of_source_eq : Grammar.ofCatalog catalog =
    .ok ⟨anyOf ((catalog.alternativesBy key arity).map Regex.sequence)⟩ := by
  unfold Grammar.ofCatalog
  rw [source_eq_intercalate, ofSource?_intercalate (forall₂_spells hcalls)]

end

/-! ## Matching -/

theorem match?_class (keys : List Char) (c : Char) (rest : Text) :
    match? (Regex.sequence [.one ⟨false, keys⟩]) (c :: rest) =
      if c ∈ keys then some 1 else none := by
  simp [match?, Regex.sequence, Regex.run, CharSet.has]

theorem match?_call (key : Char) (arity : Arity) (c : Char) (rest : Text) :
    match? (Regex.sequence (.one (.only key) :: arity.parts)) (c :: rest) =
      if c = key ∧ arity.required ≤ (Quoted.row arity.total rest).length then
        some (1 + (Quoted.rowText (Quoted.row arity.total rest)).length)
      else none := by
  have hrun : match? (Regex.sequence (.one (.only key) :: arity.parts)) (c :: rest) =
      if c = key then
        Regex.run (Regex.sequence arity.parts) (fun _ taken => some taken) rest 1
      else none := by
    simp [match?, Regex.sequence, Regex.run]
  rw [hrun, Chain.run_parts, ite_and]

/-- An alternative takes a key that is typed alone, or the key of a pattern and the quoted arguments
    behind it, if there are as many as its arity requires.  `more` counts the characters behind the
    key. -/
inductive Takes (catalog : Catalog) (key : Entry → Char) (arity : Entry → Arity) (c : Char)
    (rest : Text) : (more : Nat) → Prop
  | bare {entry} : entry ∈ catalog.bare → entry.key = c → Takes catalog key arity c rest 0
  | call {entry} : entry ∈ catalog.calls → key entry = c →
      (arity entry).required ≤ (Quoted.row (arity entry).total rest).length →
      Takes catalog key arity c rest
        (Quoted.rowText (Quoted.row (arity entry).total rest)).length

section
variable {key : Entry → Char} {arity : Entry → Arity} {c : Char} {rest : Text}

theorem exists_takes_of_match? {parts : List Regex}
    (hparts : parts ∈ catalog.alternativesBy key arity) {n : Nat}
    (h : match? (Regex.sequence parts) (c :: rest) = some n) :
    ∃ more, n = more + 1 ∧ catalog.Takes key arity c rest more := by
  rcases List.mem_append.1 hparts with hclass | hcall
  · have hclass : parts = [.one ⟨false, catalog.bare.map Entry.key⟩] := by
      split_ifs at hclass
      · simp at hclass
      · simpa using hclass
    rw [hclass, match?_class] at h
    split_ifs at h with hkey
    obtain ⟨entry, hentry, hkey⟩ := List.mem_map.1 hkey
    exact ⟨0, (Option.some.inj h).symm, .bare hentry hkey⟩
  · obtain ⟨entry, hentry, rfl⟩ := List.mem_map.1 hcall
    rw [match?_call] at h
    split_ifs at h with hcalled
    exact ⟨_, (Option.some.inj h).symm.trans (Nat.add_comm _ _),
      .call hentry hcalled.1.symm hcalled.2⟩

theorem Takes.exists_match? {more : Nat} (h : catalog.Takes key arity c rest more) :
    ∃ parts ∈ catalog.alternativesBy key arity,
      match? (Regex.sequence parts) (c :: rest) = some (more + 1) := by
  cases h with
  | bare hentry hkey =>
    refine ⟨[.one ⟨false, catalog.bare.map Entry.key⟩], ?_, ?_⟩
    · rw [alternativesBy, if_neg (List.ne_nil_of_mem hentry)]
      exact List.mem_append_left _ List.mem_cons_self
    · rw [match?_class, if_pos (List.mem_map.2 ⟨_, hentry, hkey⟩)]
  | call hentry hkey hrow =>
    refine ⟨_, List.mem_append_right _ (List.mem_map.2 ⟨_, hentry, rfl⟩), ?_⟩
    rw [match?_call, if_pos ⟨hkey.symm, hrow⟩, Nat.add_comm]

/-- What the alternatives take together is what one of them takes. -/
theorem takes_of_match?_anyOf {more : Nat}
    (h : match? (anyOf ((catalog.alternativesBy key arity).map Regex.sequence)) (c :: rest) =
      some (more + 1)) :
    catalog.Takes key arity c rest more := by
  by_cases hnil : catalog.alternativesBy key arity = []
  · -- without entries, the source is empty and takes nothing
    simp [hnil, anyOf, match?, Regex.run] at h
  · rw [match?, run_anyOf _ (by simpa using hnil), List.findSome?_map] at h
    obtain ⟨parts, hparts, hmatch⟩ := List.exists_of_findSome?_eq_some h
    obtain ⟨taken, heq, htakes⟩ := exists_takes_of_match? hparts hmatch
    obtain rfl := Nat.succ.inj heq
    exact htakes

/-- Where one of the alternatives takes something, so do all of them together, but another one may
    come first. -/
theorem Takes.exists_match?_anyOf {more : Nat} (h : catalog.Takes key arity c rest more) :
    ∃ more', match? (anyOf ((catalog.alternativesBy key arity).map Regex.sequence)) (c :: rest) =
      some (more' + 1) := by
  obtain ⟨parts, hparts, hmatch⟩ := h.exists_match?
  rw [match?, run_anyOf _ (by simpa using List.ne_nil_of_mem hparts), List.findSome?_map]
  cases hfirst : (catalog.alternativesBy key arity).findSome? _ with
  | none =>
    rw [List.findSome?_eq_none_iff] at hfirst
    exact absurd (hmatch.symm.trans (hfirst parts hparts)) (by simp)
  | some n =>
    obtain ⟨first, hmem, hfirst⟩ := List.exists_of_findSome?_eq_some hfirst
    obtain ⟨more', rfl, -⟩ := exists_takes_of_match? hmem hfirst
    exact ⟨more', rfl⟩

end

/-! ## Consistent catalogs -/

section
variable (hc : ∀ entry ∈ catalog.entries, entry.IsConsistent)
include hc

theorem arity_of_mem_bare {entry : Entry} (h : entry ∈ catalog.bare) :
    entry ∈ catalog.entries ∧ entry.arity = ⟨0, 0⟩ := by
  obtain ⟨hmem, hempty⟩ := List.mem_filter.1 h
  refine ⟨hmem, ?_⟩
  rcases hc entry hmem with ⟨-, harity⟩ | ⟨hsource, -⟩
  · exact harity
  · rw [Pattern.isEmpty, hsource, List.isEmpty_iff, List.append_eq_nil_iff] at hempty
    exact absurd hempty.1 (escapedSource_ne_nil _)

theorem source_of_mem_calls {entry : Entry} (h : entry ∈ catalog.calls) :
    entry ∈ catalog.entries ∧
      entry.pattern.source = escapedSource entry.key ++ entry.arity.source := by
  obtain ⟨hmem, hempty⟩ := List.mem_filter.1 h
  refine ⟨hmem, ?_⟩
  rcases hc entry hmem with ⟨hsource, -⟩ | ⟨hsource, -⟩
  · simp [Pattern.isEmpty, hsource] at hempty
  · exact hsource

/-- **The source of a consistent catalog is understood**, whatever its keys and arities are. -/
theorem ofCatalog_of_isConsistent :
    Grammar.ofCatalog catalog = .ok ⟨anyOf (catalog.alternatives.map Regex.sequence)⟩ :=
  ofCatalog_of_source_eq fun _ h => (source_of_mem_calls hc h).2

variable {c : Char} {rest : Text} {more : Nat}

theorem takes_iff_isCalled :
    catalog.Takes Entry.key Entry.arity c rest more ↔
      ∃ entry ∈ catalog.entries, entry.IsCalled c rest ∧
        more = (Quoted.rowText (entry.row rest)).length := by
  have hbare : ∀ entry ∈ catalog.bare, entry.row rest = [] := by
    intro entry hentry
    simp [Entry.row, (arity_of_mem_bare hc hentry).2, Arity.total, Quoted.row]
  constructor
  · rintro (⟨hentry, hkey⟩ | ⟨hentry, hkey, hrow⟩)
    · obtain ⟨hmem, harity⟩ := arity_of_mem_bare hc hentry
      refine ⟨_, hmem, ⟨hkey, by simp [harity]⟩, ?_⟩
      rw [hbare _ hentry]
      rfl
    · exact ⟨_, (source_of_mem_calls hc hentry).1, ⟨hkey, hrow⟩, rfl⟩
  · rintro ⟨entry, hmem, ⟨hkey, hrow⟩, rfl⟩
    by_cases hempty : entry.pattern.isEmpty = true
    · have hentry : entry ∈ catalog.bare := List.mem_filter.2 ⟨hmem, hempty⟩
      rw [hbare entry hentry]
      exact .bare hentry hkey
    · exact .call (List.mem_filter.2 ⟨hmem, by simpa using hempty⟩) hkey hrow

/-- The alternatives match where an entry is called, and in no other way: keys tell entries apart, so
    the order of the alternatives does not matter. -/
theorem match?_eq_some_iff :
    match? (anyOf (catalog.alternatives.map Regex.sequence)) (c :: rest) = some (more + 1) ↔
      ∃ entry ∈ catalog.entries, entry.IsCalled c rest ∧
        more = (Quoted.rowText (entry.row rest)).length := by
  constructor
  · exact fun h => (takes_iff_isCalled hc).1 (takes_of_match?_anyOf h)
  · rintro ⟨entry, hentry, hcalled, rfl⟩
    have htakes := (takes_iff_isCalled hc).2 ⟨entry, hentry, hcalled, rfl⟩
    obtain ⟨more, hmore⟩ := htakes.exists_match?_anyOf
    obtain ⟨other, hother, hcalled', rfl⟩ :=
      (takes_iff_isCalled hc).1 (takes_of_match?_anyOf hmore)
    rwa [eq_of_key_eq hother hentry (hcalled'.1.trans hcalled.1.symm)] at hmore

end

end Catalog

namespace Chain.Grammar

variable {catalog : Catalog} {grammar : Grammar}
  (hc : ∀ entry ∈ catalog.entries, entry.IsConsistent) (hg : ofCatalog catalog = .ok grammar)
  {c : Char} {rest : Text}
include hc hg

/-- **A token starts where an entry is called**, and takes the key and the quoted arguments behind
    it. -/
theorem token?_eq_some_iff {token : Token} {more : Nat} :
    grammar.token? c rest = some (token, more) ↔
      ∃ entry ∈ catalog.entries, entry.IsCalled c rest ∧
        token = ⟨c, Quoted.rowText (entry.row rest)⟩ ∧
        more = (Quoted.rowText (entry.row rest)).length := by
  rw [Catalog.ofCatalog_of_isConsistent hc] at hg
  obtain rfl := Except.ok.inj hg
  have htake : ∀ entry : Entry, rest.take (Quoted.rowText (entry.row rest)).length =
      Quoted.rowText (entry.row rest) := fun entry =>
    List.prefix_iff_eq_take.1 (Quoted.rowText_row_prefix _ _) |>.symm
  rw [token?_spec, Catalog.match?_eq_some_iff hc]
  constructor
  · rintro ⟨⟨entry, hentry, hcalled, rfl⟩, rfl⟩
    exact ⟨entry, hentry, hcalled, by rw [htake], rfl⟩
  · rintro ⟨entry, hentry, hcalled, rfl, rfl⟩
    exact ⟨⟨entry, hentry, hcalled, rfl⟩, by rw [htake]⟩

theorem token?_eq_none (h : ∀ entry ∈ catalog.entries, entry.key ≠ c) :
    grammar.token? c rest = none := by
  cases htoken : grammar.token? c rest with
  | none => rfl
  | some found =>
    obtain ⟨entry, hentry, hcalled, -⟩ := (token?_eq_some_iff hc hg).1 htoken
    exact absurd hcalled.1 (h entry hentry)

end Chain.Grammar

end Recast

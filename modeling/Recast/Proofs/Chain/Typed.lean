/-
  Recast chains — typing calls, and finding them again.

  Calls are typed one after the other, with fillers before, between and behind them.  A filler has no
  key and no quote in it.

  * `typed? before calls` are the characters typed for some calls;
  * `typed?_append`: what is typed for some calls and then for others;
  * `cover_filler_append`, `cover_call_append`: a filler is loose, and a call is found as its token;
  * `tokens_and_loose_of_typed?`: the tokens of what is typed are those of the calls, and only the
    fillers are loose;
  * `tokens_of_typed?`: the round trip.
-/
import Recast.Proofs.Chain.Grammar

namespace Recast

theorem Catalog.entries_of_ofList {entries : List Entry} {catalog : Catalog}
    (h : Catalog.ofList entries = .ok catalog) : catalog.entries = entries := by
  unfold Catalog.ofList at h
  split at h
  · exact absurd h (by simp)
  · obtain rfl := Except.ok.inj h
    rfl

namespace Chain

/-- A call that is meant, with the filler typed behind it. -/
structure Call where
  key : Char
  args : List Text
  filler : Text

/-- What is typed for some calls, behind a filler; nothing if an argument cannot be typed. -/
def typed? (before : Text) : List Call → Option Text
  | [] => some before
  | call :: more =>
    (invocation? call.key call.args).bind fun invocation =>
      (typed? call.filler more).map fun rest => before ++ (invocation ++ rest)

/-- A text without keys and quotes. -/
def IsFiller (entries : List Entry) (s : Text) : Prop :=
  ∀ c ∈ s, isQuote c = false ∧ ∀ entry ∈ entries, entry.key ≠ c

instance (entries : List Entry) (s : Text) : Decidable (IsFiller entries s) :=
  List.decidableBAll _ s

/-- A call with the key of an entry, as many arguments as it takes, none of which has both quotes, and
    a filler. -/
structure Call.IsAllowed (entries : List Entry) (call : Call) : Prop where
  arity : ∃ entry ∈ entries, entry.key = call.key ∧
    entry.arity.required ≤ call.args.length ∧ call.args.length ≤ entry.arity.total
  args : ∀ arg ∈ call.args, ¬('\'' ∈ arg ∧ '"' ∈ arg)
  filler : IsFiller entries call.filler

instance (entries : List Entry) (call : Call) : Decidable (call.IsAllowed entries) :=
  decidable_of_iff
    ((∃ entry ∈ entries, entry.key = call.key ∧
        entry.arity.required ≤ call.args.length ∧ call.args.length ≤ entry.arity.total) ∧
      (∀ arg ∈ call.args, ¬('\'' ∈ arg ∧ '"' ∈ arg)) ∧ IsFiller entries call.filler)
    ⟨fun ⟨harity, hargs, hfiller⟩ => ⟨harity, hargs, hfiller⟩,
      fun ⟨harity, hargs, hfiller⟩ => ⟨harity, hargs, hfiller⟩⟩

/-- The token of a call: it is spelled as the call is typed, and has its key and its arguments. -/
structure Call.IsToken (call : Call) (token : Token) : Prop where
  text : invocation? call.key call.args = some token.text
  key : token.key = call.key
  arguments : token.arguments = call.args

theorem typed?_cons (c : Char) (before : Text) (calls : List Call) :
    typed? (c :: before) calls = (typed? before calls).map (c :: ·) := by
  cases calls with
  | nil => rfl
  | cons call calls =>
    simp only [typed?]
    cases invocation? call.key call.args <;> cases typed? call.filler calls <;> rfl

theorem exists_of_typed?_cons {before chain : Text} {call : Call} {calls : List Call}
    (h : typed? before (call :: calls) = some chain) :
    ∃ args rest, arguments? call.args = some args ∧ typed? call.filler calls = some rest ∧
      chain = before ++ call.key :: (args ++ rest) := by
  obtain ⟨invocation, hinvocation, h⟩ := Option.bind_eq_some_iff.1 h
  obtain ⟨args, hargs, rfl⟩ := Option.map_eq_some_iff.1 hinvocation
  obtain ⟨rest, hrest, rfl⟩ := Option.map_eq_some_iff.1 h
  exact ⟨args, rest, hargs, hrest, rfl⟩

theorem typed?_eq_map (before : Text) (calls : List Call) :
    typed? before calls = (typed? [] calls).map (before ++ ·) := by
  induction before with
  | nil => simp
  | cons c before ih =>
    rw [typed?_cons, ih, Option.map_map]
    rfl

variable {catalog : Catalog} {before chain : Text} {calls : List Call}

/-- Calls behind others are typed behind what is typed for these. -/
theorem typed?_append {more : List Call} {rest : Text} (hcalls : typed? before calls = some chain)
    (hmore : typed? [] more = some rest) :
    typed? before (calls ++ more) = some (chain ++ rest) := by
  induction calls generalizing before chain with
  | nil =>
    obtain rfl := Option.some.inj hcalls
    rw [List.nil_append, typed?_eq_map, hmore]
    rfl
  | cons call calls ih =>
    obtain ⟨args, tail, hargs, htail, rfl⟩ := exists_of_typed?_cons hcalls
    rw [List.cons_append, typed?, invocation?, hargs, ih htail]
    simp

theorem Call.IsAllowed.isTypeable {call : Call} (h : call.IsAllowed catalog.entries) :
    isTypeable call.key = true := by
  obtain ⟨entry, hentry, hkey, -⟩ := h.arity
  rw [← hkey]
  exact catalog.typeable entry hentry

theorem exists_typed? (before : Text)
    (hcalls : ∀ call ∈ calls, call.IsAllowed catalog.entries) :
    ∃ chain, typed? before calls = some chain := by
  induction calls generalizing before with
  | nil => exact ⟨before, rfl⟩
  | cons call calls ih =>
    obtain ⟨hcall, hcalls⟩ := List.forall_mem_cons.1 hcalls
    obtain ⟨args, hargs⟩ := Quoted.exists_arguments? hcall.args
    obtain ⟨rest, hrest⟩ := ih call.filler hcalls
    exact ⟨_, by rw [typed?, invocation?, hargs, hrest]; rfl⟩

section
variable (hb : IsFiller catalog.entries before)
  (hcalls : ∀ call ∈ calls, call.IsAllowed catalog.entries)
include hb hcalls

/-- What is typed does not begin with a quote. -/
theorem isQuote_head_typed? {c : Char} {rest : Text}
    (h : typed? before calls = some (c :: rest)) : isQuote c = false := by
  cases before with
  | cons d before =>
    rw [typed?_cons] at h
    obtain ⟨tail, -, htail⟩ := Option.map_eq_some_iff.1 h
    obtain ⟨rfl, rfl⟩ := List.cons.inj htail
    exact (hb d List.mem_cons_self).1
  | nil =>
    cases calls with
    | nil => exact absurd (Option.some.inj h) (by simp)
    | cons call calls =>
      obtain ⟨args, tail, -, -, htail⟩ := exists_of_typed?_cons h
      obtain ⟨rfl, -⟩ := List.cons.inj htail
      have htypeable := (hcalls call List.mem_cons_self).isTypeable
      simp only [isTypeable, Bool.not_eq_true', Bool.or_eq_false_iff] at htypeable
      exact htypeable.2

/-- So no quoted argument is typed behind the call before. -/
theorem leading?_typed? (h : typed? before calls = some chain) :
    Quoted.leading? chain = none := by
  refine Quoted.leading?_eq_none fun quote rest hchain => ?_
  subst hchain
  cases before with
  | cons c before =>
    rw [typed?_cons] at h
    obtain ⟨tail, htyped, htail⟩ := Option.map_eq_some_iff.1 h
    obtain ⟨-, rfl⟩ := List.cons.inj htail
    exact isQuote_head_typed? (fun d hd => hb d (List.mem_cons_of_mem _ hd)) hcalls htyped
  | nil =>
    cases calls with
    | nil => exact absurd (Option.some.inj h) (by simp)
    | cons call calls =>
      -- a key can be typed, so it is no space
      obtain ⟨args, tail, -, -, htail⟩ := exists_of_typed?_cons h
      obtain ⟨hspace, -⟩ := List.cons.inj htail
      have htypeable := (hcalls call List.mem_cons_self).isTypeable
      rw [← hspace] at htypeable
      exact absurd htypeable (by decide)

end

/-! ## The round trip -/

section
variable {grammar : Grammar} (hc : ∀ entry ∈ catalog.entries, entry.IsConsistent)
  (hg : Grammar.ofCatalog catalog = .ok grammar)
include hc hg

theorem cover_filler_append {filler : Text} (h : IsFiller catalog.entries filler) (s : Text) :
    Text.cover grammar.token? (filler ++ s) =
      filler.map .loose ++ Text.cover grammar.token? s := by
  induction filler with
  | nil => rfl
  | cons c filler ih =>
    obtain ⟨⟨-, hc'⟩, hfiller⟩ := List.forall_mem_cons.1 h
    rw [List.cons_append, Text.cover_cons_of_none (Grammar.token?_eq_none hc hg hc'), ih hfiller]
    rfl

/-- A call is found as its token, if no quoted argument follows it. -/
theorem cover_call_append {call : Call} (h : call.IsAllowed catalog.entries) {args rest : Text}
    (hargs : arguments? call.args = some args) (hrest : Quoted.leading? rest = none) :
    ∃ token, call.IsToken token ∧ Text.cover grammar.token? (call.key :: (args ++ rest)) =
      .item token :: Text.cover grammar.token? rest := by
  obtain ⟨entry, hentry, hkey, hrequired, htotal⟩ := h.arity
  obtain ⟨quoteds, rfl, hbody⟩ := Quoted.exists_row_of_arguments? hargs
  have hlength : quoteds.length = call.args.length := by rw [← hbody, List.length_map]
  have hrow : entry.row (Quoted.rowText quoteds ++ rest) = quoteds :=
    Quoted.row_rowText_append quoteds (hlength ▸ htotal) (.inr hrest)
  refine ⟨⟨call.key, Quoted.rowText quoteds⟩, ⟨?_, rfl, ?_⟩, ?_⟩
  · rw [invocation?, hargs]
    rfl
  · rw [← hbody]
    exact Quoted.quotedFrom_rowText quoteds
  · have htoken : grammar.token? call.key (Quoted.rowText quoteds ++ rest) =
        some (⟨call.key, Quoted.rowText quoteds⟩, (Quoted.rowText quoteds).length) :=
      (Grammar.token?_eq_some_iff hc hg).2 ⟨entry, hentry,
        ⟨hkey, by rw [hrow, hlength]; exact hrequired⟩, by rw [hrow], by rw [hrow]⟩
    rw [Text.cover_cons_of_some htoken, List.drop_left]

/-- **What is typed is found again**: the tokens are those of the calls, and only the fillers are
    loose. -/
theorem tokens_and_loose_of_typed? (hb : IsFiller catalog.entries before)
    (hcalls : ∀ call ∈ calls, call.IsAllowed catalog.entries)
    (h : typed? before calls = some chain) :
    List.Forall₂ Call.IsToken calls (grammar.tokens chain) ∧
      grammar.loose chain = before ++ calls.flatMap Call.filler := by
  unfold Grammar.tokens Grammar.loose
  induction calls generalizing before chain with
  | nil =>
    obtain rfl := Option.some.inj h
    have hcover := cover_filler_append hc hg hb []
    rw [List.append_nil] at hcover
    rw [hcover, Text.items_map_loose_append, Text.loose_map_loose_append]
    simp
  | cons call calls ih =>
    obtain ⟨hcall, hcalls⟩ := List.forall_mem_cons.1 hcalls
    obtain ⟨args, rest, hargs, hrest, rfl⟩ := exists_of_typed?_cons h
    obtain ⟨token, htoken, hcover⟩ :=
      cover_call_append hc hg hcall hargs (leading?_typed? hcall.filler hcalls hrest)
    obtain ⟨htokens, hloose⟩ := ih hcall.filler hcalls hrest
    rw [cover_filler_append hc hg hb, hcover]
    simp only [Text.items_map_loose_append, Text.items_item, Text.loose_map_loose_append,
      Text.loose_item, List.flatMap_cons]
    exact ⟨.cons htoken htokens, by rw [hloose]⟩

end

/-- **Round trip.**  If the calls of keys of a consistent catalog are typed, with fillers around them,
    they are found again as its tokens: in order, each spelled as it was typed, with its key and its
    arguments. -/
theorem tokens_of_typed? {entries : List Entry} {catalog : Catalog} {grammar : Grammar}
    (hcatalog : Catalog.ofList entries = .ok catalog)
    (hc : ∀ entry ∈ entries, entry.IsConsistent) (hg : Grammar.ofCatalog catalog = .ok grammar)
    {before : Text} {calls : List Call} (hb : IsFiller entries before)
    (hcalls : ∀ call ∈ calls, call.IsAllowed entries) :
    ∃ chain, typed? before calls = some chain ∧
      List.Forall₂ Call.IsToken calls (grammar.tokens chain) := by
  obtain rfl := Catalog.entries_of_ofList hcatalog
  obtain ⟨chain, htyped⟩ := exists_typed? before hcalls
  exact ⟨chain, htyped, (tokens_and_loose_of_typed? hc hg hb hcalls htyped).1⟩

/-- The round trip with keys that are operators of regular expressions. -/
theorem tokens_of_typed?_operators :
    let entries : List Entry :=
      [⟨']', .trim, "Trim".toList, none, ⟨0, 0⟩, false, .bare⟩,
        ⟨'^', .lowercase, "Lowercase".toList, none, ⟨0, 0⟩, false, .bare⟩,
        ⟨'-', .replace, "Replace".toList, none, ⟨1, 2⟩, false, .call '-' ⟨1, 2⟩⟩]
    let calls : List Call :=
      [⟨'^', [], " \\".toList⟩, ⟨'-', ["it's".toList, []], [' ']⟩, ⟨']', [], []⟩]
    ∃ catalog grammar chain, Catalog.ofList entries = .ok catalog ∧
      Grammar.ofCatalog catalog = .ok grammar ∧ typed? [] calls = some chain ∧
      List.Forall₂ Call.IsToken calls (grammar.tokens chain) := by
  intro entries calls
  let catalog : Catalog := ⟨entries, by decide, by decide⟩
  have hcatalog : Catalog.ofList entries = .ok catalog := rfl
  have hc : ∀ entry ∈ catalog.entries, entry.IsConsistent := by decide
  have hg := Catalog.ofCatalog_of_isConsistent hc
  have hb : IsFiller entries [] := by decide
  have hcalls : ∀ call ∈ calls, call.IsAllowed entries := by decide
  obtain ⟨chain, htyped, htokens⟩ := tokens_of_typed? hcatalog hc hg hb hcalls
  exact ⟨_, _, chain, hcatalog, hg, htyped, htokens⟩

end Chain

end Recast

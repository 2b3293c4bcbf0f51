/-
  Recast chains — the canonical spelling of a chain.

  Any text is a chain: it has tokens, and those can be typed again.  Typed one after the other, with
  single quotes where possible and nothing in between, they are its canonical spelling.

  * `Grammar.canonical? chain` is the canonical spelling of a chain;
  * `exists_canonical?`: there is one, and its tokens say what those of the chain say;
  * `run_eq_of_parts_eq`: tokens that say the same run alike;
  * `Token.Refuses`: a token decodes or formats, and the text before it is not of that form;
  * `exists_canonical_run`: with all commands at hand, any text runs as its canonical spelling, and
    fails only where a token refuses a text.
-/
import Recast.Proofs.Chain.Run
import Recast.Proofs.Chain.Tokenization
import Recast.Proofs.Command.Apply
import Recast.Proofs.Command.Builtin

namespace Recast.Chain

/-- What a token says. -/
def Token.parts (token : Token) : Char × List Text :=
  (token.key, token.arguments)

/-- A token as it is typed. -/
def Token.rendering? (token : Token) : Option Text :=
  invocation? token.key token.arguments

/-- The tokens of a chain as they are typed, one after the other. -/
def Grammar.canonical? (grammar : Grammar) (chain : Text) : Option Text :=
  ((grammar.tokens chain).mapM Token.rendering?).map List.flatten

/-! ## Tokens that say the same -/

theorem step?_eq_of_parts_eq {token other : Token} (catalog : Catalog)
    (h : token.parts = other.parts) : step? catalog token = step? catalog other := by
  obtain ⟨hkey, harguments⟩ := Prod.mk.inj h
  unfold step? passed
  rw [hkey, harguments]

theorem run_eq_of_parts_eq {tokens others : List Token} (catalog : Catalog) (subject : Text)
    (h : tokens.map Token.parts = others.map Token.parts) :
    run catalog subject tokens = run catalog subject others := by
  have hsteps : steps catalog tokens = steps catalog others := by
    induction tokens generalizing others with
    | nil =>
      rw [List.map_eq_nil_iff.1 h.symm]
    | cons token tokens ih =>
      obtain ⟨other, others, rfl, hparts, hmore⟩ := List.map_eq_cons_iff.1 h.symm
      unfold steps at ih ⊢
      rw [List.filterMap_cons, List.filterMap_cons, step?_eq_of_parts_eq catalog hparts,
        ih hmore.symm]
  rw [run_eq_recast, run_eq_recast, hsteps]

/-! ## Typing the tokens again -/

/-- The call of a token, with nothing typed behind it. -/
def Token.call (token : Token) : Call :=
  ⟨token.key, token.arguments, []⟩

theorem typed?_map_call (tokens : List Token) :
    typed? [] (tokens.map Token.call) = (tokens.mapM Token.rendering?).map List.flatten := by
  induction tokens with
  | nil => rfl
  | cons token tokens ih =>
    rw [List.map_cons, typed?, List.mapM_cons]
    change (token.rendering?.bind fun invocation =>
      (typed? [] (tokens.map Token.call)).map fun rest => [] ++ (invocation ++ rest)) = _
    rw [ih]
    cases token.rendering? <;> cases tokens.mapM Token.rendering? <;> rfl

section
variable {catalog : Catalog} {grammar : Grammar} {entry : Entry} {token : Token}
  {quoteds : List Quoted}

theorem Token.Calls.isAllowed (hentry : entry ∈ catalog.entries)
    (h : token.Calls entry quoteds) : token.call.IsAllowed catalog.entries := by
  refine ⟨⟨entry, hentry, h.key.symm, ?_, ?_⟩, fun arg harg => ?_, by simp [call, IsFiller]⟩
  · exact h.required_le.trans h.length_arguments.ge
  · exact h.length_arguments.le.trans h.length_le
  · rw [call, h.arguments] at harg
    obtain ⟨quoted, -, rfl⟩ := List.mem_map.1 harg
    exact quoted.not_mem_body

/-- **A chain has a canonical spelling**, and its tokens say what those of the chain say. -/
theorem exists_canonical? (hc : ∀ entry ∈ catalog.entries, entry.IsConsistent)
    (hg : Grammar.ofCatalog catalog = .ok grammar) (chain : Text) :
    ∃ spelled, grammar.canonical? chain = some spelled ∧
      (grammar.tokens spelled).map Token.parts = (grammar.tokens chain).map Token.parts := by
  have hcalls : ∀ call ∈ (grammar.tokens chain).map Token.call,
      call.IsAllowed catalog.entries := by
    intro call hcall
    obtain ⟨token, htoken, rfl⟩ := List.mem_map.1 hcall
    obtain ⟨entry, hentry, quoteds, h⟩ := exists_calls_of_mem_tokens hc hg htoken
    exact h.isAllowed hentry
  obtain ⟨spelled, htyped⟩ := exists_typed? [] hcalls
  have hb : IsFiller catalog.entries [] := by simp [IsFiller]
  obtain ⟨htokens, -⟩ := tokens_and_loose_of_typed? hc hg hb hcalls htyped
  refine ⟨spelled, (typed?_map_call _).symm.trans htyped, ?_⟩
  rw [List.forall₂_map_left_iff] at htokens
  rw [← List.forall₂_eq_eq_eq, List.forall₂_map_left_iff, List.forall₂_map_right_iff]
  refine htokens.flip.imp fun other token h => ?_
  exact Prod.ext h.key h.arguments

end

/-! ## All commands -/

/-- A token decodes a text that is not encoded, or formats one that is no document or with what is no
    indent. -/
inductive Token.Refuses (token : Token) (value : Text) : CommandError → Prop
  | decode {reason : Uri.DecodeError} (hkey : token.key = Command.decodeUri.key)
    (h : Uri.decode value = .error reason) :
    token.Refuses value (.transform .decodeUri (.uri reason))
  | format {reason : Json.ReformatError} (hkey : token.key = Command.formatJson.key)
    (h : Json.reformat (token.arguments[0]?.getD Command.defaultIndent) value = .error reason) :
    token.Refuses value (.transform .formatJson (.json reason))

/-- With the arguments it needs, the command of a token fails only if the token refuses. -/
theorem apply_eq_error_iff_refuses {token : Token} {command : Command} {value : Text}
    {error : CommandError} (hkey : command.key = token.key)
    (hrequired : command.arity.required ≤ token.arguments.length) :
    command.apply value token.arguments = .error error ↔ token.Refuses value error := by
  rw [Command.apply_eq_error_iff]
  constructor
  · rintro (⟨hlt, -⟩ | ⟨-, cause, hcause, rfl⟩)
    · exact absurd hrequired (Nat.not_le.2 hlt)
    · rcases Command.transform_eq_error_iff.1 hcause with
        ⟨rfl, reason, hreason, rfl⟩ | ⟨rfl, reason, hreason, rfl⟩
      · exact .decode hkey.symm hreason
      · exact .format hkey.symm hreason
  · rintro (⟨htoken, hreason⟩ | ⟨htoken, hreason⟩)
    · obtain rfl := Command.key_injective (hkey.trans htoken)
      exact .inr ⟨hrequired, _, Command.transform_eq_error_iff.2 (.inl ⟨rfl, _, hreason, rfl⟩), rfl⟩
    · obtain rfl := Command.key_injective (hkey.trans htoken)
      exact .inr ⟨hrequired, _, Command.transform_eq_error_iff.2 (.inr ⟨rfl, _, hreason, rfl⟩), rfl⟩

section
variable {separator : Text} {keys : List Char} {grammar : Grammar} {chain : Text}
  (hg : Grammar.ofCatalog ((Catalog.builtin separator).hide keys) = .ok grammar)
include hg

/-- Every token of a text stands for a step of a command, with the arguments it needs. -/
theorem exists_command_of_mem_tokens {token : Token} (h : token ∈ grammar.tokens chain) :
    ∃ command : Command, command.key = token.key ∧
      command.arity.required ≤ token.arguments.length ∧
      step? ((Catalog.builtin separator).hide keys) token =
        some ⟨command.name, command, token.arguments⟩ := by
  obtain ⟨entry, hentry, quoteds, hcalls⟩ :=
    exists_calls_of_mem_tokens (fun _ => Catalog.isConsistent_builtin_hide) hg h
  have hstep := step?_of_mem hentry hcalls.key (hcalls.length_arguments.le.trans hcalls.length_le)
  obtain ⟨command, hidden, rfl⟩ := Catalog.exists_command_of_entry hentry
  exact ⟨command, hcalls.key.symm, hcalls.required_le.trans hcalls.length_arguments.ge, hstep⟩

/-- A text runs until a token refuses what the tokens before it make. -/
theorem run_tokens_eq_error_iff {subject : Text} {error : CommandError} :
    run ((Catalog.builtin separator).hide keys) subject (grammar.tokens chain) = .error error ↔
      ∃ before token after outcome, grammar.tokens chain = before ++ token :: after ∧
        run ((Catalog.builtin separator).hide keys) subject before = .ok outcome ∧
        token.Refuses outcome.value error := by
  have hmem : ∀ {before token after}, grammar.tokens chain = before ++ token :: after →
      token ∈ grammar.tokens chain := by
    intro before token after htokens
    simp [htokens]
  rw [run_eq_error_iff]
  constructor
  · rintro ⟨before, token, after, outcome, step, htokens, hrun, hstep, hfails⟩
    obtain ⟨command, hkey, hrequired, hcommand⟩ := exists_command_of_mem_tokens hg (hmem htokens)
    obtain rfl := Option.some.inj (hcommand.symm.trans hstep)
    exact ⟨before, token, after, outcome, htokens, hrun,
      (apply_eq_error_iff_refuses hkey hrequired).1 hfails⟩
  · rintro ⟨before, token, after, outcome, htokens, hrun, hrefuses⟩
    obtain ⟨command, hkey, hrequired, hcommand⟩ := exists_command_of_mem_tokens hg (hmem htokens)
    exact ⟨before, token, after, outcome, _, htokens, hrun, hcommand,
      (apply_eq_error_iff_refuses hkey hrequired).2 hrefuses⟩

end

/-- **Any text runs, as its canonical spelling does.**  With all commands at hand, each token of a
    text has an entry and can be typed.  Typed one after the other, the tokens are found again, and
    make the same of every subject.  No token lacks an argument: a run fails at the first token that
    decodes or formats and refuses what the tokens before it made, and nowhere else.  Each token is
    attempted. -/
theorem exists_canonical_run (separator : Text) (keys : List Char) (chain : Text) :
    let catalog := (Catalog.builtin separator).hide keys
    ∃ grammar, Grammar.ofCatalog catalog = .ok grammar ∧
      (∀ token ∈ grammar.tokens chain,
        (∃ entry, catalog.resolve token.key = .ok entry) ∧
        ∃ typed, invocation? token.key token.arguments = some typed) ∧
      (∃ spelled, grammar.canonical? chain = some spelled ∧
        (grammar.tokens spelled).map Token.parts = (grammar.tokens chain).map Token.parts ∧
        ∀ subject, run catalog subject (grammar.tokens spelled) =
          run catalog subject (grammar.tokens chain)) ∧
      (∀ subject error, run catalog subject (grammar.tokens chain) = .error error ↔
        ∃ before token after outcome, grammar.tokens chain = before ++ token :: after ∧
          run catalog subject before = .ok outcome ∧ token.Refuses outcome.value error) ∧
      (∀ subject command given, run catalog subject (grammar.tokens chain) ≠
        .error (.missingArgument command given)) ∧
      (attempted catalog (grammar.tokens chain)).length = (grammar.tokens chain).length := by
  intro catalog
  have hc : ∀ entry ∈ catalog.entries, entry.IsConsistent :=
    fun _ => Catalog.isConsistent_builtin_hide
  have hg := Catalog.ofCatalog_of_isConsistent hc
  refine ⟨_, hg, fun token htoken => ?_, ?_, fun subject error => run_tokens_eq_error_iff hg, ?_, ?_⟩
  · obtain ⟨entry, hentry, quoteds, hcalls⟩ := exists_calls_of_mem_tokens hc hg htoken
    obtain ⟨typed, htyped⟩ := Quoted.exists_arguments? (hcalls.isAllowed hentry).args
    exact ⟨⟨entry, hcalls.key ▸ Catalog.resolve_of_mem hentry⟩, _,
      Option.map_eq_some_iff.2 ⟨typed, htyped, rfl⟩⟩
  · obtain ⟨spelled, hspelled, hparts⟩ := exists_canonical? hc hg chain
    exact ⟨spelled, hspelled, hparts, fun subject => run_eq_of_parts_eq catalog subject hparts⟩
  · intro subject command given h
    obtain ⟨before, token, after, outcome, -, -, hrefuses⟩ := (run_tokens_eq_error_iff hg).1 h
    cases hrefuses
  · rw [attempted_eq, List.length_map, steps, List.filterMap_length_eq_length]
    intro token htoken
    obtain ⟨command, -, -, hstep⟩ := exists_command_of_mem_tokens hg htoken
    rw [hstep]
    rfl

/-- With nothing hidden. -/
example (separator : Text) :
    (Catalog.builtin separator).hide [] = Catalog.builtin separator := rfl

end Recast.Chain

/-
  Recast chains — what a run does, as a fold.

  A token stands for a step, a command with its name and its arguments, if its key is in the catalog.

  * `recast steps subject` applies the commands of some steps, from left to right;
  * `run_eq_recast`: a run does so with the steps of its tokens, and names them;
  * `run_append`, `run_eq_error_iff`: how chains that follow each other run, and where a run fails;
  * `run_in_parts`: what a run over some tokens says about every run that begins with them, and that
    tokens of no entry do not matter to it;
  * `steps_of_isToken`: the tokens of calls stand for the steps that were meant.
-/
import Recast.Chain.Run
import Recast.Proofs.Chain.Typed

namespace Recast

theorem Catalog.resolve_of_mem {catalog : Catalog} {entry : Entry}
    (h : entry ∈ catalog.entries) : catalog.resolve entry.key = .ok entry := by
  unfold resolve
  cases hfind : catalog.entries.find? fun other => other.key = entry.key with
  | none =>
    have hkey := List.find?_eq_none.1 hfind entry h
    exact absurd (decide_eq_true rfl) hkey
  | some other =>
    have hkey := List.find?_some hfind
    rw [eq_of_key_eq (List.mem_of_find?_eq_some hfind) h (of_decide_eq_true hkey)]

namespace Chain

/-- A command with its arguments, and the name it is shown by. -/
structure Step where
  name : Text
  command : Command
  args : List Text

/-- What steps make of a text, one after the other. -/
def recast (steps : List Step) (subject : Text) : Except CommandError Text :=
  steps.foldlM (fun value step => step.command.apply value step.args) subject

/-- The step that a token stands for. -/
def step? (catalog : Catalog) (token : Token) : Option Step :=
  (catalog.resolve token.key).toOption.map fun entry =>
    ⟨entry.name, entry.command, passed entry token⟩

/-- The steps that tokens stand for. -/
def steps (catalog : Catalog) (tokens : List Token) : List Step :=
  tokens.filterMap (step? catalog)

theorem recast_cons (step : Step) (more : List Step) (subject : Text) :
    recast (step :: more) subject =
      (step.command.apply subject step.args).bind (recast more) :=
  List.foldlM_cons

/-- Steps behind others go on with what these make. -/
theorem recast_append (before after : List Step) (subject : Text) :
    recast (before ++ after) subject = (recast before subject).bind (recast after) :=
  List.foldlM_append

section
variable {catalog : Catalog} {token : Token}

/-- A token with a key of the catalog stands for the command of the key, with all its arguments. -/
theorem step?_of_mem {entry : Entry} (hentry : entry ∈ catalog.entries)
    (hkey : token.key = entry.key) (htotal : token.arguments.length ≤ entry.arity.total) :
    step? catalog token = some ⟨entry.name, entry.command, token.arguments⟩ := by
  have hpassed : passed entry token = token.arguments := by
    unfold passed
    split
    · rfl
    · next hnone =>
      -- an entry that takes no arguments was called without any
      exact (List.eq_nil_of_length_eq_zero (by omega)).symm
  rw [step?, hkey, Catalog.resolve_of_mem hentry]
  change some (Step.mk entry.name entry.command (passed entry token)) = _
  rw [hpassed]

theorem run_cons_of_none (h : step? catalog token = none) (subject : Text) (tokens : List Token) :
    run catalog subject (token :: tokens) = run catalog subject tokens := by
  cases hresolve : catalog.resolve token.key with
  | error error => rw [run, hresolve]
  | ok entry => simp [step?, hresolve, Except.toOption] at h

theorem run_cons_of_some {step : Step} (h : step? catalog token = some step) (subject : Text)
    (tokens : List Token) :
    run catalog subject (token :: tokens) =
      (step.command.apply subject step.args).bind fun value =>
        (run catalog value tokens).map fun outcome =>
          { outcome with applied := step.name :: outcome.applied } := by
  cases hresolve : catalog.resolve token.key with
  | error error => simp [step?, hresolve, Except.toOption] at h
  | ok entry =>
    rw [step?, hresolve] at h
    obtain rfl := Option.some.inj h
    rw [run, hresolve]
    dsimp only
    cases entry.command.apply subject (passed entry token) <;> rfl

end

/-- **A run is a fold.**  It makes what the steps of its tokens make, and names them all. -/
theorem run_eq_recast (catalog : Catalog) (subject : Text) (tokens : List Token) :
    run catalog subject tokens = (recast (steps catalog tokens) subject).map fun value =>
      ⟨value, (steps catalog tokens).map Step.name⟩ := by
  induction tokens generalizing subject with
  | nil => rfl
  | cons token tokens ih =>
    unfold steps
    rw [List.filterMap_cons]
    cases hstep : step? catalog token with
    | none =>
      rw [run_cons_of_none hstep]
      exact ih subject
    | some step =>
      rw [run_cons_of_some hstep]
      dsimp only
      rw [recast_cons]
      cases step.command.apply subject step.args with
      | error error => rfl
      | ok value =>
        dsimp only [Except.bind]
        rw [ih value]
        change _ = Except.map _ (recast (steps catalog tokens) value)
        cases recast (steps catalog tokens) value <;> rfl

/-- One chain behind another runs on what that one makes. -/
theorem run_append (catalog : Catalog) (subject : Text) (before after : List Token) :
    run catalog subject (before ++ after) =
      (run catalog subject before).bind fun outcome =>
        (run catalog outcome.value after).map fun more =>
          { more with applied := outcome.applied ++ more.applied } := by
  have hsteps : steps catalog (before ++ after) = steps catalog before ++ steps catalog after :=
    List.filterMap_append
  rw [run_eq_recast, run_eq_recast, hsteps, recast_append, List.map_append]
  cases recast (steps catalog before) subject with
  | error error => rfl
  | ok value =>
    dsimp only [Except.bind, Except.map]
    rw [run_eq_recast]
    cases recast (steps catalog after) value <;> rfl

/-- **A run fails at its first step that fails**: the tokens before it make a text, and its command
    fails on that. -/
theorem run_eq_error_iff {catalog : Catalog} {subject : Text} {tokens : List Token}
    {error : CommandError} :
    run catalog subject tokens = .error error ↔
      ∃ before token after outcome step, tokens = before ++ token :: after ∧
        run catalog subject before = .ok outcome ∧ step? catalog token = some step ∧
        step.command.apply outcome.value step.args = .error error := by
  constructor
  · intro h
    induction tokens generalizing subject with
    | nil => exact absurd h (by simp [run])
    | cons token tokens ih =>
      cases hstep : step? catalog token with
      | none =>
        rw [run_cons_of_none hstep] at h
        obtain ⟨before, failing, after, outcome, step, rfl, hrun, hfails⟩ := ih h
        exact ⟨token :: before, failing, after, outcome, step, rfl,
          (run_cons_of_none hstep _ _).trans hrun, hfails⟩
      | some step =>
        rw [run_cons_of_some hstep] at h
        cases happly : step.command.apply subject step.args with
        | error cause =>
          rw [happly] at h
          obtain rfl := Except.error.inj h
          exact ⟨[], token, tokens, _, step, rfl, rfl, hstep, happly⟩
        | ok value =>
          rw [happly] at h
          dsimp only [Except.bind] at h
          cases htail : run catalog value tokens with
          | ok outcome =>
            rw [htail] at h
            exact absurd h (by simp [Except.map])
          | error cause =>
            rw [htail] at h
            obtain rfl := Except.error.inj h
            obtain ⟨before, failing, after, outcome, last, rfl, hrun, hlast, hfails⟩ := ih htail
            refine ⟨token :: before, failing, after,
              { outcome with applied := step.name :: outcome.applied }, last, rfl, ?_, hlast,
              hfails⟩
            rw [run_cons_of_some hstep, happly]
            dsimp only [Except.bind]
            rw [hrun]
            rfl
  · rintro ⟨before, token, after, outcome, step, rfl, hrun, hstep, hfails⟩
    rw [run_append, hrun]
    dsimp only [Except.bind]
    rw [run_cons_of_some hstep, hfails]
    rfl

theorem attempted_eq (catalog : Catalog) (tokens : List Token) :
    attempted catalog tokens = (steps catalog tokens).map Step.name := by
  unfold attempted steps
  rw [List.map_filterMap]
  congr 1
  funext token
  rw [step?, Option.map_map]
  rfl

/-! ## Runs in parts -/

/-- Whether the key of a token is in a catalog. -/
def Token.isKnown (catalog : Catalog) (token : Token) : Bool :=
  (catalog.resolve token.key).isOk

theorem Token.isKnown_eq (catalog : Catalog) (token : Token) :
    token.isKnown catalog = (step? catalog token).isSome := by
  unfold isKnown step?
  cases catalog.resolve token.key <;> rfl

/-- Tokens that are not known stand for no steps. -/
theorem steps_filter_isKnown (catalog : Catalog) (tokens : List Token) :
    steps catalog (tokens.filter (Token.isKnown catalog)) = steps catalog tokens := by
  unfold steps
  rw [List.filterMap_filter]
  refine List.filterMap_congr fun token _ => ?_
  rw [Token.isKnown_eq]
  cases step? catalog token <;> rfl

theorem exists_entry_of_step? {catalog : Catalog} {token : Token} {step : Step}
    (h : step? catalog token = some step) :
    ∃ entry, catalog.resolve token.key = .ok entry ∧
      step = ⟨entry.name, entry.command, passed entry token⟩ := by
  unfold step? at h
  cases hresolve : catalog.resolve token.key with
  | error error =>
    rw [hresolve] at h
    exact absurd h (by simp [Except.toOption])
  | ok entry =>
    rw [hresolve] at h
    exact ⟨entry, rfl, (Option.some.inj h).symm⟩

/-- What a run that succeeds names is what is attempted. -/
theorem applied_of_run {catalog : Catalog} {subject : Text} {tokens : List Token}
    {outcome : Outcome} (h : run catalog subject tokens = .ok outcome) :
    outcome.applied = attempted catalog tokens := by
  rw [run_eq_recast] at h
  cases hrecast : recast (steps catalog tokens) subject with
  | error error =>
    rw [hrecast] at h
    exact absurd h (by simp [Except.map])
  | ok value =>
    rw [hrecast] at h
    obtain rfl := Except.ok.inj h
    exact (attempted_eq catalog tokens).symm

/-- **A run is all or nothing, and is made of the runs of its parts.**  If it succeeds, it names what
    is attempted, and every longer run goes on with what it made.  If it fails, every longer run fails
    alike: the tokens before some token make a text, and the command of that token fails on it.
    Tokens of no entry may stand anywhere, or be left out. -/
theorem run_in_parts (catalog : Catalog) (subject : Text) (tokens : List Token) :
    (∀ outcome, run catalog subject tokens = .ok outcome →
      outcome.applied = attempted catalog tokens ∧
      ∀ more, run catalog subject (tokens ++ more) =
        (run catalog outcome.value more).map fun behind =>
          { behind with applied := outcome.applied ++ behind.applied }) ∧
    (∀ error, run catalog subject tokens = .error error →
      (∀ more, run catalog subject (tokens ++ more) = .error error) ∧
      ∃ before token after outcome entry, tokens = before ++ token :: after ∧
        run catalog subject before = .ok outcome ∧ catalog.resolve token.key = .ok entry ∧
        entry.command.apply outcome.value (passed entry token) = .error error) ∧
    ∀ others, others.filter (Token.isKnown catalog) = tokens.filter (Token.isKnown catalog) →
      run catalog subject others = run catalog subject tokens ∧
      attempted catalog others = attempted catalog tokens := by
  refine ⟨fun outcome hrun => ⟨applied_of_run hrun, fun more => ?_⟩,
    fun error hrun => ⟨fun more => ?_, ?_⟩, fun others hothers => ?_⟩
  · rw [run_append, hrun]
    rfl
  · rw [run_append, hrun]
    rfl
  · obtain ⟨before, token, after, outcome, step, htokens, hbefore, hstep, hfails⟩ :=
      run_eq_error_iff.1 hrun
    obtain ⟨entry, hresolve, rfl⟩ := exists_entry_of_step? hstep
    exact ⟨before, token, after, outcome, entry, htokens, hbefore, hresolve, hfails⟩
  · have hsteps : steps catalog others = steps catalog tokens := by
      rw [← steps_filter_isKnown, hothers, steps_filter_isKnown]
    rw [run_eq_recast, run_eq_recast, attempted_eq, attempted_eq, hsteps]
    exact ⟨rfl, rfl⟩

/-- Tokens of a catalog with more commands, and one that lacks its argument.  An entry is reported by
    its own name, which need not be that of its command. -/
theorem run_in_parts_narrow :
    let catalog : Catalog := ⟨[⟨'r', .reverse, "Backwards".toList, none, ⟨0, 0⟩, false, .bare⟩,
      ⟨'R', .replace, "Replace".toList, none, ⟨1, 1⟩, false, .call 'R' ⟨1, 1⟩⟩],
      by decide, by decide⟩
    let tokens : List Token := [⟨'l', []⟩, ⟨'r', []⟩]
    run catalog "ab".toList tokens = .ok ⟨"ba".toList, ["Backwards".toList]⟩ ∧
      attempted catalog tokens = ["Backwards".toList] ∧
      (∀ more, run catalog "ab".toList (tokens ++ more) =
        (run catalog "ba".toList more).map fun behind =>
          { behind with applied := "Backwards".toList :: behind.applied }) ∧
      ∀ more, run catalog "ab".toList (tokens ++ ⟨'R', []⟩ :: more) =
        .error (.missingArgument .replace 0) := by
  intro catalog tokens
  have hrun : run catalog "ab".toList tokens = .ok ⟨"ba".toList, ["Backwards".toList]⟩ := rfl
  have hfails : run catalog "ab".toList (tokens ++ [⟨'R', []⟩]) =
      .error (.missingArgument .replace 0) := rfl
  obtain ⟨happlied, hmore⟩ := (run_in_parts catalog "ab".toList tokens).1 _ hrun
  obtain ⟨hlonger, -⟩ := (run_in_parts catalog "ab".toList (tokens ++ [⟨'R', []⟩])).2.1 _ hfails
  refine ⟨hrun, happlied.symm, hmore, fun more => ?_⟩
  rw [← hlonger more, List.append_assoc]
  rfl

/-! ## Steps that are typed -/

/-- A command that is called by its own key with some arguments, and the filler typed behind it. -/
structure TypedStep where
  command : Command
  args : List Text
  filler : Text

/-- The step that is meant: the command is shown by its own name. -/
def TypedStep.toStep (typed : TypedStep) : Step :=
  ⟨typed.command.name, typed.command, typed.args⟩

/-- The call of a step. -/
def TypedStep.call (typed : TypedStep) : Call :=
  ⟨typed.command.key, typed.args, typed.filler⟩

/-- A catalog has a step if an entry with its key has its name, runs its command and takes its
    arguments. -/
def Step.IsIn (catalog : Catalog) (step : Step) : Prop :=
  ∃ entry ∈ catalog.entries, entry.name = step.name ∧ entry.command = step.command ∧
    entry.key = step.command.key ∧ step.args.length ≤ entry.arity.total

theorem step?_of_isToken {catalog : Catalog} {typed : TypedStep} {token : Token}
    (hstep : typed.toStep.IsIn catalog) (h : typed.call.IsToken token) :
    step? catalog token = some typed.toStep := by
  obtain ⟨entry, hentry, hname, hcommand, hkey, htotal⟩ := hstep
  have harguments : token.arguments = typed.args := h.arguments
  rw [step?_of_mem hentry (h.key.trans hkey.symm) (harguments ▸ htotal), harguments, hname, hcommand]
  rfl

theorem steps_of_isToken {catalog : Catalog} {typed : List TypedStep} {tokens : List Token}
    (hsteps : ∀ step ∈ typed, step.toStep.IsIn catalog)
    (h : List.Forall₂ Call.IsToken (typed.map TypedStep.call) tokens) :
    steps catalog tokens = typed.map TypedStep.toStep := by
  induction typed generalizing tokens with
  | nil =>
    cases h
    rfl
  | cons step typed ih =>
    cases h with
    | cons htoken htokens =>
      obtain ⟨hstep, hsteps⟩ := List.forall_mem_cons.1 hsteps
      rw [steps, List.filterMap_cons, step?_of_isToken hstep htoken, List.map_cons]
      exact congrArg _ (ih hsteps htokens)

end Chain

end Recast

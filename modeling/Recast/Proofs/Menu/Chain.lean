/-
  Recast menus — the item of a chain.

  * `exists_ofCatalog`, `exists_ofSettings`: what makes a menu;
  * `chainItem_of_ok`, `chainItem_of_error`: what the item of a chain shows;
  * `items_append_chain`: a subject with a chain is answered with the item of the chain;
  * `items_of_typed?`: what a chain means that is typed behind a subject, from the characters to the
    item.
-/
import Recast.Menu.Basic
import Recast.Proofs.Chain.Run
import Recast.Proofs.Chain.Split
import Recast.Proofs.Command.Builtin

namespace Recast.Menu

open Chain (TypedStep)

/-- A catalog whose source is understood makes a menu. -/
theorem exists_ofCatalog {catalog : Catalog} {grammar : Chain.Grammar}
    (h : Chain.Grammar.ofCatalog catalog = .ok grammar) (settings : Settings) :
    ∃ menu, ofCatalog catalog settings = .ok menu ∧ menu.settings = settings ∧
      menu.catalog = catalog := by
  unfold ofCatalog
  split
  · exact ⟨_, rfl, rfl, rfl⟩
  · next error herror =>
    rw [h] at herror
    exact absurd herror (by simp)

/-- Settings make a menu of all commands. -/
theorem exists_ofSettings (settings : Settings) :
    ∃ menu, ofSettings settings = .ok menu ∧ menu.settings = settings ∧
      menu.catalog = (Catalog.builtin settings.separator).hide settings.hidden :=
  exists_ofCatalog (Catalog.ofCatalog_of_isConsistent fun _ => Catalog.isConsistent_builtin_hide)
    settings

/-! ## The item -/

section
variable {menu : Menu} {subject : Text} {tokens : List Chain.Token}

/-- The item of a chain that succeeds hands on what the chain makes. -/
theorem chainItem_of_ok {value : Text}
    (h : Chain.recast (Chain.steps menu.catalog tokens) subject = .ok value) :
    menu.chainItem subject tokens =
      { uid := "chained".toList
        title := if '\n' ∈ value then menu.settings.multilineTitle else value
        subtitle := pathText ((Chain.steps menu.catalog tokens).map Chain.Step.name)
        arg := value
        icon := iconPath menu.settings "Chained".toList } := by
  unfold chainItem
  rw [Chain.attempted_eq, Chain.run_eq_recast, h]
  dsimp only [Except.map, Item.ofValue]
  congr 1
  exact if_congr List.contains_iff_mem rfl rfl

/-- The item of a chain that fails hands on the subject. -/
theorem chainItem_of_error {error : CommandError}
    (h : Chain.recast (Chain.steps menu.catalog tokens) subject = .error error) :
    menu.chainItem subject tokens =
      { uid := "error".toList
        title := menu.settings.failureTitle
        subtitle := pathText ((Chain.steps menu.catalog tokens).map Chain.Step.name)
        arg := subject
        icon := iconPath menu.settings "Chained".toList } := by
  unfold chainItem
  rw [Chain.attempted_eq, Chain.run_eq_recast, h]
  rfl

/-- A subject with a chain is answered with the item of the chain. -/
theorem items_append_chain {chain : Text} (hsep : menu.settings.separator ≠ [])
    (hsubject : Text.EndsAt menu.settings.separator subject)
    (hchain : Chain.Continues menu.grammar menu.settings.separator chain) :
    menu.items (subject ++ menu.settings.separator ++ chain) =
      [menu.chainItem subject (menu.grammar.tokens chain)] := by
  unfold items
  rw [Chain.split_append hsep hsubject hchain]
  cases htokens : menu.grammar.tokens chain with
  | nil => exact absurd htokens hchain.1
  | cons token more =>
    dsimp only [Option.map_some, Option.getD_some]
    rw [htokens]

end

/-! ## Typed chains -/

/-- White space and characters of the separator, but no key and no quote. -/
def IsGlue (separator s : Text) : Prop :=
  ∀ c ∈ s, (Letter.isBlank c = true ∨ c ∈ separator) ∧ isQuote c = false ∧
    ∀ command ∈ Command.all, command.key ≠ c

instance (separator s : Text) : Decidable (IsGlue separator s) :=
  List.decidableBAll _ s

/-- A step with as many arguments as its command takes, none of which has both quotes, and a filler
    of glue. -/
structure IsTypeable (separator : Text) (step : TypedStep) : Prop where
  required : step.command.arity.required ≤ step.args.length
  total : step.args.length ≤ step.command.arity.total
  args : ∀ arg ∈ step.args, ¬('\'' ∈ arg ∧ '"' ∈ arg)
  filler : IsGlue separator step.filler

instance (separator : Text) (step : TypedStep) : Decidable (IsTypeable separator step) :=
  decidable_of_iff
    (step.command.arity.required ≤ step.args.length ∧
      step.args.length ≤ step.command.arity.total ∧
      (∀ arg ∈ step.args, ¬('\'' ∈ arg ∧ '"' ∈ arg)) ∧ IsGlue separator step.filler)
    ⟨fun ⟨required, total, args, filler⟩ => ⟨required, total, args, filler⟩,
      fun ⟨required, total, args, filler⟩ => ⟨required, total, args, filler⟩⟩

section
variable {separator : Text} {keys : List Char}

theorem IsGlue.isFiller {s : Text} (h : IsGlue separator s) :
    Chain.IsFiller ((Catalog.builtin separator).hide keys).entries s := by
  intro c hc
  obtain ⟨-, hquote, hkeys⟩ := h c hc
  refine ⟨hquote, fun entry hentry => ?_⟩
  obtain ⟨command, hidden, rfl⟩ := Catalog.exists_command_of_entry hentry
  exact hkeys command command.mem_all

theorem IsTypeable.isAllowed {step : TypedStep} (h : IsTypeable separator step) :
    step.call.IsAllowed ((Catalog.builtin separator).hide keys).entries := by
  obtain ⟨hidden, hentry⟩ := Catalog.exists_entry_of_command separator keys step.command
  exact ⟨⟨_, hentry, rfl, h.required, h.total⟩, h.args, h.filler.isFiller⟩

theorem isAllowed_of_mem_calls {typed : List TypedStep}
    (h : ∀ step ∈ typed, IsTypeable separator step) :
    ∀ call ∈ typed.map TypedStep.call,
      call.IsAllowed ((Catalog.builtin separator).hide keys).entries := by
  intro call hcall
  obtain ⟨step, hstep, rfl⟩ := List.mem_map.1 hcall
  exact (h step hstep).isAllowed

theorem IsTypeable.isIn {step : TypedStep} (h : IsTypeable separator step) :
    step.toStep.IsIn ((Catalog.builtin separator).hide keys) := by
  obtain ⟨hidden, hentry⟩ := Catalog.exists_entry_of_command separator keys step.command
  exact ⟨_, hentry, rfl, rfl, rfl, h.total⟩

/-- A typed chain has the steps that were meant, and may follow the separator. -/
theorem continues_of_typed? {grammar : Chain.Grammar}
    (hg : Chain.Grammar.ofCatalog ((Catalog.builtin separator).hide keys) = .ok grammar)
    {before chain : Text} {typed : List TypedStep} (hb : IsGlue separator before)
    (hne : typed ≠ []) (hsteps : ∀ step ∈ typed, IsTypeable separator step)
    (htyped : Chain.typed? before (typed.map TypedStep.call) = some chain) :
    Chain.Continues grammar separator chain ∧
      Chain.steps ((Catalog.builtin separator).hide keys) (grammar.tokens chain) =
        typed.map TypedStep.toStep := by
  obtain ⟨htokens, hloose⟩ := Chain.tokens_and_loose_of_typed?
    (fun _ => Catalog.isConsistent_builtin_hide) hg hb.isFiller (isAllowed_of_mem_calls hsteps)
    htyped
  refine ⟨⟨?_, ?_⟩, Chain.steps_of_isToken (fun step hstep => (hsteps step hstep).isIn) htokens⟩
  · intro hnil
    rw [hnil, List.forall₂_nil_right_iff, List.map_eq_nil_iff] at htokens
    exact hne htokens
  · intro c hc
    rw [hloose, List.mem_append, List.mem_flatMap] at hc
    rcases hc with hc | ⟨call, hcall, hc⟩
    · exact (hb c hc).1
    · obtain ⟨step, hstep, rfl⟩ := List.mem_map.1 hcall
      exact ((hsteps step hstep).filler c hc).1

end

/-- **What a typed chain means.**  Behind a subject and the separator, type steps of commands with
    glue around them: there is one item.  If the steps succeed from left to right, it hands on what
    they make of the subject; if one fails, it says so and hands on the subject.  Either way it names
    the commands of all steps. -/
theorem items_of_typed? {settings : Settings} (hsep : settings.separator ≠ []) {subject : Text}
    (hsubject : Text.EndsAt settings.separator subject) {before : Text}
    (hb : IsGlue settings.separator before) {typed : List TypedStep} (hne : typed ≠ [])
    (hsteps : ∀ step ∈ typed, IsTypeable settings.separator step) :
    ∃ menu chain, ofSettings settings = .ok menu ∧
      Chain.typed? before (typed.map TypedStep.call) = some chain ∧
      (∀ value, Chain.recast (typed.map TypedStep.toStep) subject = .ok value →
        menu.items (subject ++ settings.separator ++ chain) =
          [{ uid := "chained".toList
             title := if '\n' ∈ value then settings.multilineTitle else value
             subtitle := pathText (typed.map fun step => step.command.name)
             arg := value
             icon := iconPath settings "Chained".toList }]) ∧
      ∀ error, Chain.recast (typed.map TypedStep.toStep) subject = .error error →
        menu.items (subject ++ settings.separator ++ chain) =
          [{ uid := "error".toList
             title := settings.failureTitle
             subtitle := pathText (typed.map fun step => step.command.name)
             arg := subject
             icon := iconPath settings "Chained".toList }] := by
  obtain ⟨menu, hmenu, rfl, hcatalog⟩ := exists_ofSettings settings
  have hcalls := @isAllowed_of_mem_calls _ menu.settings.hidden typed hsteps
  obtain ⟨chain, htyped⟩ := Chain.exists_typed? before hcalls
  obtain ⟨hcontinues, hmeant⟩ :=
    continues_of_typed? (hcatalog ▸ menu.understood) hb hne hsteps htyped
  rw [← hcatalog] at hmeant
  have hitems := items_append_chain hsep hsubject hcontinues
  have hnames : (Chain.steps menu.catalog (menu.grammar.tokens chain)).map Chain.Step.name =
      typed.map fun step => step.command.name := by
    rw [hmeant, List.map_map]
    rfl
  refine ⟨menu, chain, hmenu, htyped, ?_, ?_⟩
  · intro value hvalue
    rw [hitems, chainItem_of_ok (hmeant ▸ hvalue), hnames]
  · intro error herror
    rw [hitems, chainItem_of_error (hmeant ▸ herror), hnames]

/-- A chain with a separator and keys in its arguments. -/
theorem items_of_typed?_replace : ∃ menu, ofSettings {} = .ok menu ∧
    menu.items "Hello World /R 'o' ' /l' l /".toList =
      [{ uid := "chained".toList
         title := "hell /l w /lrld".toList
         subtitle := "Replace→Lowercase".toList
         arg := "hell /l w /lrld".toList
         icon := "./Chained.png".toList }] := by
  let typed : List TypedStep :=
    [⟨.replace, ["o".toList, " /l".toList], [' ']⟩, ⟨.lowercase, [], " /".toList⟩]
  have hsteps : ∀ step ∈ typed, IsTypeable " /".toList step := by
    intro step hstep
    simp only [typed, List.mem_cons, List.not_mem_nil, or_false] at hstep
    rcases hstep with rfl | rfl <;> exact ⟨by decide, by decide, by decide, by decide⟩
  obtain ⟨menu, chain, hmenu, htyped, hok, -⟩ := @items_of_typed? {} (by decide)
    "Hello World".toList (by decide) [] (by decide) typed (by decide) hsteps
  obtain rfl := Option.some.inj htyped
  exact ⟨menu, hmenu, hok "hell /l w /lrld".toList rfl⟩

end Recast.Menu

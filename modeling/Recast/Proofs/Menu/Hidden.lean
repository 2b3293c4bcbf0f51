/-
  Recast menus — hidden commands and commands that fail.

  Commands can be hidden, and those that fail can be left out.  Both are about what is shown for a
  subject by itself.

  * `agreesOnChains_of_visibility`: menus that hide other commands, or treat those that fail otherwise,
    agree on chains;
  * `items_of_hidden`: without a chain, they show the same items, but for those that are left out.
-/
import Recast.Proofs.Menu.Preview

namespace Recast.Menu

section
variable {settings : Settings} {hidden : List Char} {policy : FailurePolicy} {menu other : Menu}
  (hmenu : ofSettings settings = .ok menu)
  (hother : ofSettings { settings with hidden := hidden, onFailure := policy } = .ok other)
include hmenu hother

theorem agreesOnChains_of_visibility : AgreesOnChains menu other := by
  obtain ⟨rfl, hcatalog⟩ := settings_and_catalog_of_ofSettings hmenu
  obtain ⟨hsettings, hcatalog'⟩ := settings_and_catalog_of_ofSettings hother
  -- the patterns of hidden commands are part of both grammars
  have hgrammar : other.grammar = menu.grammar := by
    have hbuiltin := menu.understood
    have hbuiltin' := other.understood
    rw [hcatalog, Chain.Grammar.ofCatalog_hide] at hbuiltin
    rw [hcatalog', Chain.Grammar.ofCatalog_hide] at hbuiltin'
    exact Except.ok.inj (hbuiltin'.symm.trans hbuiltin)
  exact {
    separator := by rw [hsettings]
    token? := fun c rest => by rw [hgrammar]
    steps := fun tokens => by rw [hcatalog, hcatalog', Chain.steps_hide, Chain.steps_hide]
    item := fun steps subject => by rw [hsettings]; rfl }

/-- Which keys are hidden decides, not how they are listed. -/
theorem items_eq_of_mem_hidden_iff (hpolicy : policy = settings.onFailure)
    (hkeys : ∀ command : Command, command.key ∈ hidden ↔ command.key ∈ settings.hidden)
    (input : Text) : other.items input = menu.items input := by
  have hagrees := agreesOnChains_of_visibility hmenu hother
  by_cases htokens : menu.tokens input = []
  · rw [items_of_tokens_eq_nil ((hagrees.tokens input).trans htokens),
      items_of_tokens_eq_nil htokens, previewItems_of_ofSettings hmenu,
      previewItems_of_ofSettings hother, hagrees.subject]
    subst hpolicy
    simp only [hkeys]
    rfl
  · obtain ⟨item, hitem, hitem'⟩ := hagrees.exists_item input htokens
    rw [hitem, hitem']

end

/-- **Hiding is about what is shown.**  Take two settings that differ in the hidden keys and in what
    is done with commands that fail.  Their menus find the same subject and the same tokens in an
    input, and answer a chain with the same item.  Without a chain, the items are those of the menu
    that shows all commands, in order, without those of the commands that are hidden or left out.
    Settings that hide the same commands have the same items. -/
theorem items_of_hidden (settings : Settings) (hidden : List Char) (policy : FailurePolicy) :
    let changed : Settings := { settings with hidden := hidden, onFailure := policy }
    ∃ menu other full, ofSettings settings = .ok menu ∧ ofSettings changed = .ok other ∧
      ofSettings { settings with hidden := [], onFailure := .placeholder } = .ok full ∧
      ∀ input,
        other.subject input = menu.subject input ∧ other.tokens input = menu.tokens input ∧
          (menu.tokens input ≠ [] →
            ∃ item, menu.items input = [item] ∧ other.items input = [item]) ∧
          (menu.tokens input = [] →
            full.items input = Command.all.map (commandItem settings (menu.subject input)) ∧
              other.items input =
                (Command.all.filter fun command =>
                  command.key ∉ hidden ∧ changed.Keeps (menu.subject input) command).map
                    (commandItem settings (menu.subject input))) ∧
          (policy = settings.onFailure →
            (∀ command : Command, command.key ∈ hidden ↔ command.key ∈ settings.hidden) →
              other.items input = menu.items input) := by
  intro changed
  obtain ⟨menu, hmenu, -⟩ := exists_ofSettings settings
  obtain ⟨other, hother, -⟩ := exists_ofSettings changed
  obtain ⟨full, hfull, -⟩ :=
    exists_ofSettings { settings with hidden := [], onFailure := .placeholder }
  have hagrees := agreesOnChains_of_visibility hmenu hother
  have hagrees' := agreesOnChains_of_visibility hmenu hfull
  refine ⟨menu, other, full, hmenu, hother, hfull, fun input => ⟨hagrees.subject input,
    hagrees.tokens input, hagrees.exists_item input, fun htokens => ⟨?_, ?_⟩,
    fun hpolicy hkeys => items_eq_of_mem_hidden_iff hmenu hother hpolicy hkeys input⟩⟩
  · rw [items_of_tokens_eq_nil ((hagrees'.tokens input).trans htokens), hagrees'.subject,
      previewItems_of_ofSettings hfull]
    have hall : ∀ command ∈ Command.all, decide (command.key ∉ ([] : List Char) ∧
        Settings.Keeps { settings with hidden := [], onFailure := .placeholder }
          (menu.subject input) command) = true := by
      intro command _
      exact decide_eq_true ⟨List.not_mem_nil, Settings.keeps_of_placeholder rfl _ command⟩
    rw [List.filter_eq_self.2 hall]
    rfl
  · rw [items_of_tokens_eq_nil ((hagrees.tokens input).trans htokens), hagrees.subject,
      previewItems_of_ofSettings hother]
    rfl

/-- A command that is hidden twice, beside a key that no command has.  Three others fail and are left
    out, but a chain that calls one of them says so. -/
theorem items_of_hidden_twice : ∃ menu other, ofSettings {} = .ok menu ∧
    ofSettings { hidden := ['l', '?', 'l'], onFailure := .skip } = .ok other ∧
    (∃ item, menu.items "50% Off /ld".toList = [item] ∧
      other.items "50% Off /ld".toList = [item] ∧ item.uid = "error".toList) ∧
    (other.items "50% Off".toList).map Item.uid =
      ["uppercase".toList, "camelcase".toList, "pascalcase".toList, "snakecase".toList,
        "trim".toList, "capitalize".toList, "encode uri".toList, "reverse".toList,
        "slugify".toList] := by
  obtain ⟨menu, other, _, hmenu, hother, -, hitems⟩ := items_of_hidden {} ['l', '?', 'l'] .skip
  obtain ⟨hsettings, -⟩ := settings_and_catalog_of_ofSettings hmenu
  refine ⟨menu, other, hmenu, hother, ?_, ?_⟩
  · obtain ⟨-, -, hchain, -⟩ := hitems "50% Off /ld".toList
    let typed : List Chain.TypedStep := [⟨.lowercase, [], []⟩, ⟨.decodeUri, [], []⟩]
    have hsteps : ∀ step ∈ typed, IsTypeable " /".toList step := by
      unfold typed
      decide
    have hends : Text.EndsAt " /".toList "50% Off".toList := by decide
    have htokens := @tokens_append_typed? {} menu hmenu (by decide) _ hends [] _ (by decide)
      typed (by decide) hsteps rfl
    have hitem := @items_append_typed? {} menu hmenu (by decide) _ hends [] _ (by decide)
      typed (by decide) hsteps rfl
    obtain ⟨item, hmenu', hother'⟩ := hchain htokens.2.1
    obtain rfl := List.singleton_inj.1 (hmenu'.symm.trans hitem)
    refine ⟨_, hmenu', hother', ?_⟩
    unfold typed
    decide +kernel
  · obtain ⟨-, -, -, hpreview, -⟩ := hitems "50% Off".toList
    have hends : Text.EndsAt menu.settings.separator "50% Off".toList := hsettings ▸ by decide
    obtain ⟨hread, htokens⟩ := tokens_of_endsAt (hsettings ▸ by decide) hends
    rw [(hpreview htokens).2, hread]
    decide +kernel

end Recast.Menu

/-
  Recast menus — how an input is read and answered.

  An input is read as a subject and the tokens of its chain.  The items that answer it depend on these,
  on the steps that the tokens stand for, and on the entries that are shown.

  * `subject`, `tokens`: how a menu reads an input;
  * `items_of_tokens_ne_nil`, `chainItem_eq`: with tokens there is one item, that of their steps
    (`stepsItem`);
  * `items_of_tokens_eq_nil`, `previewItems_eq`: without, there is one for each entry that is shown
    (`IsShown`, `previewItem`);
  * `tokens_of_endsAt`: a subject by itself has no tokens;
  * `tokens_append_typed?`, `items_append_typed?`: steps that are typed behind a subject are read back
    and answered with their item;
  * `AgreesOnChains`: menus that read an input alike and, if it has tokens, answer it alike.
-/
import Recast.Proofs.Chain.Agreement
import Recast.Proofs.Menu.Chain

namespace Recast.Menu

open Chain (TypedStep)

theorem settings_and_catalog_of_ofSettings {settings : Settings} {menu : Menu}
    (h : ofSettings settings = .ok menu) :
    menu.settings = settings ∧
      menu.catalog = (Catalog.builtin settings.separator).hide settings.hidden := by
  obtain ⟨other, hother, hsettings, hcatalog⟩ := exists_ofSettings settings
  obtain rfl := Except.ok.inj (h.symm.trans hother)
  exact ⟨hsettings, hcatalog⟩

/-! ## Reading -/

/-- The text that an input asks to recast. -/
def subject (menu : Menu) (input : Text) : Text :=
  (Chain.split menu.grammar menu.settings.separator input).subject

/-- The tokens of the chain of an input. -/
def tokens (menu : Menu) (input : Text) : List Chain.Token :=
  ((Chain.split menu.grammar menu.settings.separator input).chain.map menu.grammar.tokens).getD []

section
variable {menu : Menu} {input : Text}

theorem items_of_tokens_eq_nil (h : menu.tokens input = []) :
    menu.items input = menu.previewItems (menu.subject input) := by
  unfold tokens at h
  unfold items
  dsimp only
  rw [h]
  rfl

theorem items_of_tokens_ne_nil (h : menu.tokens input ≠ []) :
    menu.items input = [menu.chainItem (menu.subject input) (menu.tokens input)] := by
  cases htokens : menu.tokens input with
  | nil => exact absurd htokens h
  | cons token more =>
    unfold tokens at htokens
    unfold items
    dsimp only
    rw [htokens]
    rfl

/-- A subject that does not contain the separator is read as it is. -/
theorem tokens_of_endsAt (hsep : menu.settings.separator ≠ [])
    (h : Text.EndsAt menu.settings.separator input) :
    menu.subject input = input ∧ menu.tokens input = [] := by
  have hfound : Text.FoundFrom menu.settings.separator input 0 [] := by
    refine .none fun place _ hplace => ?_
    rcases Nat.lt_or_ge place input.length with hlt | hge
    · refine h place hlt ?_
      rw [List.drop_append_of_le_length hlt.le]
      exact hplace.trans (List.prefix_append _ _)
    · rw [List.drop_eq_nil_of_le hge] at hplace
      exact hsep (List.prefix_nil.1 hplace)
  have hsplit := @Chain.split_of_foundFrom menu.grammar _ _ _ hsep hfound
  unfold subject tokens
  rw [hsplit]
  exact ⟨rfl, rfl⟩

end

/-! ## With a chain -/

/-- The item of steps on a subject. -/
def stepsItem (settings : Settings) (steps : List Chain.Step) (subject : Text) : Item :=
  let subtitle := pathText (steps.map Chain.Step.name)
  let icon := iconPath settings "Chained".toList
  match Chain.recast steps subject with
  | .ok value => .ofValue "chained".toList subtitle icon settings.multilineTitle value
  | .error _ => .ofFailure "error".toList subtitle icon settings.failureTitle subject

/-- **The item of a chain is that of the steps of its tokens.** -/
theorem chainItem_eq (menu : Menu) (subject : Text) (tokens : List Chain.Token) :
    menu.chainItem subject tokens =
      stepsItem menu.settings (Chain.steps menu.catalog tokens) subject := by
  unfold chainItem stepsItem
  rw [Chain.attempted_eq, Chain.run_eq_recast]
  cases Chain.recast (Chain.steps menu.catalog tokens) subject <;> rfl

section
variable {settings : Settings} {menu : Menu} (hmenu : ofSettings settings = .ok menu)
  (hsep : settings.separator ≠ []) {subject : Text}
  (hsubject : Text.EndsAt settings.separator subject) {before chain : Text}
  (hb : IsGlue settings.separator before) {typed : List TypedStep} (hne : typed ≠ [])
  (hsteps : ∀ step ∈ typed, IsTypeable settings.separator step)
  (htyped : Chain.typed? before (typed.map TypedStep.call) = some chain)
include hmenu hsep hsubject hb hne hsteps htyped

/-- Steps that are typed behind a subject are read as tokens that stand for them. -/
theorem tokens_append_typed? :
    menu.subject (subject ++ settings.separator ++ chain) = subject ∧
      menu.tokens (subject ++ settings.separator ++ chain) ≠ [] ∧
      Chain.steps menu.catalog (menu.tokens (subject ++ settings.separator ++ chain)) =
        typed.map TypedStep.toStep := by
  obtain ⟨rfl, hcatalog⟩ := settings_and_catalog_of_ofSettings hmenu
  obtain ⟨hcontinues, hmeant⟩ :=
    continues_of_typed? (hcatalog ▸ menu.understood) hb hne hsteps htyped
  have hsplit := Chain.split_append hsep hsubject hcontinues
  unfold Menu.subject Menu.tokens
  rw [hsplit]
  exact ⟨rfl, hcontinues.1, hcatalog ▸ hmeant⟩

/-- **What is typed behind a subject is answered with the item of its steps.** -/
theorem items_append_typed? :
    menu.items (subject ++ settings.separator ++ chain) =
      [stepsItem settings (typed.map TypedStep.toStep) subject] := by
  obtain ⟨hread, htokens, hmeant⟩ :=
    tokens_append_typed? hmenu hsep hsubject hb hne hsteps htyped
  obtain ⟨hsettings, -⟩ := settings_and_catalog_of_ofSettings hmenu
  rw [items_of_tokens_ne_nil htokens, hread, chainItem_eq, hsettings, hmeant]

end

/-- Two menus agree on chains: they read them by the same separator and the same tokens, which stand
    for the same steps and are answered with the same items. -/
structure AgreesOnChains (menu other : Menu) : Prop where
  separator : other.settings.separator = menu.settings.separator
  token? : ∀ c rest, other.grammar.token? c rest = menu.grammar.token? c rest
  steps : ∀ tokens, Chain.steps other.catalog tokens = Chain.steps menu.catalog tokens
  item : ∀ steps subject,
    stepsItem other.settings steps subject = stepsItem menu.settings steps subject

namespace AgreesOnChains

variable {menu other : Menu} (h : AgreesOnChains menu other) (input : Text)
include h

theorem split : Chain.split other.grammar other.settings.separator input =
    Chain.split menu.grammar menu.settings.separator input := by
  rw [h.separator]
  exact Chain.split_congr h.token? _ _

theorem subject : other.subject input = menu.subject input :=
  congrArg Chain.Split.subject (h.split input)

theorem tokens : other.tokens input = menu.tokens input := by
  have htokens : other.grammar.tokens = menu.grammar.tokens :=
    funext (Chain.Grammar.tokens_congr h.token?)
  unfold Menu.tokens
  rw [h.split, htokens]

/-- **They answer a chain with the same item.** -/
theorem exists_item (htokens : menu.tokens input ≠ []) :
    ∃ item, menu.items input = [item] ∧ other.items input = [item] := by
  refine ⟨_, items_of_tokens_ne_nil htokens, ?_⟩
  have hother : other.tokens input ≠ [] := by rwa [h.tokens]
  rw [items_of_tokens_ne_nil hother, h.tokens, h.subject, chainItem_eq, chainItem_eq, h.steps, h.item]

end AgreesOnChains

/-! ## Without a chain -/

/-- A command is kept in the menu unless it fails on the subject and is then to be left out. -/
def Settings.Keeps (settings : Settings) (subject : Text) (command : Command) : Prop :=
  settings.onFailure = .skip → ∃ value, command.apply subject [] = .ok value

instance (settings : Settings) (subject : Text) (command : Command) :
    Decidable (settings.Keeps subject command) :=
  decidable_of_iff (settings.onFailure = .skip → (command.apply subject []).isOk = true) <| by
    unfold Settings.Keeps
    cases command.apply subject [] <;> simp [Except.isOk, Except.toBool]

theorem Settings.keeps_of_placeholder {settings : Settings} (h : settings.onFailure = .placeholder)
    (subject : Text) (command : Command) : settings.Keeps subject command := fun hskip =>
  absurd (h.symm.trans hskip) (by decide)

/-- An entry is shown if it is not hidden and its command is kept. -/
def IsShown (settings : Settings) (subject : Text) (entry : Entry) : Prop :=
  entry.hidden = false ∧ settings.Keeps subject entry.command

instance (settings : Settings) (subject : Text) (entry : Entry) :
    Decidable (IsShown settings subject entry) :=
  inferInstanceAs (Decidable (_ ∧ _))

/-- The item of an entry by itself. -/
def previewItem (settings : Settings) (subject : Text) (entry : Entry) : Item :=
  let uid := Text.lowercase entry.name
  let icon := iconPath settings entry.name
  match entry.command.apply subject [] with
  | .ok value => .ofValue uid entry.subtitle icon settings.multilineTitle value
  | .error _ => .ofFailure uid entry.subtitle icon settings.failureTitle subject

section
variable {settings : Settings} {subject : Text} {entry : Entry}

theorem previewItem_of_ok {value : Text} (h : entry.command.apply subject [] = .ok value) :
    (previewItem settings subject entry).title =
        (if '\n' ∈ value then settings.multilineTitle else value) ∧
      (previewItem settings subject entry).arg = value := by
  unfold previewItem
  rw [h]
  exact ⟨if_congr List.contains_iff_mem rfl rfl, rfl⟩

theorem previewItem_of_error {error : CommandError}
    (h : entry.command.apply subject [] = .error error) :
    (previewItem settings subject entry).title = settings.failureTitle ∧
      (previewItem settings subject entry).arg = subject := by
  unfold previewItem
  rw [h]
  exact ⟨rfl, rfl⟩

theorem previewItem?_of_keeps (h : settings.Keeps subject entry.command) :
    previewItem? settings subject entry = some (previewItem settings subject entry) := by
  unfold previewItem? previewItem
  cases hvalue : entry.command.apply subject [] with
  | ok value => rfl
  | error error =>
    cases hpolicy : settings.onFailure with
    | placeholder => rfl
    | skip =>
      obtain ⟨value, hok⟩ := h hpolicy
      rw [hvalue] at hok
      exact absurd hok (by simp)

theorem previewItem?_of_not_keeps (h : ¬ settings.Keeps subject entry.command) :
    previewItem? settings subject entry = none := by
  obtain ⟨hpolicy, hfails⟩ := Classical.not_imp.1 h
  unfold previewItem?
  cases hvalue : entry.command.apply subject [] with
  | ok value => exact absurd ⟨value, hvalue⟩ hfails
  | error error => rw [hpolicy]

end

/-- **The items without a chain are those of the entries that are shown**, in order. -/
theorem previewItems_eq (menu : Menu) (subject : Text) :
    menu.previewItems subject =
      (menu.catalog.entries.filter (IsShown menu.settings subject)).map
        (previewItem menu.settings subject) := by
  unfold previewItems Catalog.visible
  induction menu.catalog.entries with
  | nil => rfl
  | cons entry entries ih =>
    by_cases hhidden : entry.hidden = true
    · have hnot : ¬ IsShown menu.settings subject entry := fun h => by simp [h.1] at hhidden
      simp [hhidden, hnot, ih]
    · by_cases hkeeps : menu.settings.Keeps subject entry.command
      · have hshown : IsShown menu.settings subject entry := ⟨by simpa using hhidden, hkeeps⟩
        simp [hhidden, hshown, previewItem?_of_keeps hkeeps, ih]
      · have hnot : ¬ IsShown menu.settings subject entry := fun h => hkeeps h.2
        simp [hhidden, hnot, previewItem?_of_not_keeps hkeeps, ih]

end Recast.Menu

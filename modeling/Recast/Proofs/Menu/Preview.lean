/-
  Recast menus — a command by itself, and as a chain.

  A command can be seen in two ways: in the menu of a subject without a chain, and as the chain of its
  key alone.

  * `commandItem`, `previewItems_of_ofSettings`: the items of all commands that are shown;
  * `filter_uid_previewItems`: a command that is shown has one of them;
  * `exists_preview_and_chained`: both ways show the same text.
-/
import Recast.Proofs.Command.Apply
import Recast.Proofs.Menu.Reading

namespace Recast.Menu

open Chain (Step TypedStep)

/-- The item of a command by itself. -/
def commandItem (settings : Settings) (subject : Text) (command : Command) : Item :=
  previewItem settings subject (Entry.ofCommand settings.separator command)

section
variable {settings : Settings} {subject : Text} {command : Command}

theorem uid_commandItem :
    (commandItem settings subject command).uid = Text.lowercase command.name := by
  unfold commandItem previewItem
  cases (Entry.ofCommand settings.separator command).command.apply subject [] <;> rfl

/-- As a chain, a command shows the same as by itself. -/
theorem stepsItem_singleton (name : Text) :
    (stepsItem settings [⟨name, command, []⟩] subject).title =
        (commandItem settings subject command).title ∧
      (stepsItem settings [⟨name, command, []⟩] subject).arg =
        (commandItem settings subject command).arg := by
  have hrecast : Chain.recast [⟨name, command, []⟩] subject = command.apply subject [] := by
    rw [Chain.recast_cons]
    cases command.apply subject [] <;> rfl
  have hcommand : (Entry.ofCommand settings.separator command).command = command := rfl
  unfold stepsItem commandItem previewItem
  rw [hrecast, hcommand]
  cases command.apply subject [] <;> exact ⟨rfl, rfl⟩

variable {menu : Menu} (hmenu : ofSettings settings = .ok menu)
include hmenu

/-- **A menu without a chain has one item for each command that is shown**, in the order of the
    commands. -/
theorem previewItems_of_ofSettings (subject : Text) :
    menu.previewItems subject =
      (Command.all.filter fun command =>
        command.key ∉ settings.hidden ∧ settings.Keeps subject command).map
          (commandItem settings subject) := by
  obtain ⟨rfl, hcatalog⟩ := settings_and_catalog_of_ofSettings hmenu
  rw [previewItems_eq, hcatalog, Catalog.entries_builtin_hide, List.filter_map, List.map_map]
  have hshown : ∀ command ∈ Command.all,
      decide (IsShown menu.settings subject
        { Entry.ofCommand menu.settings.separator command with
          hidden := menu.settings.hidden.contains command.key }) =
        decide (command.key ∉ menu.settings.hidden ∧ menu.settings.Keeps subject command) := by
    intro command _
    refine decide_eq_decide.2 (and_congr_left' ?_)
    simp
  exact congrArg _ (List.filter_congr hshown)

theorem filter_uid_previewItems (hvisible : command.key ∉ settings.hidden)
    (hkeeps : settings.Keeps subject command) :
    (menu.previewItems subject).filter (fun item => item.uid = Text.lowercase command.name) =
      [commandItem settings subject command] := by
  have huid : ∀ other : Command,
      ((commandItem settings subject other).uid = Text.lowercase command.name) ↔
        other = command := by
    intro other
    rw [uid_commandItem]
    exact Command.lowercase_name_injective.eq_iff
  have hmem : command ∈ Command.all.filter fun command =>
      command.key ∉ settings.hidden ∧ settings.Keeps subject command :=
    List.mem_filter.2 ⟨command.mem_all, decide_eq_true ⟨hvisible, hkeeps⟩⟩
  have honce := List.count_eq_one_of_mem (Command.nodup_all.filter _) hmem
  rw [previewItems_of_ofSettings hmenu, List.filter_map]
  simp only [Function.comp_def, huid]
  rw [List.filter_eq, honce]
  rfl

end

/-- **A command shows the same by itself and as a chain.**  For a subject without the separator, take
    a command that is shown and needs no argument.  Without a chain, the menu has exactly one item for
    it; with its key as the chain, there is one item.  Both have the same title and hand on the same
    text: what the command makes with its defaults, or the subject if it fails. -/
theorem exists_preview_and_chained {settings : Settings} (hsep : settings.separator ≠ [])
    (hpolicy : settings.onFailure = .placeholder) {subject : Text}
    (hsubject : Text.EndsAt settings.separator subject) {command : Command}
    (hvisible : command.key ∉ settings.hidden) (hrequired : command.arity.required = 0) :
    ∃ menu preview chained, ofSettings settings = .ok menu ∧
      (menu.items subject).filter (fun item => item.uid = Text.lowercase command.name) =
        [preview] ∧
      menu.items (subject ++ settings.separator ++ [command.key]) = [chained] ∧
      preview.title = chained.title ∧ preview.arg = chained.arg ∧
      (∀ value, command.apply subject command.defaults = .ok value →
        preview.title = (if '\n' ∈ value then settings.multilineTitle else value) ∧
          preview.arg = value) ∧
      ∀ error, command.apply subject command.defaults = .error error →
        preview.title = settings.failureTitle ∧ preview.arg = subject := by
  obtain ⟨menu, hmenu, hsettings, -⟩ := exists_ofSettings settings
  have hkeeps := Settings.keeps_of_placeholder hpolicy subject command
  have hpreview : menu.items subject = menu.previewItems subject := by
    obtain ⟨hread, htokens⟩ := tokens_of_endsAt (hsettings ▸ hsep) (hsettings ▸ hsubject)
    rw [items_of_tokens_eq_nil htokens, hread]
  -- the key alone is the chain of one step without arguments
  have hnothing : IsGlue settings.separator [] := by simp [IsGlue]
  have htypeable : ∀ step ∈ [(⟨command, [], []⟩ : TypedStep)],
      IsTypeable settings.separator step := by
    intro step hstep
    obtain rfl := List.mem_singleton.1 hstep
    exact ⟨hrequired.le, Nat.zero_le _, by simp, hnothing⟩
  have hchained := @items_append_typed? settings menu hmenu hsep subject hsubject [] [command.key]
    hnothing _ (List.cons_ne_nil _ _) htypeable rfl
  have hdefaults : command.apply subject command.defaults = command.apply subject [] := by
    have happly := @Command.apply_append_defaults command subject [] hrequired.le
    simpa using happly
  obtain ⟨htitle, harg⟩ := @stepsItem_singleton settings subject command command.name
  refine ⟨menu, _, _, hmenu, ?_, hchained, htitle.symm, harg.symm, fun value hvalue => ?_,
    fun error herror => ?_⟩
  · rw [hpreview]
    exact filter_uid_previewItems hmenu hvisible hkeeps
  · exact previewItem_of_ok (hdefaults ▸ hvalue)
  · exact previewItem_of_error (hdefaults ▸ herror)

/-- A document that is laid out over several lines, with the indent that is not given. -/
theorem exists_preview_and_chained_indent : ∃ menu preview chained, ofSettings {} = .ok menu ∧
    (menu.items "[1]".toList).filter (fun item => item.uid = "format json".toList) = [preview] ∧
    menu.items "[1] /J".toList = [chained] ∧ preview.title = chained.title ∧
    preview.arg = chained.arg ∧ preview.title = "Multiline output".toList ∧
    preview.arg = "[\n  1\n]".toList := by
  obtain ⟨menu, preview, chained, hmenu, hpreview, hchained, htitle, harg, hok, -⟩ :=
    @exists_preview_and_chained {} (by decide) rfl "[1]".toList (by decide) .formatJson (by decide)
      rfl
  have huid : Text.lowercase Command.formatJson.name = "format json".toList := by decide
  have hvalue := hok "[\n  1\n]".toList rfl
  rw [huid] at hpreview
  exact ⟨menu, preview, chained, hmenu, hpreview, hchained, htitle, harg, hvalue.1, hvalue.2⟩

end Recast.Menu

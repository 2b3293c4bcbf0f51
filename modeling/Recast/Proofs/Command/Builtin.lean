/-
  Recast commands — the catalog of all commands.

  Hiding changes no key, arity or pattern, so what holds of the catalog of all commands holds with any
  of them hidden.

  * `isConsistent_builtin_hide`: its entries are consistent;
  * `exists_entry_of_command`, `exists_command_of_entry`, `entries_builtin_hide`: its entries are those
    of the commands;
  * `Command.key_injective`, `Command.lowercase_name_injective`: what tells commands apart.
-/
import Recast.Proofs.Chain.Grammar

namespace Recast

theorem Entry.isConsistent_ofCommand (separator : Text) (command : Command) :
    (Entry.ofCommand separator command).IsConsistent := by
  unfold Entry.IsConsistent Entry.ofCommand
  dsimp only
  by_cases htotal : 0 < command.arity.total
  · rw [if_pos htotal]
    exact .inr ⟨rfl, htotal⟩
  · rw [if_neg htotal]
    refine .inl ⟨rfl, ?_⟩
    generalize command.arity = arity at htotal
    obtain ⟨required, optional⟩ := arity
    change ¬0 < required + optional at htotal
    obtain ⟨rfl, rfl⟩ : required = 0 ∧ optional = 0 := by omega
    rfl

theorem Command.key_injective : Function.Injective Command.key := fun first second h =>
  List.inj_on_of_nodup_map Command.all_nodup_key first.mem_all second.mem_all h

/-- Names tell commands apart, also in lower case. -/
theorem Command.lowercase_name_injective :
    Function.Injective fun command : Command => Text.lowercase command.name :=
  fun first second h =>
    have hnodup : (Command.all.map fun command => Text.lowercase command.name).Nodup := by decide
    List.inj_on_of_nodup_map hnodup first.mem_all second.mem_all h

theorem Command.nodup_all : Command.all.Nodup :=
  Command.all_nodup_key.of_map

namespace Catalog

variable {separator : Text} {keys : List Char} {entry : Entry}

/-- The entries of a catalog of all commands are those of the commands. -/
theorem exists_command_of_entry (h : entry ∈ ((builtin separator).hide keys).entries) :
    ∃ command hidden, entry = { Entry.ofCommand separator command with hidden := hidden } := by
  obtain ⟨before, hbefore, rfl⟩ := List.mem_map.1 h
  obtain ⟨command, -, rfl⟩ := List.mem_map.1 hbefore
  exact ⟨command, _, rfl⟩

theorem exists_entry_of_command (separator : Text) (keys : List Char) (command : Command) :
    ∃ hidden, { Entry.ofCommand separator command with hidden := hidden } ∈
      ((builtin separator).hide keys).entries := by
  have hbefore : Entry.ofCommand separator command ∈ (builtin separator).entries :=
    List.mem_map.2 ⟨command, command.mem_all, rfl⟩
  exact ⟨_, List.mem_map.2 ⟨_, hbefore, rfl⟩⟩

/-- Hiding keys hides the entries of the commands that have them. -/
theorem entries_builtin_hide (separator : Text) (keys : List Char) :
    ((builtin separator).hide keys).entries = Command.all.map fun command =>
      { Entry.ofCommand separator command with hidden := keys.contains command.key } :=
  List.map_map

theorem isConsistent_builtin_hide (h : entry ∈ ((builtin separator).hide keys).entries) :
    entry.IsConsistent := by
  obtain ⟨command, hidden, rfl⟩ := exists_command_of_entry h
  exact Entry.isConsistent_ofCommand separator command

end Catalog

end Recast

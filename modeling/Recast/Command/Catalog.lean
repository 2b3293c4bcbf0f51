/-
  Recast commands — catalogs.

  A catalog lists commands in the order in which they are shown.  An entry says by which key and with
  which arguments a command is called, and by which name it is shown, if it is.  Keys tell the entries
  apart, and each can be typed: none is white space or a quote.

  * `Catalog.ofList entries` is the catalog of a list of entries, or the first fault of the list;
    `firstFault?_eq_none_iff` says when there is none;
  * `Catalog.builtin separator` is the catalog of all commands;
  * `Catalog.resolve` finds the entry of a key, `Catalog.hide` hides entries, `Catalog.visible`
    lists those that are shown.
-/
import Recast.Command.Apply
import Recast.Command.Invocation
import Recast.Command.Pattern

namespace Recast

/-! ## Entries -/

/-- A command in a catalog. -/
structure Entry where
  key : Char
  command : Command
  /-- the name it is shown by -/
  name : Text
  hint : Option Text
  arity : Arity
  /-- not shown, but still there to be called -/
  hidden : Bool
  pattern : Pattern
  deriving DecidableEq, Repr

namespace Entry

/-- The entry of a command as it is defined. -/
def ofCommand (separator : Text) (command : Command) : Entry where
  key := command.key
  command := command
  name := command.name
  hint := command.hint separator
  arity := command.arity
  hidden := false
  pattern := if 0 < command.arity.total then .call command.key command.arity else .bare

/-- The name with the hint, if there is one. -/
def subtitle (entry : Entry) : Text :=
  match entry.hint with
  | some hint => entry.name ++ ". ".toList ++ hint
  | none => entry.name

end Entry

/-! ## Catalogs -/

/-- Whether a key can be typed. -/
def isTypeable (key : Char) : Bool :=
  !(Letter.isBlank key || isQuote key)

theorem Command.isTypeable_key (command : Command) : isTypeable command.key = true := by
  cases command <;> decide

/-- Commands in the order in which they are shown. -/
structure Catalog where
  entries : List Entry
  typeable : ∀ entry ∈ entries, isTypeable entry.key = true
  distinct : (entries.map Entry.key).Nodup

/-- What is wrong with a list of entries, with a key, or with a pattern. -/
inductive CatalogError where
  | invalidKey (key : Char) (name : Text)
  | collision (key : Char) (first second : Text)
  | unknownKey (key : Char)
  | pattern
  deriving DecidableEq, Repr

/-- A hexadecimal numeral in lower case. -/
def hexNumeral (n : Nat) : Text :=
  Nat.toDigits 16 n

/-- A key that cannot be typed, made visible in quotes. -/
def keyText (key : Char) : Text :=
  let spelled : Text :=
    if key = '\t' then ['\\', 't']
    else if key = '\n' then ['\\', 'n']
    else if key = '\r' then ['\\', 'r']
    else if key = '\'' then ['\\', '\'']
    else if key = ' ' ∨ key = '"' then [key]
    else '\\' :: 'u' :: '{' :: (hexNumeral key.toNat ++ ['}'])
  '\'' :: (spelled ++ ['\''])

/-- The error in words. -/
def CatalogError.message : CatalogError → Text
  | .invalidKey key name =>
    "command key ".toList ++ keyText key ++ " of ".toList ++ name ++
      " cannot be typed in a chain".toList
  | .collision key first second =>
    "command key '".toList ++ [key] ++ "' is declared by both ".toList ++ first ++
      " and ".toList ++ second
  | .unknownKey key => "unknown command key '".toList ++ [key] ++ ['\'']
  | .pattern => "invalid tokenizer pattern".toList

/-- The first fault of a list of entries that follow those `seen` before. -/
def firstFault? (seen : List Entry) : List Entry → Option CatalogError
  | [] => none
  | entry :: more =>
    if !isTypeable entry.key then some (.invalidKey entry.key entry.name)
    else
      match seen.find? fun other => other.key = entry.key with
      | some other => some (.collision entry.key other.name entry.name)
      | none => firstFault? (seen ++ [entry]) more

/-- **No fault.**  A list is free of faults if every key can be typed and none occurs twice. -/
theorem firstFault?_eq_none_iff {seen entries : List Entry} :
    firstFault? seen entries = none ↔
      (∀ entry ∈ entries, isTypeable entry.key = true) ∧ (entries.map Entry.key).Nodup ∧
        ∀ entry ∈ entries, ∀ other ∈ seen, other.key ≠ entry.key := by
  induction entries generalizing seen with
  | nil => simp [firstFault?]
  | cons entry more ih =>
    unfold firstFault?
    by_cases typeable : isTypeable entry.key = true
    · cases found : seen.find? fun other => decide (other.key = entry.key) with
      | some other =>
        have mem := List.mem_of_find?_eq_some found
        have same := List.find?_some found
        simp only [decide_eq_true_eq] at same
        simp only [typeable, Bool.not_true, Bool.false_eq_true, if_false, reduceCtorEq, false_iff]
        exact fun h => h.2.2 entry List.mem_cons_self other mem same
      | none =>
        have apart := List.find?_eq_none.1 found
        simp only [decide_eq_true_eq] at apart
        simp only [typeable, Bool.not_true, Bool.false_eq_true, if_false, ih, List.mem_cons,
          List.map_cons, List.nodup_cons, List.mem_map, List.mem_append, List.not_mem_nil,
          or_false, forall_eq_or_imp, true_and, not_exists, not_and]
        constructor
        · rintro ⟨all, nodup, fresh⟩
          refine ⟨all, ⟨?_, nodup⟩, apart, ?_⟩
          · intro other mem same
            exact fresh other mem entry (.inr rfl) same.symm
          · intro other mem before old
            exact fresh other mem before (.inl old)
        · rintro ⟨all, ⟨new, nodup⟩, -, fresh⟩
          refine ⟨all, nodup, ?_⟩
          rintro other mem before (old | rfl)
          · exact fresh other mem before old
          · exact fun same => new other mem same.symm
    · simp [typeable]

namespace Catalog

/-- The catalog of a list of entries, or the first fault of the list. -/
def ofList (entries : List Entry) : Except CatalogError Catalog :=
  match fault : firstFault? [] entries with
  | some error => .error error
  | none =>
    have free := firstFault?_eq_none_iff.1 fault
    .ok ⟨entries, free.1, free.2.1⟩

/-- The catalog of all commands, with hints spelled for a separator. -/
def builtin (separator : Text) : Catalog where
  entries := Command.all.map (Entry.ofCommand separator)
  typeable := by
    intro entry mem
    obtain ⟨command, -, rfl⟩ := List.mem_map.1 mem
    exact command.isTypeable_key
  distinct := by
    rw [List.map_map]
    exact Command.all_nodup_key

/-- The entry of a key. -/
def resolve (catalog : Catalog) (key : Char) : Except CatalogError Entry :=
  match catalog.entries.find? fun entry => entry.key = key with
  | some entry => .ok entry
  | none => .error (.unknownKey key)

/-- The catalog in which the entries of some keys are hidden.  Keys of no entry are ignored. -/
def hide (catalog : Catalog) (keys : List Char) : Catalog where
  entries := catalog.entries.map fun entry =>
    { entry with hidden := entry.hidden || keys.contains entry.key }
  typeable := by
    intro entry mem
    obtain ⟨before, held, rfl⟩ := List.mem_map.1 mem
    exact catalog.typeable before held
  distinct := by
    rw [List.map_map]
    exact catalog.distinct

/-- The entries that are shown. -/
def visible (catalog : Catalog) : List Entry :=
  catalog.entries.filter fun entry => !entry.hidden

/-- The source of the pattern for one call: a class of the keys that are typed alone, and the
    patterns of the other entries. -/
def source (catalog : Catalog) : Text :=
  let bare := catalog.entries.filter fun entry => entry.pattern.isEmpty
  let calls := catalog.entries.filter fun entry => !entry.pattern.isEmpty
  let keys := bare.flatMap fun entry => escapedSource entry.key
  let alternatives := if keys.isEmpty then [] else ['[' :: (keys ++ [']'])]
  ['|'].intercalate (alternatives ++ calls.map fun entry => entry.pattern.source)

end Catalog

end Recast

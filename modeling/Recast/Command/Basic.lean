/-
  Recast commands.

  A command recasts a text.  It is typed as one character, its key, with up to two quoted arguments.

  * `Command.all` lists the commands in the order in which they are shown;
  * `Command.key`, `Command.name`, `Command.arity`: how a command is typed and shown;
  * `all_nodup_key`: no two commands have the same key.
-/
import Recast.Text.Basic

namespace Recast

/-- How many arguments a command takes: some it needs and some it has defaults for. -/
structure Arity where
  required : Nat
  optional : Nat
  deriving DecidableEq, Repr

/-- The most arguments a command takes. -/
def Arity.total (arity : Arity) : Nat :=
  arity.required + arity.optional

/-- The commands. -/
inductive Command where
  | lowercase
  | uppercase
  | camelCase
  | pascalCase
  | snakeCase
  | trim
  | capitalize
  | encodeUri
  | decodeUri
  | reverse
  /-- with the text that joins the words -/
  | slugify
  /-- with the text to look for and the text to put in its place -/
  | replace
  /-- with the indent -/
  | formatJson
  deriving DecidableEq, Repr

namespace Command

/-- All commands, as they are shown. -/
def all : List Command :=
  [lowercase, uppercase, camelCase, pascalCase, snakeCase, trim, capitalize, encodeUri, decodeUri,
    reverse, slugify, replace, formatJson]

theorem mem_all (command : Command) : command ∈ all := by
  cases command <;> decide

/-- The character a command is typed by. -/
def key : Command → Char
  | lowercase => 'l'
  | uppercase => 'u'
  | camelCase => 'c'
  | pascalCase => 'p'
  | snakeCase => 's'
  | trim => 't'
  | capitalize => 'a'
  | encodeUri => 'e'
  | decodeUri => 'd'
  | reverse => 'r'
  | slugify => 'S'
  | replace => 'R'
  | formatJson => 'J'

/-- The name a command is shown by. -/
def name : Command → Text
  | lowercase => "Lowercase".toList
  | uppercase => "Uppercase".toList
  | camelCase => "Camelcase".toList
  | pascalCase => "Pascalcase".toList
  | snakeCase => "Snakecase".toList
  | trim => "Trim".toList
  | capitalize => "Capitalize".toList
  | encodeUri => "Encode URI".toList
  | decodeUri => "Decode URI".toList
  | reverse => "Reverse".toList
  | slugify => "Slugify".toList
  | replace => "Replace".toList
  | formatJson => "Format JSON".toList

/-- The arguments a command takes. -/
def arity : Command → Arity
  | slugify | formatJson => ⟨0, 1⟩
  | replace => ⟨1, 1⟩
  | _ => ⟨0, 0⟩

/-- Keys tell commands apart. -/
theorem all_nodup_key : (all.map key).Nodup := by
  decide

end Command

end Recast

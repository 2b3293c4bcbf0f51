/-
  Recast menus — settings.

  Settings are read from JSON: an object whose members set some of the fields, or an array that sets
  the first fields in order.  Members of other names are ignored, whatever their values.  A field that
  is set twice or to a value of the wrong kind is an error, and so is an empty separator.

  * `Settings` are the fields with their defaults, `Field` their names;
  * `Settings.ofText` reads settings; `SettingsError` says why they cannot be read;
  * `Settings.text` writes settings.
-/
import Recast.Json.Printer

namespace Recast.Menu

/-- What a menu does with a command that fails on the subject. -/
inductive FailurePolicy where
  /-- shows an item that says so -/
  | placeholder
  /-- leaves the command out -/
  | skip
  deriving DecidableEq, Repr

/-- What can be set. -/
structure Settings where
  /-- what stands between the subject and the chain -/
  separator : Text := " /".toList
  onFailure : FailurePolicy := .placeholder
  /-- the keys of commands that are not shown -/
  hidden : List Char := []
  /-- the directory of the icons -/
  iconDirectory : Text := ".".toList
  multilineTitle : Text := "Multiline output".toList
  failureTitle : Text := "Could not process. Invalid value or param".toList
  deriving DecidableEq, Repr

/-- Why settings cannot be read. -/
inductive SettingsError where
  | notFound
  | unreadable
  | invalidJson
  | emptySeparator
  deriving DecidableEq, Repr

/-- The error in words. -/
def SettingsError.message : SettingsError → Text
  | .notFound => "Config file not found".toList
  | .unreadable => "IO error reading config".toList
  | .invalidJson => "Invalid JSON in config".toList
  | .emptySeparator => "Separator must not be empty".toList

/-! ## Fields -/

/-- The fields, in order. -/
inductive Field where
  | separator
  | onFailure
  | hidden
  | iconDirectory
  | multilineTitle
  | failureTitle
  deriving DecidableEq, Repr

namespace Field

/-- All fields, in order. -/
def all : List Field :=
  [separator, onFailure, hidden, iconDirectory, multilineTitle, failureTitle]

/-- The name of a field in JSON. -/
def name : Field → Text
  | separator => "separator".toList
  | onFailure => "on_transform_error".toList
  | hidden => "hidden".toList
  | iconDirectory => "icon_dir".toList
  | multilineTitle => "multiline_title".toList
  | failureTitle => "failure_title".toList

/-- The field of a name. -/
def named? (s : Text) : Option Field :=
  all.find? fun field => field.name = s

end Field

/-! ## Values of fields -/

/-- The text that a tree stands for. -/
def textOf? : Json.Tree → Option Text
  | .string literal => literal.text?
  | _ => none

/-- The key that a tree stands for: a text of one character. -/
def keyOf? (tree : Json.Tree) : Option Char :=
  match textOf? tree with
  | some [c] => some c
  | _ => none

/-- The keys that a tree stands for. -/
def keysOf? : Json.Tree → Option (List Char)
  | .array elements => elements.mapM keyOf?
  | _ => none

/-- The name of a policy in JSON. -/
def FailurePolicy.name : FailurePolicy → Text
  | placeholder => "placeholder".toList
  | skip => "skip".toList

/-- The policy of a name. -/
def FailurePolicy.named? (s : Text) : Option FailurePolicy :=
  [placeholder, skip].find? fun policy => policy.name = s

/-- The policy that a tree stands for: its name, or an object whose one key is its name and whose
    one value is `null`. -/
def policyOf? : Json.Tree → Option FailurePolicy
  | .string literal => literal.text?.bind FailurePolicy.named?
  | .object [(key, .null)] => key.text?.bind FailurePolicy.named?
  | _ => none

namespace Settings

/-- Settings with one field set. -/
def set (settings : Settings) (field : Field) (tree : Json.Tree) : Option Settings :=
  match field with
  | .separator => (textOf? tree).map fun s => { settings with separator := s }
  | .onFailure => (policyOf? tree).map fun policy => { settings with onFailure := policy }
  | .hidden => (keysOf? tree).map fun keys => { settings with hidden := keys }
  | .iconDirectory => (textOf? tree).map fun s => { settings with iconDirectory := s }
  | .multilineTitle => (textOf? tree).map fun s => { settings with multilineTitle := s }
  | .failureTitle => (textOf? tree).map fun s => { settings with failureTitle := s }

/-- Settings with the members of an object set, of which those in `seen` are already. -/
def setMembers (settings : Settings) (seen : List Field) :
    List (Json.StringLiteral × Json.Tree) → Option Settings
  | [] => some settings
  | (key, tree) :: more =>
    match key.text? with
    | none => none
    | some key =>
      match Field.named? key with
      | none => setMembers settings seen more
      | some field =>
        if seen.contains field then none
        else (settings.set field tree).bind fun settings =>
          setMembers settings (field :: seen) more

/-- Settings with fields set in order; no tree may be left over. -/
def setElements (settings : Settings) : List Field → List Json.Tree → Option Settings
  | _, [] => some settings
  | [], _ :: _ => none
  | field :: fields, tree :: more =>
    (settings.set field tree).bind fun settings => setElements settings fields more

/-- The settings that a tree stands for. -/
def ofTree? : Json.Tree → Option Settings
  | .object members => setMembers {} [] members
  | .array elements => setElements {} Field.all elements
  | _ => none

/-- Reads settings. -/
def ofText (s : Text) : Except SettingsError Settings :=
  match (Json.Tree.ofText? s).bind ofTree? with
  | none => .error .invalidJson
  | some settings => if settings.separator.isEmpty then .error .emptySeparator else .ok settings

/-! ## Writing settings -/

/-- The value of a field in JSON. -/
def fieldValue (settings : Settings) : Field → Json.Value
  | .separator => .string settings.separator
  | .onFailure => .string settings.onFailure.name
  | .hidden => .array (settings.hidden.map fun key => .string [key])
  | .iconDirectory => .string settings.iconDirectory
  | .multilineTitle => .string settings.multilineTitle
  | .failureTitle => .string settings.failureTitle

/-- Settings in JSON: all fields, in order. -/
def value (settings : Settings) : Json.Value :=
  .object (Field.all.map fun field => (field.name, settings.fieldValue field))

/-- Writes settings. -/
def text (settings : Settings) : Text :=
  settings.value.text .compact

end Settings

end Recast.Menu

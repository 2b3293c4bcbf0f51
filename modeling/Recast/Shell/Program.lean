/-
  Recast shell — the program.

  * `settingsFrom` reads settings from what a path leads to; `defaultSettings` from the file in the
    home directory, which need not be there;
  * `output` is what is printed for options and settings;
  * `respond files args` is the response to a call whose working and home directory hold `files`.
    Settings that cannot be read are replaced by the defaults.
-/
import Recast.Command.Reference
import Recast.Menu.Basic
import Recast.Shell.FileTree
import Recast.Shell.Options

namespace Recast.Shell

open Recast.Menu (Settings SettingsError)

/-- The settings file that is read unless another is given, seen from the home directory. -/
def defaultPath : Text :=
  ".config/textchain.json".toList

/-- Settings from a file that must be there and hold UTF-8. -/
def settingsFrom : Source → Except SettingsError Settings
  | .missing => .error .notFound
  | .directory => .error .unreadable
  | .file bytes =>
    match bytes.utf8Decode? with
    | some chars => Settings.ofText chars.toList
    | none => .error .unreadable

/-- Settings from the default file; if it is not there, the defaults. -/
def defaultSettings : Source → Except SettingsError Settings
  | .missing => .ok {}
  | source => settingsFrom source

/-- The settings for some options; `find` says what a path leads to, from the working directory if it
    was given and from the home directory if not. -/
def settingsFor (options : Options) (find : Text → Source) : Except SettingsError Settings :=
  match options.config with
  | some path => settingsFrom (find path)
  | none => defaultSettings (find defaultPath)

/-- A text as a line. -/
def line (s : Text) : Text :=
  s ++ ['\n']

/-- What is printed for options and settings. -/
def output (options : Options) (settings : Settings) : Except CatalogError Text :=
  (Menu.ofSettings settings).map fun menu =>
    if options.commands then line menu.catalog.reference
    else line (Menu.itemsText options.pretty (menu.items (options.input.getD [])))

/-- What a call prints, and its exit code. -/
structure Response where
  exitCode : Nat
  output : Text
  deriving DecidableEq, Repr

/-- The line that names the version. -/
def versionLine : Text :=
  line "textchain 0.1.0".toList

/-- The response to a request; `load` reads the settings for the options. -/
def Request.respond (request : Request) (load : Options → Except SettingsError Settings) :
    Response :=
  match request with
  | .misuse => ⟨2, []⟩
  | .version => ⟨0, versionLine⟩
  | .answer options =>
    match output options ((load options).toOption.getD {}) with
    | .ok printed => ⟨0, printed⟩
    | .error _ => ⟨1, []⟩

/-- The response to a call among some files. -/
def respond (files : FileTree) (args : List Text) : Response :=
  (Request.ofArgs args).respond fun options => settingsFor options files.lookup

end Recast.Shell

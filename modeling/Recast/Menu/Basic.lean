/-
  Recast menus.

  A menu answers an input with items.  If the input has a chain with tokens, there is one item, for
  what the chain makes of the subject.  If not, there is an item for each command that is shown, for
  what it makes of the subject by itself.

  * `Menu.ofCatalog`, `Menu.ofSettings` make a menu;
  * `Menu.items menu input` are the items.
-/
import Recast.Chain.Run
import Recast.Chain.Split
import Recast.Menu.Item
import Recast.Menu.Settings

namespace Recast

open Recast.Menu (Item Settings)

/-- A menu: its commands, the grammar by which chains of them are read, and its settings. -/
structure Menu where
  catalog : Catalog
  grammar : Chain.Grammar
  settings : Settings
  understood : Chain.Grammar.ofCatalog catalog = .ok grammar

namespace Menu

/-- The menu of a catalog. -/
def ofCatalog (catalog : Catalog) (settings : Settings) : Except CatalogError Menu :=
  match understood : Chain.Grammar.ofCatalog catalog with
  | .ok grammar => .ok ⟨catalog, grammar, settings, understood⟩
  | .error error => .error error

/-- The menu of all commands. -/
def ofSettings (settings : Settings) : Except CatalogError Menu :=
  ofCatalog ((Catalog.builtin settings.separator).hide settings.hidden) settings

/-- The path of an icon. -/
def iconPath (settings : Settings) (name : Text) : Text :=
  (settings.iconDirectory.reverse.dropWhile (· = '/')).reverse ++ '/' :: name ++ ".png".toList

/-! ## Items -/

/-- The item of a chain. -/
def chainItem (menu : Menu) (subject : Text) (tokens : List Chain.Token) : Item :=
  let subtitle := pathText (Chain.attempted menu.catalog tokens)
  let icon := iconPath menu.settings "Chained".toList
  match Chain.run menu.catalog subject tokens with
  | .ok outcome =>
    .ofValue "chained".toList subtitle icon menu.settings.multilineTitle outcome.value
  | .error _ => .ofFailure "error".toList subtitle icon menu.settings.failureTitle subject

/-- The item of a command, unless it fails and is to be left out. -/
def previewItem? (settings : Settings) (subject : Text) (entry : Entry) : Option Item :=
  let uid := Text.lowercase entry.name
  let icon := iconPath settings entry.name
  match entry.command.apply subject [] with
  | .ok value => some (.ofValue uid entry.subtitle icon settings.multilineTitle value)
  | .error _ =>
    match settings.onFailure with
    | .placeholder => some (.ofFailure uid entry.subtitle icon settings.failureTitle subject)
    | .skip => none

/-- The items of the commands that are shown. -/
def previewItems (menu : Menu) (subject : Text) : List Item :=
  menu.catalog.visible.filterMap (previewItem? menu.settings subject)

/-- The items that answer an input. -/
def items (menu : Menu) (input : Text) : List Item :=
  let parts := Chain.split menu.grammar menu.settings.separator input
  match (parts.chain.map menu.grammar.tokens).getD [] with
  | [] => menu.previewItems parts.subject
  | token :: more => [menu.chainItem parts.subject (token :: more)]

end Menu

end Recast

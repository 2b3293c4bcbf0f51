/-
  Recast menus — items.

  An item is one line of the menu that a host shows: a title, a subtitle, an icon, and the argument
  that is handed on when the item is picked.

  * `Item.ofValue`, `Item.ofFailure`: the item of a text that was made, and of one that could not be
    recast.  A text of several lines is no title;
  * `itemsValue`, `itemsText` are the items as a JSON value and its text.
-/
import Recast.Json.Printer

namespace Recast.Menu

/-- A line of a menu. -/
structure Item where
  uid : Text
  title : Text
  subtitle : Text
  arg : Text
  icon : Text
  deriving DecidableEq, Repr

/-- Whether a text has several lines. -/
def isMultiline (s : Text) : Bool :=
  s.contains '\n'

namespace Item

/-- The item of a text, which is its own title unless it has several lines. -/
def ofValue (uid subtitle icon multilineTitle value : Text) : Item where
  uid := uid
  title := if isMultiline value then multilineTitle else value
  subtitle := subtitle
  arg := value
  icon := icon

/-- The item of a text that could not be recast: a fixed title, and the text as it is. -/
def ofFailure (uid subtitle icon failureTitle subject : Text) : Item where
  uid := uid
  title := failureTitle
  subtitle := subtitle
  arg := subject
  icon := icon

/-- An item as a JSON value. -/
def value (item : Item) : Json.Value :=
  .object
    [("uid".toList, .string item.uid), ("title".toList, .string item.title),
      ("subtitle".toList, .string item.subtitle), ("arg".toList, .string item.arg),
      ("icon".toList, .object [("path".toList, .string item.icon)])]

end Item

/-- The items of a menu as a JSON value. -/
def itemsValue (items : List Item) : Json.Value :=
  .object [("items".toList, .array (items.map Item.value))]

/-- How the items are written: on one line, or indented by two spaces. -/
def itemsLayout (pretty : Bool) : Json.Layout :=
  if pretty then .indented [' ', ' '] else .compact

/-- The items of a menu as JSON. -/
def itemsText (pretty : Bool) (items : List Item) : Text :=
  (itemsValue items).text (itemsLayout pretty)

end Recast.Menu

/-
  Recast menus — items as a host reads them.

  A host reads the text of a menu as JSON and finds the fields of the items in it.

  * `ShowsItem value item`: an object has the fields of an item and nothing else, `ShowsItems`: a
    document has the items of a menu, in order, and nothing else;
  * `ShowsItems.eq`: no document shows two menus;
  * `isStable_itemsValue`: the value of a menu is read back from its text;
  * `exists_showsItems`: what a host reads shows the items of the menu, in either layout.
-/
import Mathlib.Data.List.Forall2
import Recast.Menu.Item
import Recast.Proofs.Json.Layout

namespace Recast

namespace Json.Value

/-- The keys of an object, in order. -/
def keys : Value → List Text
  | .object members => members.map Prod.fst
  | _ => []

/-- The value that an object has for a key. -/
def member? (key : Text) : Value → Option Value
  | .object members => members.lookup key
  | _ => none

end Json.Value

namespace Menu

open Json (Value depthLimit withoutBlanks)

/-- A value shows an item: it is an object that has a text for each field, with the path of the icon
    one object further in, and no other members. -/
structure ShowsItem (value : Value) (item : Item) : Prop where
  keys : value.keys =
    ["uid".toList, "title".toList, "subtitle".toList, "arg".toList, "icon".toList]
  uid : value.member? "uid".toList = some (.string item.uid)
  title : value.member? "title".toList = some (.string item.title)
  subtitle : value.member? "subtitle".toList = some (.string item.subtitle)
  arg : value.member? "arg".toList = some (.string item.arg)
  icon : ∃ icon, value.member? "icon".toList = some icon ∧ icon.keys = ["path".toList] ∧
    icon.member? "path".toList = some (.string item.icon)

/-- A value shows items: its one member is the array of the values that show them, in order. -/
structure ShowsItems (value : Value) (items : List Item) : Prop where
  keys : value.keys = ["items".toList]
  items : ∃ elements, value.member? "items".toList = some (.array elements) ∧
    List.Forall₂ ShowsItem elements items

theorem ShowsItem.eq {value : Value} {item other : Item} (h : ShowsItem value item)
    (h' : ShowsItem value other) : item = other := by
  obtain ⟨icon, hicon, -, hpath⟩ := h.icon
  obtain ⟨icon', hicon', -, hpath'⟩ := h'.icon
  obtain rfl := Option.some.inj (hicon.symm.trans hicon')
  have htext : ∀ {key s t} {value : Value}, value.member? key = some (.string s) →
      value.member? key = some (.string t) → s = t :=
    fun hs ht => by simpa using hs.symm.trans ht
  cases item
  cases other
  simp only [Item.mk.injEq]
  exact ⟨htext h.uid h'.uid, htext h.title h'.title, htext h.subtitle h'.subtitle,
    htext h.arg h'.arg, htext hpath hpath'⟩

/-- A value shows one list of items at most. -/
theorem ShowsItems.eq {value : Value} {items others : List Item} (h : ShowsItems value items)
    (h' : ShowsItems value others) : items = others := by
  obtain ⟨elements, helements, hshow⟩ := h.items
  obtain ⟨elements', helements', hshow'⟩ := h'.items
  obtain rfl : elements = elements' := by simpa using helements.symm.trans helements'
  have hunique : Relator.RightUnique ShowsItem := fun _ _ _ => ShowsItem.eq
  exact hunique.forall₂ hshow hshow'

theorem showsItem_value (item : Item) : ShowsItem item.value item where
  keys := rfl
  uid := rfl
  title := rfl
  subtitle := rfl
  arg := rfl
  icon := ⟨_, rfl, rfl, rfl⟩

theorem showsItems_itemsValue (items : List Item) : ShowsItems (itemsValue items) items where
  keys := rfl
  items := ⟨_, rfl, List.forall₂_map_left_iff.2 (List.forall₂_same.2 fun item _ =>
    showsItem_value item)⟩

/-! ## Text -/

theorem isBlank_itemsLayout (pretty : Bool) : (itemsLayout pretty).IsBlank := by
  cases pretty with
  | false => exact Json.Indent.isBlank_layout (.spaces 0)
  | true => exact Json.Indent.isBlank_layout (.spaces 2)

/-- An item is read back wherever two containers may nest. -/
theorem isStable_value (item : Item) (depth : Nat) : item.value.IsStable (depth + 2) := by
  have hicon : (Value.object [("path".toList, .string item.icon)]).IsStable (depth + 1) :=
    .object (by simp) (List.forall_mem_singleton.2 (.string _))
  refine .object (by simp) ?_
  simp only [List.forall_mem_cons]
  exact ⟨.string _, .string _, .string _, .string _, hicon, List.forall_mem_nil _⟩

theorem isStable_itemsValue (items : List Item) : (itemsValue items).IsStable depthLimit := by
  have helements : (Value.array (items.map Item.value)).IsStable (depthLimit - 1) :=
    .array (List.forall_mem_map.2 fun item _ => isStable_value item _)
  exact .object (by simp) (List.forall_mem_singleton.2 helements)

theorem withoutBlanks_itemsText (pretty : Bool) (items : List Item) :
    withoutBlanks (itemsText pretty items) = itemsText false items :=
  (Json.condenses_textAt (isBlank_itemsLayout pretty) (itemsValue items) 0 0).withoutBlanks_eq

/-- **A host reads from the text of a menu its items, and no others**: in either layout the text is
    that of a value, which shows these items and nothing else.  The layouts differ in white space
    outside strings. -/
theorem exists_showsItems (pretty : Bool) (items : List Item) :
    (∃ value, Value.ofText? (itemsText pretty items) = some value ∧
      ∀ others, ShowsItems value others ↔ others = items) ∧
    withoutBlanks (itemsText pretty items) = itemsText false items := by
  have hread := Value.ofText?_text (isBlank_itemsLayout pretty) (isStable_itemsValue items)
  refine ⟨⟨itemsValue items, hread, fun others => ?_⟩, withoutBlanks_itemsText pretty items⟩
  constructor
  · exact fun h => h.eq (showsItems_itemsValue items)
  · rintro rfl
    exact showsItems_itemsValue others

end Menu

end Recast

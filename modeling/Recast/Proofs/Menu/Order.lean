/-
  Recast menus — the order of the commands.

  The entries of a catalog may come in any order.  Which token starts at a character and what it stands
  for is decided by keys, and these tell the entries apart.

  * `agreesOnChains_of_perm`: menus whose entries come in another order agree on chains;
  * `items_of_perm`: the order of the entries is that of the items of a subject by itself, and is seen
    nowhere else.
-/
import Recast.Proofs.Menu.Reading

namespace Recast.Menu

theorem agreesOnChains_of_perm {menu other : Menu}
    (hperm : menu.catalog.entries.Perm other.catalog.entries)
    (hc : ∀ entry ∈ menu.catalog.entries, entry.IsConsistent)
    (hsettings : other.settings = menu.settings) : AgreesOnChains menu other where
  separator := by rw [hsettings]
  token? := fun c rest =>
    (Chain.Grammar.token?_of_perm hperm hc menu.understood other.understood c rest).symm
  steps := fun tokens => (Chain.steps_of_perm hperm tokens).symm
  item := by simp [hsettings]

/-- **The order of the commands does not matter.**  If the entries of a consistent catalog come in
    another order, they make a catalog and a menu, too.  Both menus divide an input alike and find the
    same tokens.  A chain is answered with the same item.  Without one, the items are those of the
    entries that are shown: each entry has the same item, and the items come in the order of the
    entries. -/
theorem items_of_perm {entries others : List Entry} (hperm : entries.Perm others)
    {catalog : Catalog} (hcatalog : Catalog.ofList entries = .ok catalog)
    (hc : ∀ entry ∈ entries, entry.IsConsistent) (settings : Settings) :
    ∃ other menu otherMenu, Catalog.ofList others = .ok other ∧
      ofCatalog catalog settings = .ok menu ∧ ofCatalog other settings = .ok otherMenu ∧
      (∀ s, otherMenu.grammar.tokens s = menu.grammar.tokens s) ∧
      ∀ input,
        Chain.split otherMenu.grammar settings.separator input =
            Chain.split menu.grammar settings.separator input ∧
          otherMenu.tokens input = menu.tokens input ∧
          (menu.tokens input ≠ [] →
            ∃ item, menu.items input = [item] ∧ otherMenu.items input = [item]) ∧
          (menu.tokens input = [] →
            menu.items input =
                (entries.filter (IsShown settings (menu.subject input))).map
                  (previewItem settings (menu.subject input)) ∧
              otherMenu.items input =
                (others.filter (IsShown settings (menu.subject input))).map
                  (previewItem settings (menu.subject input))) := by
  obtain rfl := Catalog.entries_of_ofList hcatalog
  obtain ⟨other, hother, rfl⟩ := Catalog.exists_ofList_of_perm hperm hcatalog
  have hc' : ∀ entry ∈ other.entries, entry.IsConsistent := fun entry hentry =>
    hc entry (hperm.mem_iff.2 hentry)
  obtain ⟨menu, hmenu, rfl, rfl⟩ := exists_ofCatalog (Catalog.ofCatalog_of_isConsistent hc) settings
  obtain ⟨otherMenu, hotherMenu, hsettings, rfl⟩ :=
    exists_ofCatalog (Catalog.ofCatalog_of_isConsistent hc') menu.settings
  have hagrees := agreesOnChains_of_perm hperm hc hsettings
  refine ⟨_, menu, otherMenu, hother, hmenu, hotherMenu,
    Chain.Grammar.tokens_congr hagrees.token?, fun input =>
      ⟨?_, hagrees.tokens input, hagrees.exists_item input, fun htokens => ⟨?_, ?_⟩⟩⟩
  · rw [← hagrees.split, hsettings]
  · rw [items_of_tokens_eq_nil htokens, previewItems_eq]
  · rw [items_of_tokens_eq_nil ((hagrees.tokens input).trans htokens), previewItems_eq,
      hagrees.subject, hsettings]

/-- The built-in commands in the reverse order.  One of them is hidden, and those that fail are left
    out. -/
theorem items_of_perm_reverse :
    let settings : Settings := { hidden := ['l'], onFailure := .skip }
    let catalog := (Catalog.builtin settings.separator).hide settings.hidden
    ∃ other menu otherMenu, Catalog.ofList catalog.entries.reverse = .ok other ∧
      ofCatalog catalog settings = .ok menu ∧ ofCatalog other settings = .ok otherMenu ∧
      otherMenu.items "50% Off".toList = (menu.items "50% Off".toList).reverse ∧
      ∃ item, menu.items "50% Off /S '_'l".toList = [item] ∧
        otherMenu.items "50% Off /S '_'l".toList = [item] ∧ item.title = "50_off".toList := by
  intro settings catalog
  obtain ⟨other, menu, otherMenu, hother, hmenu, hotherMenu, -, hitems⟩ :=
    items_of_perm catalog.entries.reverse_perm.symm catalog.ofList_entries
      (fun _ => Catalog.isConsistent_builtin_hide) settings
  obtain ⟨hsettings, -⟩ := settings_and_catalog_of_ofSettings hmenu
  refine ⟨other, menu, otherMenu, hother, hmenu, hotherMenu, ?_, ?_⟩
  · obtain ⟨-, -, -, hpreview⟩ := hitems "50% Off".toList
    have hends : Text.EndsAt menu.settings.separator "50% Off".toList := hsettings ▸ by decide
    obtain ⟨hmenu', hother'⟩ := hpreview (tokens_of_endsAt (hsettings ▸ by decide) hends).2
    rw [hmenu', hother', List.filter_reverse, List.map_reverse]
  · obtain ⟨-, -, hchain, -⟩ := hitems "50% Off /S '_'l".toList
    let typed : List Chain.TypedStep := [⟨.slugify, ["_".toList], []⟩, ⟨.lowercase, [], []⟩]
    have hsteps : ∀ step ∈ typed, IsTypeable " /".toList step := by
      unfold typed
      decide
    have hends : Text.EndsAt " /".toList "50% Off".toList := by decide
    have htokens := @tokens_append_typed? settings menu hmenu (by decide) _ hends [] _ (by decide)
      typed (by decide) hsteps rfl
    have hitem := @items_append_typed? settings menu hmenu (by decide) _ hends [] _ (by decide)
      typed (by decide) hsteps rfl
    obtain ⟨item, hmenu', hother'⟩ := hchain htokens.2.1
    obtain rfl := List.singleton_inj.1 (hmenu'.symm.trans hitem)
    exact ⟨_, hmenu', hother', rfl⟩

end Recast.Menu

/-
  Recast commands — what is found in a catalog.

  * `Catalog.exists_ofList_iff`: entries make a catalog if their keys can be typed and tell them apart,
    and `Catalog.ofList_entries`: those of a catalog make it again;
  * `Catalog.resolve_eq_ok_iff`: the entry of a key is the one that has it;
  * `Catalog.exists_ofList_of_perm`, `Catalog.resolve_of_perm`: the order of the entries does not
    matter to either;
  * `Catalog.source_hide`, `Catalog.resolve_hide`: hiding changes no pattern, and of what is found
    nothing but whether it is shown.
-/
import Recast.Proofs.Chain.Run

namespace Recast.Catalog

variable {catalog other : Catalog}

theorem exists_ofList_iff {entries : List Entry} :
    (∃ catalog, ofList entries = .ok catalog) ↔
      (∀ entry ∈ entries, isTypeable entry.key = true) ∧ (entries.map Entry.key).Nodup := by
  have hfault : firstFault? [] entries = none ↔
      (∀ entry ∈ entries, isTypeable entry.key = true) ∧ (entries.map Entry.key).Nodup := by
    rw [firstFault?_eq_none_iff]
    simp
  rw [← hfault]
  unfold ofList
  split
  · next error herror => simp [herror]
  · next hnone => simp [hnone]

theorem ofList_entries (catalog : Catalog) : ofList catalog.entries = .ok catalog := by
  obtain ⟨made, hmade⟩ := exists_ofList_iff.2 ⟨catalog.typeable, catalog.distinct⟩
  have hentries := entries_of_ofList hmade
  cases made
  cases hentries
  exact hmade

theorem resolve_eq_ok_iff {key : Char} {entry : Entry} :
    catalog.resolve key = .ok entry ↔ entry ∈ catalog.entries ∧ entry.key = key := by
  constructor
  · intro h
    unfold resolve at h
    split at h
    · next found hfound =>
      obtain rfl := Except.ok.inj h
      have hkey := List.find?_some hfound
      exact ⟨List.mem_of_find?_eq_some hfound, of_decide_eq_true hkey⟩
    · exact absurd h (by simp)
  · rintro ⟨hentry, rfl⟩
    exact resolve_of_mem hentry

/-- The one error of a look-up names the key. -/
theorem eq_unknownKey_of_resolve {key : Char} {error : CatalogError}
    (h : catalog.resolve key = .error error) : error = .unknownKey key := by
  unfold resolve at h
  split at h
  · exact absurd h (by simp)
  · exact (Except.error.inj h).symm

/-! ## The order of the entries -/

theorem exists_ofList_of_perm {entries others : List Entry} (hperm : entries.Perm others)
    (hcatalog : ofList entries = .ok catalog) :
    ∃ other, ofList others = .ok other ∧ other.entries = others := by
  obtain ⟨htypeable, hdistinct⟩ := exists_ofList_iff.1 ⟨catalog, hcatalog⟩
  obtain ⟨other, hother⟩ := exists_ofList_iff.2
    ⟨fun entry hentry => htypeable entry (hperm.mem_iff.2 hentry),
      (hperm.map Entry.key).nodup_iff.1 hdistinct⟩
  exact ⟨other, hother, entries_of_ofList hother⟩

theorem resolve_of_perm (hperm : catalog.entries.Perm other.entries) (key : Char) :
    catalog.resolve key = other.resolve key := by
  have hok : ∀ entry, catalog.resolve key = .ok entry ↔ other.resolve key = .ok entry := by
    intro entry
    rw [resolve_eq_ok_iff, resolve_eq_ok_iff, hperm.mem_iff]
  cases hresolve : catalog.resolve key with
  | ok entry => exact ((hok entry).1 hresolve).symm
  | error error =>
    cases hother : other.resolve key with
    | ok entry => exact absurd ((hok entry).2 hother) (by simp [hresolve])
    | error unknown =>
      rw [eq_unknownKey_of_resolve hresolve, eq_unknownKey_of_resolve hother]

/-! ## Hidden entries -/

theorem source_hide (catalog : Catalog) (keys : List Char) :
    (catalog.hide keys).source = catalog.source := by
  unfold source hide
  dsimp only
  rw [List.filter_map, List.filter_map, List.flatMap_map, List.map_map]
  rfl

theorem resolve_hide (catalog : Catalog) (keys : List Char) (key : Char) :
    (catalog.hide keys).resolve key = (catalog.resolve key).map fun entry =>
      { entry with hidden := entry.hidden || keys.contains entry.key } := by
  have hfind : ((catalog.hide keys).entries.find? fun entry => entry.key = key) =
      (catalog.entries.find? fun entry => entry.key = key).map fun entry =>
        { entry with hidden := entry.hidden || keys.contains entry.key } :=
    List.find?_map
  unfold resolve
  rw [hfind]
  cases catalog.entries.find? fun entry => entry.key = key <;> rfl

end Recast.Catalog

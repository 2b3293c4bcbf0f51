/-
  Recast commands — what becomes of a list of entries.

  An entry of a list is at fault if its key is white space or a quote, or the key of an entry before
  it.  The first entry at fault decides which error the list is.  A list without faults is a catalog,
  in which entries can be hidden again and again.

  * `IsFaulty before entry`: an entry is at fault behind others, `Fault` says with which error;
  * `Catalog.ofList_eq_error_iff`: the error of a list is that of its first entry at fault, and
    `Catalog.exists_error_iff`: a list is an error if it has one;
  * `filter_key_eq_singleton`, `Catalog.resolve_cases`: a key has at most one entry, which is found;
  * `Catalog.entries_hideAll`, `Catalog.visible_hideAll`: what is changed by hiding keys in steps;
  * `Catalog.faults_and_lookups_of_ofList`: all of it, for every list of entries.
-/
import Mathlib.Data.List.Induction
import Recast.Proofs.Command.Catalog

namespace Recast

/-! ## Faults -/

/-- An entry is at fault behind others: its key is white space or a quote, or one of them has it. -/
def IsFaulty (before : List Entry) (entry : Entry) : Prop :=
  Letter.isBlank entry.key = true ∨ isQuote entry.key = true ∨
    ∃ other ∈ before, other.key = entry.key

/-- No entry of a list is at fault behind those before it. -/
def IsFaultless (entries : List Entry) : Prop :=
  ∀ before entry after, entries = before ++ entry :: after → ¬ IsFaulty before entry

/-- What is wrong with an entry behind others: its key cannot be typed or, if it can, is the key of
    one of them, which the error names first. -/
inductive Fault (before : List Entry) (entry : Entry) : CatalogError → Prop
  | invalidKey : Letter.isBlank entry.key = true ∨ isQuote entry.key = true →
      Fault before entry (.invalidKey entry.key entry.name)
  | collision {other : Entry} : Letter.isBlank entry.key = false → isQuote entry.key = false →
      before.filter (fun earlier => earlier.key = entry.key) = [other] →
      Fault before entry (.collision entry.key other.name entry.name)

theorem isTypeable_eq_true_iff {key : Char} :
    isTypeable key = true ↔ Letter.isBlank key = false ∧ isQuote key = false := by
  cases hblank : Letter.isBlank key <;> simp [isTypeable, hblank]

theorem isTypeable_eq_false_iff {key : Char} :
    isTypeable key = false ↔ Letter.isBlank key = true ∨ isQuote key = true := by
  cases hblank : Letter.isBlank key <;> simp [isTypeable, hblank]

/-- Where keys differ, the entries with the key of an entry are that entry alone. -/
theorem filter_key_eq_singleton {entries : List Entry} (hdistinct : (entries.map Entry.key).Nodup)
    {entry : Entry} (hentry : entry ∈ entries) :
    entries.filter (fun other => other.key = entry.key) = [entry] := by
  obtain ⟨before, after, rfl⟩ := List.append_of_mem hentry
  simp only [List.map_append, List.map_cons, List.nodup_append, List.nodup_cons, List.mem_map,
    List.mem_cons, not_exists, not_and] at hdistinct
  obtain ⟨-, ⟨hafter, -⟩, hbefore⟩ := hdistinct
  have hnone : before.filter (fun other => other.key = entry.key) = [] :=
    List.filter_eq_nil_iff.2 fun other hother => by
      simpa using hbefore other.key ⟨other, hother, rfl⟩ entry.key (.inl rfl)
  have hnone' : after.filter (fun other => other.key = entry.key) = [] :=
    List.filter_eq_nil_iff.2 fun other hother => by simpa using hafter other hother
  simp [List.filter_append, hnone, hnone']

section
variable {before entries : List Entry} {entry : Entry} {error : CatalogError}

theorem Fault.isFaulty (h : Fault before entry error) : IsFaulty before entry := by
  cases h with
  | invalidKey hkey => exact or_assoc.1 (.inl hkey)
  | @collision other _ _ hother =>
    have hmem : other ∈ before.filter fun earlier => earlier.key = entry.key := by simp [hother]
    obtain ⟨hmem, hkey⟩ := List.mem_filter.1 hmem
    exact .inr (.inr ⟨other, hmem, of_decide_eq_true hkey⟩)

/-- Behind entries of different keys, what is at fault has an error. -/
theorem IsFaulty.exists_fault (h : IsFaulty before entry)
    (hdistinct : (before.map Entry.key).Nodup) : ∃ error, Fault before entry error := by
  by_cases hkey : isTypeable entry.key = true
  · obtain ⟨hblank, hquote⟩ := isTypeable_eq_true_iff.1 hkey
    obtain ⟨other, hmem, hsame⟩ : ∃ other ∈ before, other.key = entry.key := by
      simpa [IsFaulty, hblank, hquote] using h
    have hfilter := filter_key_eq_singleton hdistinct hmem
    rw [hsame] at hfilter
    exact ⟨_, .collision hblank hquote hfilter⟩
  · exact ⟨_, .invalidKey (isTypeable_eq_false_iff.1 (Bool.eq_false_iff.2 hkey))⟩

theorem isFaultless_append_singleton_iff :
    IsFaultless (before ++ [entry]) ↔ IsFaultless before ∧ ¬ IsFaulty before entry := by
  constructor
  · intro h
    refine ⟨fun first other after hsplit => h first other (after ++ [entry]) ?_,
      h before entry [] rfl⟩
    rw [hsplit, List.append_assoc, List.cons_append]
  · rintro ⟨hbefore, hentry⟩ first other after hsplit
    rcases List.eq_nil_or_concat after with rfl | ⟨middle, last, rfl⟩
    · obtain ⟨rfl, hlast⟩ := List.append_inj' hsplit rfl
      rwa [← List.head_eq_of_cons_eq hlast]
    · rw [List.concat_eq_append, ← List.cons_append, ← List.append_assoc] at hsplit
      exact hbefore first other middle (List.append_inj_left' hsplit rfl)

/-- A list is free of faults, or some entry is the first at fault. -/
theorem isFaultless_or_exists (entries : List Entry) :
    IsFaultless entries ∨ ∃ before entry after, entries = before ++ entry :: after ∧
      IsFaultless before ∧ IsFaulty before entry := by
  induction entries using List.reverseRecOn with
  | nil => exact .inl fun before entry after h => absurd h (by simp)
  | append_singleton before entry ih =>
    rcases ih with hfree | ⟨first, other, after, rfl, hfirst, hother⟩
    · by_cases hentry : IsFaulty before entry
      · exact .inr ⟨before, entry, [], rfl, hfree, hentry⟩
      · exact .inl (isFaultless_append_singleton_iff.2 ⟨hfree, hentry⟩)
    · exact .inr ⟨first, other, after ++ [entry], by simp, hfirst, hother⟩

/-! ## The search for the first fault -/

/-- An entry that is not at fault is passed over. -/
theorem firstFault?_cons_of_not_isFaulty (h : ¬ IsFaulty before entry) (more : List Entry) :
    firstFault? before (entry :: more) = firstFault? (before ++ [entry]) more := by
  obtain ⟨hblank, hquote, hfresh⟩ : Letter.isBlank entry.key = false ∧ isQuote entry.key = false ∧
      ∀ other ∈ before, other.key ≠ entry.key := by simpa [IsFaulty] using h
  have hfind : (before.find? fun other => other.key = entry.key) = none := by simpa using hfresh
  simp [firstFault?, isTypeable_eq_true_iff.2 ⟨hblank, hquote⟩, hfind]

theorem Fault.firstFault?_cons (h : Fault before entry error) (more : List Entry) :
    firstFault? before (entry :: more) = some error := by
  cases h with
  | invalidKey hkey => simp [firstFault?, isTypeable_eq_false_iff.2 hkey]
  | @collision other hblank hquote hother =>
    have hfind : (before.find? fun earlier => earlier.key = entry.key) = some other := by
      rw [← List.head?_filter, hother, List.head?_singleton]
    simp [firstFault?, isTypeable_eq_true_iff.2 ⟨hblank, hquote⟩, hfind]

/-- Entries without fault are passed over. -/
theorem IsFaultless.firstFault?_append (h : IsFaultless before) (more : List Entry) :
    firstFault? [] (before ++ more) = firstFault? before more := by
  induction before using List.reverseRecOn generalizing more with
  | nil => rfl
  | append_singleton before entry ih =>
    obtain ⟨hbefore, hentry⟩ := isFaultless_append_singleton_iff.1 h
    rw [List.append_assoc, List.singleton_append, ih hbefore,
      firstFault?_cons_of_not_isFaulty hentry]

theorem IsFaultless.firstFault?_eq_none (h : IsFaultless entries) :
    firstFault? [] entries = none := by
  have happend := h.firstFault?_append []
  rwa [List.append_nil] at happend

theorem IsFaultless.nodup (h : IsFaultless entries) : (entries.map Entry.key).Nodup :=
  (firstFault?_eq_none_iff.1 h.firstFault?_eq_none).2.1

/-- A list is free of faults, or it has a first one, which has an error. -/
theorem isFaultless_or_exists_fault (entries : List Entry) :
    IsFaultless entries ∨ ∃ before entry after error, entries = before ++ entry :: after ∧
      IsFaultless before ∧ Fault before entry error := by
  refine (isFaultless_or_exists entries).imp_right ?_
  rintro ⟨before, entry, after, hsplit, hfree, hentry⟩
  obtain ⟨error, herror⟩ := hentry.exists_fault hfree.nodup
  exact ⟨before, entry, after, error, hsplit, hfree, herror⟩

/-- **The search finds the first fault.** -/
theorem firstFault?_eq_some_iff :
    firstFault? [] entries = some error ↔ ∃ before entry after,
      entries = before ++ entry :: after ∧ IsFaultless before ∧ Fault before entry error := by
  constructor
  · intro h
    rcases isFaultless_or_exists_fault entries with
      hfree | ⟨before, entry, after, found, rfl, hfree, hfound⟩
    · rw [hfree.firstFault?_eq_none] at h
      exact absurd h (by simp)
    · rw [hfree.firstFault?_append, hfound.firstFault?_cons] at h
      exact ⟨before, entry, after, rfl, hfree, Option.some.inj h ▸ hfound⟩
  · rintro ⟨before, entry, after, rfl, hfree, hfault⟩
    rw [hfree.firstFault?_append, hfault.firstFault?_cons]

theorem isFaultless_iff : IsFaultless entries ↔ firstFault? [] entries = none := by
  refine ⟨IsFaultless.firstFault?_eq_none, fun h => ?_⟩
  rcases isFaultless_or_exists_fault entries with
    hfree | ⟨before, entry, after, error, hsplit, hfree, herror⟩
  · exact hfree
  · have hfound := firstFault?_eq_some_iff.2 ⟨before, entry, after, hsplit, hfree, herror⟩
    exact absurd (h.symm.trans hfound) (by simp)

end

instance (entries : List Entry) : Decidable (IsFaultless entries) :=
  decidable_of_iff _ isFaultless_iff.symm

/-- An entry is hidden by itself or because its key is in one of some lists. -/
def Entry.IsHiddenBy (lists : List (List Char)) (entry : Entry) : Prop :=
  entry.hidden = true ∨ ∃ keys ∈ lists, entry.key ∈ keys

instance (lists : List (List Char)) (entry : Entry) : Decidable (entry.IsHiddenBy lists) :=
  inferInstanceAs (Decidable (_ ∨ _))

namespace Catalog

/-! ## Errors -/

theorem ofList_eq_error_iff {entries : List Entry} {error : CatalogError} :
    ofList entries = .error error ↔ ∃ before entry after,
      entries = before ++ entry :: after ∧ IsFaultless before ∧ Fault before entry error := by
  rw [← firstFault?_eq_some_iff]
  unfold ofList
  split
  · next found hfound => simp [hfound]
  · next hnone => simp [hnone]

theorem exists_error_iff {entries : List Entry} :
    (∃ error, ofList entries = .error error) ↔ ∃ before entry after,
      entries = before ++ entry :: after ∧ IsFaulty before entry := by
  constructor
  · rintro ⟨error, herror⟩
    obtain ⟨before, entry, after, hsplit, -, hfault⟩ := ofList_eq_error_iff.1 herror
    exact ⟨before, entry, after, hsplit, hfault.isFaulty⟩
  · rintro ⟨before, entry, after, hsplit, hentry⟩
    rcases isFaultless_or_exists_fault entries with
      hfree | ⟨first, other, rest, error, hfirst, hfree, herror⟩
    · exact absurd hentry (hfree before entry after hsplit)
    · exact ⟨error, ofList_eq_error_iff.2 ⟨first, other, rest, hfirst, hfree, herror⟩⟩

/-! ## Look-ups -/

/-- A key has one entry, which is found, or none, which is the error. -/
theorem resolve_cases (catalog : Catalog) (key : Char) :
    (∃ entry, catalog.entries.filter (fun entry => entry.key = key) = [entry] ∧
      catalog.resolve key = .ok entry) ∨
    (catalog.entries.filter (fun entry => entry.key = key) = [] ∧
      catalog.resolve key = .error (.unknownKey key)) := by
  cases hresolve : catalog.resolve key with
  | ok entry =>
    obtain ⟨hmem, rfl⟩ := resolve_eq_ok_iff.1 hresolve
    exact .inl ⟨entry, filter_key_eq_singleton catalog.distinct hmem, rfl⟩
  | error error =>
    obtain rfl := eq_unknownKey_of_resolve hresolve
    refine .inr ⟨List.filter_eq_nil_iff.2 fun entry hmem hkey => ?_, rfl⟩
    have hfound := resolve_eq_ok_iff.2 ⟨hmem, of_decide_eq_true hkey⟩
    exact absurd (hresolve.symm.trans hfound) (by simp)

/-! ## Keys hidden in steps -/

/-- The catalog in which the keys of several lists are hidden, one list after the other. -/
def hideAll (catalog : Catalog) (lists : List (List Char)) : Catalog :=
  lists.foldl hide catalog

variable {catalog : Catalog}

/-- **Hiding changes nothing but what is shown.** -/
theorem entries_hideAll (lists : List (List Char)) :
    (catalog.hideAll lists).entries = catalog.entries.map fun entry =>
      { entry with hidden := entry.IsHiddenBy lists } := by
  induction lists generalizing catalog with
  | nil => simp [hideAll, Entry.IsHiddenBy]
  | cons keys lists ih =>
    rw [hideAll, List.foldl_cons]
    refine (@ih (catalog.hide keys)).trans ?_
    rw [hide, List.map_map]
    refine List.map_congr_left fun entry _ => ?_
    simp [Entry.IsHiddenBy, or_assoc]

/-- The entries that are shown are as they were before, and in order. -/
theorem visible_hideAll (lists : List (List Char)) :
    (catalog.hideAll lists).visible =
      catalog.entries.filter fun entry => ¬ entry.IsHiddenBy lists := by
  have hshown : ∀ entry ∈ catalog.entries.filter fun entry => ¬ entry.IsHiddenBy lists,
      { entry with hidden := entry.IsHiddenBy lists } = entry := by
    intro entry hentry
    have hnot : ¬ entry.IsHiddenBy lists := of_decide_eq_true (List.mem_filter.1 hentry).2
    have hhidden : entry.hidden = false := Bool.eq_false_iff.2 fun h => hnot (.inl h)
    simp [hnot, ← hhidden]
  rw [visible, entries_hideAll, List.filter_map, List.filter_congr (q := fun entry =>
    decide ¬ entry.IsHiddenBy lists) fun entry _ => by simp, List.map_congr_left hshown,
    List.map_id']

end Catalog

end Recast

/-
  Recast JSON — the members of an object.

  * `Members.Merges given members`: each key that is given stands once, at the place where it is given
    first, with the value that it is given last;
  * `lookup_set`, `keys_set`: what a member put in does to values and to keys;
  * `merges_ofList`: so members are put in; `ofList_of_nodup`: members with different keys are left as
    they are.
-/
import Mathlib.Data.List.Basic
import Mathlib.Data.List.Induction
import Recast.Json.Value

namespace Recast.Json.Members

/-- The given members without repeated keys: the first place of a key, with its last value. -/
structure Merges (given members : List (Text × Value)) : Prop where
  keys : members.map Prod.fst = (given.map Prod.fst).eraseDups
  lookup : ∀ key, members.lookup key = given.reverse.lookup key

variable (key : Text) (value : Value)

theorem lookup_set (members : Members) (k : Text) :
    (set key value members).lookup k = if k == key then some value else members.lookup k := by
  induction members with
  | nil => by_cases hk : k == key <;> simp [set, List.lookup_cons, hk]
  | cons member more ih =>
    obtain ⟨first, other⟩ := member
    by_cases hfirst : first = key
    · subst hfirst
      by_cases hk : k == first <;> simp [set, List.lookup_cons, hk]
    · by_cases hk : k == first
      · have hne : (k == key) = false := by simp_all
        simp [set, List.lookup_cons, hfirst, hk, hne]
      · simp [set, List.lookup_cons, hfirst, hk, ih]

theorem keys_set (members : Members) :
    (set key value members).map Prod.fst =
      if key ∈ members.map Prod.fst then members.map Prod.fst
      else members.map Prod.fst ++ [key] := by
  induction members with
  | nil => simp [set]
  | cons member more ih =>
    obtain ⟨first, other⟩ := member
    by_cases hfirst : first = key
    · simp [set, hfirst]
    · by_cases hkey : key ∈ more.map Prod.fst <;> simp_all [set, eq_comm]

theorem set_of_notMem {members : Members} (h : key ∉ members.map Prod.fst) :
    set key value members = members ++ [(key, value)] := by
  induction members with
  | nil => rfl
  | cons member more ih =>
    obtain ⟨first, other⟩ := member
    rw [List.map_cons, List.mem_cons, not_or] at h
    simp [set, Ne.symm h.1, ih h.2]

theorem mem_of_mem_set {members : Members} {member : Text × Value}
    (h : member ∈ set key value members) : member = (key, value) ∨ member ∈ members := by
  induction members with
  | nil => exact .inl (List.mem_singleton.1 h)
  | cons head more ih =>
    obtain ⟨first, other⟩ := head
    rw [set] at h
    split_ifs at h with hfirst
    · rcases List.mem_cons.1 h with rfl | h
      · exact .inl (by rw [hfirst])
      · exact .inr (List.mem_cons_of_mem _ h)
    · rcases List.mem_cons.1 h with rfl | h
      · exact .inr List.mem_cons_self
      · exact (ih h).imp id (List.mem_cons_of_mem _)

theorem ofList_append_singleton (given : List (Text × Value)) :
    ofList (given ++ [(key, value)]) = set key value (ofList given) := by
  simp [ofList, List.foldl_append]

/-- **Members are put in at the first place of their key, with its last value.** -/
theorem merges_ofList (given : List (Text × Value)) : Merges given (ofList given) := by
  induction given using List.reverseRecOn with
  | nil => exact ⟨rfl, fun key => rfl⟩
  | append_singleton given member ih =>
    obtain ⟨key, value⟩ := member
    rw [ofList_append_singleton]
    refine ⟨?_, fun k => ?_⟩
    · rw [keys_set, ih.keys, List.map_append, List.eraseDups_append]
      by_cases hkey : key ∈ given.map Prod.fst <;> simp [List.removeAll, hkey, List.eraseDups_cons]
    · rw [lookup_set, ih.lookup, List.reverse_append]
      by_cases hk : k == key <;> simp [List.lookup_cons, hk]

theorem mem_of_mem_ofList {given : List (Text × Value)} {member : Text × Value}
    (h : member ∈ ofList given) : member ∈ given := by
  induction given using List.reverseRecOn with
  | nil => exact h
  | append_singleton given last ih =>
    rw [ofList_append_singleton] at h
    rcases mem_of_mem_set _ _ h with rfl | h
    · simp
    · exact List.mem_append_left _ (ih h)

theorem nodup_keys_ofList (given : List (Text × Value)) : ((ofList given).map Prod.fst).Nodup := by
  induction given using List.reverseRecOn with
  | nil => exact List.nodup_nil
  | append_singleton given member ih =>
    obtain ⟨key, value⟩ := member
    rw [ofList_append_singleton, keys_set]
    split_ifs with hkey
    · exact ih
    · refine List.nodup_append.2 ⟨ih, by simp, fun other hother last hlast heq => ?_⟩
      rw [List.mem_singleton.1 hlast] at heq
      exact hkey (heq ▸ hother)

theorem ofList_of_nodup {given : List (Text × Value)} (h : (given.map Prod.fst).Nodup) :
    ofList given = given := by
  induction given using List.reverseRecOn with
  | nil => rfl
  | append_singleton given member ih =>
    obtain ⟨key, value⟩ := member
    rw [List.map_append, List.nodup_append] at h
    have hkey : key ∉ given.map Prod.fst := fun hkey => h.2.2 key hkey key (by simp) rfl
    rw [ofList_append_singleton, ih h.1, set_of_notMem key value hkey]

end Recast.Json.Members

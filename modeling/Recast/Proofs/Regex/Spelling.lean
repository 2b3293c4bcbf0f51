/-
  Recast regular expressions — what a source spells.

  A source spells some parts of an expression if reading it adds these parts to the group that is
  being read, whatever that group and the groups around it are.

  * `Spells source parts`; `Spells.append`, `Spells.replicate`: what is put in a row is spelled in a row;
  * `spells_escapedSource`: an escaped character is matched as it is, also if it is an operator;
  * `spells_class`: so are the escaped characters of a class;
  * `ofSource?_intercalate`: sources joined by `|` are read as alternatives.
-/
import Mathlib.Data.List.Forall2
import Recast.Regex.Reader

namespace Recast.Regex

/-- A group with several more parts. -/
def Group.addAll (group : Group) (parts : List Regex) : Group :=
  parts.foldl Group.add group

/-- A source spells parts: reading it adds them to the group that is being read. -/
def Spells (source : Text) (parts : List Regex) : Prop :=
  ∀ group outer, read ⟨.plain, group, outer⟩ source = some ⟨.plain, group.addAll parts, outer⟩

theorem Spells.nil : Spells [] [] := fun _ _ => rfl

theorem Spells.append {s t : Text} {parts more : List Regex} (hs : Spells s parts)
    (ht : Spells t more) : Spells (s ++ t) (parts ++ more) := by
  intro group outer
  rw [read_append, hs, Option.bind_some, ht]
  simp [Group.addAll]

theorem Spells.replicate {s : Text} {parts : List Regex} (hs : Spells s parts) (n : Nat) :
    Spells (List.replicate n s).flatten (List.replicate n parts).flatten := by
  induction n with
  | zero => exact .nil
  | succ n ih =>
    rw [List.replicate_succ, List.replicate_succ, List.flatten_cons, List.flatten_cons]
    exact hs.append ih

/-! ## Escaped characters -/

/-- Outside classes, a character that needs no escape stands for itself. -/
theorem plainStep_of_not_isMeta {c : Char} (hc : isMeta c = false) (state : State) :
    plainStep state c = some (state.add (.one (.only c))) := by
  simp only [isMeta, List.contains_eq_mem, decide_eq_false_iff_not, List.mem_cons,
    List.not_mem_nil, or_false, not_or] at hc
  simp [plainStep, hc]

/-- In a class, too. -/
theorem classStep_of_not_isMeta {c : Char} (hc : isMeta c = false) (state : State)
    (set : CharSet) : classStep state set c = some (state.list set c) := by
  simp only [isMeta, List.contains_eq_mem, decide_eq_false_iff_not, List.mem_cons,
    List.not_mem_nil, or_false, not_or] at hc
  simp [classStep, hc]

/-- **An escaped character is matched as it is.** -/
theorem spells_escapedSource (c : Char) : Spells (escapedSource c) [.one (.only c)] := by
  intro group outer
  unfold escapedSource
  by_cases hc : isMeta c = true
  · rw [if_pos hc, read_cons]
    change (read ⟨.escape, group, outer⟩ [c]) = _
    rw [read_cons]
    simp [step, hc, State.add, Group.addAll]
  · rw [Bool.not_eq_true] at hc
    rw [if_neg (by simp [hc]), read_cons]
    simp [step, plainStep_of_not_isMeta hc, State.add, Group.addAll]

/-- An escaped character of a class is listed as it is. -/
theorem read_inClass_escapedSource (c : Char) (set : CharSet) (group : Group)
    (outer : List Group) :
    read ⟨.inClass set, group, outer⟩ (escapedSource c) =
      some ⟨.inClass { set with listed := set.listed ++ [c] }, group, outer⟩ := by
  unfold escapedSource
  by_cases hc : isMeta c = true
  · rw [if_pos hc, read_cons]
    change (read ⟨.classEscape set, group, outer⟩ [c]) = _
    rw [read_cons]
    simp [step, hc, State.list]
  · rw [Bool.not_eq_true] at hc
    rw [if_neg (by simp [hc]), read_cons]
    simp [step, classStep_of_not_isMeta hc, State.list]

theorem read_inClass_flatMap (cs : List Char) (set : CharSet) (group : Group)
    (outer : List Group) :
    read ⟨.inClass set, group, outer⟩ (cs.flatMap escapedSource) =
      some ⟨.inClass { set with listed := set.listed ++ cs }, group, outer⟩ := by
  induction cs generalizing set with
  | nil => simp
  | cons c cs ih =>
    rw [List.flatMap_cons, read_append, read_inClass_escapedSource, Option.bind_some, ih]
    simp

/-- A class begins as if it had been entered: an escaped character is never the sign `^`. -/
theorem read_classStart_escapedSource (c : Char) (group : Group) (outer : List Group) :
    read ⟨.classStart, group, outer⟩ (escapedSource c) =
      read ⟨.inClass ⟨false, []⟩, group, outer⟩ (escapedSource c) := by
  unfold escapedSource
  by_cases hc : isMeta c = true
  · rw [if_pos hc]
    rfl
  · have hne : c ≠ '^' := by
      rintro rfl
      exact hc (by decide)
    rw [if_neg hc, read_cons, read_cons]
    simp [step, hne, classStep, State.list]

/-- **The class of some escaped characters is the set of these characters.** -/
theorem spells_class {cs : List Char} (hcs : cs ≠ []) :
    Spells ('[' :: (cs.flatMap escapedSource ++ [']'])) [.one ⟨false, cs⟩] := by
  intro group outer
  rw [read_cons]
  change read ⟨.classStart, group, outer⟩ (cs.flatMap escapedSource ++ [']']) = _
  rw [read_append]
  have hread : read ⟨.classStart, group, outer⟩ (cs.flatMap escapedSource) =
      some ⟨.inClass ⟨false, cs⟩, group, outer⟩ := by
    cases cs with
    | nil => exact absurd rfl hcs
    | cons c cs =>
      rw [List.flatMap_cons, read_append, read_classStart_escapedSource, ← read_append,
        ← List.flatMap_cons, read_inClass_flatMap]
      rfl
  rw [hread, Option.bind_some, read_cons]
  simp [step, classStep, hcs, State.add, Group.addAll]

/-! ## Alternatives -/

theorem Group.addAll_eq (group : Group) (parts : List Regex) :
    group.addAll parts = ⟨group.earlier, parts.reverse ++ group.parts⟩ := by
  induction parts generalizing group with
  | nil => rfl
  | cons part parts ih =>
    change (group.add part).addAll parts = _
    rw [ih]
    simp [Group.add]

/-- Sources joined by `|` are read as alternatives behind the earlier ones of the group. -/
theorem read_intercalate {sources : List Text} {alternatives : List (List Regex)}
    (h : List.Forall₂ Spells sources alternatives) (hne : sources ≠ []) (earlier : List Regex)
    (outer : List Group) :
    ∃ group, read ⟨.plain, ⟨earlier, []⟩, outer⟩ (['|'].intercalate sources) =
        some ⟨.plain, group, outer⟩ ∧
      group.regex = anyOf (earlier.reverse ++ alternatives.map sequence) := by
  induction h generalizing earlier with
  | nil => exact absurd rfl hne
  | @cons source parts sources alternatives hs h ih =>
    cases h with
    | nil =>
      refine ⟨Group.addAll ⟨earlier, []⟩ parts, ?_, ?_⟩
      · rw [List.intercalate_singleton, hs]
      · simp [Group.regex, Group.next, Group.addAll_eq]
    | cons ht h =>
      obtain ⟨group, hread, hregex⟩ :=
        ih (List.cons_ne_nil _ _) (sequence parts :: earlier)
      refine ⟨group, ?_, ?_⟩
      · rw [List.intercalate_cons_cons, read_append, read_append, hs, Option.bind_some, read_cons,
          ← hread]
        simp [step, plainStep, Group.next, Group.addAll_eq]
      · rw [hregex]
        simp

/-- **The source of some alternatives is read as these alternatives.** -/
theorem ofSource?_intercalate {sources : List Text} {alternatives : List (List Regex)}
    (h : List.Forall₂ Spells sources alternatives) :
    ofSource? (['|'].intercalate sources) = some (anyOf (alternatives.map sequence)) := by
  cases h with
  | nil => rfl
  | cons hs h =>
    obtain ⟨group, hread, hregex⟩ :=
      read_intercalate (.cons hs h) (List.cons_ne_nil _ _) [] []
    unfold ofSource?
    rw [State.start, Group.start, hread, Option.bind_some]
    simp [State.regex?, hregex]

end Recast.Regex

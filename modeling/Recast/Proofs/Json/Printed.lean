/-
  Recast JSON — a value as it is written.

  * `Value.tree v` is the tree that `v` is written as;
  * `Number.IsStable n`, `Value.IsStable depth v`: what is written is read back.  For a value that
    means that at most `depth` containers nest, that the keys of an object differ, and that its
    numbers are stable;
  * `isWritten_textAt`: a stable value is written in one of the ways to write its tree, and so
    `Tree.ofText?_text`: its text is read as that tree, whatever the layout;
  * `Value.ofTree?_tree`: a stable value is the value of its tree, and so `Value.ofText?_text`: it is
    read back from its text.
-/
import Recast.Json.Reformat
import Recast.Proofs.Json.Lexer
import Recast.Proofs.Json.Members
import Recast.Proofs.Json.Number
import Recast.Proofs.Json.Tree

namespace Recast.Json

mutual

/-- The tree that a value is written as. -/
def Value.tree : Value → Tree
  | .null => .null
  | .bool value => .bool value
  | .number value => .number value.literal
  | .string value => .string (value.map quotePart)
  | .array elements => .array (Value.trees elements)
  | .object members => .object (Value.memberTrees members)

/-- The trees of the elements of an array. -/
def Value.trees : List Value → List Tree
  | [] => []
  | value :: more => Value.tree value :: Value.trees more

/-- The keys and trees of the members of an object. -/
def Value.memberTrees : List (Text × Value) → List (StringLiteral × Tree)
  | [] => []
  | (key, value) :: more => (key.map quotePart, Value.tree value) :: Value.memberTrees more

end

/-- A number that is read back from how it is written. -/
structure Number.IsStable (n : Number) : Prop where
  proper : n.literal.IsProper
  ofLiteral? : Number.ofLiteral? n.literal = some n

/-- A value that is read back from how it is written, where at most `depth` containers may nest. -/
inductive Value.IsStable : Nat → Value → Prop
  | null {depth : Nat} : IsStable depth .null
  | bool {depth : Nat} (value : Bool) : IsStable depth (.bool value)
  | number {depth : Nat} {value : Number} : value.IsStable → IsStable depth (.number value)
  | string {depth : Nat} (value : Text) : IsStable depth (.string value)
  | array {depth : Nat} {elements : List Value} :
      (∀ value ∈ elements, IsStable depth value) → IsStable (depth + 1) (.array elements)
  | object {depth : Nat} {members : List (Text × Value)} : (members.map Prod.fst).Nodup →
      (∀ member ∈ members, IsStable depth member.2) → IsStable (depth + 1) (.object members)

/-! ## White space -/

/-- A layout that puts only white space before elements and closing brackets. -/
def Layout.IsBlank (layout : Layout) : Prop :=
  ∀ depth, ∀ c ∈ layout.lineBreak depth, isGap c = true

theorem Indent.isBlank_layout (indent : Indent) : indent.layout.IsBlank := by
  have hindented : ∀ unit : Text, (∀ c ∈ unit, isGap c = true) → (Layout.indented unit).IsBlank := by
    intro unit hunit depth c hc
    rcases List.mem_cons.1 hc with rfl | hc
    · rfl
    · obtain ⟨copy, hcopy, hc⟩ := List.mem_flatten.1 hc
      rw [(List.mem_replicate.1 hcopy).2] at hc
      exact hunit c hc
  rcases indent with _ | count
  · exact hindented ['\t'] (List.forall_mem_singleton.2 rfl)
  · cases count with
    | zero => exact fun depth c hc => absurd hc List.not_mem_nil
    | succ count =>
      refine hindented _ fun c hc => ?_
      rw [(List.mem_replicate.1 hc).2]
      rfl

/-! ## From text to tree -/

theorem Value.trees_eq_map (elements : List Value) :
    Value.trees elements = elements.map Value.tree := by
  induction elements with
  | nil => rfl
  | cons value more ih => rw [trees, ih, List.map_cons]

theorem Value.memberTrees_eq_map (members : List (Text × Value)) :
    Value.memberTrees members =
      members.map fun (key, value) => (key.map quotePart, value.tree) := by
  induction members with
  | nil => rfl
  | cons member more ih => rw [memberTrees, ih, List.map_cons]

theorem Value.elementsText_eq (layout : Layout) (depth : Nat) (elements : List Value) :
    elementsText layout depth elements =
      elements.flatMap fun value => ',' :: (layout.lineBreak depth ++ value.textAt layout depth) := by
  induction elements with
  | nil => rfl
  | cons value rest ih => rw [elementsText, ih, List.flatMap_cons, List.cons_append]

/-- The white space behind a colon. -/
def Layout.colonGap : Layout → Text
  | .compact => []
  | .indented _ => [' ']

/-- A member with its key and its value as they are laid out. -/
def Layout.writtenMember (layout : Layout) (depth : Nat) (member : Text × Value) : WrittenMember :=
  ⟨member.1.map quotePart, layout.lineBreak depth ++ quote member.1, member.2.tree,
    layout.colonGap ++ member.2.textAt layout depth⟩

theorem Layout.isGap_of_mem_colonGap (layout : Layout) : ∀ c ∈ layout.colonGap, isGap c = true := by
  cases layout with
  | compact => exact List.forall_mem_nil _
  | indented unit => exact List.forall_mem_singleton.2 rfl

theorem Layout.text_writtenMember (layout : Layout) (depth : Nat) (member : Text × Value) :
    (layout.writtenMember depth member).text = layout.lineBreak depth ++ quote member.1 ++
      layout.colon ++ member.2.textAt layout depth := by
  cases layout <;> simp [writtenMember, WrittenMember.text, colonGap, colon]

theorem Value.membersText_eq (layout : Layout) (depth : Nat) (members : List (Text × Value)) :
    membersText layout depth members =
      members.flatMap fun member => ',' :: (layout.writtenMember depth member).text := by
  induction members with
  | nil => rfl
  | cons member rest ih =>
    rw [membersText, ih, ← layout.text_writtenMember depth member, List.flatMap_cons,
      List.cons_append]

theorem Tree.IsWritten.gap_append {tree : Tree} {gap s : Text} (hgap : ∀ c ∈ gap, isGap c = true)
    (h : tree.IsWritten s) : tree.IsWritten (gap ++ s) := by
  have hpadded := Tree.IsWritten.padded hgap (List.forall_mem_nil _) h
  rwa [List.append_nil] at hpadded

section Text

variable {layout : Layout} (hblank : layout.IsBlank)
include hblank

/-- **A value is written in one of the ways to write its tree.** -/
theorem isWritten_textAt {depth : Nat} {value : Value} (h : value.IsStable depth) (outer : Nat) :
    value.tree.IsWritten (value.textAt layout outer) := by
  induction h generalizing outer with
  | null => exact .null
  | bool value =>
    cases value with
    | true => exact .boolTrue
    | false => exact .boolFalse
  | @number _ value hvalue =>
    have hwritten := NumberLiteral.isWritten_text hvalue.proper
    rw [value.text_literal] at hwritten
    exact .number hwritten
  | string value => exact .string (isWritten_quote value)
  | @array _ elements _ ih =>
    cases elements with
    | nil => exact @Tree.IsWritten.array [] [] (List.forall_mem_nil _) (List.forall_mem_nil _)
    | cons first more =>
      have helements : ∀ element ∈ (first :: more).map fun value =>
          (value.tree, layout.lineBreak (outer + 1) ++ value.textAt layout (outer + 1)),
          Tree.IsWritten element.1 element.2 := by
        rw [List.forall_mem_map]
        exact fun value hvalue => (ih value hvalue (outer + 1)).gap_append (hblank (outer + 1))
      have harray := Tree.IsWritten.array (hblank outer) helements
      rw [List.map_map, List.map_map, intercalate_map_cons] at harray
      rw [Value.textAt, Value.elementsText_eq, Value.tree, Value.trees_eq_map]
      exact harray
  | @object _ members _ _ ih =>
    cases members with
    | nil =>
      exact @Tree.IsWritten.object [] [] (List.forall_mem_nil _) (List.forall_mem_nil _)
        (List.forall_mem_nil _)
    | cons first more =>
      have hkeys : ∀ member ∈ (first :: more).map (layout.writtenMember (outer + 1)),
          (Tree.string member.key).IsWritten member.keyText := by
        rw [List.forall_mem_map]
        exact fun member _ =>
          (Tree.IsWritten.string (isWritten_quote member.1)).gap_append (hblank (outer + 1))
      have hvalues : ∀ member ∈ (first :: more).map (layout.writtenMember (outer + 1)),
          member.value.IsWritten member.valueText := by
        rw [List.forall_mem_map]
        exact fun member hmember =>
          (ih member hmember (outer + 1)).gap_append layout.isGap_of_mem_colonGap
      have hobject := Tree.IsWritten.object (hblank outer) hkeys hvalues
      rw [List.map_map, List.map_map, intercalate_map_cons] at hobject
      rw [Value.textAt, ← layout.text_writtenMember (outer + 1) (_, _), Value.membersText_eq,
        Value.tree, Value.memberTrees_eq_map]
      exact hobject

/-- **The text of a value is read as its tree.** -/
theorem Tree.ofText?_text {depth : Nat} {value : Value} (h : value.IsStable depth) :
    Tree.ofText? (value.text layout) = some value.tree :=
  Tree.ofText?_of_isWritten (isWritten_textAt hblank h 0)

end Text

/-! ## From tree to value -/

mutual

/-- **A stable value is the value of the tree that it is written as.** -/
theorem Value.ofTree?_tree : ∀ {depth : Nat} (value : Value), value.IsStable depth →
    Value.ofTree? depth value.tree = some value
  | _, .null, _ => rfl
  | _, .bool value, _ => rfl
  | _, .number value, .number hvalue => by
    simp [Value.tree, Value.ofTree?, hvalue.ofLiteral?]
  | _, .string value, _ => by
    simp [Value.tree, Value.ofTree?, text?_map_quotePart]
  | depth + 1, .array elements, .array hvalues => by
    simp [Value.tree, Value.ofTree?, Value.ofTrees?_trees elements hvalues]
  | depth + 1, .object members, .object hkeys hmembers => by
    simp [Value.tree, Value.ofTree?, Value.ofMembers?_memberTrees members hmembers,
      Members.ofList_of_nodup hkeys]

theorem Value.ofTrees?_trees : ∀ {depth : Nat} (elements : List Value),
    (∀ value ∈ elements, value.IsStable depth) →
    Value.ofTrees? depth (Value.trees elements) = some elements
  | _, [], _ => rfl
  | _, value :: more, hvalues => by
    have hvalue := Value.ofTree?_tree value (hvalues value List.mem_cons_self)
    have hmore := Value.ofTrees?_trees more
      fun value hvalue => hvalues value (List.mem_cons_of_mem _ hvalue)
    simp [Value.trees, Value.ofTrees?, hvalue, hmore]

theorem Value.ofMembers?_memberTrees : ∀ {depth : Nat} (members : List (Text × Value)),
    (∀ member ∈ members, member.2.IsStable depth) →
    Value.ofMembers? depth (Value.memberTrees members) = some members
  | _, [], _ => rfl
  | _, (key, value) :: more, hmembers => by
    have hvalue := Value.ofTree?_tree value (hmembers _ List.mem_cons_self)
    have hmore := Value.ofMembers?_memberTrees more
      fun member hmember => hmembers member (List.mem_cons_of_mem _ hmember)
    simp [Value.memberTrees, Value.ofMembers?, text?_map_quotePart, hvalue, hmore]

end

/-- **A stable value is read back from its text.** -/
theorem Value.ofText?_text {layout : Layout} (hblank : layout.IsBlank) {value : Value}
    (h : value.IsStable depthLimit) : Value.ofText? (value.text layout) = some value := by
  rw [Value.ofText?, Tree.ofText?_text hblank h, Option.bind_some, Value.ofTree?_tree value h]

end Recast.Json

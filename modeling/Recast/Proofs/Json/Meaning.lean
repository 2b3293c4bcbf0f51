/-
  Recast JSON — what a document means.

  * `Tree.Means tree value`: the same nesting, the same strings and the same order; of a repeated key
    the first place with the last value; an integer that fits into 64 bits is exact;
  * `Value.means_of_ofTree?`: the value of a tree is what the tree means;
  * `Value.isStable_of_ofTree?`: it is read back from how it is written, if all its numbers are such
    integers.
-/
import Recast.Proofs.Json.Printed

namespace Recast.Json

/-- What a tree means. -/
inductive Tree.Means : Tree → Value → Prop
  | null : Means .null .null
  | bool (value : Bool) : Means (.bool value) (.bool value)
  | integer {literal : NumberLiteral} : literal.IsWordInteger →
      Means (.number literal) (.number (.integer literal.integerValue))
  | double {literal : NumberLiteral} {magnitude : Number.Binary64} : ¬ literal.IsWordInteger →
      literal.magnitude? = some magnitude →
      Means (.number literal) (.number (.double literal.negative magnitude))
  | string {literal : StringLiteral} {value : Text} : literal.text? = some value →
      Means (.string literal) (.string value)
  | array {elements : List Tree} {values : List Value} : List.Forall₂ Means elements values →
      Means (.array elements) (.array values)
  | object {members : List (StringLiteral × Tree)} {given merged : List (Text × Value)} :
      List.Forall₂ (fun key name => key.text? = some name)
        (members.map Prod.fst) (given.map Prod.fst) →
      List.Forall₂ Means (members.map Prod.snd) (given.map Prod.snd) →
      Members.Merges given merged → Means (.object members) (.object merged)

theorem Tree.means_number {literal : NumberLiteral} {n : Number}
    (h : Number.ofLiteral? literal = some n) : Tree.Means (.number literal) (.number n) := by
  cases hinteger : literal.integer? with
  | some value =>
    obtain ⟨hword, -⟩ := NumberLiteral.integer?_eq_some_iff.1 hinteger
    rw [hword.ofLiteral?] at h
    exact Option.some.inj h ▸ .integer hword
  | none =>
    have hword : ¬ literal.IsWordInteger := fun hword => by
      rw [NumberLiteral.integer?_eq_some_iff.2 ⟨hword, rfl⟩] at hinteger
      cases hinteger
    rw [Number.ofLiteral?, hinteger] at h
    obtain ⟨magnitude, hmagnitude, rfl⟩ := Option.map_eq_some_iff.1 h
    exact .double hword hmagnitude

mutual

/-- **The value of a tree is what the tree means.** -/
theorem Value.means_of_ofTree? : ∀ {depth : Nat} (tree : Tree) {value : Value},
    Value.ofTree? depth tree = some value → tree.Means value
  | _, .null, _, h => Option.some.inj h ▸ .null
  | _, .bool value, _, h => Option.some.inj h ▸ .bool value
  | _, .number literal, _, h => by
    obtain ⟨n, hn, rfl⟩ := Option.map_eq_some_iff.1 h
    exact Tree.means_number hn
  | _, .string literal, _, h => by
    obtain ⟨s, hs, rfl⟩ := Option.map_eq_some_iff.1 h
    exact .string hs
  | depth, .array elements, _, h => by
    rw [Value.ofTree?, Option.ite_none_left_eq_some] at h
    obtain ⟨values, hvalues, rfl⟩ := Option.map_eq_some_iff.1 h.2
    exact .array (Value.means_of_ofTrees? elements hvalues)
  | depth, .object members, _, h => by
    rw [Value.ofTree?, Option.ite_none_left_eq_some] at h
    obtain ⟨given, hgiven, rfl⟩ := Option.map_eq_some_iff.1 h.2
    obtain ⟨hkeys, hvalues⟩ := Value.means_of_ofMembers? members hgiven
    exact .object hkeys hvalues (Members.merges_ofList given)

theorem Value.means_of_ofTrees? : ∀ {depth : Nat} (elements : List Tree) {values : List Value},
    Value.ofTrees? depth elements = some values → List.Forall₂ Tree.Means elements values
  | _, [], _, h => Option.some.inj h ▸ .nil
  | _, tree :: more, _, h => by
    obtain ⟨value, hvalue, h⟩ := Option.bind_eq_some_iff.1 h
    obtain ⟨values, hvalues, rfl⟩ := Option.map_eq_some_iff.1 h
    exact .cons (Value.means_of_ofTree? tree hvalue) (Value.means_of_ofTrees? more hvalues)

theorem Value.means_of_ofMembers? : ∀ {depth : Nat} (members : List (StringLiteral × Tree))
    {given : List (Text × Value)}, Value.ofMembers? depth members = some given →
    List.Forall₂ (fun key name => key.text? = some name)
        (members.map Prod.fst) (given.map Prod.fst) ∧
      List.Forall₂ Tree.Means (members.map Prod.snd) (given.map Prod.snd)
  | _, [], _, h => Option.some.inj h ▸ ⟨.nil, .nil⟩
  | _, (key, tree) :: more, _, h => by
    obtain ⟨name, hname, h⟩ := Option.bind_eq_some_iff.1 h
    obtain ⟨value, hvalue, h⟩ := Option.bind_eq_some_iff.1 h
    obtain ⟨given, hgiven, rfl⟩ := Option.map_eq_some_iff.1 h
    obtain ⟨hkeys, hvalues⟩ := Value.means_of_ofMembers? more hgiven
    exact ⟨.cons hname hkeys, .cons (Value.means_of_ofTree? tree hvalue) hvalues⟩

end

/-! ## Stable documents -/

theorem NumberLiteral.IsWordInteger.isStable {literal : NumberLiteral} (h : literal.IsWordInteger) :
    (Number.integer literal.integerValue).IsStable :=
  ⟨isProper_literal_integer _, ofLiteral?_literal_integer h.bounds.1 h.bounds.2⟩

mutual

/-- **A document whose numbers are integers of 64 bits is stable.** -/
theorem Value.isStable_of_ofTree? : ∀ {depth : Nat} (tree : Tree) {value : Value},
    Value.ofTree? depth tree = some value →
    (∀ literal, Token.number literal ∈ tree.tokens → literal.IsWordInteger) → value.IsStable depth
  | _, .null, _, h, _ => Option.some.inj h ▸ .null
  | _, .bool value, _, h, _ => Option.some.inj h ▸ .bool value
  | _, .number literal, _, h, hword => by
    obtain ⟨n, hn, rfl⟩ := Option.map_eq_some_iff.1 h
    have hliteral := hword literal List.mem_cons_self
    rw [hliteral.ofLiteral?] at hn
    exact .number (Option.some.inj hn ▸ hliteral.isStable)
  | _, .string literal, _, h, _ => by
    obtain ⟨s, -, rfl⟩ := Option.map_eq_some_iff.1 h
    exact .string s
  | 0, .array elements, _, h, _ => absurd h (by simp [Value.ofTree?])
  | depth + 1, .array elements, _, h, hword => by
    obtain ⟨values, hvalues, rfl⟩ := Option.map_eq_some_iff.1 h
    exact .array (Value.isStable_of_ofTrees? elements hvalues
      fun literal hliteral => hword literal (Tree.number_mem_tokens_array.2 hliteral))
  | 0, .object members, _, h, _ => absurd h (by simp [Value.ofTree?])
  | depth + 1, .object members, _, h, hword => by
    obtain ⟨given, hgiven, rfl⟩ := Option.map_eq_some_iff.1 h
    have hmembers := Value.isStable_of_ofMembers? members hgiven
      fun literal hliteral => hword literal (Tree.number_mem_tokens_object.2 hliteral)
    exact .object (Members.nodup_keys_ofList given)
      fun member hmember => hmembers member (Members.mem_of_mem_ofList hmember)

theorem Value.isStable_of_ofTrees? : ∀ {depth : Nat} (elements : List Tree) {values : List Value},
    Value.ofTrees? depth elements = some values →
    (∀ literal, Token.number literal ∈ Tree.elementsTokens elements → literal.IsWordInteger) →
    ∀ value ∈ values, value.IsStable depth
  | _, [], _, h, _ => by
    obtain rfl := Option.some.inj h
    simp
  | _, tree :: more, _, h, hword => by
    obtain ⟨value, hvalue, h⟩ := Option.bind_eq_some_iff.1 h
    obtain ⟨values, hvalues, rfl⟩ := Option.map_eq_some_iff.1 h
    have hfirst := Value.isStable_of_ofTree? tree hvalue
      fun literal hliteral => hword literal (by simp [Tree.elementsTokens, hliteral])
    have hrest := Value.isStable_of_ofTrees? more hvalues
      fun literal hliteral => hword literal (by simp [Tree.elementsTokens, hliteral])
    exact List.forall_mem_cons.2 ⟨hfirst, hrest⟩

theorem Value.isStable_of_ofMembers? : ∀ {depth : Nat} (members : List (StringLiteral × Tree))
    {given : List (Text × Value)}, Value.ofMembers? depth members = some given →
    (∀ literal, Token.number literal ∈ Tree.membersTokens members → literal.IsWordInteger) →
    ∀ member ∈ given, member.2.IsStable depth
  | _, [], _, h, _ => by
    obtain rfl := Option.some.inj h
    simp
  | _, (key, tree) :: more, _, h, hword => by
    obtain ⟨name, -, h⟩ := Option.bind_eq_some_iff.1 h
    obtain ⟨value, hvalue, h⟩ := Option.bind_eq_some_iff.1 h
    obtain ⟨given, hgiven, rfl⟩ := Option.map_eq_some_iff.1 h
    have hfirst := Value.isStable_of_ofTree? tree hvalue
      fun literal hliteral => hword literal (by simp [Tree.membersTokens, hliteral])
    have hrest := Value.isStable_of_ofMembers? more hgiven
      fun literal hliteral => hword literal (by simp [Tree.membersTokens, hliteral])
    exact List.forall_mem_cons.2 ⟨hfirst, hrest⟩

end

end Recast.Json

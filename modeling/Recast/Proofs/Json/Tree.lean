/-
  Recast JSON — the tokens of a tree.

  * `Tree.tokens t` are the tokens that spell `t`, `Tree.tokens_array` and `Tree.tokens_object` those of
    a container; `Builder.tokens` are those that a builder has read;
  * `foldlM_tokens`: they build `t` wherever a value may stand;
  * `Builder.tokens_step`: a move adds its token to what has been read;
  * `Tree.ofTokens?_eq_some_iff`: a tree is built from its tokens, and from no others.
-/
import Mathlib.Data.List.Basic
import Recast.Json.Tree

namespace Recast.Json

/-! ## Spelling a tree -/

mutual

/-- The tokens of a tree. -/
def Tree.tokens : Tree → List Token
  | .null => [.null]
  | .bool value => [.bool value]
  | .number literal => [.number literal]
  | .string literal => [.string literal]
  | .array [] => [.beginArray, .endArray]
  | .array (first :: more) =>
    .beginArray :: (Tree.tokens first ++ Tree.elementsTokens more ++ [.endArray])
  | .object [] => [.beginObject, .endObject]
  | .object ((key, first) :: more) =>
    .beginObject :: .string key :: .colon ::
      (Tree.tokens first ++ Tree.membersTokens more ++ [.endObject])

/-- The tokens of the elements behind the first. -/
def Tree.elementsTokens : List Tree → List Token
  | [] => []
  | tree :: more => .comma :: (Tree.tokens tree ++ Tree.elementsTokens more)

/-- The tokens of the members behind the first. -/
def Tree.membersTokens : List (StringLiteral × Tree) → List Token
  | [] => []
  | (key, tree) :: more =>
    .comma :: .string key :: .colon :: (Tree.tokens tree ++ Tree.membersTokens more)

end

theorem Tree.elementsTokens_eq (elements : List Tree) :
    Tree.elementsTokens elements = elements.flatMap fun tree => .comma :: tree.tokens := by
  induction elements with
  | nil => rfl
  | cons tree rest ih => rw [elementsTokens, ih, List.flatMap_cons, List.cons_append]

theorem Tree.membersTokens_eq (members : List (StringLiteral × Tree)) :
    Tree.membersTokens members =
      members.flatMap fun (key, tree) => .comma :: .string key :: .colon :: tree.tokens := by
  induction members with
  | nil => rfl
  | cons member rest ih =>
    rw [membersTokens, ih, List.flatMap_cons]
    rfl

theorem Tree.elementsTokens_append (elements more : List Tree) :
    Tree.elementsTokens (elements ++ more) =
      Tree.elementsTokens elements ++ Tree.elementsTokens more := by
  simp only [elementsTokens_eq, List.flatMap_append]

theorem Tree.membersTokens_append (members more : List (StringLiteral × Tree)) :
    Tree.membersTokens (members ++ more) =
      Tree.membersTokens members ++ Tree.membersTokens more := by
  simp only [membersTokens_eq, List.flatMap_append]

/-- What is joined, by the first part and the others, each with the joiner before it. -/
theorem intercalate_map_cons {α β : Type} (joiner : β) (part : α → List β) (first : α)
    (more : List α) : [joiner].intercalate ((first :: more).map part) =
      part first ++ more.flatMap fun next => joiner :: part next := by
  induction more generalizing first with
  | nil => simp
  | cons next rest ih =>
    rw [List.map_cons, List.map_cons, List.intercalate_cons_cons, ← List.map_cons, ih,
      List.append_assoc, List.singleton_append, List.flatMap_cons, List.cons_append]

/-- The tokens of an array are those of its elements with commas between them. -/
theorem Tree.tokens_array (elements : List Tree) :
    (Tree.array elements).tokens =
      .beginArray :: ([.comma].intercalate (elements.map Tree.tokens) ++ [.endArray]) := by
  cases elements with
  | nil => rfl
  | cons first more => rw [tokens, elementsTokens_eq, intercalate_map_cons]

/-- The tokens of an object are those of its members with commas between them. -/
theorem Tree.tokens_object (members : List (StringLiteral × Tree)) :
    (Tree.object members).tokens = .beginObject :: ([.comma].intercalate
      (members.map fun (key, tree) => .string key :: .colon :: tree.tokens) ++ [.endObject]) := by
  cases members with
  | nil => rfl
  | cons first more =>
    rw [tokens, membersTokens_eq, intercalate_map_cons]
    rfl

/-- The numbers of an array are those of its elements. -/
theorem Tree.number_mem_tokens_array {literal : NumberLiteral} {elements : List Tree} :
    Token.number literal ∈ (Tree.array elements).tokens ↔
      Token.number literal ∈ Tree.elementsTokens elements := by
  cases elements <;> simp [tokens, elementsTokens]

/-- The numbers of an object are those of its members. -/
theorem Tree.number_mem_tokens_object {literal : NumberLiteral}
    {members : List (StringLiteral × Tree)} :
    Token.number literal ∈ (Tree.object members).tokens ↔
      Token.number literal ∈ Tree.membersTokens members := by
  rcases members with _ | ⟨⟨key, first⟩, more⟩ <;> simp [tokens, membersTokens]

/-! ## Building a tree -/

/-- A first element is read like any other value, since it does not begin with a closing bracket. -/
theorem foldlM_tokens_arrayStart (tree : Tree) (outer : List Frame) :
    tree.tokens.foldlM Builder.step (.arrayStart outer) =
      tree.tokens.foldlM Builder.step (.awaitValue (.array [] :: outer)) := by
  rcases tree with _ | value | literal | literal | ⟨_ | ⟨first, more⟩⟩ | ⟨_ | ⟨⟨key, first⟩, more⟩⟩ <;>
    simp [Tree.tokens, Builder.step]

mutual

/-- **The tokens of a tree build it wherever a value may stand.** -/
theorem foldlM_tokens : ∀ (tree : Tree) (outer : List Frame),
    tree.tokens.foldlM Builder.step (.awaitValue outer) = some (.put tree outer)
  | .null, outer => rfl
  | .bool value, outer => rfl
  | .number literal, outer => rfl
  | .string literal, outer => rfl
  | .array [], outer => rfl
  | .array (first :: more), outer => by
    have hfirst := foldlM_tokens first (.array [] :: outer)
    have hmore := foldlM_elementsTokens more [first] outer
    simp only [Tree.tokens, List.foldlM_cons, Builder.step, Builder.start, Option.bind_eq_bind,
      Option.bind_some, List.foldlM_append, foldlM_tokens_arrayStart, hfirst, Builder.put, hmore]
    simp
  | .object [], outer => rfl
  | .object ((key, first) :: more), outer => by
    have hfirst := foldlM_tokens first (.object [] key :: outer)
    have hmore := foldlM_membersTokens more [(key, first)] outer
    simp only [Tree.tokens, List.foldlM_cons, Builder.step, Builder.start, Option.bind_eq_bind,
      Option.bind_some, List.foldlM_append, hfirst, Builder.put, hmore]
    simp

theorem foldlM_elementsTokens : ∀ (elements done : List Tree) (outer : List Frame),
    (Tree.elementsTokens elements).foldlM Builder.step (.arrayMore done outer) =
      some (.arrayMore (elements.reverse ++ done) outer)
  | [], done, outer => rfl
  | tree :: more, done, outer => by
    have htree := foldlM_tokens tree (.array done :: outer)
    have hmore := foldlM_elementsTokens more (tree :: done) outer
    simp [Tree.elementsTokens, Builder.step, htree, Builder.put, hmore]

theorem foldlM_membersTokens : ∀ (members done : List (StringLiteral × Tree)) (outer : List Frame),
    (Tree.membersTokens members).foldlM Builder.step (.objectMore done outer) =
      some (.objectMore (members.reverse ++ done) outer)
  | [], done, outer => rfl
  | (key, tree) :: more, done, outer => by
    have htree := foldlM_tokens tree (.object done key :: outer)
    have hmore := foldlM_membersTokens more ((key, tree) :: done) outer
    simp [Tree.membersTokens, Builder.step, htree, Builder.put, hmore]

end

/-! ## What a builder has read -/

/-- The tokens of the elements of an open array, in reverse. -/
def openArray (done : List Tree) : List Token :=
  match done.reverse with
  | [] => [.beginArray]
  | first :: more => .beginArray :: (first.tokens ++ Tree.elementsTokens more)

/-- The tokens of the members of an open object, in reverse. -/
def openObject (done : List (StringLiteral × Tree)) : List Token :=
  match done.reverse with
  | [] => [.beginObject]
  | (key, first) :: more =>
    .beginObject :: .string key :: .colon :: (first.tokens ++ Tree.membersTokens more)

/-- What separates the next element or member from those there are. -/
def separator {α : Type} (done : List α) : List Token :=
  if done.isEmpty then [] else [.comma]

/-- The tokens of the containers around a value, up to that value. -/
def outerTokens : List Frame → List Token
  | [] => []
  | .array done :: outer => outerTokens outer ++ openArray done ++ separator done
  | .object done key :: outer =>
    outerTokens outer ++ openObject done ++ separator done ++ [.string key, .colon]

/-- The tokens that a builder has read. -/
def Builder.tokens : Builder → List Token
  | .awaitValue outer => outerTokens outer
  | .arrayStart outer => outerTokens outer ++ [.beginArray]
  | .arrayMore done outer => outerTokens outer ++ openArray done
  | .objectStart outer => outerTokens outer ++ [.beginObject]
  | .objectMore done outer => outerTokens outer ++ openObject done
  | .awaitKey done outer => outerTokens outer ++ openObject done ++ [.comma]
  | .awaitColon done key outer =>
    outerTokens outer ++ openObject done ++ separator done ++ [.string key]
  | .complete tree => tree.tokens

theorem openArray_cons (tree : Tree) (done : List Tree) :
    openArray (tree :: done) = openArray done ++ separator done ++ tree.tokens := by
  rcases List.eq_nil_or_concat done with rfl | ⟨more, first, rfl⟩
  · simp [openArray, separator, Tree.elementsTokens]
  · simp [openArray, separator, Tree.elementsTokens_append, Tree.elementsTokens]

theorem openObject_cons (key : StringLiteral) (tree : Tree) (done : List (StringLiteral × Tree)) :
    openObject ((key, tree) :: done) =
      openObject done ++ separator done ++ [.string key, .colon] ++ tree.tokens := by
  rcases List.eq_nil_or_concat done with rfl | ⟨more, ⟨first, value⟩, rfl⟩
  · simp [openObject, separator, Tree.membersTokens]
  · simp [openObject, separator, Tree.membersTokens_append, Tree.membersTokens]

theorem tokens_put (tree : Tree) (outer : List Frame) :
    (Builder.put tree outer).tokens = outerTokens outer ++ tree.tokens := by
  rcases outer with _ | ⟨_ | _, outer⟩
  · rfl
  · simp [Builder.put, Builder.tokens, outerTokens, openArray_cons]
  · simp [Builder.put, Builder.tokens, outerTokens, openObject_cons]

theorem tokens_array_reverse (done : List Tree) :
    (Tree.array done.reverse).tokens = openArray done ++ [.endArray] := by
  unfold openArray
  cases done.reverse <;> simp [Tree.tokens]

theorem tokens_object_reverse (done : List (StringLiteral × Tree)) :
    (Tree.object done.reverse).tokens = openObject done ++ [.endObject] := by
  unfold openObject
  rcases done.reverse with _ | ⟨⟨key, first⟩, more⟩ <;> simp [Tree.tokens]

/-- A builder behind an element or a member holds one. -/
def Builder.IsProper : Builder → Prop
  | .arrayMore done _ => done ≠ []
  | .objectMore done _ => done ≠ []
  | .awaitKey done _ => done ≠ []
  | _ => True

theorem isProper_put (tree : Tree) (outer : List Frame) : (Builder.put tree outer).IsProper := by
  rcases outer with _ | ⟨_ | _, outer⟩ <;> simp [Builder.put, Builder.IsProper]

theorem separator_of_ne_nil {α : Type} {done : List α} (h : done ≠ []) :
    separator done = [.comma] := by
  simp [separator, h]

theorem Builder.tokens_start {outer : List Frame} {token : Token} {next : Builder}
    (h : Builder.start outer token = some next) :
    next.IsProper ∧ next.tokens = outerTokens outer ++ [token] := by
  cases token <;> simp only [Builder.start, Option.some.injEq, reduceCtorEq] at h <;> subst h
  case beginArray => exact ⟨trivial, rfl⟩
  case beginObject => exact ⟨trivial, rfl⟩
  all_goals exact ⟨isProper_put _ _, tokens_put _ _⟩

/-- **A move adds its token to what has been read.** -/
theorem Builder.tokens_step {builder next : Builder} {token : Token} (hproper : builder.IsProper)
    (h : builder.step token = some next) :
    next.IsProper ∧ next.tokens = builder.tokens ++ [token] := by
  cases builder with
  | awaitValue outer => exact tokens_start h
  | arrayStart outer =>
    by_cases hend : token = .endArray
    · subst hend
      obtain rfl := Option.some.inj h
      exact ⟨isProper_put _ _, by rw [tokens_put]; simp [Tree.tokens, tokens]⟩
    · have hstart : Builder.start (.array [] :: outer) token = some next := by
        rw [← h]
        cases token <;> first | rfl | exact absurd rfl hend
      simpa [outerTokens, openArray, separator, tokens] using tokens_start hstart
  | arrayMore done outer =>
    cases token <;> simp only [step, Option.some.injEq, reduceCtorEq] at h <;> subst h
    case comma => exact ⟨trivial, by simp [tokens, outerTokens, separator_of_ne_nil hproper]⟩
    case endArray =>
      exact ⟨isProper_put _ _, by rw [tokens_put]; simp [tokens_array_reverse, tokens]⟩
  | objectStart outer =>
    cases token <;> simp only [step, Option.some.injEq, reduceCtorEq] at h <;> subst h
    case endObject => exact ⟨isProper_put _ _, by rw [tokens_put]; simp [Tree.tokens, tokens]⟩
    case string => exact ⟨trivial, by simp [tokens, openObject, separator]⟩
  | objectMore done outer =>
    cases token <;> simp only [step, Option.some.injEq, reduceCtorEq] at h <;> subst h
    case comma => exact ⟨hproper, by simp [tokens]⟩
    case endObject =>
      exact ⟨isProper_put _ _, by rw [tokens_put]; simp [tokens_object_reverse, tokens]⟩
  | awaitKey done outer =>
    cases token <;> simp only [step, Option.some.injEq, reduceCtorEq] at h
    case string =>
      subst h
      exact ⟨trivial, by simp [tokens, separator_of_ne_nil hproper]⟩
  | awaitColon done key outer =>
    cases token <;> simp only [step, Option.some.injEq, reduceCtorEq] at h
    case colon =>
      subst h
      exact ⟨trivial, by simp [tokens, outerTokens]⟩
  | complete tree => simp [step] at h

theorem Builder.tokens_foldlM {tokens : List Token} {builder next : Builder}
    (hproper : builder.IsProper) (h : tokens.foldlM Builder.step builder = some next) :
    next.tokens = builder.tokens ++ tokens := by
  induction tokens generalizing builder with
  | nil => simp_all
  | cons token rest ih =>
    rw [List.foldlM_cons] at h
    obtain ⟨between, hstep, hrest⟩ := Option.bind_eq_some_iff.1 h
    obtain ⟨hbetween, htokens⟩ := tokens_step hproper hstep
    rw [ih hbetween hrest, htokens, List.append_assoc, List.singleton_append]

/-! ## Trees and tokens -/

/-- **A tree is built from its tokens, and from no others.** -/
theorem Tree.ofTokens?_eq_some_iff {tokens : List Token} {tree : Tree} :
    Tree.ofTokens? tokens = some tree ↔ tokens = tree.tokens := by
  constructor
  · intro h
    obtain ⟨last, hread, hlast⟩ := Option.bind_eq_some_iff.1 h
    have hproper : (Builder.awaitValue []).IsProper := trivial
    have htokens := Builder.tokens_foldlM hproper hread
    cases last <;> simp only [Builder.tree?, Option.some.injEq, reduceCtorEq] at hlast
    subst hlast
    simpa [Builder.tokens, outerTokens] using htokens.symm
  · rintro rfl
    simp [Tree.ofTokens?, foldlM_tokens, Builder.put, Builder.tree?]

end Recast.Json

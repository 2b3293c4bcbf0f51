/-
  Recast JSON — the tokens of a written text.

  Between tokens the lexer stands in a gap, or still inside an atom that the next character may end;
  `Lexer.IsBehind` joins the two.

  * `Spells s tokens`: from a gap, `s` is read as `tokens`; `Follows s tokens`: also behind an atom,
    so that `s` cannot run into what stands before it;
  * `Spells.append`: texts are put together; `Spells.follows`: a text that does not begin with the
    character of an atom follows anything;
  * `spells_atom`, `spells_string`: an atom, a string is one token, however it is written;
  * `Tree.ofText?_of_isWritten`: a document is read however it is written.
-/
import Recast.Proofs.Json.Grammar
import Recast.Proofs.Json.Tree

namespace Recast.Json

open Letter (IsHexDigit)

/-! ## Putting texts together -/

/-- The lexer stands behind these tokens, given in reverse: in a gap, or in the last one, an atom. -/
inductive Lexer.IsBehind : List Token → Lexer → Prop
  | gap (done : List Token) : IsBehind done ⟨done, .gap⟩
  | atom {done : List Token} {spelled : Text} {token : Token} :
      Token.ofAtom? spelled.reverse = some token → IsBehind (token :: done) ⟨done, .atom spelled⟩

/-- From a gap, a text is read as tokens. -/
def Spells (s : Text) (tokens : List Token) : Prop :=
  ∀ done, ∃ lexer, s.foldlM Lexer.step ⟨done, .gap⟩ = some lexer ∧
    lexer.IsBehind (tokens.reverse ++ done)

/-- From a gap or an atom, a text is read as tokens. -/
def Follows (s : Text) (tokens : List Token) : Prop :=
  ∀ done lexer, Lexer.IsBehind done lexer → ∃ next, s.foldlM Lexer.step lexer = some next ∧
    next.IsBehind (tokens.reverse ++ done)

/-- A character that cannot stand in an atom ends it. -/
theorem Lexer.IsBehind.step {done : List Token} {lexer : Lexer} {c : Char}
    (h : lexer.IsBehind done) (hc : isAtomChar c = false) : lexer.step c = Lexer.enter done c := by
  cases h with
  | gap => rfl
  | atom htoken => simp [Lexer.step, hc, htoken]

theorem Lexer.IsBehind.finish {done : List Token} {lexer : Lexer} (h : lexer.IsBehind done) :
    lexer.finish = some done.reverse := by
  cases h with
  | gap => rfl
  | atom htoken => simp [Lexer.finish, htoken]

theorem Follows.spells {s : Text} {tokens : List Token} (h : Follows s tokens) : Spells s tokens :=
  fun done => h done _ (.gap done)

theorem Spells.follows {c : Char} {s : Text} {tokens : List Token} (h : Spells (c :: s) tokens)
    (hc : isAtomChar c = false) : Follows (c :: s) tokens := by
  intro done lexer hlexer
  obtain ⟨next, hread, hnext⟩ := h done
  refine ⟨next, ?_, hnext⟩
  rw [List.foldlM_cons] at hread ⊢
  rwa [hlexer.step hc]

theorem Spells.append {s t : Text} {tokens more : List Token} (h : Spells s tokens)
    (hmore : Follows t more) : Spells (s ++ t) (tokens ++ more) := by
  intro done
  obtain ⟨lexer, hread, hlexer⟩ := h done
  obtain ⟨next, hrest, hnext⟩ := hmore _ lexer hlexer
  refine ⟨next, ?_, by simpa using hnext⟩
  rw [List.foldlM_append, hread]
  exact hrest

theorem follows_nil : Follows [] [] :=
  fun _ lexer hlexer => ⟨lexer, rfl, hlexer⟩

theorem Spells.tokens?_eq {s : Text} {tokens : List Token} (h : Spells s tokens) :
    tokens? s = some tokens := by
  obtain ⟨lexer, hread, hlexer⟩ := h []
  rw [tokens?, hread, Option.bind_some, hlexer.finish]
  simp

/-! ## White space and punctuation -/

theorem isAtomChar_of_isGap {c : Char} (h : isGap c = true) : isAtomChar c = false := by
  simp only [isGap, Bool.or_eq_true, decide_eq_true_eq] at h
  rcases h with ((rfl | rfl) | rfl) | rfl <;> decide

theorem Spells.gap_append {blank s : Text} {tokens : List Token} (hblank : ∀ c ∈ blank, isGap c = true)
    (h : Spells s tokens) : Spells (blank ++ s) tokens := by
  induction blank with
  | nil => exact h
  | cons c rest ih =>
    intro done
    have hstep : Lexer.step ⟨done, .gap⟩ c = some ⟨done, .gap⟩ := by
      simp [Lexer.step, Lexer.enter, hblank c List.mem_cons_self]
    obtain ⟨lexer, hread, hlexer⟩ := ih (fun d hd => hblank d (List.mem_cons_of_mem _ hd)) done
    refine ⟨lexer, ?_, hlexer⟩
    rw [List.cons_append, List.foldlM_cons, hstep]
    exact hread

theorem Follows.gap_append {blank s : Text} {tokens : List Token}
    (hblank : ∀ c ∈ blank, isGap c = true) (h : Follows s tokens) : Follows (blank ++ s) tokens := by
  cases blank with
  | nil => exact h
  | cons c rest =>
    exact (Spells.gap_append hblank h.spells).follows
      (isAtomChar_of_isGap (hblank c List.mem_cons_self))

theorem step_punctuation {c : Char} {token : Token} (h : punctuation? c = some token)
    (done : List Token) : Lexer.step ⟨done, .gap⟩ c = some ⟨token :: done, .gap⟩ := by
  unfold punctuation? at h
  split at h <;> first | (obtain rfl := Option.some.inj h; rfl) | exact absurd h (by simp)

theorem isAtomChar_of_punctuation {c : Char} {token : Token} (h : punctuation? c = some token) :
    isAtomChar c = false := by
  unfold punctuation? at h
  split at h <;> first | decide | exact absurd h (by simp)

theorem Follows.punctuation_cons {c : Char} {token : Token} {s : Text} {tokens : List Token}
    (hc : punctuation? c = some token) (h : Spells s tokens) :
    Follows (c :: s) (token :: tokens) := by
  refine Spells.follows (fun done => ?_) (isAtomChar_of_punctuation hc)
  obtain ⟨lexer, hread, hlexer⟩ := h (token :: done)
  refine ⟨lexer, ?_, by simpa using hlexer⟩
  rw [List.foldlM_cons, step_punctuation hc]
  exact hread

/-! ## Atoms -/

theorem foldlM_atom {rest : Text} (h : ∀ c ∈ rest, isAtomChar c = true) (done : List Token)
    (spelled : Text) :
    rest.foldlM Lexer.step ⟨done, .atom spelled⟩ = some ⟨done, .atom (rest.reverse ++ spelled)⟩ := by
  induction rest generalizing spelled with
  | nil => rfl
  | cons c rest ih =>
    have hstep : Lexer.step ⟨done, .atom spelled⟩ c = some ⟨done, .atom (c :: spelled)⟩ := by
      simp [Lexer.step, h c List.mem_cons_self]
    rw [List.foldlM_cons, hstep]
    simpa using ih (fun d hd => h d (List.mem_cons_of_mem _ hd)) (c :: spelled)

theorem spells_atom {s : Text} {token : Token} (hne : s ≠ []) (h : ∀ c ∈ s, isAtomChar c = true)
    (htoken : Token.ofAtom? s = some token) : Spells s [token] := by
  intro done
  obtain ⟨c, rest, rfl⟩ := List.exists_cons_of_ne_nil hne
  have hc := h c List.mem_cons_self
  have hgap : isGap c = false := by
    rw [Bool.eq_false_iff]
    intro hgap
    exact absurd hc (by simp [isAtomChar_of_isGap hgap])
  have hstep : Lexer.step ⟨done, .gap⟩ c = some ⟨done, .atom [c]⟩ := by
    simp [Lexer.step, Lexer.enter, hgap, hc]
  have hrest := foldlM_atom (fun d hd => h d (List.mem_cons_of_mem _ hd)) done [c]
  have hspelled : Token.ofAtom? (rest.reverse ++ [c]).reverse = some token := by simpa using htoken
  refine ⟨_, ?_, .atom hspelled⟩
  rw [List.foldlM_cons, hstep]
  exact hrest

theorem spells_number {literal : NumberLiteral} {s : Text} (h : literal.IsWritten s) :
    Spells s [.number literal] := by
  obtain ⟨c, rest, hs, -⟩ := NumberLiteral.exists_eq_cons h
  exact spells_atom (by simp [hs]) (NumberLiteral.isAtomChar_of_mem h)
    (NumberLiteral.ofAtom?_of_isWritten h)

/-! ## Strings -/

theorem hexValue?_of_isHexDigit {c : Char} {n : Nat} (h : IsHexDigit c n) :
    hexValue? c = some n :=
  h.of_forall (p := fun c n => hexValue? c = some n) (by decide) (by decide)

/-- A part of a string is read however it is written. -/
theorem foldlM_part {part : StringPart} {s : Text} (h : part.IsWritten s) (done : List Token)
    (parts : StringLiteral) :
    s.foldlM Lexer.step ⟨done, .string parts⟩ = some ⟨done, .string (part :: parts)⟩ := by
  cases h with
  | plain hprinted hquote hslash =>
    simp [Lexer.step, hquote, hslash, Nat.not_lt.2 hprinted]
  | short hshort =>
    simp only [shortEscapes, List.mem_cons, Prod.mk.injEq, List.not_mem_nil, or_false] at hshort
    rcases hshort with ⟨rfl, rfl⟩ | ⟨rfl, rfl⟩ | ⟨rfl, rfl⟩ | ⟨rfl, rfl⟩ | ⟨rfl, rfl⟩ |
      ⟨rfl, rfl⟩ | ⟨rfl, rfl⟩ | ⟨rfl, rfl⟩ <;> rfl
  | unit ha hb hc hd =>
    simp [Lexer.step, hexValue?_of_isHexDigit ha, hexValue?_of_isHexDigit hb,
      hexValue?_of_isHexDigit hc, hexValue?_of_isHexDigit hd]

theorem foldlM_parts {literal : StringLiteral} {texts : List Text}
    (h : List.Forall₂ StringPart.IsWritten literal texts) (done : List Token)
    (parts : StringLiteral) :
    texts.flatten.foldlM Lexer.step ⟨done, .string parts⟩ =
      some ⟨done, .string (literal.reverse ++ parts)⟩ := by
  induction h generalizing parts with
  | nil => rfl
  | cons hpart _ ih =>
    rw [List.flatten_cons, List.foldlM_append, foldlM_part hpart]
    simpa using ih _

/-- **A string is one token, however it is written.** -/
theorem spells_string {literal : StringLiteral} {s : Text} (h : literal.IsWritten s) :
    Spells s [.string literal] := by
  obtain ⟨texts, htexts, rfl⟩ := h
  intro done
  refine ⟨⟨.string literal :: done, .gap⟩, ?_, .gap _⟩
  have hopen : Lexer.step ⟨done, .gap⟩ '"' = some ⟨done, .string []⟩ := rfl
  rw [List.foldlM_cons, hopen]
  simp [foldlM_parts htexts, Lexer.step]

/-! ## Documents -/

/-- Texts with commas between them are read as their tokens with commas between them. -/
theorem spells_intercalate {texts : List Text} {tokens : List (List Token)}
    (h : List.Forall₂ Spells texts tokens) :
    Spells ([','].intercalate texts) ([.comma].intercalate tokens) := by
  induction h with
  | nil => exact follows_nil.spells
  | cons hfirst hmore ih =>
    cases hmore with
    | nil => simpa using hfirst
    | cons _ _ =>
      rw [List.intercalate_cons_cons, List.intercalate_cons_cons, List.append_assoc,
        List.append_assoc]
      exact hfirst.append (.punctuation_cons rfl ih)

/-- The elements of a container are read with the bracket that closes it. -/
theorem spells_container {opening closing : Char} {first last : Token} {texts : List Text}
    {tokens : List (List Token)} {gap : Text} (hfirst : punctuation? opening = some first)
    (hlast : punctuation? closing = some last) (h : List.Forall₂ Spells texts tokens)
    (hgap : ∀ c ∈ gap, isGap c = true) :
    Spells (opening :: ([','].intercalate texts ++ gap ++ [closing]))
      (first :: ([.comma].intercalate tokens ++ [last])) := by
  have hclose : Follows (gap ++ [closing]) [last] :=
    .gap_append hgap (.punctuation_cons hlast follows_nil.spells)
  rw [List.append_assoc]
  exact (Follows.punctuation_cons hfirst ((spells_intercalate h).append hclose)).spells

/-- **A document is the tokens of its tree, however it is written.** -/
theorem Tree.IsWritten.spells {tree : Tree} {s : Text} (h : tree.IsWritten s) :
    Spells s tree.tokens := by
  induction h with
  | null => exact spells_atom (by decide) (List.all_eq_true.1 rfl) rfl
  | boolTrue => exact spells_atom (by decide) (List.all_eq_true.1 rfl) rfl
  | boolFalse => exact spells_atom (by decide) (List.all_eq_true.1 rfl) rfl
  | number h => exact spells_number h
  | string h => exact spells_string h
  | array hgap _ ih =>
    rw [Tree.tokens_array]
    refine spells_container rfl rfl ?_ hgap
    rw [List.map_map, List.forall₂_map_left_iff, List.forall₂_map_right_iff, List.forall₂_same]
    exact ih
  | object hgap _ _ ihkey ihvalue =>
    rw [Tree.tokens_object]
    refine spells_container rfl rfl ?_ hgap
    rw [List.map_map, List.forall₂_map_left_iff, List.forall₂_map_right_iff, List.forall₂_same]
    exact fun member hmember =>
      (ihkey member hmember).append (.punctuation_cons rfl (ihvalue member hmember))
  | padded hbefore hafter _ ih =>
    have hend := Follows.gap_append hafter follows_nil
    simpa using (ih.append hend).gap_append hbefore

/-- **A document is read however it is written.** -/
theorem Tree.ofText?_of_isWritten {tree : Tree} {s : Text} (h : tree.IsWritten s) :
    Tree.ofText? s = some tree := by
  rw [Tree.ofText?, h.spells.tokens?_eq, Option.bind_some]
  exact Tree.ofTokens?_eq_some_iff.2 rfl

end Recast.Json

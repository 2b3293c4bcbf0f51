/-
  Recast chains — the tokens of a chain.

  A chain is what is typed to call commands one after the other.  A token is one call in it: a key
  with what follows it.  The grammar of a catalog says what may follow which key.

  * `Token.arguments`: the quoted stretches of a token, without their quotes;
  * `Grammar.ofCatalog` is the grammar of a catalog, if its source is understood;
  * `Grammar.token?` finds the token that starts at a character, as the regular expression says
    (`token?_spec`);
  * `Grammar.tokens g s` are the tokens of `s` from left to right, with anything else passed over;
    `Grammar.loose g s` are the characters outside them.
-/
import Recast.Command.Catalog
import Recast.Text.Cover

namespace Recast.Chain

/-! ## Tokens -/

/-- A call in a chain: the key and the text that belongs to it. -/
structure Token where
  key : Char
  tail : Text
  deriving DecidableEq, Repr

/-- The text of a token. -/
def Token.text (token : Token) : Text :=
  token.key :: token.tail

/-- The quoted stretches of a text, which begins inside quotes if `inside` gives the quote character
    and, in reverse, what has been read since.  A stretch that is not closed does not count. -/
def quotedFrom (inside : Option (Char × Text)) : Text → List Text
  | [] => []
  | c :: rest =>
    match inside with
    | none => quotedFrom (if isQuote c then some (c, []) else none) rest
    | some (quote, seen) =>
      if c = quote then seen.reverse :: quotedFrom none rest
      else quotedFrom (some (quote, c :: seen)) rest

/-- The arguments of a token.  Nothing in them is escaped. -/
def Token.arguments (token : Token) : List Text :=
  quotedFrom none token.tail

/-! ## Grammars -/

/-- The regular expression of the calls in a chain. -/
structure Grammar where
  regex : Regex
  deriving DecidableEq, Repr

namespace Grammar

/-- The grammar of a catalog. -/
def ofCatalog (catalog : Catalog) : Except CatalogError Grammar :=
  match Regex.ofSource? catalog.source with
  | some regex => .ok ⟨regex⟩
  | none => .error .pattern

/-- Finds the token that starts at a character.  A match of no characters is no token. -/
def token? (grammar : Grammar) : Text.Finder Token := fun c rest =>
  match grammar.regex.match? (c :: rest) with
  | some (more + 1) => some (⟨c, rest.take more⟩, more)
  | _ => none

/-- The tokens of a text. -/
def tokens (grammar : Grammar) (s : Text) : List Token :=
  Text.items (Text.cover grammar.token? s)

/-- The characters of a text outside its tokens. -/
def loose (grammar : Grammar) (s : Text) : Text :=
  Text.loose (Text.cover grammar.token? s)

section
variable {grammar : Grammar} {c : Char} {rest : Text} {token : Token} {more : Nat}

/-- A token is found by a match of the character at least, and holds what is matched behind it. -/
theorem token?_spec : grammar.token? c rest = some (token, more) ↔
    grammar.regex.match? (c :: rest) = some (more + 1) ∧ token = ⟨c, rest.take more⟩ := by
  unfold token?
  constructor
  · intro found
    split at found
    · next matched =>
      obtain ⟨rfl, rfl⟩ := Prod.mk.inj (Option.some.inj found)
      exact ⟨matched, rfl⟩
    · exact absurd found (Option.some_ne_none _).symm
  · rintro ⟨matched, rfl⟩
    rw [matched]

/-- A token spells the characters it was found in. -/
theorem text_of_token? (found : grammar.token? c rest = some (token, more)) :
    token.text = c :: rest.take more := by
  obtain ⟨-, rfl⟩ := token?_spec.1 found
  rfl

end

end Grammar

end Recast.Chain

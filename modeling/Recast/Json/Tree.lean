/-
  Recast JSON — from tokens to a tree.

  A tree holds strings and numbers as they are spelled.  It has no limit on nesting, on numbers or on
  the pairing of units; whoever interprets a tree sets the limits.

  The builder keeps the containers that are still open on a stack.  After the bracket that opens a
  container it may close at once; after a comma it may not, so that no comma is followed by a
  closing bracket.

  * `Builder.step` is one move, none at a token that cannot stand there;
  * `Tree.ofTokens?`, `Tree.ofText?`: the tree of a whole list of tokens, of a whole text.
-/
import Recast.Json.Lexer

namespace Recast.Json

/-- A JSON document as it is spelled. -/
inductive Tree where
  | null
  | bool (value : Bool)
  | number (literal : NumberLiteral)
  | string (literal : StringLiteral)
  | array (elements : List Tree)
  | object (members : List (StringLiteral × Tree))
  deriving Repr

/-- An open container: what it holds so far, in reverse, and in an object the key whose value is
    being built. -/
inductive Frame where
  | array (done : List Tree)
  | object (done : List (StringLiteral × Tree)) (key : StringLiteral)
  deriving Repr

/-- What the builder waits for, inside the containers around it. -/
inductive Builder where
  /-- a value -/
  | awaitValue (outer : List Frame)
  /-- behind `[`: a value or `]` -/
  | arrayStart (outer : List Frame)
  /-- behind an element: `,` or `]` -/
  | arrayMore (done : List Tree) (outer : List Frame)
  /-- behind the brace that opens an object: a key or the closing brace -/
  | objectStart (outer : List Frame)
  /-- behind a member: `,` or the closing brace -/
  | objectMore (done : List (StringLiteral × Tree)) (outer : List Frame)
  /-- behind a comma in an object: a key -/
  | awaitKey (done : List (StringLiteral × Tree)) (outer : List Frame)
  /-- behind a key: `:` -/
  | awaitColon (done : List (StringLiteral × Tree)) (key : StringLiteral) (outer : List Frame)
  /-- behind the document: nothing -/
  | complete (tree : Tree)
  deriving Repr

/-- The builder behind a value. -/
def Builder.put (tree : Tree) : List Frame → Builder
  | [] => .complete tree
  | .array done :: outer => .arrayMore (tree :: done) outer
  | .object done key :: outer => .objectMore ((key, tree) :: done) outer

/-- The builder behind the first token of a value. -/
def Builder.start (outer : List Frame) : Token → Option Builder
  | .null => some (.put .null outer)
  | .bool value => some (.put (.bool value) outer)
  | .number literal => some (.put (.number literal) outer)
  | .string literal => some (.put (.string literal) outer)
  | .beginArray => some (.arrayStart outer)
  | .beginObject => some (.objectStart outer)
  | .endArray | .endObject | .colon | .comma => none

/-- The builder behind one more token. -/
def Builder.step : Builder → Token → Option Builder
  | .awaitValue outer, token => Builder.start outer token
  | .arrayStart outer, .endArray => some (.put (.array []) outer)
  | .arrayStart outer, token => Builder.start (.array [] :: outer) token
  | .arrayMore done outer, .comma => some (.awaitValue (.array done :: outer))
  | .arrayMore done outer, .endArray => some (.put (.array done.reverse) outer)
  | .objectStart outer, .endObject => some (.put (.object []) outer)
  | .objectStart outer, .string key => some (.awaitColon [] key outer)
  | .objectMore done outer, .comma => some (.awaitKey done outer)
  | .objectMore done outer, .endObject => some (.put (.object done.reverse) outer)
  | .awaitKey done outer, .string key => some (.awaitColon done key outer)
  | .awaitColon done key outer, .colon => some (.awaitValue (.object done key :: outer))
  | _, _ => none

/-- The tree that is complete, if one is. -/
def Builder.tree? : Builder → Option Tree
  | .complete tree => some tree
  | _ => none

/-- The tree of a list of tokens. -/
def Tree.ofTokens? (tokens : List Token) : Option Tree :=
  (tokens.foldlM Builder.step (.awaitValue [])).bind Builder.tree?

/-- The tree of a text. -/
def Tree.ofText? (s : Text) : Option Tree :=
  (tokens? s).bind Tree.ofTokens?

end Recast.Json

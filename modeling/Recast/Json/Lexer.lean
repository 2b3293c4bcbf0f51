/-
  Recast JSON — from text to tokens.

  The lexer reads one character at a time.  Between tokens it is in a gap; it may be inside an atom
  or a string, and there inside an escape.

  * `Lexer.step` is one move, none at a character that cannot stand there;
  * `tokens? s` are the tokens of a whole text.
-/
import Recast.Json.Token

namespace Recast.Json

/-- Where in a token the lexer is.  What has been read of the token is kept in reverse. -/
inductive LexerMode where
  | gap
  | atom (spelled : Text)
  | string (parts : StringLiteral)
  /-- behind a backslash -/
  | escape (parts : StringLiteral)
  /-- inside a unit, with so many digits still to come -/
  | unit (parts : StringLiteral) (missing : Nat) (code : Nat)
  deriving DecidableEq, Repr

/-- The tokens read so far, in reverse, and the place of the lexer. -/
structure Lexer where
  done : List Token
  mode : LexerMode
  deriving DecidableEq, Repr

/-- White space between tokens. -/
def isGap (c : Char) : Bool :=
  c = ' ' || c = '\t' || c = '\n' || c = '\r'

/-- The token that a character is by itself. -/
def punctuation? : Char → Option Token
  | '[' => some .beginArray
  | ']' => some .endArray
  | '{' => some .beginObject
  | '}' => some .endObject
  | ':' => some .colon
  | ',' => some .comma
  | _ => none

/-- The character that a short escape stands for. -/
def shortEscape? : Char → Option Char
  | '"' => some '"'
  | '\\' => some '\\'
  | '/' => some '/'
  | 'b' => some '\x08'
  | 'f' => some '\x0c'
  | 'n' => some '\n'
  | 'r' => some '\r'
  | 't' => some '\t'
  | _ => none

/-- The value of a hexadecimal digit. -/
def hexValue? (c : Char) : Option Nat :=
  if c.isDigit then some (c.toNat - '0'.toNat)
  else if 'a' ≤ c ∧ c ≤ 'f' then some (c.toNat - 'a'.toNat + 10)
  else if 'A' ≤ c ∧ c ≤ 'F' then some (c.toNat - 'A'.toNat + 10)
  else none

/-- The lexer behind a character that follows a gap or ends an atom. -/
def Lexer.enter (done : List Token) (c : Char) : Option Lexer :=
  if isGap c then some ⟨done, .gap⟩
  else if isAtomChar c then some ⟨done, .atom [c]⟩
  else if c = '"' then some ⟨done, .string []⟩
  else (punctuation? c).map fun token => ⟨token :: done, .gap⟩

/-- The lexer behind one more character. -/
def Lexer.step (lexer : Lexer) (c : Char) : Option Lexer :=
  let done := lexer.done
  match lexer.mode with
  | .gap => Lexer.enter done c
  | .atom spelled =>
    if isAtomChar c then some ⟨done, .atom (c :: spelled)⟩
    else (Token.ofAtom? spelled.reverse).bind fun token => Lexer.enter (token :: done) c
  | .string parts =>
    if c = '"' then some ⟨.string parts.reverse :: done, .gap⟩
    else if c = '\\' then some ⟨done, .escape parts⟩
    else if c.toNat < 0x20 then none
    else some ⟨done, .string (.char c :: parts)⟩
  | .escape parts =>
    if c = 'u' then some ⟨done, .unit parts 4 0⟩
    else (shortEscape? c).map fun d => ⟨done, .string (.char d :: parts)⟩
  | .unit parts missing code =>
    (hexValue? c).map fun digit =>
      let code := code * 16 + digit
      if missing ≤ 1 then ⟨done, .string (.unit code :: parts)⟩
      else ⟨done, .unit parts (missing - 1) code⟩

/-- The tokens at the end of a text; none inside a string. -/
def Lexer.finish (lexer : Lexer) : Option (List Token) :=
  match lexer.mode with
  | .gap => some lexer.done.reverse
  | .atom spelled => (Token.ofAtom? spelled.reverse).map fun token => (token :: lexer.done).reverse
  | _ => none

/-- The tokens of a text. -/
def tokens? (s : Text) : Option (List Token) :=
  (s.foldlM Lexer.step ⟨[], .gap⟩).bind Lexer.finish

end Recast.Json

/-
  Recast JSON — from values to text.

  * `quote s` writes a text as a string: quotes, backslashes and control characters are escaped;
  * `Layout` says how containers are laid out: `compact` on one line, `indented unit` with one element
    a line, indented by `unit` for each container around it.  An empty container is two brackets in
    either;
  * `Value.text layout v` is the text of `v`.
-/
import Recast.Json.Value

namespace Recast.Json

/-! ## Strings -/

/-- A lower case hexadecimal digit. -/
def hexDigit (n : Nat) : Char :=
  if n < 10 then Char.ofNat ('0'.toNat + n) else Char.ofNat ('a'.toNat + (n - 10))

/-- A character inside a string. -/
def quoteChar (c : Char) : Text :=
  if c = '"' then ['\\', '"']
  else if c = '\\' then ['\\', '\\']
  else if c = '\x08' then ['\\', 'b']
  else if c = '\x0c' then ['\\', 'f']
  else if c = '\n' then ['\\', 'n']
  else if c = '\r' then ['\\', 'r']
  else if c = '\t' then ['\\', 't']
  else if c.toNat < 0x20 then
    ['\\', 'u', '0', '0', hexDigit (c.toNat / 16), hexDigit (c.toNat % 16)]
  else [c]

/-- A text as a string. -/
def quote (s : Text) : Text :=
  '"' :: (s.flatMap quoteChar ++ ['"'])

/-! ## Layouts -/

/-- How containers are laid out: without white space, or with one element a line. -/
inductive Layout where
  | compact
  | indented (unit : Text)
  deriving DecidableEq, Repr

/-- What stands before an element and before a closing bracket, with `depth` containers around. -/
def Layout.lineBreak (layout : Layout) (depth : Nat) : Text :=
  match layout with
  | .compact => []
  | .indented unit => '\n' :: (List.replicate depth unit).flatten

/-- What stands between a key and its value. -/
def Layout.colon : Layout → Text
  | .compact => [':']
  | .indented _ => [':', ' ']

/-! ## Values -/

mutual

/-- The text of a value with `depth` containers around it. -/
def Value.textAt (layout : Layout) (depth : Nat) : Value → Text
  | .null => "null".toList
  | .bool true => "true".toList
  | .bool false => "false".toList
  | .number value => value.text
  | .string value => quote value
  | .array [] => ['[', ']']
  | .array (first :: more) =>
    '[' :: (layout.lineBreak (depth + 1) ++ Value.textAt layout (depth + 1) first ++
      Value.elementsText layout (depth + 1) more ++ layout.lineBreak depth ++ [']'])
  | .object [] => ['{', '}']
  | .object ((key, first) :: more) =>
    '{' :: (layout.lineBreak (depth + 1) ++ quote key ++ layout.colon ++
      Value.textAt layout (depth + 1) first ++
      Value.membersText layout (depth + 1) more ++ layout.lineBreak depth ++ ['}'])

/-- The text of the elements behind the first. -/
def Value.elementsText (layout : Layout) (depth : Nat) : List Value → Text
  | [] => []
  | value :: more =>
    ',' :: (layout.lineBreak depth ++ Value.textAt layout depth value ++
      Value.elementsText layout depth more)

/-- The text of the members behind the first. -/
def Value.membersText (layout : Layout) (depth : Nat) : List (Text × Value) → Text
  | [] => []
  | (key, value) :: more =>
    ',' :: (layout.lineBreak depth ++ quote key ++ layout.colon ++
      Value.textAt layout depth value ++ Value.membersText layout depth more)

end

/-- The text of a value. -/
def Value.text (layout : Layout) (value : Value) : Text :=
  value.textAt layout 0

end Recast.Json

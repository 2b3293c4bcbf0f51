/-
  Recast JSON — values.

  A value is what a document means: texts, numbers, and objects whose keys differ.

  * `Value.ofTree?` interprets a tree, none if it nests too deeply, a number is too large or the
    units of a string do not pair up;
  * `Members.set` puts a member into an object: a key that is there keeps its place and takes the new
    value;
  * `Value.ofText?` reads a text; `depthLimit` is the number of containers that may nest.
-/
import Recast.Json.Number
import Recast.Json.Tree

namespace Recast.Json

/-- A JSON value. -/
inductive Value where
  | null
  | bool (value : Bool)
  | number (value : Number)
  | string (value : Text)
  | array (elements : List Value)
  | object (members : List (Text × Value))
  deriving Repr

/-- The members of an object in order. -/
abbrev Members := List (Text × Value)

/-- Members with one more: in the place of a member of the same key, or at the end. -/
def Members.set (key : Text) (value : Value) : Members → Members
  | [] => [(key, value)]
  | (k, v) :: more => if k = key then (k, value) :: more else (k, v) :: Members.set key value more

/-- Members put in one after the other. -/
def Members.ofList (members : List (Text × Value)) : Members :=
  members.foldl (fun done (key, value) => Members.set key value done) []

mutual

/-- The value of a tree in which at most `depth` containers nest. -/
def Value.ofTree? (depth : Nat) : Tree → Option Value
  | .null => some .null
  | .bool value => some (.bool value)
  | .number literal => (Number.ofLiteral? literal).map .number
  | .string literal => literal.text?.map .string
  | .array elements =>
    if depth = 0 then none else (Value.ofTrees? (depth - 1) elements).map .array
  | .object members =>
    if depth = 0 then none
    else (Value.ofMembers? (depth - 1) members).map fun read => .object (Members.ofList read)

/-- The values of the elements of an array. -/
def Value.ofTrees? (depth : Nat) : List Tree → Option (List Value)
  | [] => some []
  | tree :: more =>
    (Value.ofTree? depth tree).bind fun value => (Value.ofTrees? depth more).map (value :: ·)

/-- The keys and values of the members of an object, as often as they are given. -/
def Value.ofMembers? (depth : Nat) : List (StringLiteral × Tree) → Option (List (Text × Value))
  | [] => some []
  | (key, tree) :: more =>
    key.text?.bind fun key => (Value.ofTree? depth tree).bind fun value =>
      (Value.ofMembers? depth more).map ((key, value) :: ·)

end

/-- The number of containers that may nest in a value. -/
def depthLimit : Nat := 127

/-- The value of a text. -/
def Value.ofText? (s : Text) : Option Value :=
  (Tree.ofText? s).bind (Value.ofTree? depthLimit)

end Recast.Json

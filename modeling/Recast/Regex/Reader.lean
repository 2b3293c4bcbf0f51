/-
  Recast regular expressions — reading a source.

  The source of an expression is a text.  It is read from left to right by a machine that keeps the
  group it is in and the groups around that one.  Understood are characters and escaped characters,
  classes of them, `|`, groups that capture nothing, `*` behind one character or class and `?`.

  * `escapedSource c` is the source that matches the character `c` and no other;
  * `Regex.ofSource?` reads a source; `step` is what one character does, `read` what several do.
-/
import Recast.Regex.Basic

namespace Recast

/-- The characters that a regular expression escapes to match them as they are. -/
def isMeta (c : Char) : Bool :=
  ['\\', '.', '+', '*', '?', '(', ')', '|', '[', ']', '{', '}', '^', '$', '#', '&', '-',
    '~'].contains c

/-- The source that matches one character as it is. -/
def escapedSource (c : Char) : Text :=
  if isMeta c then ['\\', c] else [c]

namespace Regex

/-! ## Groups -/

/-- A group that is being read. -/
structure Group where
  /-- the alternatives before the current one, the last first -/
  earlier : List Regex
  /-- the parts of the current alternative, the last first -/
  parts : List Regex
  deriving DecidableEq, Repr

namespace Group

/-- A group of which nothing is read. -/
def start : Group :=
  ⟨[], []⟩

/-- A group with one more part. -/
def add (group : Group) (part : Regex) : Group :=
  { group with parts := part :: group.parts }

/-- A group in which a new alternative begins. -/
def next (group : Group) : Group :=
  ⟨sequence group.parts.reverse :: group.earlier, []⟩

/-- The expression that a group stands for. -/
def regex (group : Group) : Regex :=
  anyOf group.next.earlier.reverse

/-- A group whose last part, a set of characters, may match any number of times. -/
def repeatLast? (group : Group) : Option Group :=
  match group.parts with
  | .one set :: parts => some { group with parts := .many set :: parts }
  | _ => none

/-- A group whose last part may be left out.  Behind `*` or `?`, the sign has another meaning, which
    is not understood. -/
def optionalLast? (group : Group) : Option Group :=
  match group.parts with
  | [] | .many _ :: _ | .optional _ :: _ => none
  | part :: parts => some { group with parts := .optional part :: parts }

end Group

/-! ## Reading -/

/-- What the next character belongs to. -/
inductive Mode where
  | plain
  /-- an escape -/
  | escape
  /-- the sign of a group, of which `(` is read, or `(?` -/
  | opening (marked : Bool)
  /-- the first character of a class, or `^` -/
  | classStart
  /-- a class -/
  | inClass (set : CharSet)
  /-- an escape in a class -/
  | classEscape (set : CharSet)
  deriving DecidableEq, Repr

/-- How far a source is read: the current group, and the groups around it, the innermost first. -/
structure State where
  mode : Mode
  group : Group
  outer : List Group
  deriving DecidableEq, Repr

namespace State

/-- Nothing is read. -/
def start : State :=
  ⟨.plain, .start, []⟩

/-- A part has been read. -/
def add (state : State) (part : Regex) : State :=
  ⟨.plain, state.group.add part, state.outer⟩

/-- A character of a class has been read. -/
def list (state : State) (set : CharSet) (c : Char) : State :=
  { state with mode := .inClass { set with listed := set.listed ++ [c] } }

end State

/-- Reads a character outside classes and escapes. -/
def plainStep (state : State) (c : Char) : Option State :=
  if c = '\\' then some { state with mode := .escape }
  else if c = '[' then some { state with mode := .classStart }
  else if c = '(' then some { state with mode := .opening false }
  else if c = ')' then
    match state.outer with
    | [] => none
    | group :: outer => some ⟨.plain, group.add state.group.regex, outer⟩
  else if c = '|' then some { state with group := state.group.next }
  else if c = '*' then state.group.repeatLast?.map fun group => { state with group := group }
  else if c = '?' then state.group.optionalLast?.map fun group => { state with group := group }
  else if ['.', '+', ']', '{', '}', '^', '$'].contains c then none
  else some (state.add (.one (.only c)))

/-- Reads a character of a class.  Characters that may stand for ranges and operations of classes are
    understood only if they are escaped. -/
def classStep (state : State) (set : CharSet) (c : Char) : Option State :=
  if c = '\\' then some { state with mode := .classEscape set }
  else if c = ']' then if set.listed.isEmpty then none else some (state.add (.one set))
  else if ['[', '&', '-', '~'].contains c then none
  else some (state.list set c)

/-- Reads one character. -/
def step (state : State) (c : Char) : Option State :=
  match state.mode with
  | .plain => plainStep state c
  | .escape => if isMeta c then some (state.add (.one (.only c))) else none
  | .opening false => if c = '?' then some { state with mode := .opening true } else none
  | .opening true =>
    if c = ':' then some ⟨.plain, .start, state.group :: state.outer⟩ else none
  | .classStart =>
    if c = '^' then some { state with mode := .inClass ⟨true, []⟩ }
    else classStep state ⟨false, []⟩ c
  | .inClass set => classStep state set c
  | .classEscape set => if isMeta c then some (state.list set c) else none

/-- Reads on from a state. -/
def read (state : State) (source : Text) : Option State :=
  source.foldlM step state

@[simp] theorem read_nil (state : State) : read state [] = some state :=
  rfl

theorem read_cons (state : State) (c : Char) (source : Text) :
    read state (c :: source) = (step state c).bind (read · source) := by
  simp [read, Option.bind_eq_bind]

theorem read_append (state : State) (s t : Text) :
    read state (s ++ t) = (read state s).bind (read · t) := by
  simp [read, Option.bind_eq_bind]

/-- The expression that has been read, if nothing is left open. -/
def State.regex? (state : State) : Option Regex :=
  if state.mode = .plain ∧ state.outer = [] then some state.group.regex else none

/-- The expression of a source. -/
def ofSource? (source : Text) : Option Regex :=
  (read State.start source).bind State.regex?

end Regex

end Recast

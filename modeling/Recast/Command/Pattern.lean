/-
  Recast commands — patterns.

  A pattern says what may be typed to call a command with arguments.  It is given by its source, a
  regular expression.

  * `Pattern.bare` has an empty source: the key alone calls the command;
  * `Pattern.call key arity`: a key and the quoted arguments that `arity` allows.
-/
import Recast.Command.Basic
import Recast.Regex.Reader

namespace Recast

/-- What may be typed to call a command with arguments. -/
structure Pattern where
  verbatim ::
  source : Text
  deriving DecidableEq, Repr

/-- The source of one quoted argument: the quote it opens with closes it. -/
def quotedSource : Text :=
  "(?:'[^']*'|\"[^\"]*\")".toList

/-- The source of the arguments behind a key, each behind one space. -/
def Arity.source (arity : Arity) : Text :=
  (List.replicate arity.required (' ' :: quotedSource)).flatten ++
    (List.replicate arity.optional ("(?: ".toList ++ quotedSource ++ ")?".toList)).flatten

namespace Pattern

/-- The pattern of a command that is called by its key alone. -/
def bare : Pattern :=
  ⟨[]⟩

/-- The pattern of a key and its arguments. -/
def call (key : Char) (arity : Arity) : Pattern :=
  ⟨escapedSource key ++ arity.source⟩

/-- Whether a pattern has no source, so that the key alone calls the command. -/
def isEmpty (pattern : Pattern) : Bool :=
  pattern.source.isEmpty

end Pattern

end Recast

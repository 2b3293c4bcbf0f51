/-
  Recast chains — running a chain.

  * `run catalog subject tokens` applies the commands of the tokens one after the other.  The first
    failure ends the run, and what was made so far is dropped.  A token whose key is in no entry is
    passed over;
  * `attempted catalog tokens` are the names of the commands, whether or not they fail.
-/
import Recast.Chain.Token

namespace Recast.Chain

/-- What a run makes: the text, and the names of the commands that made it. -/
structure Outcome where
  value : Text
  applied : List Text
  deriving DecidableEq, Repr

/-- The arguments a token passes to a command: none if its entry takes none. -/
def passed (entry : Entry) (token : Token) : List Text :=
  if 0 < entry.arity.total then token.arguments else []

/-- The outcome of the commands of tokens. -/
def run (catalog : Catalog) (subject : Text) : List Token → Except CommandError Outcome
  | [] => .ok ⟨subject, []⟩
  | token :: more =>
    match catalog.resolve token.key with
    | .error _ => run catalog subject more
    | .ok entry =>
      match entry.command.apply subject (passed entry token) with
      | .error error => .error error
      | .ok value =>
        (run catalog value more).map fun outcome =>
          { outcome with applied := entry.name :: outcome.applied }

/-- The names of the commands of tokens. -/
def attempted (catalog : Catalog) (tokens : List Token) : List Text :=
  tokens.filterMap fun token => (catalog.resolve token.key).toOption.map Entry.name

end Recast.Chain

/-
  Recast shell — the options of the command line.

  Options and the one input may come in any order.  Behind `--` everything is input.  The arguments
  are read from left to right, and reading ends at the first error or request for the version.

  * `Options` are the options with their defaults;
  * `Request.ofArgs` is what the arguments ask for;
  * `logLevel` is the level of logging for the number of times it was raised.
-/
import Recast.Text.Basic

namespace Recast.Shell

/-- The options of a call. -/
structure Options where
  /-- the settings file -/
  config : Option Text := none
  pretty : Bool := false
  /-- whether to print the reference in place of the items -/
  commands : Bool := false
  verbosity : Nat := 0
  input : Option Text := none
  deriving DecidableEq, Repr

/-- What a call asks for. -/
inductive Request where
  | answer (options : Options)
  | version
  /-- nothing that makes sense -/
  | misuse
  deriving DecidableEq, Repr

/-- What a cluster of short options asks for: the options, with the verbosity raised, unless another
    request comes first. -/
def shortOptions (options : Options) : Text → Request
  | [] => .answer options
  | 'v' :: more => shortOptions { options with verbosity := options.verbosity + 1 } more
  | 'V' :: _ => .version
  | _ => .misuse

namespace Options

/-- Options with a settings file, which must have a name and may be given once. -/
def withConfig? (options : Options) (path : Text) : Option Options :=
  if path.isEmpty || options.config.isSome then none else some { options with config := some path }

/-- Options with an input, which may be given once. -/
def withInput? (options : Options) (input : Text) : Option Options :=
  if options.input.isSome then none else some { options with input := some input }

end Options

namespace Request

/-- What arguments ask for, all of which are inputs. -/
def ofInputs (options : Options) : List Text → Request
  | [] => .answer options
  | input :: more =>
    match options.withInput? input with
    | some options => ofInputs options more
    | none => .misuse

/-- What the arguments ask for that follow some options. -/
def ofArgsAfter (options : Options) : List Text → Request
  | [] => .answer options
  | arg :: more =>
    if arg = "--".toList then ofInputs options more
    else if arg = "--version".toList then .version
    else if arg = "--pretty".toList then
      if options.pretty then .misuse else ofArgsAfter { options with pretty := true } more
    else if arg = "--commands".toList then
      if options.commands then .misuse else ofArgsAfter { options with commands := true } more
    else if arg = "--verbose".toList then
      ofArgsAfter { options with verbosity := options.verbosity + 1 } more
    else if arg = "--config".toList then
      match more with
      | [] => .misuse
      | path :: more =>
        if path.head? = some '-' ∧ path ≠ ['-'] then .misuse
        else
          match options.withConfig? path with
          | some options => ofArgsAfter options more
          | none => .misuse
    else
      match "--config=".toList.isPrefixOf? arg with
      | some path =>
        match options.withConfig? path with
        | some options => ofArgsAfter options more
        | none => .misuse
      | none =>
        match arg with
        | '-' :: '-' :: _ => .misuse
        | '-' :: c :: cluster =>
          match shortOptions options (c :: cluster) with
          | .answer options => ofArgsAfter options more
          | other => other
        | _ =>
          match options.withInput? arg with
          | some options => ofArgsAfter options more
          | none => .misuse

/-- What the arguments ask for. -/
def ofArgs (args : List Text) : Request :=
  ofArgsAfter {} args

end Request

/-- The level of logging. -/
def logLevel (verbosity : Nat) : Text :=
  match verbosity with
  | 0 => "warn".toList
  | 1 => "info".toList
  | 2 => "debug".toList
  | _ => "trace".toList

end Recast.Shell

/-
  Recast commands — what a command does.

  * `Command.apply` recasts a text.  An optional argument that is missing takes its default, and
    arguments beyond the arity are ignored;
  * `CommandError` says why a command fails: a required argument is missing, or the text or an
    argument is not what the command needs (`TransformError`).
-/
import Recast.Command.Basic
import Recast.Json.Reformat
import Recast.Text.Search
import Recast.Text.Words
import Recast.Uri.Decode

namespace Recast

/-- Why a text cannot be recast. -/
inductive TransformError where
  | uri (cause : Uri.DecodeError)
  | json (cause : Json.ReformatError)
  deriving DecidableEq, Repr

/-- The error in words. -/
def TransformError.message : TransformError → Text
  | .uri cause => cause.message
  | .json cause => cause.message

/-- Why a command fails. -/
inductive CommandError where
  | missingArgument (command : Command) (given : Nat)
  | transform (command : Command) (cause : TransformError)
  deriving DecidableEq, Repr

/-- The error in words. -/
def CommandError.message : CommandError → Text
  | .missingArgument command given =>
    command.name ++ " requires ".toList ++ Text.ofNat command.arity.required ++
      " argument(s), got ".toList ++ Text.ofNat given
  | .transform command cause => command.name ++ " failed: ".toList ++ cause.message

namespace Command

/-- The text that joins the words of a slug unless another is given. -/
def defaultJoiner : Text := ['-']

/-- The indent of a document unless another is given. -/
def defaultIndent : Text := ['2']

/-- The text that `command`, whose required arguments are there, makes of another one. -/
def transform (command : Command) (input : Text) (args : List Text) : Except TransformError Text :=
  match command with
  | lowercase => .ok (Text.lowercase input)
  | uppercase => .ok (Text.uppercase input)
  | camelCase => .ok (Text.camelCase input)
  | pascalCase => .ok (Text.pascalCase input)
  | snakeCase => .ok (Text.snakeCase input)
  | trim => .ok (Text.trim input)
  | capitalize => .ok (Text.capitalize input)
  | encodeUri => .ok (Uri.encode input)
  | decodeUri => (Uri.decode input).mapError .uri
  | reverse => .ok input.reverse
  | slugify => .ok (Text.slugify (args[0]?.getD defaultJoiner) input)
  | replace => .ok (Text.replace (args[0]?.getD []) (args[1]?.getD []) input)
  | formatJson => (Json.reformat (args[0]?.getD defaultIndent) input).mapError .json

/-- The text that a command makes of another one. -/
def apply (command : Command) (input : Text) (args : List Text) : Except CommandError Text :=
  if args.length < command.arity.required then .error (.missingArgument command args.length)
  else (command.transform input args).mapError (.transform command)

end Command

end Recast

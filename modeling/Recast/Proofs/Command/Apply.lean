/-
  Recast commands — when a command fails, and what it does without its optional arguments.

  * `apply_eq_error_iff`: a command fails if a required argument is missing or it refuses the text;
  * `transform_eq_error_iff`: only two commands refuse a text, each for the reason of what it reads;
  * `apply_append_defaults`: an optional argument that is missing is as good as its default.
-/
import Recast.Command.Apply

namespace Recast.Command

variable {command : Command} {input : Text} {args : List Text}

theorem mapError_eq_error_iff {ε ε' α : Type} {f : ε → ε'} {result : Except ε α} {error : ε'} :
    result.mapError f = .error error ↔ ∃ cause, result = .error cause ∧ error = f cause := by
  cases result with
  | error cause =>
    change Except.error (f cause) = .error error ↔ _
    simp [eq_comm]
  | ok value =>
    change Except.ok value = .error error ↔ _
    simp

/-- **Only two commands refuse a text**: one reads escapes in it, and the other one reads it as a
    document and its argument as an indent. -/
theorem transform_eq_error_iff {cause : TransformError} :
    command.transform input args = .error cause ↔
      (command = decodeUri ∧ ∃ reason, Uri.decode input = .error reason ∧ cause = .uri reason) ∨
      (command = formatJson ∧ ∃ reason,
        Json.reformat (args[0]?.getD defaultIndent) input = .error reason ∧
          cause = .json reason) := by
  cases command <;> simp [transform, mapError_eq_error_iff]

theorem apply_eq_error_iff {error : CommandError} :
    command.apply input args = .error error ↔
      (args.length < command.arity.required ∧
        error = .missingArgument command args.length) ∨
      (command.arity.required ≤ args.length ∧ ∃ cause,
        command.transform input args = .error cause ∧ error = .transform command cause) := by
  unfold apply
  by_cases h : args.length < command.arity.required
  · rw [if_pos h]
    simp [h, Nat.not_le.2 h, eq_comm]
  · rw [if_neg h, mapError_eq_error_iff]
    simp [h, Nat.not_lt.1 h]

/-! ## Optional arguments -/

/-- The texts that optional arguments stand for if they are missing. -/
def defaults : Command → List Text
  | slugify => [defaultJoiner]
  | replace => [[]]
  | formatJson => [defaultIndent]
  | _ => []

/-- **An optional argument that is missing takes its default.** -/
theorem apply_append_defaults (command : Command) (input : Text) {args : List Text}
    (h : command.arity.required ≤ args.length) :
    command.apply input (args ++ command.defaults.drop (args.length - command.arity.required)) =
      command.apply input args := by
  have hall : ¬ (args ++ command.defaults.drop (args.length - command.arity.required)).length <
      command.arity.required := by
    rw [List.length_append]
    omega
  unfold apply
  rw [if_neg hall, if_neg (Nat.not_lt.2 h)]
  congr 1
  cases command with
  | slugify => cases args <;> rfl
  | formatJson => cases args <;> rfl
  | replace =>
    -- the first argument is there, so only the second one has a default
    cases args with
    | nil => exact absurd h (by decide)
    | cons substring more => cases more <;> rfl
  | _ => rfl

end Recast.Command

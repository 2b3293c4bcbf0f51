/-
  Recast commands — how a command is typed.

  The key is followed by its arguments, each behind one space and in quotes.  Either quote character
  will do, and nothing inside is escaped, so an argument that has both cannot be typed.

  * `quoteFor? arg` is the quote character for an argument, the single one if possible;
  * `invocation? key args` is the text to type;
  * `Command.hint` explains the arguments of a command, spelled with the separator in use;
  * `pathText names` joins the names of commands that run one after the other (`pathText_append`).
-/
import Recast.Command.Basic

namespace Recast

/-- The characters that quote an argument. -/
def isQuote (c : Char) : Bool :=
  c = '\'' || c = '"'

/-- The quote character for an argument: one that it does not contain. -/
def quoteFor? (arg : Text) : Option Char :=
  if !arg.contains '\'' then some '\'' else if !arg.contains '"' then some '"' else none

/-- An argument as it is typed. -/
def argument? (arg : Text) : Option Text :=
  (quoteFor? arg).map fun quote => ' ' :: quote :: (arg ++ [quote])

/-- Arguments as they are typed. -/
def arguments? : List Text → Option Text
  | [] => some []
  | arg :: more => (argument? arg).bind fun typed => (arguments? more).map (typed ++ ·)

/-- A key with its arguments as they are typed; none if an argument has both quote characters. -/
def invocation? (key : Char) (args : List Text) : Option Text :=
  (arguments? args).map (key :: ·)

/-- The invocation of a command with named arguments, behind the visible part of the separator. -/
def Command.usage (command : Command) (separator : Text) (args : List Text) : Text :=
  ((invocation? command.key args).map (Text.trimStart separator ++ ·)).getD []

/-- What to know about the arguments of a command. -/
def Command.hint (command : Command) (separator : Text) : Option Text :=
  match command with
  | .slugify =>
    some ("Takes one argument: ".toList ++ command.usage separator ["<replacement>".toList])
  | .replace =>
    some ("Takes two arguments: ".toList ++
      command.usage separator ["<substring>".toList, "<replacement>".toList])
  | .formatJson =>
    some ("Takes one argument: ".toList ++ command.usage separator ["<indent>".toList] ++
      ". Integer of indentation spaces or 't' for tab char".toList)
  | _ => none

/-- The names of commands that run one after the other. -/
def pathText (names : List Text) : Text :=
  ['→'].intercalate names

/-- The path of some commands and then of others. -/
theorem pathText_append {names more : List Text} (given : names ≠ []) (follow : more ≠ []) :
    pathText (names ++ more) = pathText names ++ '→' :: pathText more := by
  unfold pathText
  induction names with
  | nil => exact absurd rfl given
  | cons name names ih =>
    cases names with
    | nil =>
      cases more with
      | nil => exact absurd rfl follow
      | cons other more => simp
    | cons next names =>
      have tail := ih (List.cons_ne_nil next names)
      simp only [List.cons_append, List.intercalate_cons_cons] at tail ⊢
      rw [tail]
      simp

end Recast

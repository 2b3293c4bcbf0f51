/-
  Recast regular expressions — what they match.

  An expression is matched at the start of a text.  There may be several ways to match, and they are
  tried in a fixed order: the first alternative before the others, and as much as possible before
  less.

  * `Regex.run` tries the ways to match until one of them suits what comes next;
  * `Regex.match?` is the number of characters that the first way takes;
  * `Regex.run_sequence_append`, `Regex.run_anyOf`: parts in a row, and alternatives.
-/
import Recast.Text.Basic

namespace Recast

/-- A set of characters: those that are listed, or all others. -/
structure CharSet where
  negated : Bool
  listed : List Char
  deriving DecidableEq, Repr

namespace CharSet

/-- Whether a character is in a set. -/
def has (set : CharSet) (c : Char) : Bool :=
  set.listed.contains c != set.negated

/-- The set of one character. -/
def only (c : Char) : CharSet :=
  ⟨false, [c]⟩

@[simp] theorem has_only (c d : Char) : (only c).has d = decide (d = c) := by
  simp [has, only]

end CharSet

/-- A regular expression. -/
inductive Regex where
  /-- nothing -/
  | empty
  /-- one character of a set -/
  | one (set : CharSet)
  /-- characters of a set, as many as possible -/
  | many (set : CharSet)
  /-- one expression behind the other -/
  | seq (first second : Regex)
  /-- the first expression, or else the second -/
  | either (first second : Regex)
  /-- the expression if possible, or else nothing -/
  | optional (body : Regex)
  deriving DecidableEq, Repr

namespace Regex

variable {β : Type}

/-- Takes as many characters of a set as suit what comes next. -/
def runMany (set : CharSet) (next : Text → Nat → Option β) : Text → (taken : Nat) → Option β
  | [], taken => next [] taken
  | c :: rest, taken =>
    if set.has c then (runMany set next rest (taken + 1)).or (next (c :: rest) taken)
    else next (c :: rest) taken

/-- Matches at the start of a text, before which `taken` characters were taken, and goes on with
    `next` behind the match.  If `next` fails, the match is given up for the next possible one. -/
def run : Regex → (next : Text → Nat → Option β) → Text → (taken : Nat) → Option β
  | empty, next, s, taken => next s taken
  | one _, _, [], _ => none
  | one set, next, c :: rest, taken => if set.has c then next rest (taken + 1) else none
  | many set, next, s, taken => runMany set next s taken
  | seq first second, next, s, taken => run first (run second next) s taken
  | either first second, next, s, taken => (run first next s taken).or (run second next s taken)
  | optional body, next, s, taken => (run body next s taken).or (next s taken)

/-- The number of characters of the match at the start of a text. -/
def match? (regex : Regex) (s : Text) : Option Nat :=
  run regex (fun _ taken => some taken) s 0

/-! ## Rows of expressions -/

/-- Parts in a row. -/
def sequence (parts : List Regex) : Regex :=
  parts.foldr seq empty

/-- Alternatives, of which the first that suits is taken. -/
def anyOf : List Regex → Regex
  | [] => empty
  | [regex] => regex
  | regex :: more => either regex (anyOf more)

theorem run_sequence_append (before after : List Regex) (next : Text → Nat → Option β) :
    run (sequence (before ++ after)) next = run (sequence before) (run (sequence after) next) := by
  induction before with
  | nil => rfl
  | cons part before ih =>
    funext s taken
    change run part (run (sequence (before ++ after)) next) s taken = _
    rw [ih]
    rfl

/-- Alternatives are tried one after the other. -/
theorem run_anyOf (alternatives : List Regex) (given : alternatives ≠ [])
    (next : Text → Nat → Option β) (s : Text) (taken : Nat) :
    run (anyOf alternatives) next s taken =
      alternatives.findSome? fun regex => run regex next s taken := by
  induction alternatives with
  | nil => exact absurd rfl given
  | cons regex more ih =>
    cases more with
    | nil => cases h : run regex next s taken <;> simp [anyOf, h]
    | cons other more =>
      change (run regex next s taken).or (run (anyOf (other :: more)) next s taken) = _
      rw [ih (List.cons_ne_nil _ _), List.findSome?_cons (a := regex)]
      cases run regex next s taken <;> rfl

end Regex

end Recast

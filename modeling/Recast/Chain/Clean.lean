/-
  Recast chains — clean texts.

  A text is clean if it has at least one token and every character outside its tokens is glue.

  * a `Scan` says so for many ends of one text.  It walks from a place to the first place it knows
    about, and remembers what it learned about every place on the way, so no place is walked twice;
  * `Scan.isCleanFrom scan start` asks about the text from the character at `start` on, and gives the
    answer with the scan that remembers it.
-/
import Recast.Chain.Token
import Std.Data.HashMap

namespace Recast.Chain

/-! ## Ends of a text -/

/-- What a text holds from some place on. -/
inductive Tail where
  /-- a character that is neither in a token nor glue -/
  | dirty
  /-- glue and no token -/
  | glue
  /-- tokens, at least one, and glue -/
  | tokens
  deriving DecidableEq, Repr

/-- What a text holds from a token on, or from a glue character on, by what it holds after it. -/
def Tail.before (isToken : Bool) : Tail → Tail
  | .glue => if isToken then .tokens else .glue
  | tail => tail

/-- What is known about places of a text, each given by the number of characters before it. -/
abbrev Memo := Std.HashMap Nat Tail

/-- Where a walk has been, the last place first, with whether a token starts there; and where it
    ended, with what is known about that place. -/
structure Walk where
  path : List (Nat × Bool)
  stop : Nat
  tail : Tail

/-- Walks on, from token to token and over glue, to a known place, the end of the text or a dirty
    character.  `place` counts the characters before the rest of the text, of which the first
    `skip` belong to a token. -/
def walk (grammar : Grammar) (isGlue : Char → Bool) (memo : Memo) (path : List (Nat × Bool))
    (place : Nat) : (skip : Nat) → Text → Walk
  | _, [] => ⟨path, place, memo[place]?.getD .glue⟩
  | skip + 1, _ :: rest => walk grammar isGlue memo path (place + 1) skip rest
  | 0, c :: rest =>
    match memo[place]? with
    | some tail => ⟨path, place, tail⟩
    | none =>
      match grammar.token? c rest with
      | some (_, more) => walk grammar isGlue memo ((place, true) :: path) (place + 1) more rest
      | none =>
        if isGlue c then walk grammar isGlue memo ((place, false) :: path) (place + 1) 0 rest
        else ⟨path, place, .dirty⟩

/-- Goes back along a path and notes what each place holds; gives what the first place holds. -/
def settle (memo : Memo) (tail : Tail) : List (Nat × Bool) → Tail × Memo
  | [] => (tail, memo)
  | (place, isToken) :: path =>
    let tail := tail.before isToken
    settle (memo.insert place tail) tail path

/-! ## Scans -/

/-- A text with what is known about its places. -/
structure Scan where
  grammar : Grammar
  isGlue : Char → Bool
  text : Text
  memo : Memo

namespace Scan

/-- The scan of a text about which nothing is known. -/
def start (grammar : Grammar) (isGlue : Char → Bool) (text : Text) : Scan :=
  ⟨grammar, isGlue, text, ∅⟩

/-- What the text holds from a place on; `rest` is the text from there on. -/
def tailAt (scan : Scan) (place : Nat) (rest : Text) : Tail × Scan :=
  let walked := walk scan.grammar scan.isGlue scan.memo [] place 0 rest
  let (tail, memo) :=
    settle (scan.memo.insert walked.stop walked.tail) walked.tail walked.path
  (tail, { scan with memo := memo })

/-- Whether the text is clean from a place on. -/
def isCleanFrom (scan : Scan) (place : Nat) : Bool × Scan :=
  let (tail, scan) := scan.tailAt place (scan.text.drop place)
  (tail == .tokens, scan)

/-- The answers to several questions, one after the other. -/
def answers (scan : Scan) : List Nat → List Bool
  | [] => []
  | place :: more =>
    let (answer, scan) := scan.isCleanFrom place
    answer :: answers scan more

end Scan

end Recast.Chain

/-
  Recast chains — what the patterns of calls match.

  * `quotedRegex`, `Arity.parts` are the expressions of a quoted argument and of the arguments that an
    arity allows; `spells_source`: the source of an arity spells its parts;
  * `run_argumentParts_append`, `run_argumentParts_none`: an argument is matched where a text begins
    with a quoted argument, and in one way only;
  * `run_parts`: the arguments of an arity are matched by the row at the start of a text, if it is long
    enough.
-/
import Recast.Proofs.Chain.Quoted
import Recast.Proofs.Regex.Spelling

namespace Recast

open Regex

/-- What is between two quotes, with the second one. -/
def closedBy (quote : Char) : List Regex :=
  [.many ⟨true, [quote]⟩, .one (.only quote)]

/-- The expression of a quoted argument without the space before it. -/
def quotedRegex : Regex :=
  anyOf [Regex.sequence (.one (.only '\'') :: closedBy '\''),
    Regex.sequence (.one (.only '"') :: closedBy '"')]

/-- The parts of an argument: a space and what is quoted. -/
def argumentParts : List Regex :=
  [.one (.only ' '), quotedRegex]

/-- The parts of the arguments that an arity allows. -/
def Arity.parts (arity : Arity) : List Regex :=
  (List.replicate arity.required argumentParts).flatten ++
    (List.replicate arity.optional [.optional (Regex.sequence argumentParts)]).flatten

/-! ## Sources -/

theorem spells_argument : Spells (' ' :: quotedSource) argumentParts := fun _ _ => rfl

theorem spells_optional_argument :
    Spells ("(?: ".toList ++ quotedSource ++ ")?".toList)
      [.optional (Regex.sequence argumentParts)] :=
  fun _ _ => rfl

/-- **The source of an arity spells its parts.** -/
theorem spells_source (arity : Arity) : Spells arity.source arity.parts :=
  (spells_argument.replicate _).append (spells_optional_argument.replicate _)

namespace Chain

variable {β : Type}

/-! ## One argument -/

theorem has_others (quote c : Char) :
    CharSet.has ⟨true, [quote]⟩ c = !decide (c = quote) := by
  simp [CharSet.has]

theorem run_closedBy_append {quote : Char} {body : Text} (h : quote ∉ body)
    (next : Text → Nat → Option β) (rest : Text) (taken : Nat) :
    Regex.run (Regex.sequence (closedBy quote)) next (body ++ quote :: rest) taken =
      next rest (taken + body.length + 1) := by
  change runMany _ (Regex.run (Regex.sequence [.one (.only quote)]) next) _ _ = _
  induction body generalizing taken with
  | nil =>
    rw [List.nil_append, runMany, if_neg (by simp [has_others])]
    simp [Regex.sequence, Regex.run]
  | cons c body ih =>
    obtain ⟨hc, hbody⟩ := not_or.1 (List.mem_cons.not.1 h)
    rw [List.cons_append, runMany, if_pos (by simp [has_others, Ne.symm hc]), ih hbody]
    -- giving `c` back is no use: it is not the closing quote
    simp only [Regex.sequence, List.foldr, Regex.run, CharSet.has_only, Ne.symm hc, decide_false,
      Bool.false_eq_true, if_false, Option.or_none, List.length_cons]
    congr 1
    omega

theorem run_closedBy_of_notMem {quote : Char} {s : Text} (h : quote ∉ s)
    (next : Text → Nat → Option β) (taken : Nat) :
    Regex.run (Regex.sequence (closedBy quote)) next s taken = none := by
  change runMany _ (Regex.run (Regex.sequence [.one (.only quote)]) next) _ _ = _
  induction s generalizing taken with
  | nil => rfl
  | cons c s ih =>
    obtain ⟨hc, hs⟩ := not_or.1 (List.mem_cons.not.1 h)
    rw [runMany, if_pos (by simp [has_others, Ne.symm hc]), ih hs]
    simp [Regex.sequence, Regex.run, Ne.symm hc]

/-- Only the alternative of the opening quote can match. -/
theorem run_quotedRegex_cons (c : Char) (next : Text → Nat → Option β) (s : Text) (taken : Nat) :
    Regex.run quotedRegex next (c :: s) taken =
      if isQuote c then Regex.run (Regex.sequence (closedBy c)) next s (taken + 1) else none := by
  have hrun : ∀ quote,
      Regex.run (Regex.sequence (.one (.only quote) :: closedBy quote)) next (c :: s) taken =
        if c = quote then Regex.run (Regex.sequence (closedBy quote)) next s (taken + 1)
        else none := by
    intro quote
    simp [Regex.sequence, Regex.run]
  rw [quotedRegex, run_anyOf _ (by simp), List.findSome?_cons, List.findSome?_cons, hrun, hrun]
  by_cases hs : c = '\''
  · subst hs
    rw [if_pos rfl, if_neg (by decide), if_pos (by decide)]
    cases Regex.run (Regex.sequence (closedBy '\'')) next s (taken + 1) <;> rfl
  · by_cases hd : c = '"'
    · subst hd
      rw [if_neg (by decide), if_pos rfl, if_pos (by decide)]
      cases Regex.run (Regex.sequence (closedBy '"')) next s (taken + 1) <;> rfl
    · rw [if_neg hs, if_neg hd, if_neg (by simp [isQuote, hs, hd])]
      rfl

/-- **An argument is matched by the quoted argument that a text begins with.** -/
theorem run_argumentParts_append (quoted : Quoted) (next : Text → Nat → Option β) (rest : Text)
    (taken : Nat) :
    Regex.run (Regex.sequence argumentParts) next (quoted.text ++ rest) taken =
      next rest (taken + quoted.text.length) := by
  have htext : quoted.text ++ rest =
      ' ' :: quoted.quote :: (quoted.body ++ quoted.quote :: rest) := by
    simp [Quoted.text]
  have hspace : Regex.run (Regex.sequence argumentParts) next (quoted.text ++ rest) taken =
      Regex.run quotedRegex next (quoted.quote :: (quoted.body ++ quoted.quote :: rest))
        (taken + 1) := by
    rw [htext]
    rfl
  rw [hspace, run_quotedRegex_cons, if_pos quoted.isQuote_quote,
    run_closedBy_append quoted.quote_notMem]
  congr 1
  simp [Quoted.text]
  omega

theorem run_argumentParts_none {s : Text} (h : Quoted.leading? s = none)
    (next : Text → Nat → Option β) (taken : Nat) :
    Regex.run (Regex.sequence argumentParts) next s taken = none := by
  match s, h with
  | [], _ => rfl
  | [c], _ =>
    by_cases hc : c = ' ' <;>
      simp [Regex.sequence, argumentParts, Regex.run, hc, quotedRegex, anyOf]
  | c :: quote :: rest, h =>
    by_cases hc : c = ' '
    · subst hc
      change Regex.run quotedRegex next (quote :: rest) (taken + 1) = none
      rw [run_quotedRegex_cons]
      split
      · next hq =>
        refine run_closedBy_of_notMem (fun hmem => ?_) next _
        rw [Quoted.leading?, dif_pos ⟨hq, hmem⟩] at h
        exact absurd h (by simp)
      · rfl
    · simp [Regex.sequence, argumentParts, Regex.run, hc]

/-! ## The arguments of an arity -/

/-- The required arguments are matched by a full row. -/
theorem run_required (n : Nat) (next : Text → Nat → Option β) (s : Text) (taken : Nat) :
    Regex.run (Regex.sequence (List.replicate n argumentParts).flatten) next s taken =
      if (Quoted.row n s).length = n then
        next (s.drop (Quoted.rowText (Quoted.row n s)).length)
          (taken + (Quoted.rowText (Quoted.row n s)).length)
      else none := by
  induction n generalizing s taken with
  | zero => rfl
  | succ n ih =>
    rw [List.replicate_succ, List.flatten_cons, run_sequence_append]
    cases h : Quoted.leading? s with
    | none =>
      rw [run_argumentParts_none h]
      simp [Quoted.row, h]
    | some quoted =>
      obtain ⟨rest, rfl⟩ := Quoted.leading?_eq_some_iff.1 h
      rw [run_argumentParts_append, Quoted.row_text_append, ih]
      simp [Quoted.rowText, Nat.add_assoc]

/-- The optional arguments are matched by the longest row, if what follows never fails. -/
theorem run_optional (n : Nat) {next : Text → Nat → Option β}
    (hnext : ∀ s taken, (next s taken).isSome) (s : Text) (taken : Nat) :
    Regex.run
        (Regex.sequence (List.replicate n [.optional (Regex.sequence argumentParts)]).flatten)
        next s taken =
      next (s.drop (Quoted.rowText (Quoted.row n s)).length)
        (taken + (Quoted.rowText (Quoted.row n s)).length) := by
  induction n generalizing s taken with
  | zero => rfl
  | succ n ih =>
    set more := Regex.run
      (Regex.sequence (List.replicate n [.optional (Regex.sequence argumentParts)]).flatten) next
    change (Regex.run (Regex.sequence argumentParts) more s taken).or (more s taken) = _
    cases h : Quoted.leading? s with
    | none =>
      have hrow : Quoted.row n s = [] := by cases n <;> simp [Quoted.row, h]
      rw [run_argumentParts_none h, Option.none_or, ih, hrow, Quoted.row, h]
    | some quoted =>
      obtain ⟨rest, rfl⟩ := Quoted.leading?_eq_some_iff.1 h
      rw [run_argumentParts_append, Quoted.row_text_append, ih rest,
        Option.or_of_isSome (hnext _ _)]
      simp [Quoted.rowText, Nat.add_assoc]

/-- **The arguments of an arity are matched by the row a text begins with**, if it has the required
    arguments. -/
theorem run_parts (arity : Arity) (s : Text) (taken : Nat) :
    Regex.run (Regex.sequence arity.parts) (fun _ taken => some taken) s taken =
      if arity.required ≤ (Quoted.row arity.total s).length then
        some (taken + (Quoted.rowText (Quoted.row arity.total s)).length)
      else none := by
  unfold Arity.parts Arity.total
  rw [run_sequence_append, run_required, Quoted.row_add]
  by_cases hfull : (Quoted.row arity.required s).length = arity.required
  · rw [if_pos hfull, if_pos hfull, run_optional _ fun _ _ => rfl,
      if_pos (by rw [List.length_append, hfull]; exact Nat.le_add_right _ _)]
    simp [Quoted.rowText, Nat.add_assoc]
  · have hlt := lt_of_le_of_ne (Quoted.length_row_le _ _) hfull
    rw [if_neg hfull, if_neg hfull, if_neg (Nat.not_le.2 hlt)]

end Chain

end Recast

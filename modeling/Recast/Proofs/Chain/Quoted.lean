/-
  Recast chains — quoted arguments.

  * `Quoted` is an argument as it is typed, `Quoted.text` its characters, a space first;
  * `leading?_eq_some_iff`: a text begins with at most one quoted argument, and `leading?` finds it;
  * `row most s` are the quoted arguments that `s` begins with, `most` at most;
  * `exists_row_of_arguments?`: arguments are typed as a row; `quotedFrom_rowText`: they are read
    back from it.
-/
import Mathlib.Data.List.TakeWhile
import Recast.Chain.Token

namespace Recast.Chain

/-- A quoted argument: the quote that opens it closes it, and is not in between. -/
@[ext] structure Quoted where
  quote : Char
  body : Text
  isQuote_quote : isQuote quote = true
  quote_notMem : quote ∉ body

namespace Quoted

/-- The characters of a quoted argument, with the space before it. -/
def text (quoted : Quoted) : Text :=
  ' ' :: quoted.quote :: (quoted.body ++ [quoted.quote])

/-- The quoted argument that a text begins with. -/
def leading? : Text → Option Quoted
  | ' ' :: quote :: rest =>
    if h : isQuote quote = true ∧ quote ∈ rest then
      some ⟨quote, rest.takeWhile (· ≠ quote), h.1, fun hmem => by
        simpa using List.mem_takeWhile_imp hmem⟩
    else none
  | _ => none

theorem takeWhile_ne_append {c : Char} {s : Text} (h : c ∉ s) (rest : Text) :
    (s ++ c :: rest).takeWhile (· ≠ c) = s := by
  rw [List.takeWhile_append_of_pos fun d hd => by simpa using ne_of_mem_of_not_mem hd h]
  simp

/-- **A text begins with at most one quoted argument.** -/
theorem leading?_eq_some_iff {s : Text} {quoted : Quoted} :
    leading? s = some quoted ↔ quoted.text <+: s := by
  constructor
  · intro h
    unfold leading? at h
    split at h
    · next quote rest =>
      split at h
      · next hq =>
        obtain ⟨before, after, rfl, hb⟩ := List.eq_append_cons_of_mem hq.2
        obtain rfl := Option.some.inj h
        refine ⟨after, ?_⟩
        simp only [text, takeWhile_ne_append hb after]
        simp
      · exact absurd h (by simp)
    · exact absurd h (by simp)
  · rintro ⟨rest, rfl⟩
    have hmem : quoted.quote ∈ quoted.body ++ quoted.quote :: rest := by simp
    have htext : quoted.text ++ rest =
        ' ' :: quoted.quote :: (quoted.body ++ quoted.quote :: rest) := by
      simp [text]
    rw [htext, leading?, dif_pos ⟨quoted.isQuote_quote, hmem⟩, Option.some_inj]
    ext1
    · rfl
    · exact takeWhile_ne_append quoted.quote_notMem rest

theorem leading?_text_append (quoted : Quoted) (rest : Text) :
    leading? (quoted.text ++ rest) = some quoted :=
  leading?_eq_some_iff.2 (List.prefix_append _ _)

/-- What does not begin with a space and a quote begins with no quoted argument. -/
theorem leading?_eq_none {s : Text}
    (h : ∀ quote rest, s = ' ' :: quote :: rest → isQuote quote = false) : leading? s = none := by
  unfold leading?
  split
  · next quote rest =>
    rw [dif_neg]
    rintro ⟨hq, -⟩
    simp [h quote rest rfl] at hq
  · rfl

/-! ## Rows -/

/-- The characters of several quoted arguments. -/
def rowText (row : List Quoted) : Text :=
  row.flatMap text

/-- The quoted arguments that a text begins with, `most` at most. -/
def row : (most : Nat) → Text → List Quoted
  | 0, _ => []
  | most + 1, s =>
    match leading? s with
    | none => []
    | some quoted => quoted :: row most (s.drop quoted.text.length)

theorem row_text_append (most : Nat) (quoted : Quoted) (rest : Text) :
    row (most + 1) (quoted.text ++ rest) = quoted :: row most rest := by
  rw [row, leading?_text_append]
  simp

theorem rowText_row_prefix (most : Nat) (s : Text) : rowText (row most s) <+: s := by
  induction most generalizing s with
  | zero => exact List.nil_prefix
  | succ most ih =>
    cases h : leading? s with
    | none =>
      rw [row, h]
      exact List.nil_prefix
    | some quoted =>
      obtain ⟨rest, rfl⟩ := leading?_eq_some_iff.1 h
      rw [row_text_append]
      exact (List.prefix_append_right_inj _).2 (ih rest)

theorem length_row_le (most : Nat) (s : Text) : (row most s).length ≤ most := by
  induction most generalizing s with
  | zero => exact le_rfl
  | succ most ih =>
    unfold row
    split
    · exact Nat.zero_le _
    · exact Nat.succ_le_succ (ih _)

/-- **A row is found again**, if it is as long as allowed or no quoted argument follows it. -/
theorem row_rowText_append {most : Nat} (quoteds : List Quoted) {rest : Text}
    (hle : quoteds.length ≤ most) (hend : quoteds.length = most ∨ leading? rest = none) :
    row most (rowText quoteds ++ rest) = quoteds := by
  induction quoteds generalizing most with
  | nil =>
    cases most with
    | zero => rfl
    | succ most =>
      have hnone : leading? rest = none := hend.resolve_left (by simp)
      change row (most + 1) rest = []
      rw [row, hnone]
  | cons quoted quoteds ih =>
    obtain ⟨most, rfl⟩ : ∃ n, most = n + 1 := ⟨most - 1, by simp at hle; omega⟩
    simp only [List.length_cons, Nat.add_le_add_iff_right, Nat.add_right_cancel_iff] at hle hend
    have htext : rowText (quoted :: quoteds) ++ rest =
        quoted.text ++ (rowText quoteds ++ rest) := by
      simp [rowText]
    rw [htext, row_text_append, ih hle hend]

/-- A row of up to `m + n` is a row of up to `m`, and if that is full, a row of up to `n` behind
    it. -/
theorem row_add (m n : Nat) (s : Text) :
    row (m + n) s =
      if (row m s).length = m then
        row m s ++ row n (s.drop (rowText (row m s)).length)
      else row m s := by
  induction m generalizing s with
  | zero => simp [row, rowText]
  | succ m ih =>
    rw [Nat.succ_add_eq_add_succ, Nat.add_succ]
    cases h : leading? s with
    | none => simp [row, h]
    | some quoted =>
      obtain ⟨rest, rfl⟩ := leading?_eq_some_iff.1 h
      rw [row_text_append, row_text_append, ih rest]
      split
      · next hm => simp [hm, rowText]
      · next hm => simp [hm]

theorem length_row_eq_or_leading?_eq_none (most : Nat) (s : Text) :
    (row most s).length = most ∨ leading? (s.drop (rowText (row most s)).length) = none := by
  induction most generalizing s with
  | zero => exact .inl rfl
  | succ most ih =>
    cases h : leading? s with
    | none =>
      right
      rw [row, h]
      exact h
    | some quoted =>
      obtain ⟨rest, rfl⟩ := leading?_eq_some_iff.1 h
      rw [row_text_append]
      rcases ih rest with hlength | hnone
      · left
        rw [List.length_cons, hlength]
      · right
        rw [← hnone]
        simp [rowText, ← List.drop_drop]

theorem length_le_length_row {most : Nat} {quoteds : List Quoted} {s : Text}
    (h : rowText quoteds <+: s) (hle : quoteds.length ≤ most) :
    quoteds.length ≤ (row most s).length := by
  obtain ⟨rest, rfl⟩ := h
  obtain ⟨more, rfl⟩ := Nat.exists_eq_add_of_le hle
  rw [row_add, row_rowText_append quoteds le_rfl (.inl rfl), if_pos rfl, List.length_append]
  exact Nat.le_add_right _ _

/-! ## Typing arguments, and reading them -/

/-- No argument that is typed has both quotes, since one of them is around it. -/
theorem not_mem_body (quoted : Quoted) : ¬('\'' ∈ quoted.body ∧ '"' ∈ quoted.body) := by
  rintro ⟨hsingle, hdouble⟩
  have hquote := quoted.isQuote_quote
  simp only [isQuote, Bool.or_eq_true, decide_eq_true_eq] at hquote
  rcases hquote with hquote | hquote
  · exact quoted.quote_notMem (hquote ▸ hsingle)
  · exact quoted.quote_notMem (hquote ▸ hdouble)

theorem exists_of_argument? {arg typed : Text} (h : argument? arg = some typed) :
    ∃ quoted : Quoted, quoted.text = typed ∧ quoted.body = arg := by
  obtain ⟨quote, hq, rfl⟩ := Option.map_eq_some_iff.1 h
  unfold quoteFor? at hq
  split_ifs at hq with hs hd <;> obtain rfl := Option.some.inj hq
  · exact ⟨⟨'\'', arg, by decide, by simpa using hs⟩, rfl, rfl⟩
  · exact ⟨⟨'"', arg, by decide, by simpa using hd⟩, rfl, rfl⟩

/-- **Arguments are typed as a row.** -/
theorem exists_row_of_arguments? {args : List Text} {typed : Text}
    (h : arguments? args = some typed) :
    ∃ quoteds : List Quoted, rowText quoteds = typed ∧ quoteds.map body = args := by
  induction args generalizing typed with
  | nil => exact ⟨[], Option.some.inj h, rfl⟩
  | cons arg args ih =>
    obtain ⟨first, hfirst, h⟩ := Option.bind_eq_some_iff.1 h
    obtain ⟨more, hmore, rfl⟩ := Option.map_eq_some_iff.1 h
    obtain ⟨quoted, rfl, rfl⟩ := exists_of_argument? hfirst
    obtain ⟨quoteds, rfl, rfl⟩ := ih hmore
    exact ⟨quoted :: quoteds, rfl, rfl⟩

/-- Arguments can be typed if none has both quotes. -/
theorem exists_arguments? {args : List Text}
    (h : ∀ arg ∈ args, ¬('\'' ∈ arg ∧ '"' ∈ arg)) : ∃ typed, arguments? args = some typed := by
  induction args with
  | nil => exact ⟨[], rfl⟩
  | cons arg args ih =>
    obtain ⟨more, hmore⟩ := ih fun other hother => h other (List.mem_cons_of_mem _ hother)
    have hquote : ∃ quote, quoteFor? arg = some quote := by
      unfold quoteFor?
      by_cases hs : '\'' ∈ arg
      · have hd : '"' ∉ arg := fun hd => h arg List.mem_cons_self ⟨hs, hd⟩
        exact ⟨'"', by simp [hs, hd]⟩
      · exact ⟨'\'', by simp [hs]⟩
    obtain ⟨quote, hquote⟩ := hquote
    exact ⟨_, by rw [arguments?, argument?, hquote, hmore]; rfl⟩

/-- Inside quotes, everything up to the closing quote is read. -/
theorem quotedFrom_inside {quote : Char} {body : Text} (h : quote ∉ body) (seen rest : Text) :
    quotedFrom (some (quote, seen)) (body ++ quote :: rest) =
      (seen.reverse ++ body) :: quotedFrom none rest := by
  induction body generalizing seen with
  | nil => simp [quotedFrom]
  | cons c body ih =>
    obtain ⟨hc, hbody⟩ := not_or.1 (List.mem_cons.not.1 h)
    rw [List.cons_append, quotedFrom, if_neg (Ne.symm hc), ih hbody]
    simp

/-- **The arguments are read back from a row.** -/
theorem quotedFrom_rowText (quoteds : List Quoted) :
    quotedFrom none (rowText quoteds) = quoteds.map body := by
  induction quoteds with
  | nil => rfl
  | cons quoted quoteds ih =>
    have hspace : isQuote ' ' = false := by decide
    have htext : rowText (quoted :: quoteds) =
        ' ' :: quoted.quote :: (quoted.body ++ quoted.quote :: rowText quoteds) := by
      simp [rowText, text]
    rw [htext, quotedFrom, hspace, if_neg (by simp), quotedFrom, if_pos quoted.isQuote_quote,
      quotedFrom_inside quoted.quote_notMem, ih]
    rfl

end Quoted

end Recast.Chain

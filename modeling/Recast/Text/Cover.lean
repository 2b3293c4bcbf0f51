/-
  Recast texts — covering a text by found items.

  A finder looks at the characters from one place on and says which item, if any, starts there.  A
  cover walks a text from left to right: where the finder sees an item, the item's characters belong
  to it and the walk goes on behind them; any other character is loose.

  * `cover find s` is the list of items and loose characters;
  * `coverFrom_eq_drop`: skipping characters is the same as dropping them first;
  * `cover_cons_of_some`, `cover_cons_of_none`: what a cover does at a character;
  * `spelled_cover`: when items spell the characters they were found in, the cover spells the text;
  * `items`, `loose` take the two kinds of piece out of a cover.
-/
import Recast.Text.Basic

namespace Recast.Text

/-- A part of a covered text. -/
inductive Piece (α : Type) where
  | item (found : α)
  | loose (c : Char)
  deriving DecidableEq, Repr

/-- What starts at a character and the characters after it: the item, with the number of
    characters it takes after its first. -/
abbrev Finder (α : Type) := Char → Text → Option (α × Nat)

variable {α : Type}

/-- The cover of a text whose first `skip` characters belong to an item found before. -/
def coverFrom (find : Finder α) : (skip : Nat) → Text → List (Piece α)
  | _, [] => []
  | skip + 1, _ :: rest => coverFrom find skip rest
  | 0, c :: rest =>
    match find c rest with
    | some (found, more) => .item found :: coverFrom find more rest
    | none => .loose c :: coverFrom find 0 rest

/-- The items a finder sees in a text from left to right, with the characters outside them. -/
def cover (find : Finder α) (s : Text) : List (Piece α) :=
  coverFrom find 0 s

/-- The items among the pieces. -/
def items (pieces : List (Piece α)) : List α :=
  pieces.filterMap fun
    | .item found => some found
    | .loose _ => none

/-- The loose characters among the pieces. -/
def loose (pieces : List (Piece α)) : Text :=
  pieces.filterMap fun
    | .item _ => none
    | .loose c => some c

/-- The characters of a piece, given those of each item. -/
def Piece.spelled (spell : α → Text) : Piece α → Text
  | .item found => spell found
  | .loose c => [c]

theorem coverFrom_eq_drop (find : Finder α) (skip : Nat) (s : Text) :
    coverFrom find skip s = cover find (s.drop skip) := by
  induction s generalizing skip with
  | nil => cases skip <;> rfl
  | cons c rest ih =>
    cases skip with
    | zero => rfl
    | succ skip => exact ih skip

@[simp] theorem cover_nil (find : Finder α) : cover find [] = [] :=
  rfl

/-- Where an item is found, the cover goes on behind it. -/
theorem cover_cons_of_some {find : Finder α} {c : Char} {rest : Text} {found : α} {more : Nat}
    (h : find c rest = some (found, more)) :
    cover find (c :: rest) = .item found :: cover find (rest.drop more) := by
  rw [cover, coverFrom, h, ← coverFrom_eq_drop]

/-- Where none is found, one character is loose. -/
theorem cover_cons_of_none {find : Finder α} {c : Char} {rest : Text} (h : find c rest = none) :
    cover find (c :: rest) = .loose c :: cover find rest := by
  rw [cover, coverFrom, h, cover]

@[simp] theorem items_nil : items ([] : List (Piece α)) = [] :=
  rfl

@[simp] theorem items_item (found : α) (pieces : List (Piece α)) :
    items (.item found :: pieces) = found :: items pieces :=
  rfl

@[simp] theorem items_loose (c : Char) (pieces : List (Piece α)) :
    items (.loose c :: pieces) = items pieces :=
  rfl

@[simp] theorem loose_nil : loose ([] : List (Piece α)) = [] :=
  rfl

@[simp] theorem loose_item (found : α) (pieces : List (Piece α)) :
    loose (.item found :: pieces) = loose pieces :=
  rfl

@[simp] theorem loose_loose (c : Char) (pieces : List (Piece α)) :
    loose (.loose c :: pieces) = c :: loose pieces :=
  rfl

@[simp] theorem items_map_loose_append (s : Text) (pieces : List (Piece α)) :
    items (s.map .loose ++ pieces) = items pieces := by
  induction s with
  | nil => rfl
  | cons c s ih => exact ih

@[simp] theorem loose_map_loose_append (s : Text) (pieces : List (Piece α)) :
    loose (s.map .loose ++ pieces) = s ++ loose pieces := by
  induction s with
  | nil => rfl
  | cons c s ih => exact congrArg (c :: ·) ih

/-- **Nothing is lost.**  If each item spells the characters from its first on, the pieces of a
    cover spell the text. -/
theorem spelled_cover {find : Finder α} {spell : α → Text}
    (faithful : ∀ c rest found more, find c rest = some (found, more) →
      spell found = c :: rest.take more) (s : Text) :
    (cover find s).flatMap (Piece.spelled spell) = s := by
  suffices h : ∀ skip, (coverFrom find skip s).flatMap (Piece.spelled spell) = s.drop skip from h 0
  induction s with
  | nil => intro skip; cases skip <;> rfl
  | cons c rest ih =>
    intro skip
    cases skip with
    | succ skip => exact ih skip
    | zero =>
      unfold coverFrom
      split
      · next found more seen =>
        simp [Piece.spelled, faithful c rest found more seen, ih more]
      · simp [Piece.spelled, ih 0]

end Recast.Text

/-
  Recast URIs — percent-decoding.

  The decoder moves a cursor over the bytes of a text.  Bytes outside escapes are passed over and
  later copied in one piece.  At a `%` it reads a group of escapes, as many as the first byte
  announces, and writes the character that they spell in UTF-8.  A group that spells a delimiter of
  the URI stays as it is written, so that decoding never adds a delimiter.

  * `Cursor`, `Move`, `step`: one move of the decoder; `pos_lt_of_step`: a move goes forward;
  * `run` moves until the decoder stops; `decode s` starts it at the first byte of `s`;
  * `DecodeError` says what is wrong and at which byte, `DecodeError.message` in words.
-/
import Recast.Text.Utf8
import Recast.Uri.Encode

namespace Recast.Uri

/-- What is wrong with a percent-encoded text, and at which byte. -/
inductive DecodeError where
  /-- a `%` without two hexadecimal digits -/
  | malformed (offset : Nat)
  /-- an escape in a group that is not UTF-8 -/
  | notUtf8 (offset : Nat)
  deriving DecidableEq, Repr

/-- The error in words. -/
def DecodeError.message : DecodeError → Text
  | .malformed offset => "malformed percent-escape at byte ".toList ++ Text.ofNat offset
  | .notUtf8 offset =>
    "percent-escape at byte ".toList ++ Text.ofNat offset ++ " is not valid UTF-8".toList

/-! ## Escapes -/

/-- The value of a hexadecimal digit of either case. -/
def hexValue? (b : UInt8) : Option Nat :=
  if 0x30 ≤ b ∧ b ≤ 0x39 then some (b.toNat - 0x30)
  else if 0x61 ≤ b ∧ b ≤ 0x66 then some (b.toNat - 0x61 + 10)
  else if 0x41 ≤ b ∧ b ≤ 0x46 then some (b.toNat - 0x41 + 10)
  else none

/-- The byte `%`. -/
def percent : UInt8 := 0x25

/-- The byte written by the two digits after position `i`. -/
def escaped? (bytes : ByteArray) (i : Nat) : Option UInt8 := do
  let high ← bytes[i + 1]?.bind hexValue?
  let low ← bytes[i + 2]?.bind hexValue?
  return UInt8.ofNat (high * 16 + low)

/-- A group of escapes: the bytes written, and the position of the last escape. -/
structure Group where
  written : List UInt8
  last : Nat
  deriving DecidableEq, Repr

/-- The position of the first escape of a group; each escape takes three bytes. -/
def Group.start (g : Group) : Nat :=
  g.last + 3 - 3 * g.written.length

/-- Reads `more` further escapes into a group. -/
def Group.extend (bytes : ByteArray) : (more : Nat) → Group → Except DecodeError Group
  | 0, g => .ok g
  | more + 1, g =>
    if bytes[g.last + 3]? = some percent then
      match escaped? bytes (g.last + 3) with
      | some b => Group.extend bytes more ⟨g.written ++ [b], g.last + 3⟩
      | none => .error (.malformed (g.last + 3))
    else .error (.notUtf8 g.last)

/-- Reads the group whose first escape is at position `i`. -/
def Group.read (bytes : ByteArray) (i : Nat) : Except DecodeError Group :=
  match escaped? bytes i with
  | none => .error (.malformed i)
  | some lead =>
    match Text.width? lead with
    | none => .error (.notUtf8 i)
    | some width => Group.extend bytes (width - 1) ⟨[lead], i⟩

/-! ## The decoder -/

/-- The place of the decoder: the bytes before `copied` are dealt with in `out`, those from `copied`
    to `pos` are to be copied. -/
structure Cursor where
  copied : Nat
  pos : Nat
  out : Array Char
  deriving DecidableEq, Repr

/-- What comes of one move. -/
inductive Move where
  | stop (result : Except DecodeError Text)
  | onward (next : Cursor)

/-- The characters in a range of bytes; none unless both ends are character boundaries. -/
def slice? (bytes : ByteArray) (first last : Nat) : Option (Array Char) :=
  (bytes.extract first last).utf8Decode?

/-- The characters in a range of bytes between character boundaries. -/
def slice (bytes : ByteArray) (first last : Nat) : Array Char :=
  (slice? bytes first last).getD #[]

/-- One move of the decoder. -/
def step (bytes : ByteArray) (c : Cursor) : Move :=
  match bytes[c.pos]? with
  | none => .stop (.ok (c.out ++ slice bytes c.copied bytes.size).toList)
  | some b =>
    if b = percent then
      let out := c.out ++ slice bytes c.copied c.pos
      match Group.read bytes c.pos with
      | .error e => .stop (.error e)
      | .ok g =>
        match Text.ofUtf8? g.written with
        | none => .stop (.error (.notUtf8 g.start))
        | some d =>
          let spelled := if isReserved d then slice bytes c.pos (c.pos + 3) else #[d]
          .onward ⟨g.last + 3, g.last + 3, out ++ spelled⟩
    else .onward { c with pos := c.pos + 1 }

theorem Group.last_le_of_extend {bytes : ByteArray} {more : Nat} {g h : Group}
    (read : Group.extend bytes more g = .ok h) : g.last ≤ h.last := by
  induction more generalizing g with
  | zero =>
    obtain rfl := Except.ok.inj read
    exact Nat.le_refl _
  | succ more ih =>
    unfold Group.extend at read
    split at read
    · split at read
      · exact Nat.le_trans (Nat.le_add_right _ 3) (ih read)
      · nomatch read
    · nomatch read

theorem Group.le_last_of_read {bytes : ByteArray} {i : Nat} {g : Group}
    (read : Group.read bytes i = .ok g) : i ≤ g.last := by
  unfold Group.read at read
  split at read
  · nomatch read
  · split at read
    · nomatch read
    · exact Group.last_le_of_extend read

/-- A move that does not stop goes forward, from inside the text. -/
theorem pos_lt_of_step {bytes : ByteArray} {c next : Cursor}
    (move : step bytes c = .onward next) : c.pos < next.pos ∧ c.pos < bytes.size := by
  unfold step at move
  split at move
  · nomatch move
  · next b here =>
    have inside : c.pos < bytes.size := by
      by_cases h : c.pos < bytes.size
      · exact h
      · simp [h] at here
    refine ⟨?_, inside⟩
    split at move
    · dsimp only at move
      split at move
      · nomatch move
      · next g read =>
        split at move
        · nomatch move
        · have := Group.le_last_of_read read
          obtain rfl := Move.onward.inj move
          dsimp only
          omega
    · obtain rfl := Move.onward.inj move
      exact Nat.lt_succ_self _

/-- Moves until the decoder stops. -/
def run (bytes : ByteArray) (c : Cursor) : Except DecodeError Text :=
  match move : step bytes c with
  | .stop result => result
  | .onward next =>
    have := pos_lt_of_step move
    run bytes next
termination_by bytes.size - c.pos

/-- The text that a percent-encoded text stands for. -/
def decode (s : Text) : Except DecodeError Text :=
  run (Text.utf8 s) ⟨0, 0, #[]⟩

end Recast.Uri

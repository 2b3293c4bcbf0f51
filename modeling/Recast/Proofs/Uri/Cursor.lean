/-
  Recast URIs — where the decoder stands.

  The decoder counts bytes, and takes ranges of bytes for text.  A range is text only if it goes
  forward and both its ends are character boundaries.

  * `IsBoundary s i`: byte `i` is at a character boundary; `range?` is a range that is checked for
    that, and `checkedStep?` a move whose ranges, group and subtraction are checked;
  * `Reaches s c`: decoding `s`, the decoder comes to the cursor `c`;
  * `Cursor.IsSafe s c`: a cursor is in bounds; `Cursor.IsSafe.checkedStep?_eq`: then no check fails;
  * `Cursor.Stands s c`: a cursor stands at the end, at a `%` or inside a character that it passes over;
    `Cursor.Stands.step`: moves keep that; `Cursor.Stands.isSafe`: such a cursor is in bounds;
  * `isSafe_of_reaches`: what that says of decoding a text.
-/
import Recast.Proofs.Uri.Fault

namespace Recast.Uri

open Text (byteSize utf8)

/-! ## Checked moves -/

/-- A place between two characters of a text, or at one of its ends. -/
def IsBoundary (s : Text) (i : Nat) : Prop :=
  ∃ before after, s = before ++ after ∧ i = byteSize before

/-- The characters in a range of bytes; none unless it goes forward between character boundaries. -/
def range? (s : Text) (first last : Nat) : Option (Array Char) :=
  match Text.charIndex? s first, Text.charIndex? s last with
  | some i, some j => if first ≤ last then some ((s.take j).drop i).toArray else none
  | _, _ => none

/-- The bytes of a group; none if they are more than a character may have. -/
def Group.bytes? (g : Group) : Option (List UInt8) :=
  if g.written.length ≤ 4 then some g.written else none

/-- The position of the first escape of a group; none if it would be before the text. -/
def Group.start? (g : Group) : Option Nat :=
  if 3 * g.written.length ≤ g.last + 3 then some g.start else none

/-- One move of the decoder; none if a range is not one of text, if a group has too many bytes or if
    its start would be before the text. -/
def checkedStep? (s : Text) (c : Cursor) : Option Move :=
  match (utf8 s)[c.pos]? with
  | none => do
    let plain ← range? s c.copied (utf8 s).size
    return .stop (.ok (c.out ++ plain).toList)
  | some b =>
    if b = percent then do
      let plain ← range? s c.copied c.pos
      match Group.read (utf8 s) c.pos with
      | .error e => return .stop (.error e)
      | .ok g =>
        let written ← g.bytes?
        let start ← g.start?
        match Text.ofUtf8? written with
        | none => return .stop (.error (.notUtf8 start))
        | some d =>
          let spelled ← if isReserved d then range? s c.pos (c.pos + 3) else some #[d]
          return .onward ⟨g.last + 3, g.last + 3, c.out ++ plain ++ spelled⟩
    else some (.onward { c with pos := c.pos + 1 })

/-- Decoding a text, the decoder comes to a cursor. -/
inductive Reaches (s : Text) : Cursor → Prop
  | start : Reaches s ⟨0, 0, #[]⟩
  | move {c next : Cursor} : Reaches s c → step (utf8 s) c = .onward next → Reaches s next

/-- The group that is read at a cursor has at most four bytes, begins at the cursor and ends inside
    the text; its first escape and the group itself end at character boundaries. -/
structure Group.IsSafe (s : Text) (pos : Nat) (g : Group) : Prop where
  length_le : g.written.length ≤ 4
  le_last : 3 * g.written.length ≤ g.last + 3
  start_eq : g.start = pos
  end_le : g.last + 3 ≤ byteSize s
  isBoundary_first : IsBoundary s (pos + 3)
  isBoundary_end : IsBoundary s (g.last + 3)

/-- A cursor in bounds.  Where a range ends at it, at a `%` or at the end of the text, it is at a
    character boundary. -/
structure Cursor.IsSafe (s : Text) (c : Cursor) : Prop where
  copied_le : c.copied ≤ c.pos
  pos_le : c.pos ≤ byteSize s
  isBoundary_copied : IsBoundary s c.copied
  isBoundary_pos : (∀ b, (utf8 s)[c.pos]? = some b → b = percent) → IsBoundary s c.pos
  group : ∀ g, (utf8 s)[c.pos]? = some percent → Group.read (utf8 s) c.pos = .ok g →
    g.IsSafe s c.pos

/-! ## Ranges -/

section
variable {s before t rest : Text} {first last : Nat}

theorem range?_append (before t rest : Text) :
    range? (before ++ (t ++ rest)) (byteSize before) (byteSize before + byteSize t) =
      some t.toArray := by
  have hfirst := Text.charIndex?_byteSize before (t ++ rest)
  have hlast := Text.charIndex?_byteSize (before ++ t) rest
  rw [List.append_assoc, Text.byteSize_append] at hlast
  have htext : ((before ++ (t ++ rest)).take (before ++ t).length).drop before.length = t := by
    rw [← List.append_assoc, List.take_left, List.drop_left]
  simp only [range?, hfirst, hlast, if_pos (Nat.le_add_right _ _), htext]

/-- Between two boundaries there is a text. -/
theorem exists_between (hfirst : IsBoundary s first) (hlast : IsBoundary s last)
    (hle : first ≤ last) : ∃ before t rest, s = before ++ (t ++ rest) ∧
      first = byteSize before ∧ last = byteSize before + byteSize t := by
  obtain ⟨before, after, rfl, rfl⟩ := hfirst
  obtain ⟨whole, rest, hwhole, rfl⟩ := hlast
  rcases List.append_eq_append_iff.1 hwhole with ⟨t, rfl, rfl⟩ | ⟨t, rfl, -⟩
  · exact ⟨before, t, rest, rfl, rfl, Text.byteSize_append _ _⟩
  · -- the second boundary is the first one, so there are no bytes between them
    rw [Text.byteSize_append] at hle
    exact ⟨whole ++ t, [], after, rfl, rfl, by rw [Text.byteSize_append, Text.byteSize_nil]; omega⟩

/-- A range between boundaries is the range that the decoder takes. -/
theorem range?_eq_slice (hfirst : IsBoundary s first) (hlast : IsBoundary s last)
    (hle : first ≤ last) : range? s first last = some (slice (utf8 s) first last) := by
  obtain ⟨before, t, rest, rfl, rfl, rfl⟩ := exists_between hfirst hlast hle
  rw [range?_append, slice_utf8]

theorem isBoundary_byteSize (before after : Text) : IsBoundary (before ++ after) (byteSize before) :=
  ⟨before, after, rfl, rfl⟩

theorem isBoundary_end (s : Text) : IsBoundary s (byteSize s) :=
  ⟨s, [], (List.append_nil s).symm, rfl⟩

end

/-! ## Safe moves -/

/-- **At a safe cursor no check fails**, and the checked move is the move of the decoder. -/
theorem Cursor.IsSafe.checkedStep?_eq {s : Text} {c : Cursor} (h : c.IsSafe s) :
    checkedStep? s c = some (step (utf8 s) c) := by
  unfold checkedStep? step
  cases hbyte : (utf8 s)[c.pos]? with
  | none =>
    have hend := range?_eq_slice h.isBoundary_copied (isBoundary_end s)
      (Nat.le_trans h.copied_le h.pos_le)
    simp only [Text.size_utf8, hend]
    rfl
  | some b =>
    dsimp only
    by_cases hb : b = percent
    · subst hb
      have hpos : IsBoundary s c.pos :=
        h.isBoundary_pos fun b hb => Option.some.inj (hb.symm.trans hbyte)
      rw [if_pos rfl, if_pos rfl, range?_eq_slice h.isBoundary_copied hpos h.copied_le]
      cases hread : Group.read (utf8 s) c.pos with
      | error e => rfl
      | ok g =>
        have hgroup := h.group g hbyte hread
        have hfirst := range?_eq_slice hpos hgroup.isBoundary_first (Nat.le_add_right _ 3)
        simp only [Group.bytes?, if_pos hgroup.length_le, Group.start?, if_pos hgroup.le_last,
          Option.bind_eq_bind, Option.bind_some, hfirst]
        cases Text.ofUtf8? g.written with
        | none => rfl
        | some d => by_cases hd : isReserved d = true <;> simp [hd]
    · rw [if_neg hb, if_neg hb]

/-! ## Where a cursor stands -/

/-- A cursor at the end of a text, at a `%` or inside a character that stands for itself. -/
inductive Cursor.Stands (s : Text) : Cursor → Prop
  | atEnd {before plain : Text} {out : Array Char} :
      s = before ++ plain → Stands s (.behind before plain out)
  | atPercent {before plain rest : Text} {out : Array Char} :
      s = before ++ (plain ++ '%' :: rest) → Stands s (.behind before plain out)
  | inside {before plain rest : Text} {d : Char} {out : Array Char} {k : Nat} :
      s = before ++ (plain ++ d :: rest) → d ≠ '%' → k < d.utf8Size →
      Stands s ⟨byteSize before, byteSize before + byteSize plain + k, out⟩

/-- A cursor between two characters stands before one of them, or at the end. -/
theorem stands_behind (before plain rest : Text) (out : Array Char) :
    (Cursor.behind before plain out).Stands (before ++ (plain ++ rest)) := by
  cases rest with
  | nil => exact .atEnd (by rw [List.append_nil])
  | cons d rest =>
    by_cases hd : d = '%'
    · subst hd
      exact .atPercent rfl
    · exact .inside (k := 0) rfl hd d.utf8Size_pos

namespace Cursor.Stands

variable {s : Text} {c next : Cursor}

/-- **Moves keep where a cursor stands.** -/
theorem step (h : c.Stands s) (move : Uri.step (utf8 s) c = .onward next) : next.Stands s := by
  cases h with
  | @atEnd before plain out hs =>
    subst hs
    have hnone : (utf8 (before ++ plain))[(Cursor.behind before plain out).pos]? = none :=
      getElem?_neg _ _ (Nat.not_lt.2 (Nat.le_of_eq (by simp [Cursor.behind])))
    exact absurd (move.symm.trans (step_of_end hnone)) (by simp)
  | @atPercent before plain rest out hs =>
    subst hs
    rcases exists_group_or_fault (byteSize before + byteSize plain) rest with
      ⟨es, d, hd, after, hafter⟩ | ⟨error, hfault⟩
    · rw [hafter, step_group es d hd] at move
      obtain rfl := Move.onward.inj move
      rw [hafter]
      simpa using stands_behind (before ++ (plain ++ (Segment.group es d hd).written)) [] after _
    · exact absurd (move.symm.trans (step_of_fault hfault)) (by simp)
  | @inside before plain rest d out k hs hd hk =>
    subst hs
    obtain ⟨b, hb, hne⟩ := @exists_byte_plain before plain rest d hd k hk
    rw [step_of_ne hb hne] at move
    obtain rfl := Move.onward.inj move
    by_cases hnext : k + 1 < d.utf8Size
    · exact .inside rfl hd hnext
    · -- the last byte of the character: behind it the cursor is between characters again
      have hlast : k + 1 = d.utf8Size := by omega
      have hbehind := stands_behind before (plain ++ [d]) rest out
      simpa [Cursor.behind, ← hlast, Nat.add_assoc] using hbehind

/-- The group that is read at a `%` is safe. -/
theorem isSafe_group {before plain rest : Text} {g : Group}
    (hread : Group.read (utf8 (before ++ (plain ++ '%' :: rest)))
      (byteSize before + byteSize plain) = .ok g) :
    g.IsSafe (before ++ (plain ++ '%' :: rest)) (byteSize before + byteSize plain) := by
  rw [← List.append_assoc, ← Text.byteSize_append] at hread ⊢
  obtain ⟨e, es, hwidth, ⟨after, hafter⟩, rfl⟩ := read_eq_ok_iff.1 hread
  rw [← hafter]
  have hfour := (Text.width?_bounds hwidth).2
  have hsize : byteSize ((e :: es).flatMap Escape.text) = 3 * es.length + 3 := by
    rw [Escape.byteSize_flatMap_text, List.length_cons]
    rfl
  -- a place behind escapes is at a boundary
  have hescapes : ∀ t u : Text, t ++ u = (e :: es).flatMap Escape.text ++ after →
      IsBoundary ((before ++ plain) ++ ((e :: es).flatMap Escape.text ++ after))
        (byteSize (before ++ plain) + byteSize t) := by
    intro t u htext
    rw [← htext, ← List.append_assoc, ← Text.byteSize_append]
    exact isBoundary_byteSize _ _
  refine ⟨by simpa using hfour, ?_, ?_, ?_, ?_, ?_⟩
  · simp only [List.length_map, List.length_cons]
    omega
  · simp only [Group.start, List.length_map, List.length_cons]
    omega
  · simp only [Text.byteSize_append, hsize]
    omega
  · simpa using hescapes e.text _ (List.append_assoc _ _ _).symm
  · have hend := hescapes _ after rfl
    rwa [hsize, ← Nat.add_assoc] at hend

/-- **Where a cursor stands so, it is safe.** -/
theorem isSafe (h : c.Stands s) : c.IsSafe s := by
  cases h with
  | @atEnd before plain out hs =>
    subst hs
    have hpos : (Cursor.behind before plain out).pos = byteSize (before ++ plain) :=
      (Text.byteSize_append _ _).symm
    refine ⟨Nat.le_add_right _ _, Nat.le_of_eq hpos, isBoundary_byteSize _ _,
      fun _ => hpos ▸ isBoundary_end _, fun g hpercent => ?_⟩
    rw [hpos, getElem?_neg _ _ (by simp)] at hpercent
    exact absurd hpercent (by simp)
  | @atPercent before plain rest out hs =>
    subst hs
    have hpos : (Cursor.behind before plain out).pos = byteSize (before ++ plain) :=
      (Text.byteSize_append _ _).symm
    have hboundary := isBoundary_byteSize (before ++ plain) ('%' :: rest)
    rw [List.append_assoc, ← hpos] at hboundary
    refine ⟨Nat.le_add_right _ _, ?_, isBoundary_byteSize _ _, fun _ => hboundary,
      fun g _ hread => isSafe_group hread⟩
    rw [hpos, ← List.append_assoc, Text.byteSize_append _ ('%' :: rest)]
    exact Nat.le_add_right _ _
  | @inside before plain rest d out k hs hd hk =>
    subst hs
    obtain ⟨b, hb, hne⟩ := @exists_byte_plain before plain rest d hd k hk
    refine ⟨?_, ?_, isBoundary_byteSize _ _, fun hpercent => absurd (hpercent b hb) hne,
      fun g hpercent => absurd (Option.some.inj (hb.symm.trans hpercent)) hne⟩
    · exact Nat.le_trans (Nat.le_add_right _ _) (Nat.le_add_right _ _)
    · simp only [Text.byteSize_append, Text.byteSize_cons]
      omega

end Cursor.Stands

/-! ## Decoding -/

theorem stands_of_reaches {s : Text} {c : Cursor} (h : Reaches s c) : c.Stands s := by
  induction h with
  | start => exact stands_behind [] [] s #[]
  | move _ hmove ih => exact ih.step hmove

/-- The decoder stops at a cursor that it comes to. -/
theorem exists_reaches_stop {s : Text} {c : Cursor} (h : Reaches s c) :
    ∃ last, Reaches s last ∧ step (utf8 s) last = .stop (run (utf8 s) c) := by
  induction hn : (utf8 s).size - c.pos using Nat.strongRecOn generalizing c with
  | ind n ih =>
    subst hn
    cases hmove : step (utf8 s) c with
    | stop result => exact ⟨c, h, by rw [hmove, run_of_stop hmove]⟩
    | onward next =>
      have hforward := pos_lt_of_step hmove
      obtain ⟨last, hlast, hstop⟩ := ih _ (by omega) (h.move hmove) rfl
      exact ⟨last, hlast, by rw [hstop, run_of_onward hmove]⟩

/-- **Decoding never leaves the text.**  Every cursor that the decoder comes to is in bounds, and at
    a character boundary where a range ends at it; a group that is read there begins at it and has
    at most four bytes.  So no range, no group and no subtraction that is checked fails, and with all
    checks the decoder gives the same result. -/
theorem isSafe_of_reaches (s : Text) :
    (∀ c, Reaches s c → c.IsSafe s ∧ checkedStep? s c = some (step (utf8 s) c)) ∧
    ∃ c, Reaches s c ∧ checkedStep? s c = some (.stop (decode s)) := by
  have hsafe : ∀ c, Reaches s c → c.IsSafe s := fun c h => (stands_of_reaches h).isSafe
  obtain ⟨last, hlast, hstop⟩ := exists_reaches_stop (Reaches.start (s := s))
  refine ⟨fun c h => ⟨hsafe c h, (hsafe c h).checkedStep?_eq⟩, last, hlast, ?_⟩
  rw [(hsafe last hlast).checkedStep?_eq, hstop]
  rfl

end Recast.Uri

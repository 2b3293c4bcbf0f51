/-
  Recast URIs — what is refused, and where.

  A text that is not decoded has a first place where no segment is written.  There an escape lacks its
  digits, or a group of escapes is not UTF-8.

  * `IsOpen`, `IsCut`, `IsIllFormed`: groups of escapes that are not complete, that end too early, and
    that are complete but not UTF-8;
  * `Fault start rest error`: what is wrong at the beginning of a text, and the error that says so;
  * `exists_segments_or_fault`: a text is written in segments, or in segments and then a fault;
  * `decode_eq_error_iff`: a text is refused for the fault behind what can be decoded;
  * `decode_eq_notUtf8_iff`: the offset of a group that is not UTF-8.  It is the start of the group,
    but for a group that ends too early, where it is that of the last escape
    (`decode_eq_notUtf8_cut`).
-/
import Recast.Proofs.Uri.RoundTrip

namespace Recast.Uri

open Text (byteSize utf8)

/-! ## Faults -/

/-- A text begins with an escape. -/
def BeginsEscape (s : Text) : Prop :=
  ∃ e : Escape, e.text <+: s

/-- Escapes to which a group is not complete: there is none yet, or the first announces more. -/
def IsOpen : List Escape → Prop
  | [] => True
  | e :: es => ∃ width, Text.width? e.byte = some width ∧ es.length + 1 < width

/-- A group of escapes that ends too early: no other one follows. -/
def IsCut (es : List Escape) (rest : Text) : Prop :=
  es ≠ [] ∧ IsOpen es ∧ rest.head? ≠ some '%'

/-- A complete group of escapes that is not UTF-8.  A byte that announces nothing is a group by
    itself. -/
def IsIllFormed : List Escape → Prop
  | [] => False
  | e :: es => (Text.width? e.byte).getD 1 = es.length + 1 ∧
      Text.ofUtf8? ((e :: es).map Escape.byte) = none

/-- What is wrong at the beginning of a text, behind `start` bytes. -/
inductive Fault (start : Nat) : Text → DecodeError → Prop
  /-- a `%` without digits, at the beginning or in a group that it should complete -/
  | malformed {es : List Escape} {rest : Text} : IsOpen es → ¬ BeginsEscape ('%' :: rest) →
      Fault start (es.flatMap Escape.text ++ '%' :: rest) (.malformed (start + 3 * es.length))
  /-- a group that ends too early; the offset is that of its last escape -/
  | cut {es : List Escape} {rest : Text} : IsCut es rest →
      Fault start (es.flatMap Escape.text ++ rest) (.notUtf8 (start + 3 * (es.length - 1)))
  /-- a complete group that is not UTF-8 -/
  | illFormed {es : List Escape} {rest : Text} : IsIllFormed es →
      Fault start (es.flatMap Escape.text ++ rest) (.notUtf8 start)

theorem Fault.exists_eq_cons {start : Nat} {s : Text} {error : DecodeError}
    (h : Fault start s error) : ∃ rest, s = '%' :: rest := by
  have hescapes : ∀ (es : List Escape) (rest : Text), es ≠ [] →
      ∃ more, es.flatMap Escape.text ++ rest = '%' :: more := by
    intro es rest hne
    obtain ⟨e, es, rfl⟩ := List.exists_cons_of_ne_nil hne
    exact ⟨_, rfl⟩
  cases h with
  | @malformed es rest =>
    cases es with
    | nil => exact ⟨rest, rfl⟩
    | cons e es => exact ⟨_, rfl⟩
  | cut hcut => exact hescapes _ _ hcut.1
  | illFormed hform => exact hescapes _ _ (by rintro rfl; exact hform)

/-! ## Segments, or a fault -/

/-- Up to so many escapes, as long as there are any. -/
theorem exists_escapes (more : Nat) (s : Text) :
    ∃ (es : List Escape) (rest : Text), s = es.flatMap Escape.text ++ rest ∧
      (es.length = more ∨ es.length < more ∧ ¬ BeginsEscape rest) := by
  induction more generalizing s with
  | zero => exact ⟨[], s, rfl, .inl rfl⟩
  | succ more ih =>
    by_cases h : BeginsEscape s
    · obtain ⟨e, rest, rfl⟩ := h
      obtain ⟨es, after, rfl, hend⟩ := ih rest
      refine ⟨e :: es, after, by rw [List.flatMap_cons, List.append_assoc], ?_⟩
      rw [List.length_cons]
      exact hend.imp (congrArg (· + 1)) fun ⟨hlt, hnot⟩ => ⟨Nat.succ_lt_succ hlt, hnot⟩
    · exact ⟨[], s, rfl, .inr ⟨Nat.succ_pos _, h⟩⟩

/-- **A `%` begins a segment or a fault.** -/
theorem exists_group_or_fault (start : Nat) (rest : Text) :
    (∃ es c, ∃ h : es.map Escape.byte = String.utf8EncodeChar c, ∃ after,
      '%' :: rest = (Segment.group es c h).written ++ after) ∨
    ∃ error, Fault start ('%' :: rest) error := by
  by_cases hbegins : BeginsEscape ('%' :: rest)
  · obtain ⟨e, after, hafter⟩ := hbegins
    obtain ⟨es, after, rfl, hend⟩ := exists_escapes ((Text.width? e.byte).getD 1 - 1) after
    have hwritten : '%' :: rest = (e :: es).flatMap Escape.text ++ after := by
      rw [List.flatMap_cons, List.append_assoc, hafter]
    have hpos : 0 < (Text.width? e.byte).getD 1 := by
      cases hwidth : Text.width? e.byte with
      | none => exact Nat.one_pos
      | some width => exact (Text.width?_bounds hwidth).1
    rcases hend with hcomplete | ⟨hlt, hnot⟩
    · cases hchar : Text.ofUtf8? ((e :: es).map Escape.byte) with
      | some c => exact .inl ⟨e :: es, c, Text.ofUtf8?_eq_some_iff.1 hchar, after, hwritten⟩
      | none =>
        rw [hwritten]
        exact .inr ⟨_, .illFormed ⟨by omega, hchar⟩⟩
    · -- a group that waits for more escapes: either the next has no digits or there is none
      have hopen : IsOpen (e :: es) := by
        cases hwidth : Text.width? e.byte with
        | none => simp [hwidth] at hlt
        | some width =>
          rw [hwidth, Option.getD_some] at hlt
          exact ⟨width, hwidth, by omega⟩
      rw [hwritten]
      by_cases hpercent : after.head? = some '%'
      · obtain ⟨more, rfl⟩ := List.head?_eq_some_iff.1 hpercent
        exact .inr ⟨_, .malformed hopen hnot⟩
      · exact .inr ⟨_, .cut ⟨List.cons_ne_nil _ _, hopen, hpercent⟩⟩
  · exact .inr ⟨_, @Fault.malformed start [] rest trivial hbegins⟩

/-- **A text is written in segments, or in segments and then a fault.** -/
theorem exists_segments_or_fault (s : Text) :
    (∃ segments : List Segment, segments.flatMap Segment.written = s) ∨
    ∃ (segments : List Segment) (rest : Text) (error : DecodeError),
      s = segments.flatMap Segment.written ++ rest ∧
      Fault (byteSize (segments.flatMap Segment.written)) rest error := by
  suffices h : ∀ start : Nat, (∃ segments : List Segment, segments.flatMap Segment.written = s) ∨
      ∃ (segments : List Segment) (rest : Text) (error : DecodeError),
        s = segments.flatMap Segment.written ++ rest ∧
        Fault (start + byteSize (segments.flatMap Segment.written)) rest error by
    simpa only [Nat.zero_add] using h 0
  induction hn : s.length using Nat.strongRecOn generalizing s with
  | ind n ih =>
    subst hn
    intro start
    -- behind a first segment, the rest is shorter
    have hbehind : ∀ (segment : Segment) (rest : Text), s = segment.written ++ rest →
        (∃ segments : List Segment, segments.flatMap Segment.written = s) ∨
        ∃ (segments : List Segment) (rest : Text) (error : DecodeError),
          s = segments.flatMap Segment.written ++ rest ∧
          Fault (start + byteSize (segments.flatMap Segment.written)) rest error := by
      rintro segment rest rfl
      have hpos := segment.length_written_pos
      rcases ih rest.length (by rw [List.length_append]; omega) rest rfl
        (start + byteSize segment.written) with ⟨segments, rfl⟩ | ⟨segments, rest, error, rfl, hfault⟩
      · exact .inl ⟨segment :: segments, rfl⟩
      · refine .inr ⟨segment :: segments, rest, error, ?_, ?_⟩
        · rw [List.flatMap_cons, List.append_assoc]
        · rw [List.flatMap_cons, Text.byteSize_append, ← Nat.add_assoc]
          exact hfault
    cases s with
    | nil => exact .inl ⟨[], rfl⟩
    | cons c rest =>
      by_cases hc : c = '%'
      · subst hc
        rcases exists_group_or_fault start rest with ⟨es, d, hd, after, hafter⟩ | ⟨error, hfault⟩
        · exact hbehind (.group es d hd) after hafter
        · exact .inr ⟨[], _, error, rfl, hfault⟩
      · exact hbehind (.plain c hc) rest rfl

/-! ## Reading a fault -/

section
variable {more last : Nat} {s rest : Text} {written : List UInt8}

theorem escaped?_eq_none (h : ¬ BeginsEscape ('%' :: rest)) :
    escaped? (utf8 (s ++ '%' :: rest)) (byteSize s) = none := by
  refine Option.eq_none_iff_forall_ne_some.2 fun b hb => h ?_
  obtain ⟨e, -, hprefix⟩ := escaped?_eq_some_iff.1 hb
  exact ⟨e, hprefix⟩

/-- Escapes are read where they are written. -/
theorem extend_append (hlast : byteSize s = last + 3) (es : List Escape) :
    Group.extend (utf8 (s ++ (es.flatMap Escape.text ++ rest))) (es.length + more)
        ⟨written, last⟩ =
      Group.extend (utf8 ((s ++ es.flatMap Escape.text) ++ rest)) more
        ⟨written ++ es.map Escape.byte, last + 3 * es.length⟩ := by
  induction es generalizing s written last with
  | nil => simp
  | cons e es ih =>
    have hplace : byteSize (s ++ e.text) = last + 3 + 3 := by
      rw [Text.byteSize_append, hlast, Escape.byteSize_text]
    rw [List.length_cons, Nat.succ_add, List.flatMap_cons, List.append_assoc e.text,
      extend_succ hlast, ih hplace, List.map_cons]
    simp only [List.append_assoc, List.cons_append, List.nil_append]
    congr 2
    omega

theorem extend_malformed (hlast : byteSize s = last + 3) (h : ¬ BeginsEscape ('%' :: rest)) :
    Group.extend (utf8 (s ++ '%' :: rest)) (more + 1) ⟨written, last⟩ =
      .error (.malformed (last + 3)) := by
  rw [Group.extend, ← hlast, if_pos (getElem?_utf8_eq_percent_iff.2 ⟨rest, rfl⟩),
    escaped?_eq_none h]

theorem extend_cut (hlast : byteSize s = last + 3) (h : rest.head? ≠ some '%') :
    Group.extend (utf8 (s ++ rest)) (more + 1) ⟨written, last⟩ = .error (.notUtf8 last) := by
  have hnone : (utf8 (s ++ rest))[byteSize s]? ≠ some percent := by
    intro hpercent
    obtain ⟨after, rfl⟩ := getElem?_utf8_eq_percent_iff.1 hpercent
    exact h rfl
  rw [Group.extend, ← hlast, if_neg hnone]

theorem read_eq_of_width? (e : Escape) :
    Group.read (utf8 (s ++ (e.text ++ rest))) (byteSize s) =
      match Text.width? e.byte with
      | none => .error (.notUtf8 (byteSize s))
      | some width =>
        Group.extend (utf8 ((s ++ e.text) ++ rest)) (width - 1) ⟨[e.byte], byteSize s⟩ := by
  have hbyte : escaped? (utf8 (s ++ (e.text ++ rest))) (byteSize s) = some e.byte :=
    escaped?_eq_some_iff.2 ⟨e, rfl, List.prefix_append _ _⟩
  cases hwidth : Text.width? e.byte <;>
    simp only [Group.read, hbyte, hwidth, List.append_assoc]

/-- The escapes of a group that is not complete are read, and at least one more is asked for. -/
theorem exists_read_of_isOpen {e : Escape} {es : List Escape} (h : IsOpen (e :: es)) :
    ∃ more, Group.read (utf8 (s ++ ((e :: es).flatMap Escape.text ++ rest))) (byteSize s) =
      Group.extend (utf8 ((s ++ (e :: es).flatMap Escape.text) ++ rest)) (more + 1)
        ⟨(e :: es).map Escape.byte, byteSize s + 3 * es.length⟩ := by
  obtain ⟨width, hwidth, hlt⟩ := h
  refine ⟨width - es.length - 2, ?_⟩
  rw [List.flatMap_cons, List.append_assoc, read_eq_of_width?, hwidth]
  dsimp only
  rw [show width - 1 = es.length + (width - es.length - 2 + 1) by omega, extend_append (by simp),
    List.append_assoc s]
  rfl

/-- **A fault stops the decoder**, with its error. -/
theorem step_of_fault {before plain : Text} {out : Array Char} {error : DecodeError}
    (h : Fault (byteSize before + byteSize plain) rest error) :
    step (utf8 (before ++ (plain ++ rest))) (.behind before plain out) = .stop (.error error) := by
  have hpercent : (utf8 (before ++ (plain ++ rest)))[(Cursor.behind before plain out).pos]? =
      some percent := by
    obtain ⟨after, rfl⟩ := h.exists_eq_cons
    exact getElem?_behind
  have hlast : ∀ (e : Escape) (es : List Escape),
      byteSize ((before ++ plain) ++ (e :: es).flatMap Escape.text) =
        byteSize (before ++ plain) + 3 * es.length + 3 := by
    intro e es
    rw [Text.byteSize_append, Escape.byteSize_flatMap_text, List.length_cons]
    omega
  have hpos : (Cursor.behind before plain out).pos = byteSize (before ++ plain) := by
    simp [Cursor.behind]
  rw [← Text.byteSize_append] at h
  rw [← List.append_assoc] at hpercent ⊢
  cases h with
  | @malformed es rest hopen hrest =>
    refine step_of_read_error hpercent ?_
    rw [hpos]
    cases es with
    | nil =>
      rw [List.flatMap_nil, List.nil_append, Group.read, escaped?_eq_none hrest]
      rfl
    | cons e es =>
      obtain ⟨more, hread⟩ := @exists_read_of_isOpen (before ++ plain) ('%' :: rest) e es hopen
      rw [hread, extend_malformed (hlast e es) hrest, List.length_cons, Nat.mul_succ,
        ← Nat.add_assoc]
  | @cut es rest hcut =>
    refine step_of_read_error hpercent ?_
    obtain ⟨hne, hopen, hrest⟩ := hcut
    obtain ⟨e, es, rfl⟩ := List.exists_cons_of_ne_nil hne
    obtain ⟨more, hread⟩ := @exists_read_of_isOpen (before ++ plain) rest e es hopen
    rw [hpos, hread, extend_cut (hlast e es) hrest]
    rfl
  | @illFormed es rest hform =>
    cases es with
    | nil => exact absurd hform id
    | cons e es =>
      obtain ⟨hlength, hchar⟩ := hform
      cases hwidth : Text.width? e.byte with
      | none =>
        refine step_of_read_error hpercent ?_
        rw [hpos, List.flatMap_cons, List.append_assoc e.text, read_eq_of_width?, hwidth]
      | some width =>
        rw [hwidth, Option.getD_some] at hlength
        subst hlength
        have hread : Group.read (utf8 ((before ++ plain) ++ ((e :: es).flatMap Escape.text ++ rest)))
            (byteSize (before ++ plain)) =
              .ok ⟨(e :: es).map Escape.byte, byteSize (before ++ plain) + 3 * es.length⟩ :=
          read_eq_ok_iff.2 ⟨e, es, hwidth, List.prefix_append _ _, rfl⟩
        rw [← hpos] at hread
        rw [step_of_ofUtf8?_eq_none hpercent hread hchar, Group.start, hpos]
        congr 3
        simp only [List.length_map, List.length_cons]
        omega

end

/-! ## Decoding -/

theorem decode_written_append {segments : List Segment} {rest : Text} {error : DecodeError}
    (h : Fault (byteSize (segments.flatMap Segment.written)) rest error) :
    decode (segments.flatMap Segment.written ++ rest) = .error error := by
  obtain ⟨before, plain, out, hplace, -, hrun⟩ := exists_run_written segments [] [] rest #[]
  have hbehind : segments.flatMap Segment.written = before ++ plain := by simpa using hplace.symm
  rw [hbehind, Text.byteSize_append] at h
  exact hrun.trans (run_of_stop (step_of_fault h))

/-- **What is refused.**  A text is refused with an error if and only if some of it can be decoded and
    behind that is the fault that the error names. -/
theorem decode_eq_error_iff {s : Text} {error : DecodeError} :
    decode s = .error error ↔ ∃ before rest v, s = before ++ rest ∧ decode before = .ok v ∧
      Fault (byteSize before) rest error := by
  constructor
  · intro h
    rcases exists_segments_or_fault s with ⟨segments, rfl⟩ | ⟨segments, rest, other, rfl, hfault⟩
    · rw [decode_written] at h
      exact absurd h (by simp)
    · obtain rfl := Except.error.inj ((decode_written_append hfault).symm.trans h)
      exact ⟨_, rest, _, rfl, decode_written segments, hfault⟩
  · rintro ⟨before, rest, v, rfl, hbefore, hfault⟩
    obtain ⟨segments, rfl⟩ := exists_segments_of_decode hbefore
    exact decode_written_append hfault

/-- **Where a text is not UTF-8.**  A text is refused for that if and only if a part of it can be
    decoded and behind that is a group of escapes which is not UTF-8.  If the group is complete, the
    offset is that of its first escape; if it ends too early, that of its last one. -/
theorem decode_eq_notUtf8_iff (s : Text) (offset : Nat) :
    decode s = .error (.notUtf8 offset) ↔ ∃ before es rest v,
      s = before ++ (es.flatMap Escape.text ++ rest) ∧ decode before = .ok v ∧
      (IsIllFormed es ∧ offset = byteSize before ∨
        IsCut es rest ∧ offset = byteSize before + 3 * (es.length - 1)) := by
  rw [decode_eq_error_iff]
  constructor
  · rintro ⟨before, rest, v, rfl, hbefore, hfault⟩
    cases hfault with
    | @cut es rest hcut => exact ⟨before, es, rest, v, rfl, hbefore, .inr ⟨hcut, rfl⟩⟩
    | @illFormed es rest hform => exact ⟨before, es, rest, v, rfl, hbefore, .inl ⟨hform, rfl⟩⟩
  · rintro ⟨before, es, rest, v, rfl, hbefore, ⟨hform, rfl⟩ | ⟨hcut, rfl⟩⟩
    · exact ⟨before, _, v, rfl, hbefore, .illFormed hform⟩
    · exact ⟨before, _, v, rfl, hbefore, .cut hcut⟩

/-- Of a group of three escapes that ends behind the second, the offset is not the start, and what is
    before the offset cannot be decoded. -/
theorem decode_eq_notUtf8_cut :
    decode "%E2%82".toList = .error (.notUtf8 3) ∧ byteSize "%E2".toList = 3 ∧
      "%E2".toList <+: "%E2%82".toList ∧ decode "%E2".toList = .error (.notUtf8 0) := by
  have hnothing : decode [] = .ok [] := decode_written []
  have hcut : ∀ es : List Escape, IsCut es [] →
      decode (es.flatMap Escape.text) = .error (.notUtf8 (3 * (es.length - 1))) := by
    intro es hes
    refine decode_eq_error_iff.2 ⟨[], _, [], rfl, hnothing, ?_⟩
    have hfault := @Fault.cut 0 es [] hes
    rwa [List.append_nil, Nat.zero_add] at hfault
  have hopen : Text.width? (Escape.ofByte 0xE2).byte = some 3 := rfl
  refine ⟨hcut [.ofByte 0xE2, .ofByte 0x82] ?_, rfl, by decide, hcut [.ofByte 0xE2] ?_⟩
  · exact ⟨List.cons_ne_nil _ _, ⟨3, hopen, by decide⟩, by decide⟩
  · exact ⟨List.cons_ne_nil _ _, ⟨3, hopen, by decide⟩, by decide⟩

end Recast.Uri

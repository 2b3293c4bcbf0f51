/-
  Recast URIs — what is decoded, and to what.

  A text is decoded if it can be cut into segments: characters other than `%`, and groups of escapes
  that write the UTF-8 form of one character.

  * `Segment`, with the characters `written` for it and its `value`;
  * `Cursor.behind` is the place of the decoder between two characters; `run_plain`, `step_group`: it
    moves over a segment; `exists_group_or_error`: at a `%` there is a group, or the decoder stops;
  * `exists_run_written`, `run_written`: a run goes over segments, and so to the end;
    `exists_segments_of_run`: there is no other way for it to succeed;
  * `decode_eq_ok_iff_segments`: the texts that are decoded, and their values.
-/
import Mathlib.Tactic.SplitIfs
import Recast.Proofs.Uri.Escape

namespace Recast.Uri

open Text (byteSize utf8)

/-- A part of an encoded text. -/
inductive Segment where
  /-- a character that stands for itself -/
  | plain (c : Char) (h : c ≠ '%')
  /-- escapes whose bytes are the UTF-8 form of a character -/
  | group (es : List Escape) (c : Char) (h : es.map Escape.byte = String.utf8EncodeChar c)

namespace Segment

/-- The characters of a segment. -/
def written : Segment → Text
  | plain c _ => [c]
  | group es _ _ => es.flatMap Escape.text

/-- What a segment is decoded to.  An escape of a delimiter stays as it is written. -/
def value : Segment → Text
  | plain c _ => [c]
  | group es c _ => if isReserved c then es.flatMap Escape.text else [c]

theorem length_of_map_byte {es : List Escape} {c : Char}
    (h : es.map Escape.byte = String.utf8EncodeChar c) : es.length = c.utf8Size := by
  rw [← String.length_utf8EncodeChar, ← h, List.length_map]

theorem length_written_pos (segment : Segment) : 0 < segment.written.length := by
  cases segment with
  | plain c h => exact Nat.one_pos
  | group es c h =>
    cases es with
    | nil => exact absurd (length_of_map_byte h) (Nat.ne_of_lt c.utf8Size_pos)
    | cons e es => exact Nat.succ_pos _

end Segment

/-! ## Moves -/

section
variable {bytes : ByteArray} {c next : Cursor}

theorem run_of_stop {result : Except DecodeError Text} (h : step bytes c = .stop result) :
    run bytes c = result := by
  rw [run]
  split
  · next other hmove => exact Move.stop.inj (hmove.symm.trans h)
  · next other hmove => exact absurd (hmove.symm.trans h) (by simp)

theorem run_of_onward (h : step bytes c = .onward next) : run bytes c = run bytes next := by
  rw [run]
  split
  · next other hmove => exact absurd (hmove.symm.trans h) (by simp)
  · next other hmove => exact congrArg (run bytes) (Move.onward.inj (hmove.symm.trans h))

theorem step_of_end (h : bytes[c.pos]? = none) :
    step bytes c = .stop (.ok (c.out ++ slice bytes c.copied bytes.size).toList) := by
  rw [step, h]

theorem step_of_ne {b : UInt8} (h : bytes[c.pos]? = some b) (hne : b ≠ percent) :
    step bytes c = .onward { c with pos := c.pos + 1 } := by
  rw [step, h]
  dsimp only
  rw [if_neg hne]

theorem step_of_read_error (h : bytes[c.pos]? = some percent) {e : DecodeError}
    (hread : Group.read bytes c.pos = .error e) : step bytes c = .stop (.error e) := by
  rw [step, h]
  dsimp only
  rw [if_pos rfl, hread]

theorem step_of_ofUtf8?_eq_none (h : bytes[c.pos]? = some percent) {g : Group}
    (hread : Group.read bytes c.pos = .ok g) (hchar : Text.ofUtf8? g.written = none) :
    step bytes c = .stop (.error (.notUtf8 g.start)) := by
  rw [step, h]
  dsimp only
  rw [if_pos rfl, hread]
  dsimp only
  rw [hchar]

theorem step_of_ofUtf8?_eq_some (h : bytes[c.pos]? = some percent) {g : Group}
    (hread : Group.read bytes c.pos = .ok g) {d : Char}
    (hchar : Text.ofUtf8? g.written = some d) :
    step bytes c = .onward ⟨g.last + 3, g.last + 3, c.out ++ slice bytes c.copied c.pos ++
      if isReserved d then slice bytes c.pos (c.pos + 3) else #[d]⟩ := by
  rw [step, h]
  dsimp only
  rw [if_pos rfl, hread]
  dsimp only
  rw [hchar]

theorem run_skip (n : Nat) (h : ∀ i < n, ∃ b, bytes[c.pos + i]? = some b ∧ b ≠ percent) :
    run bytes c = run bytes { c with pos := c.pos + n } := by
  induction n with
  | zero => rfl
  | succ n ih =>
    rw [ih fun i hi => h i (Nat.lt_succ_of_lt hi)]
    obtain ⟨b, hb, hne⟩ := h n (Nat.lt_succ_self n)
    exact run_of_onward (step_of_ne hb hne)

end

/-! ## Places between characters -/

theorem slice_utf8 (s t rest : Text) :
    slice (utf8 (s ++ (t ++ rest))) (byteSize s) (byteSize s + byteSize t) = t.toArray := by
  rw [slice, slice?, Text.extract_utf8, Text.utf8_eq_utf8Encode, List.utf8Decode?_utf8Encode]
  rfl

/-- The cursor behind `before` and `plain`, if `before` is decoded to `out`. -/
def Cursor.behind (before plain : Text) (out : Array Char) : Cursor :=
  ⟨byteSize before, byteSize before + byteSize plain, out⟩

theorem percent_notMem_utf8EncodeChar {c : Char} (h : c ≠ '%') :
    percent ∉ String.utf8EncodeChar c := by
  intro hmem
  have hform : String.utf8EncodeChar c = [percent] :=
    Text.utf8EncodeChar_eq_of_mem hmem (by decide)
  have hpercent : String.utf8EncodeChar '%' = [percent] := by decide
  exact h (Text.utf8EncodeChar_injective (hform.trans hpercent.symm))

section
variable {before plain rest : Text} {out : Array Char}

theorem run_end :
    run (utf8 (before ++ plain)) (.behind before plain out) = .ok (out.toList ++ plain) := by
  have hsize : (utf8 (before ++ plain)).size = byteSize before + byteSize plain := by simp
  have hslice := slice_utf8 before plain []
  rw [List.append_nil, ← hsize] at hslice
  rw [run_of_stop (step_of_end (getElem?_neg _ _ (Nat.not_lt.2 (Nat.le_of_eq hsize)))),
    Cursor.behind]
  dsimp only
  rw [hslice, Array.toList_append]

/-- No byte of a character that stands for itself is a `%`. -/
theorem exists_byte_plain {c : Char} (h : c ≠ '%') {i : Nat} (hi : i < c.utf8Size) :
    ∃ b, (utf8 (before ++ (plain ++ c :: rest)))[byteSize before + byteSize plain + i]? = some b ∧
      b ≠ percent := by
  have hi' : i < (String.utf8EncodeChar c).length := by rwa [String.length_utf8EncodeChar]
  refine ⟨(String.utf8EncodeChar c)[i], ?_, ?_⟩
  · have hplace := Text.getElem?_utf8_append (before ++ plain) (c :: rest) i
    rw [List.append_assoc, Text.byteSize_append] at hplace
    rw [hplace, Text.getElem?_utf8, List.flatMap_cons, List.getElem?_append_left hi',
      List.getElem?_eq_getElem hi']
  · intro heq
    exact percent_notMem_utf8EncodeChar h (heq ▸ List.getElem_mem hi')

theorem run_plain {c : Char} (h : c ≠ '%') :
    run (utf8 (before ++ (plain ++ c :: rest))) (.behind before plain out) =
      run (utf8 (before ++ (plain ++ c :: rest))) (.behind before (plain ++ [c]) out) := by
  rw [run_skip c.utf8Size fun i hi => exists_byte_plain h hi]
  simp [Cursor.behind, Nat.add_assoc]

theorem getElem?_behind :
    (utf8 (before ++ (plain ++ '%' :: rest)))[(Cursor.behind before plain out).pos]? =
      some percent := by
  rw [← List.append_assoc, Cursor.behind, ← Text.byteSize_append]
  exact getElem?_utf8_eq_percent_iff.2 ⟨rest, rfl⟩

theorem utf8Size_of_isReserved {c : Char} (h : isReserved c = true) : c.utf8Size = 1 := by
  have hc : c ∈ [';', '/', '?', ':', '@', '&', '=', '+', '$', ',', '#'] := List.contains_iff_mem.1 h
  simp only [List.mem_cons, List.not_mem_nil, or_false] at hc
  rcases hc with rfl | rfl | rfl | rfl | rfl | rfl | rfl | rfl | rfl | rfl | rfl <;> rfl

/-- **The decoder moves over a group**, and writes its value. -/
theorem step_group (es : List Escape) (c : Char)
    (h : es.map Escape.byte = String.utf8EncodeChar c) :
    step (utf8 (before ++ (plain ++ ((Segment.group es c h).written ++ rest))))
        (.behind before plain out) =
      .onward (.behind (before ++ (plain ++ (Segment.group es c h).written)) []
        (out ++ plain.toArray ++ (Segment.group es c h).value.toArray)) := by
  cases es with
  | nil => exact absurd (Segment.length_written_pos (.group [] c h)) (Nat.lt_irrefl _)
  | cons e es =>
    have hwidth := Text.width?_of_utf8EncodeChar h.symm
    rw [List.length_map] at hwidth
    have hpos : byteSize before + byteSize plain + 3 * es.length + 3 =
        byteSize (before ++ (plain ++ (Segment.group (e :: es) c h).written)) := by
      simp only [Text.byteSize_append, Segment.written, Escape.byteSize_flatMap_text,
        List.length_cons]
      omega
    generalize hs : before ++ (plain ++ ((Segment.group (e :: es) c h).written ++ rest)) = s
    have hpercent : (utf8 s)[(Cursor.behind before plain out).pos]? = some percent := by
      rw [← hs]
      exact getElem?_behind
    have hread : Group.read (utf8 s) (byteSize before + byteSize plain) =
        .ok ⟨(e :: es).map Escape.byte, byteSize before + byteSize plain + 3 * es.length⟩ := by
      rw [← hs, ← List.append_assoc, ← Text.byteSize_append]
      exact read_eq_ok_iff.2 ⟨e, es, hwidth, List.prefix_append _ _, rfl⟩
    have hcopied : slice (utf8 s) (byteSize before) (byteSize before + byteSize plain) =
        plain.toArray := by
      rw [← hs, slice_utf8]
    have hspelled : (if isReserved c then slice (utf8 s) (byteSize before + byteSize plain)
          (byteSize before + byteSize plain + 3) else #[c]) =
        (Segment.group (e :: es) c h).value.toArray := by
      rw [Segment.value]
      split_ifs with hc
      · -- a delimiter is one byte, so one escape writes it
        have hsize : byteSize ((e :: es).flatMap Escape.text) = 3 := by
          rw [Escape.byteSize_flatMap_text, Segment.length_of_map_byte h,
            utf8Size_of_isReserved hc]
        rw [← hs, ← List.append_assoc, ← Text.byteSize_append, ← hsize]
        exact slice_utf8 _ _ _
      · rfl
    rw [step_of_ofUtf8?_eq_some hpercent hread (Text.ofUtf8?_eq_some_iff.2 h), Cursor.behind,
      Cursor.behind]
    dsimp only
    rw [hcopied, hspelled, hpos]
    rfl

/-- At a `%` there is a group, or the decoder stops with an error. -/
theorem exists_group_or_error :
    (∃ es c, ∃ h : es.map Escape.byte = String.utf8EncodeChar c, ∃ after,
      '%' :: rest = (Segment.group es c h).written ++ after) ∨
    ∃ e, run (utf8 (before ++ (plain ++ '%' :: rest))) (.behind before plain out) =
      .error e := by
  cases hread : Group.read (utf8 (before ++ (plain ++ '%' :: rest)))
      (Cursor.behind before plain out).pos with
  | error e => exact .inr ⟨e, run_of_stop (step_of_read_error getElem?_behind hread)⟩
  | ok g =>
    cases hchar : Text.ofUtf8? g.written with
    | none => exact .inr ⟨_, run_of_stop (step_of_ofUtf8?_eq_none getElem?_behind hread hchar)⟩
    | some d =>
      left
      rw [← List.append_assoc, Cursor.behind, ← Text.byteSize_append] at hread
      obtain ⟨e, es, -, ⟨after, hafter⟩, rfl⟩ := read_eq_ok_iff.1 hread
      exact ⟨e :: es, d, Text.ofUtf8?_eq_some_iff.1 hchar, after, hafter.symm⟩

/-! ## Runs -/

/-- Over segments, a run comes to the place behind them, and has their values. -/
theorem exists_run_written (segments : List Segment) (before plain rest : Text)
    (out : Array Char) : ∃ (before' plain' : Text) (out' : Array Char),
      before' ++ plain' = before ++ (plain ++ segments.flatMap Segment.written) ∧
      out'.toList ++ plain' = out.toList ++ plain ++ segments.flatMap Segment.value ∧
      run (utf8 (before ++ (plain ++ (segments.flatMap Segment.written ++ rest))))
          (.behind before plain out) =
        run (utf8 (before' ++ (plain' ++ rest))) (.behind before' plain' out') := by
  induction segments generalizing before plain out with
  | nil => exact ⟨before, plain, out, by simp, by simp, rfl⟩
  | cons segment segments ih =>
    rw [List.flatMap_cons, List.flatMap_cons, List.append_assoc segment.written]
    cases segment with
    | plain c h =>
      obtain ⟨before', plain', out', hplace, hvalue, hrun⟩ := ih before (plain ++ [c]) out
      refine ⟨before', plain', out', by simpa [Segment.written] using hplace,
        by simpa [Segment.value] using hvalue, ?_⟩
      rw [List.append_assoc plain] at hrun
      change run (utf8 (before ++ (plain ++ c :: (segments.flatMap Segment.written ++ rest)))) _ = _
      rw [run_plain h]
      exact hrun
    | group es c h =>
      obtain ⟨before', plain', out', hplace, hvalue, hrun⟩ :=
        ih (before ++ (plain ++ (Segment.group es c h).written)) []
          (out ++ plain.toArray ++ (Segment.group es c h).value.toArray)
      refine ⟨before', plain', out', by simpa using hplace, by simpa using hvalue, ?_⟩
      rw [run_of_onward (step_group es c h)]
      simp only [List.nil_append, List.append_assoc] at hrun
      exact hrun

/-- **A run goes over segments to the end**, and makes their values. -/
theorem run_written (segments : List Segment) (before plain : Text) (out : Array Char) :
    run (utf8 (before ++ (plain ++ segments.flatMap Segment.written)))
        (.behind before plain out) =
      .ok (out.toList ++ plain ++ segments.flatMap Segment.value) := by
  obtain ⟨before', plain', out', -, hvalue, hrun⟩ :=
    exists_run_written segments before plain [] out
  rw [List.append_nil, List.append_nil] at hrun
  rw [hrun, run_end, hvalue]

/-- **Only a text of segments is run over to the end.** -/
theorem exists_segments_of_run {v : Text}
    (h : run (utf8 (before ++ (plain ++ rest))) (.behind before plain out) = .ok v) :
    ∃ segments : List Segment, segments.flatMap Segment.written = rest := by
  induction hn : rest.length using Nat.strongRecOn generalizing before plain rest out with
  | ind n ih =>
    subst hn
    cases rest with
    | nil => exact ⟨[], rfl⟩
    | cons c rest =>
      by_cases hc : c = '%'
      · subst hc
        rcases @exists_group_or_error before plain rest out with
          ⟨es, d, hd, after, hafter⟩ | ⟨e, he⟩
        · have hlength := congrArg List.length hafter
          rw [List.length_append] at hlength
          have hpos := (Segment.group es d hd).length_written_pos
          rw [hafter, run_of_onward (step_group es d hd), ← List.append_assoc plain,
            ← List.append_assoc before, ← List.nil_append after] at h
          obtain ⟨segments, rfl⟩ := ih _ (by omega) h rfl
          exact ⟨.group es d hd :: segments, hafter.symm⟩
        · rw [he] at h
          exact absurd h (by simp)
      · rw [run_plain hc, ← List.singleton_append, ← List.append_assoc plain] at h
        obtain ⟨segments, rfl⟩ := ih _ (Nat.lt_succ_self _) h rfl
        exact ⟨.plain c hc :: segments, rfl⟩

end

theorem decode_written (segments : List Segment) :
    decode (segments.flatMap Segment.written) = .ok (segments.flatMap Segment.value) :=
  run_written segments [] [] #[]

theorem exists_segments_of_decode {s v : Text} (h : decode s = .ok v) :
    ∃ segments : List Segment, segments.flatMap Segment.written = s :=
  @exists_segments_of_run [] [] s #[] v h

/-- **What is decoded, and to what.**  A text is decoded if and only if it can be cut into segments,
    and then to their values.  Every other text is refused. -/
theorem decode_eq_ok_iff_segments (s : Text) :
    (∀ v, decode s = .ok v ↔ ∃ segments : List Segment,
      segments.flatMap Segment.written = s ∧ segments.flatMap Segment.value = v) ∧
    ((∃ e, decode s = .error e) ↔
      ¬ ∃ segments : List Segment, segments.flatMap Segment.written = s) := by
  refine ⟨fun v => ⟨fun h => ?_, ?_⟩, ?_, fun hnone => ?_⟩
  · obtain ⟨segments, rfl⟩ := exists_segments_of_decode h
    rw [decode_written] at h
    exact ⟨segments, rfl, Except.ok.inj h⟩
  · rintro ⟨segments, rfl, rfl⟩
    exact decode_written segments
  · rintro ⟨e, he⟩ ⟨segments, rfl⟩
    rw [decode_written] at he
    exact absurd he (by simp)
  · cases h : decode s with
    | ok v => exact absurd (exists_segments_of_decode h) hnone
    | error e => exact ⟨e, rfl⟩

end Recast.Uri

/-
  Recast URIs — delimiters.

  The delimiters of a URI divide it into parts, and a part may be encoded or decoded by itself.  An
  escape is written without them, and one that spells a delimiter stays an escape.

  * `exists_segments_of_append_cons`: a delimiter is a segment of its own, so the segments of a text
    are those before it and those behind it;
  * `decode_append_cons_iff`: the parts of a text are decoded apart;
  * `filter_isReserved_of_decode`: a decoded text has the delimiters that it had before;
  * `encode_and_decode_append_cons`: delimiters survive in both directions.
-/
import Recast.Proofs.Uri.RoundTrip

namespace Recast.Uri

open Letter (IsHexDigit)

/-! ## Escapes -/

theorem isReserved_eq_false_of_isHexDigit {c : Char} {n : Nat} (h : IsHexDigit c n) :
    isReserved c = false :=
  h.of_forall (p := fun c _ => isReserved c = false) (by decide) (by decide)

/-- No escape is written with a delimiter. -/
theorem Escape.isReserved_eq_false_of_mem_text {e : Escape} {c : Char} (h : c ∈ e.text) :
    isReserved c = false := by
  simp only [text, List.mem_cons, List.not_mem_nil, or_false] at h
  rcases h with rfl | rfl | rfl
  · rfl
  · exact isReserved_eq_false_of_isHexDigit e.isHexDigit_high
  · exact isReserved_eq_false_of_isHexDigit e.isHexDigit_low

theorem isReserved_eq_false_of_mem_flatMap_text {es : List Escape} {c : Char}
    (h : c ∈ es.flatMap Escape.text) : isReserved c = false := by
  obtain ⟨e, -, hc⟩ := List.mem_flatMap.1 h
  exact Escape.isReserved_eq_false_of_mem_text hc

/-! ## Segments -/

namespace Segment

/-- **A segment is decoded to the delimiters it is written with.** -/
theorem filter_isReserved_value (segment : Segment) :
    segment.value.filter isReserved = segment.written.filter isReserved := by
  cases segment with
  | plain c h => rfl
  | group es c h =>
    by_cases hc : isReserved c = true
    · rw [value, if_pos hc, written]
    · have hes : (es.flatMap Escape.text).filter isReserved = [] :=
        List.filter_eq_nil_iff.2 fun d hd => by simp [isReserved_eq_false_of_mem_flatMap_text hd]
      rw [value, if_neg hc, written, hes]
      simp [hc]

theorem filter_isReserved_flatMap_value (segments : List Segment) :
    (segments.flatMap value).filter isReserved =
      (segments.flatMap written).filter isReserved := by
  induction segments with
  | nil => rfl
  | cons segment segments ih =>
    simp only [List.flatMap_cons, List.filter_append, filter_isReserved_value, ih]

theorem written_eq_singleton_of_mem {segment : Segment} {d : Char} (hd : isReserved d = true)
    (h : d ∈ segment.written) : segment.written = [d] ∧ segment.value = [d] := by
  cases segment with
  | plain c hc =>
    obtain rfl := List.mem_singleton.1 h
    exact ⟨rfl, rfl⟩
  | group es c hc =>
    rw [isReserved_eq_false_of_mem_flatMap_text h] at hd
    exact absurd hd (by decide)

end Segment

/-- A delimiter is a segment of its own. -/
theorem exists_segments_of_append_cons {d : Char} (hd : isReserved d = true)
    {segments : List Segment} {a b : Text} (h : segments.flatMap Segment.written = a ++ d :: b) :
    ∃ front back : List Segment, front.flatMap Segment.written = a ∧
      back.flatMap Segment.written = b ∧
      segments.flatMap Segment.value =
        front.flatMap Segment.value ++ d :: back.flatMap Segment.value := by
  induction segments generalizing a with
  | nil => exact absurd h (by simp)
  | cons segment segments ih =>
    rw [List.flatMap_cons] at h
    rcases List.append_eq_append_iff.1 h with ⟨a', rfl, hrest⟩ | ⟨back, hwritten, hrest⟩
    · -- the segment ends before the delimiter
      obtain ⟨front, back, rfl, rfl, hvalue⟩ := ih hrest
      refine ⟨segment :: front, back, rfl, rfl, ?_⟩
      rw [List.flatMap_cons, hvalue, List.flatMap_cons, List.append_assoc]
    · rcases List.cons_eq_append_iff.1 hrest with ⟨rfl, hrest⟩ | ⟨back, rfl, rfl⟩
      · -- it ends just before the delimiter
        obtain ⟨front, back, hfront, rfl, hvalue⟩ := @ih [] hrest.symm
        refine ⟨segment :: front, back, ?_, rfl, ?_⟩
        · rw [List.flatMap_cons, hfront, hwritten, List.append_nil, List.append_nil]
        · rw [List.flatMap_cons, hvalue, List.flatMap_cons, List.append_assoc]
      · -- it holds the delimiter, so it is the delimiter
        obtain ⟨hone, hvalue⟩ := Segment.written_eq_singleton_of_mem hd
          (by rw [hwritten]; exact List.mem_append_right a List.mem_cons_self)
        rw [hone] at hwritten
        have hlength := congrArg List.length hwritten
        simp only [List.length_append, List.length_cons, List.length_nil] at hlength
        obtain rfl := List.eq_nil_of_length_eq_zero (show a.length = 0 by omega)
        obtain rfl := List.eq_nil_of_length_eq_zero (show back.length = 0 by omega)
        exact ⟨[], segments, rfl, rfl, by rw [List.flatMap_cons, hvalue]; rfl⟩

/-! ## Texts -/

/-- **The parts of a text are decoded apart.** -/
theorem decode_append_cons_iff {d : Char} (hd : isReserved d = true) {a b v : Text} :
    decode (a ++ d :: b) = .ok v ↔
      ∃ x y, decode a = .ok x ∧ decode b = .ok y ∧ v = x ++ d :: y := by
  constructor
  · intro h
    obtain ⟨segments, hwritten⟩ := exists_segments_of_decode h
    obtain ⟨front, back, rfl, rfl, hvalue⟩ := exists_segments_of_append_cons hd hwritten
    rw [← hwritten, decode_written] at h
    refine ⟨_, _, decode_written front, decode_written back, ?_⟩
    rw [← hvalue, Except.ok.inj h]
  · rintro ⟨x, y, hx, hy, rfl⟩
    obtain ⟨front, rfl⟩ := exists_segments_of_decode hx
    obtain ⟨back, rfl⟩ := exists_segments_of_decode hy
    rw [decode_written] at hx hy
    obtain rfl := Except.ok.inj hx
    obtain rfl := Except.ok.inj hy
    have hpercent : d ≠ '%' := by
      rintro rfl
      exact absurd hd (by decide)
    have hall := decode_written (front ++ .plain d hpercent :: back)
    rw [List.flatMap_append, List.flatMap_append, List.flatMap_cons, List.flatMap_cons] at hall
    exact hall

/-- **No delimiter is added or dropped.** -/
theorem filter_isReserved_of_decode {t v : Text} (h : decode t = .ok v) :
    v.filter isReserved = t.filter isReserved := by
  obtain ⟨segments, rfl⟩ := exists_segments_of_decode h
  rw [decode_written] at h
  obtain rfl := Except.ok.inj h
  exact Segment.filter_isReserved_flatMap_value segments

theorem encode_append_cons {d : Char} (hd : isReserved d = true) (a b : Text) :
    encode (a ++ d :: b) = encode a ++ d :: encode b := by
  have hkept : encodeChar d = [d] := if_pos (by simp [isKept, hd])
  rw [encode_append]
  unfold encode
  rw [List.flatMap_cons, hkept]
  rfl

/-- **Delimiters survive in both directions.**  A text is encoded part by part, and it is decoded part
    by part: it is decoded if and only if its parts are, and then to theirs.  Whatever is decoded has
    the same delimiters, in the same order, as before. -/
theorem encode_and_decode_append_cons (a b : Text) {d : Char} (hd : isReserved d = true) :
    encode (a ++ d :: b) = encode a ++ d :: encode b ∧
    (∀ v, decode (a ++ d :: b) = .ok v ↔
      ∃ x y, decode a = .ok x ∧ decode b = .ok y ∧ v = x ++ d :: y) ∧
    ∀ t v, decode t = .ok v → v.filter isReserved = t.filter isReserved :=
  ⟨encode_append_cons hd a b, fun _ => decode_append_cons_iff hd,
    fun _ _ => filter_isReserved_of_decode⟩

/-- A character of two bytes before a delimiter, and behind it the escape of another one. -/
theorem encode_and_decode_append_cons_slash :
    isReserved '/' = true ∧ encode "ü/%".toList = "%C3%BC/%25".toList ∧
      decode "%C3%BC/%2F%25".toList = .ok "ü/%2F%".toList ∧
      "ü/%2F%".toList.filter isReserved = ['/'] := by
  have hslash : isReserved '/' = true := rfl
  have hleft : decode "%C3%BC".toList = .ok "ü".toList :=
    decode_written [.group [.ofByte 0xC3, .ofByte 0xBC] 'ü' (by decide)]
  have hright : decode "%2F%25".toList = .ok "%2F%".toList :=
    decode_written [.group [.ofByte 0x2F] '/' (by decide), .group [.ofByte 0x25] '%' (by decide)]
  obtain ⟨hencode, -, -⟩ := encode_and_decode_append_cons "ü".toList "%".toList hslash
  obtain ⟨-, hdecode, hkept⟩ :=
    encode_and_decode_append_cons "%C3%BC".toList "%2F%25".toList hslash
  have hall := (hdecode _).2 ⟨_, _, hleft, hright, rfl⟩
  exact ⟨hslash, hencode, hall, hkept _ _ hall⟩

end Recast.Uri

/-
  Recast URIs — decoding undoes encoding.

  * `Escape.ofByte` is the escape that the encoder writes for a byte;
  * `exists_segment_encodeChar`: each character is encoded as one segment, whose value it is;
  * `decode_encode`: the round trip.
-/
import Recast.Proofs.Uri.Segment

namespace Recast.Uri

open Letter (IsHexDigit)

theorem isHexDigit_hexDigit {n : Nat} (h : n < 16) : IsHexDigit (hexDigit n) n := by
  have hall : ∀ m < 16, hexDigit m = (Nat.digitChar m).toUpper := by decide
  exact ⟨h, .inr (hall n h)⟩

/-- The escape of a byte, with capital digits. -/
def Escape.ofByte (b : UInt8) : Escape where
  byte := b
  high := hexDigit (b.toNat / 16)
  low := hexDigit (b.toNat % 16)
  isHexDigit_high := isHexDigit_hexDigit (Nat.div_lt_of_lt_mul b.toNat_lt)
  isHexDigit_low := isHexDigit_hexDigit (Nat.mod_lt _ (by decide))

theorem exists_segment_encodeChar (c : Char) :
    ∃ segment : Segment, segment.written = encodeChar c ∧ segment.value = [c] := by
  unfold encodeChar
  by_cases hkept : isKept c = true
  · have hpercent : c ≠ '%' := by
      rintro rfl
      exact absurd hkept (by decide)
    exact ⟨.plain c hpercent, by rw [if_pos hkept]; rfl, rfl⟩
  · have hbytes : ((String.utf8EncodeChar c).map Escape.ofByte).map Escape.byte =
        String.utf8EncodeChar c := by
      rw [List.map_map]
      exact List.map_id _
    refine ⟨.group _ c hbytes, ?_, ?_⟩
    · rw [if_neg hkept, Segment.written, List.flatMap_map]
      rfl
    · -- a delimiter is kept, so what is escaped is none
      have hreserved : ¬ isReserved c = true := fun h => hkept (by simp [isKept, h])
      rw [Segment.value, if_neg hreserved]

theorem exists_segments_encode (s : Text) :
    ∃ segments : List Segment,
      segments.flatMap Segment.written = encode s ∧ segments.flatMap Segment.value = s := by
  induction s with
  | nil => exact ⟨[], rfl, rfl⟩
  | cons c s ih =>
    obtain ⟨segments, hwritten, hvalue⟩ := ih
    obtain ⟨segment, hchar, hc⟩ := exists_segment_encodeChar c
    refine ⟨segment :: segments, ?_, ?_⟩
    · rw [List.flatMap_cons, hchar, hwritten, encode, encode, List.flatMap_cons]
    · rw [List.flatMap_cons, hc, hvalue]
      rfl

/-- **Decoding undoes encoding**, whatever the text is. -/
theorem decode_encode (s : Text) : decode (encode s) = .ok s := by
  obtain ⟨segments, hwritten, hvalue⟩ := exists_segments_encode s
  rw [← hwritten, decode_written, hvalue]

end Recast.Uri

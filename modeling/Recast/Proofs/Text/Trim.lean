/-
  Recast texts — white space at the ends.

  * `Pads s t`: `t` is `s` with white space around it;
  * `pads_trim`: a text is what is left of it with white space around it;
  * `trim_eq_of_pads`: what is left of a padded text is the text itself, unless white space stands at
    an end of it.
-/
import Mathlib.Data.List.Basic
import Mathlib.Data.List.TakeWhile
import Recast.Text.Basic

namespace Recast.Text

/-- A text with white space around it. -/
def Pads (s t : Text) : Prop :=
  ∃ before after, t = before ++ (s ++ after) ∧ (∀ c ∈ before, Letter.isBlank c = true) ∧
    ∀ c ∈ after, Letter.isBlank c = true

/-- **What is trimmed is white space at the ends.** -/
theorem pads_trim (s : Text) : Pads (trim s) s := by
  have hstart : ∀ t : Text, t.takeWhile Letter.isBlank ++ trimStart t = t := fun t =>
    List.takeWhile_append_dropWhile
  have hend := congrArg List.reverse (hstart (trimStart s).reverse)
  rw [List.reverse_append, List.reverse_reverse] at hend
  refine ⟨s.takeWhile Letter.isBlank, ((trimStart s).reverse.takeWhile Letter.isBlank).reverse,
    ?_, fun c hc => List.mem_takeWhile_imp hc,
    fun c hc => List.mem_takeWhile_imp (List.mem_reverse.1 hc)⟩
  rw [trim, trimEnd, hend, hstart]

theorem trimStart_append {before s : Text} (hbefore : ∀ c ∈ before, Letter.isBlank c = true)
    (hs : ∀ c ∈ s.head?, Letter.isBlank c = false) : trimStart (before ++ s) = s := by
  rw [trimStart, List.dropWhile_append_of_pos hbefore]
  cases s with
  | nil => rfl
  | cons c s => exact List.dropWhile_cons_of_neg (by simp [hs c rfl])

/-- **All of the white space at the ends is trimmed.** -/
theorem trim_eq_of_pads {s t : Text} (h : Pads s t) (hne : s ≠ [])
    (hhead : ∀ c ∈ s.head?, Letter.isBlank c = false)
    (hlast : ∀ c ∈ s.getLast?, Letter.isBlank c = false) : trim t = s := by
  obtain ⟨before, after, rfl, hbefore, hafter⟩ := h
  have hstart : trimStart (before ++ (s ++ after)) = s ++ after := by
    refine trimStart_append hbefore ?_
    rwa [List.head?_append_of_ne_nil _ hne]
  have hend : trimStart (after.reverse ++ s.reverse) = s.reverse := by
    refine trimStart_append (fun c hc => hafter c (List.mem_reverse.1 hc)) ?_
    rwa [List.head?_reverse]
  rw [trim, hstart, trimEnd, List.reverse_append, hend, List.reverse_reverse]

end Recast.Text

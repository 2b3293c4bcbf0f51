/-
  Recast menus — documents.

  A document can be laid out in many ways, by itself or at the end of a chain.

  * `apply_formatJson`: what the command makes of a document;
  * `title_stepsItem_of_ok`: the title of an item that is made by steps;
  * `exists_layouts_of_reformat`: the layouts of a document differ in white space, and the menu shows it
    by the title for several lines if and only if it has several.
-/
import Recast.Proofs.Json.Layout
import Recast.Proofs.Menu.Preview

namespace Recast.Menu

open Chain (Step)
open Json (Indent Value reformat withoutBlanks)

theorem apply_formatJson {args : List Text} {s written : Text}
    (h : reformat (args[0]?.getD Command.defaultIndent) s = .ok written) :
    Command.formatJson.apply s args = .ok written := by
  have hrequired : ¬ args.length < Command.formatJson.arity.required := Nat.not_lt_zero _
  rw [Command.apply, if_neg hrequired, Command.transform, h]
  rfl

theorem title_stepsItem_of_ok {settings : Settings} {steps : List Step} {subject value : Text}
    (h : Chain.recast steps subject = .ok value) :
    (stepsItem settings steps subject).title =
      if '\n' ∈ value then settings.multilineTitle else value := by
  unfold stepsItem
  rw [h]
  exact if_congr List.contains_iff_mem rfl rfl

/-- A laid out document has several lines if and only if it has an indent and parts. -/
theorem newline_mem_text_layout_iff (indent : Indent) (value : Value) :
    '\n' ∈ value.text indent.layout ↔ indent ≠ .spaces 0 ∧ value.hasParts = true := by
  by_cases hindent : indent = .spaces 0
  · subst hindent
    have hline : '\n' ∉ value.text .compact := fun hmem =>
      absurd (Json.le_toNat_of_mem_textAt_compact value 0 _ hmem) (by decide)
    exact iff_of_false hline fun h => h.1 rfl
  · obtain ⟨unit, hunit⟩ := Json.Indent.exists_layout_eq hindent
    rw [hunit, Json.newline_mem_text_iff]
    exact (and_iff_right hindent).symm

/-- **The layouts of a document.**  A document that is laid out in some way is, but for the white space
    outside strings, the document on one line, which has no control character.  With an indent, it has
    several lines if and only if it is a container that is not empty.  Then, and only then, an item
    that shows it, at the end of a chain or by itself, has the title for several lines. -/
theorem exists_layouts_of_reformat {i s written : Text} (h : reformat i s = .ok written) :
    ∃ indent value, Indent.ofText? i = some indent ∧ Value.ofText? s = some value ∧
      reformat ['0'] s = .ok (withoutBlanks written) ∧
      (∀ c ∈ withoutBlanks written, 0x20 ≤ c.toNat) ∧
      (indent ≠ .spaces 0 → ('\n' ∈ written ↔ value.hasParts = true)) ∧
      ∀ settings : Settings,
        let title := if indent ≠ .spaces 0 ∧ value.hasParts = true then settings.multilineTitle
          else written
        (∀ steps subject name args, Chain.recast steps subject = .ok s →
          args[0]?.getD Command.defaultIndent = i →
            (stepsItem settings (steps ++ [⟨name, .formatJson, args⟩]) subject).title = title) ∧
        (Command.defaultIndent = i → (commandItem settings s .formatJson).title = title) := by
  obtain ⟨indent, value, hindent, hvalue, hwritten⟩ := Json.reformat_eq_ok_iff.1 h
  have hlines := newline_mem_text_layout_iff indent value
  rw [hwritten] at hlines
  obtain ⟨hcompact, hprinted⟩ := Json.reformat_withoutBlanks h
  refine ⟨indent, value, hindent, hvalue, hcompact, hprinted,
    fun hwide => hlines.trans (and_iff_right hwide), fun settings => ⟨?_, fun hdefault => ?_⟩⟩
  · rintro steps subject name args hsteps rfl
    have hrecast : Chain.recast (steps ++ [⟨name, .formatJson, args⟩]) subject = .ok written := by
      rw [Chain.recast_append, hsteps]
      change Chain.recast [⟨name, .formatJson, args⟩] s = _
      rw [Chain.recast_cons, apply_formatJson h]
      rfl
    rw [title_stepsItem_of_ok hrecast]
    exact if_congr hlines rfl rfl
  · have hcommand : Command.formatJson.apply s [] = .ok written := apply_formatJson (hdefault ▸ h)
    rw [commandItem, (previewItem_of_ok hcommand).1]
    exact if_congr hlines rfl rfl

/-- White space and quotes inside strings, a double, and an empty container. -/
theorem exists_layouts_of_reformat_spaced :
    let document := "[\"a \\\" [1, \\n 2]\\\\\" , 1e2,\x7b \"k \" :[ ]\x7d]".toList
    ∃ written, reformat " 03 ".toList document = .ok written ∧
      written = "[\n   \"a \\\" [1, \\n 2]\\\\\",\n   100.0,\n   \x7b\n      \"k \": []\n   \x7d\n]".toList ∧
      reformat "0".toList document = .ok (withoutBlanks written) ∧
      withoutBlanks written = "[\"a \\\" [1, \\n 2]\\\\\",100.0,\x7b\"k \":[]\x7d]".toList ∧
      '\n' ∈ written ∧
      (stepsItem {} [⟨"Format JSON".toList, .formatJson, [" 03 ".toList]⟩] document).title =
        "Multiline output".toList := by
  intro document
  have haccepted : reformat " 03 ".toList document = .ok
      "[\n   \"a \\\" [1, \\n 2]\\\\\",\n   100.0,\n   \x7b\n      \"k \": []\n   \x7d\n]".toList := by
    decide +kernel
  obtain ⟨indent, value, hindent, -, hcompact, -, hlines, htitle⟩ :=
    exists_layouts_of_reformat haccepted
  have hthree : Indent.ofText? " 03 ".toList = some (.spaces 3) := by decide
  obtain rfl := Option.some.inj (hindent.symm.trans hthree)
  have hparts : value.hasParts = true := (hlines (by decide)).1 (by decide +kernel)
  refine ⟨_, haccepted, rfl, hcompact, by decide +kernel, by decide +kernel, ?_⟩
  have hitem := (htitle {}).1 [] document "Format JSON".toList [" 03 ".toList] rfl rfl
  rwa [if_pos ⟨by decide, hparts⟩] at hitem

end Recast.Menu

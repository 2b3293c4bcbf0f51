/-
  Recast menus — going on with an item.

  The text of an item can be picked and recast again.  If it was made by a chain, that is the same as a
  longer chain on the first subject.

  * `exists_of_uid_stepsItem`: an item of a chain that succeeds hands on what its steps make;
  * `stepsItem_append`: more steps, on the text that steps make and on the first one;
  * `items_of_picked`: the same of inputs and items.
-/
import Recast.Proofs.Menu.Reading

namespace Recast.Menu

open Chain (Step TypedStep)

section
variable {settings : Settings} {first second : List Step} {subject value : Text}

theorem subtitle_stepsItem :
    (stepsItem settings first subject).subtitle = pathText (first.map Step.name) := by
  unfold stepsItem
  cases Chain.recast first subject <;> rfl

theorem exists_of_uid_stepsItem
    (h : (stepsItem settings first subject).uid = "chained".toList) :
    ∃ value, Chain.recast first subject = .ok value ∧
      (stepsItem settings first subject).arg = value := by
  unfold stepsItem at h ⊢
  cases hvalue : Chain.recast first subject with
  | ok value => exact ⟨value, rfl, rfl⟩
  | error error =>
    rw [hvalue] at h
    have huid : "error".toList = "chained".toList := h
    exact absurd huid (by decide)

/-- **Steps go on where others ended.**  Both succeed and show the same, or both fail and hand on what
    each began with. -/
theorem stepsItem_append (h : Chain.recast first subject = .ok value) :
    let next := stepsItem settings second value
    let whole := stepsItem settings (first ++ second) subject
    (next.uid = "chained".toList ∧ whole.uid = "chained".toList ∧ whole.title = next.title ∧
        whole.arg = next.arg) ∨
      (next.uid = "error".toList ∧ whole.uid = "error".toList ∧ next.arg = value ∧
        whole.arg = subject) := by
  intro next whole
  have hwhole : Chain.recast (first ++ second) subject = Chain.recast second value := by
    rw [Chain.recast_append, h]
    rfl
  unfold next whole stepsItem
  rw [hwhole]
  cases Chain.recast second value with
  | ok made => exact .inl ⟨rfl, rfl, rfl, rfl⟩
  | error error => exact .inr ⟨rfl, rfl, rfl, rfl⟩

end

/-- **Going on with an item is a longer chain.**  Behind a subject, type a chain that succeeds; behind
    what it makes, type another chain.  Steps are typed one after the other, with glue behind them or
    nothing.  That shows the same as both chains typed behind the subject: the same title and text, or
    in both cases that a step fails, each with its own subject.  The path is that of the first chain,
    and then that of the second. -/
theorem items_of_picked {settings : Settings} (hsep : settings.separator ≠ []) {subject : Text}
    (hsubject : Text.EndsAt settings.separator subject) {first second : List TypedStep}
    (hfirst : first ≠ []) (hsecond : second ≠ [])
    (hsteps : ∀ step ∈ first ++ second, IsTypeable settings.separator step) :
    ∃ menu before after, ofSettings settings = .ok menu ∧
      Chain.typed? [] (first.map TypedStep.call) = some before ∧
      Chain.typed? [] (second.map TypedStep.call) = some after ∧
      ∀ picked, menu.items (subject ++ settings.separator ++ before) = [picked] →
        picked.uid = "chained".toList → Text.EndsAt settings.separator picked.arg →
        ∃ next whole, menu.items (picked.arg ++ settings.separator ++ after) = [next] ∧
          menu.items (subject ++ settings.separator ++ (before ++ after)) = [whole] ∧
          ((next.uid = "chained".toList ∧ whole.uid = "chained".toList ∧
              whole.title = next.title ∧ whole.arg = next.arg) ∨
            (next.uid = "error".toList ∧ whole.uid = "error".toList ∧ next.arg = picked.arg ∧
              whole.arg = subject)) ∧
          whole.subtitle = picked.subtitle ++ '→' :: next.subtitle := by
  obtain ⟨menu, hmenu, -⟩ := exists_ofSettings settings
  obtain ⟨hsteps₁, hsteps₂⟩ := List.forall_mem_append.1 hsteps
  obtain ⟨before, hbefore⟩ :=
    Chain.exists_typed? [] (@isAllowed_of_mem_calls _ settings.hidden first hsteps₁)
  obtain ⟨after, hafter⟩ :=
    Chain.exists_typed? [] (@isAllowed_of_mem_calls _ settings.hidden second hsteps₂)
  have hboth : Chain.typed? [] ((first ++ second).map TypedStep.call) = some (before ++ after) := by
    rw [List.map_append]
    exact Chain.typed?_append hbefore hafter
  have hnothing : IsGlue settings.separator [] := by simp [IsGlue]
  refine ⟨menu, before, after, hmenu, hbefore, hafter, fun picked hpicked huid hends => ?_⟩
  have hitem := items_append_typed? hmenu hsep hsubject hnothing hfirst hsteps₁ hbefore
  obtain rfl := List.singleton_inj.1 (hpicked.symm.trans hitem)
  obtain ⟨value, hvalue, harg⟩ := exists_of_uid_stepsItem huid
  rw [harg] at hends ⊢
  have hnext := items_append_typed? hmenu hsep hends hnothing hsecond hsteps₂ hafter
  have hne : first ++ second ≠ [] := List.append_ne_nil_of_left_ne_nil hfirst second
  have hwhole := items_append_typed? hmenu hsep hsubject hnothing hne hsteps hboth
  rw [List.map_append] at hwhole
  refine ⟨_, _, hnext, hwhole, stepsItem_append hvalue, ?_⟩
  rw [subtitle_stepsItem, subtitle_stepsItem, subtitle_stepsItem, List.map_append]
  exact pathText_append (by simpa using hfirst) (by simpa using hsecond)

/-- A chain that goes on with a step that fails.  The step before it could take one more argument. -/
theorem items_of_picked_fails : ∃ menu picked next whole, ofSettings {} = .ok menu ∧
    menu.items "Hello World /R 'o'".toList = [picked] ∧ picked.arg = "Hell Wrld".toList ∧
    menu.items "Hell Wrld /Jl".toList = [next] ∧
    menu.items "Hello World /R 'o'Jl".toList = [whole] ∧
    next.arg = "Hell Wrld".toList ∧ whole.arg = "Hello World".toList ∧
    whole.subtitle = "Replace→Format JSON→Lowercase".toList := by
  let first : List TypedStep := [⟨.replace, ["o".toList], []⟩]
  let second : List TypedStep := [⟨.formatJson, [], []⟩, ⟨.lowercase, [], []⟩]
  have hsteps : ∀ step ∈ first ++ second, IsTypeable " /".toList step := by
    unfold first second
    decide
  obtain ⟨menu, before, after, hmenu, hbefore, hafter, hpicked⟩ := @items_of_picked {} (by decide)
    "Hello World".toList (by decide) first second (by decide) (by decide) hsteps
  obtain rfl := Option.some.inj hbefore
  obtain rfl := Option.some.inj hafter
  have hitem := @items_append_typed? {} menu hmenu (by decide) "Hello World".toList (by decide) [] _
    (by decide) first (by decide) (List.forall_mem_append.1 hsteps).1 rfl
  obtain ⟨next, whole, hnext, hwhole, hends, hpath⟩ := hpicked _ hitem rfl (by decide)
  have hlast := @items_append_typed? {} menu hmenu (by decide) "Hell Wrld".toList (by decide) [] _
    (by decide) second (by decide) (List.forall_mem_append.1 hsteps).2 rfl
  obtain rfl := List.singleton_inj.1 (hnext.symm.trans hlast)
  rcases hends with ⟨hchained, -⟩ | ⟨-, -, hnext', hwhole'⟩
  · exact absurd hchained (by decide)
  · exact ⟨menu, _, _, whole, hmenu, hitem, rfl, hnext, hwhole, hnext', hwhole', hpath⟩

end Recast.Menu

/-
  Recast texts — where the items of a cover are.

  * `Placed` is an item with the number of characters before it; `placed` gives the items among some
    pieces their places;
  * `IsCoverFrom find spell s place found`: from a place on, `found` are items that are seen in `s`,
    in order and apart, and at no character outside them an item is seen;
  * `isCoverFrom_iff`: the items of the cover are so, and no other list of items is;
  * `exists_of_mem_items`: an item of a cover is seen somewhere.
-/
import Mathlib.Data.List.Basic
import Recast.Text.Cover

namespace Recast.Text

variable {α : Type}

/-- An item and the number of characters before it. -/
structure Placed (α : Type) where
  place : Nat
  item : α
  deriving DecidableEq

/-- The number of characters before an item and in it. -/
def Placed.stop (spell : α → Text) (x : Placed α) : Nat :=
  x.place + (spell x.item).length

/-- The items of pieces that begin behind `place` characters. -/
def placed (spell : α → Text) : (place : Nat) → List (Piece α) → List (Placed α)
  | _, [] => []
  | place, .item found :: more =>
    ⟨place, found⟩ :: placed spell (place + (spell found).length) more
  | place, .loose _ :: more => placed spell (place + 1) more

theorem map_item_placed (spell : α → Text) (place : Nat) (pieces : List (Piece α)) :
    (placed spell place pieces).map Placed.item = items pieces := by
  induction pieces generalizing place with
  | nil => rfl
  | cons piece pieces ih =>
    cases piece with
    | item found => exact congrArg (found :: ·) (ih _)
    | loose c => exact ih _

theorem exists_of_mem_items {find : Finder α} {s : Text} {found : α}
    (h : found ∈ items (cover find s)) :
    ∃ c rest more, find c rest = some (found, more) ∧ c :: rest <:+ s := by
  suffices hskip : ∀ skip, found ∈ items (coverFrom find skip s) →
      ∃ c rest more, find c rest = some (found, more) ∧ c :: rest <:+ s from hskip 0 h
  clear h
  induction s with
  | nil =>
    intro skip h
    cases skip <;> exact absurd h List.not_mem_nil
  | cons c rest ih =>
    have hrest : ∀ skip, found ∈ items (coverFrom find skip rest) →
        ∃ d more n, find d more = some (found, n) ∧ d :: more <:+ c :: rest := by
      intro skip h
      obtain ⟨d, more, n, hfind, hsuffix⟩ := ih skip h
      exact ⟨d, more, n, hfind, hsuffix.trans (List.suffix_cons c rest)⟩
    intro skip h
    cases skip with
    | succ skip => exact hrest skip h
    | zero =>
      unfold coverFrom at h
      split at h
      · next seen more hseen =>
        rcases List.mem_cons.1 h with rfl | h
        · exact ⟨c, rest, more, hseen, List.suffix_rfl⟩
        · exact hrest more h
      · exact hrest 0 h

/-- From a place on, `found` are the items of a text: each is seen at its place, one ends before the
    next begins, and outside them none is seen. -/
structure IsCoverFrom (find : Finder α) (spell : α → Text) (s : Text) (place : Nat)
    (found : List (Placed α)) : Prop where
  le_place : ∀ x ∈ found, place ≤ x.place
  seen : ∀ x ∈ found, ∃ c rest more, s.drop x.place = c :: rest ∧ find c rest = some (x.item, more)
  apart : found.Pairwise fun x y => x.stop spell ≤ y.place
  not_missed : ∀ other c rest, place ≤ other → s.drop other = c :: rest →
    (∀ x ∈ found, other < x.place ∨ x.stop spell ≤ other) → find c rest = none

section
variable {find : Finder α} {spell : α → Text} {s : Text} {place : Nat} {found : List (Placed α)}

theorem IsCoverFrom.find_eq (h : IsCoverFrom find spell s place found) {x : Placed α}
    (hx : x ∈ found) {c : Char} {rest : Text} (hs : s.drop x.place = c :: rest) :
    ∃ more, find c rest = some (x.item, more) := by
  obtain ⟨d, after, more, hdrop, hseen⟩ := h.seen x hx
  rw [hs] at hdrop
  obtain ⟨rfl, rfl⟩ := List.cons.inj hdrop
  exact ⟨more, hseen⟩

theorem isCoverFrom_of_nil (hs : s.drop place = []) :
    IsCoverFrom find spell s place found ↔ found = [] := by
  have hend : ∀ other, place ≤ other → s.drop other = [] := by
    intro other hle
    rw [List.drop_eq_nil_iff] at hs ⊢
    omega
  constructor
  · intro h
    refine List.eq_nil_iff_forall_not_mem.2 fun x hx => ?_
    obtain ⟨c, rest, more, hdrop, -⟩ := h.seen x hx
    rw [hend _ (h.le_place x hx)] at hdrop
    exact absurd hdrop (by simp)
  · rintro rfl
    refine ⟨by simp, by simp, .nil, fun other c rest hle hdrop _ => ?_⟩
    rw [hend other hle] at hdrop
    exact absurd hdrop (by simp)

theorem isCoverFrom_of_none {c : Char} {rest : Text} (hs : s.drop place = c :: rest)
    (hfind : find c rest = none) :
    IsCoverFrom find spell s place found ↔ IsCoverFrom find spell s (place + 1) found := by
  constructor
  · intro h
    refine ⟨fun x hx => ?_, h.seen, h.apart, fun other d more hle => ?_⟩
    · refine Nat.lt_of_le_of_ne (h.le_place x hx) ?_
      rintro rfl
      obtain ⟨more, hseen⟩ := h.find_eq hx hs
      rw [hfind] at hseen
      exact absurd hseen (by simp)
    · exact h.not_missed other d more (by omega)
  · intro h
    refine ⟨fun x hx => ?_, h.seen, h.apart, fun other d more hle hdrop houtside => ?_⟩
    · have hle := h.le_place x hx
      omega
    · rcases Nat.eq_or_lt_of_le hle with rfl | hlt
      · rw [hs] at hdrop
        obtain ⟨rfl, rfl⟩ := List.cons.inj hdrop
        exact hfind
      · exact h.not_missed other d more hlt hdrop houtside

/-- Where an item is seen, it is the first one, and the others begin behind it. -/
theorem isCoverFrom_of_some {c : Char} {rest : Text} {item : α} {more : Nat}
    (hs : s.drop place = c :: rest) (hfind : find c rest = some (item, more))
    (hpos : 0 < (spell item).length) :
    IsCoverFrom find spell s place found ↔
      ∃ others, found = ⟨place, item⟩ :: others ∧
        IsCoverFrom find spell s (place + (spell item).length) others := by
  constructor
  · intro h
    have heq : ∀ x ∈ found, x.place = place → x = ⟨place, item⟩ := by
      rintro x hx rfl
      obtain ⟨n, hseen⟩ := h.find_eq hx hs
      rw [hfind] at hseen
      rw [(Prod.mk.inj (Option.some.inj hseen)).1]
    obtain ⟨x, hx, hle, hlt⟩ : ∃ x ∈ found, x.place ≤ place ∧ place < x.stop spell := by
      by_contra hnot
      have hnone := h.not_missed place c rest (Nat.le_refl _) hs fun x hx => by
        by_contra hx'
        exact hnot ⟨x, hx, by omega, by omega⟩
      rw [hfind] at hnone
      exact absurd hnone (by simp)
    have hitem := heq x hx (Nat.le_antisymm hle (h.le_place x hx))
    subst hitem
    cases found with
    | nil => exact absurd hx List.not_mem_nil
    | cons first others =>
      obtain ⟨hfirst, hothers⟩ := List.pairwise_cons.1 h.apart
      have hhead : first = ⟨place, item⟩ := by
        rcases List.mem_cons.1 hx with hx | hx
        · exact hx.symm
        · -- an item before this one would end at `place`, and so begin there
          have hstop : first.place + (spell first.item).length ≤ place := hfirst _ hx
          have hbegin := h.le_place first List.mem_cons_self
          exact heq first List.mem_cons_self (by omega)
      subst hhead
      refine ⟨others, rfl, hfirst, fun y hy => h.seen y (List.mem_cons_of_mem _ hy), hothers,
        fun other d after hle' hdrop houtside => ?_⟩
      refine h.not_missed other d after (by omega) hdrop fun y hy => ?_
      rcases List.mem_cons.1 hy with rfl | hy
      · exact .inr hle'
      · exact houtside y hy
  · rintro ⟨others, rfl, h⟩
    refine ⟨fun x hx => ?_, fun x hx => ?_, .cons h.le_place h.apart,
      fun other d after hle hdrop houtside => ?_⟩
    · rcases List.mem_cons.1 hx with rfl | hx
      · exact Nat.le_refl _
      · have hle := h.le_place x hx
        omega
    · rcases List.mem_cons.1 hx with rfl | hx
      · exact ⟨c, rest, more, hs, hfind⟩
      · exact h.seen x hx
    · have hbehind : place + (spell item).length ≤ other := by
        rcases houtside _ List.mem_cons_self with hlt | hle'
        · dsimp only at hlt
          omega
        · exact hle'
      exact h.not_missed other d after hbehind hdrop fun y hy =>
        houtside y (List.mem_cons_of_mem _ hy)

/-- **A cover is the only one.**  The items of the cover, with their places, are seen there, in order
    and apart, and none is missed; no other list of placed items is so. -/
theorem isCoverFrom_iff
    (faithful : ∀ c rest item more, find c rest = some (item, more) →
      spell item = c :: rest.take more) :
    IsCoverFrom find spell s place found ↔
      found = placed spell place (cover find (s.drop place)) := by
  induction hn : s.length - place using Nat.strongRecOn generalizing place found with
  | ind n ih =>
    cases hs : s.drop place with
    | nil => rw [isCoverFrom_of_nil hs, cover_nil, placed]
    | cons c rest =>
      have hlt : place < s.length := by
        by_contra hge
        rw [List.drop_eq_nil_of_le (by omega)] at hs
        exact absurd hs (by simp)
      cases hfind : find c rest with
      | none =>
        have hrest : s.drop (place + 1) = rest := by rw [← List.drop_drop, hs]; rfl
        rw [isCoverFrom_of_none hs hfind, ih _ (by omega) rfl, hrest, cover_cons_of_none hfind,
          placed]
      | some seen =>
        obtain ⟨item, more⟩ := seen
        have hspell := faithful c rest item more hfind
        have hrest : s.drop (place + (spell item).length) = rest.drop more := by
          rw [← List.drop_drop, hs, hspell, List.length_cons, List.drop_succ_cons,
            List.length_take]
          rcases Nat.le_total more rest.length with hle | hle
          · rw [Nat.min_eq_left hle]
          · rw [Nat.min_eq_right hle, List.drop_length, List.drop_eq_nil_of_le hle]
        have hpos : 0 < (spell item).length := by rw [hspell]; simp
        rw [isCoverFrom_of_some hs hfind hpos, cover_cons_of_some hfind, placed, ← hrest]
        constructor
        · rintro ⟨others, rfl, hothers⟩
          rw [(ih _ (by omega) rfl).1 hothers]
        · rintro rfl
          exact ⟨_, rfl, (ih _ (by omega) rfl).2 rfl⟩

end

end Recast.Text

/-
  Recast letters — sets of code points given by their ranges.

  * `Ranges.has n rs` says whether the code point `n` lies in one of the ranges `rs`;
  * `has_eq_true_iff`: for ranges in ascending order, it is membership in some range.
-/
namespace Recast.Letter

/-- A set of code points: the first and last member of each range, in ascending order. -/
abbrev Ranges := List (Nat × Nat)

/-- Whether a code point lies in one of the ranges.  A range that starts above it ends the
    search. -/
def Ranges.has (n : Nat) : Ranges → Bool
  | [] => false
  | (first, last) :: more =>
    if n < first then false else if n ≤ last then true else Ranges.has n more

/-- In ascending ranges, `has` finds exactly the members. -/
theorem has_eq_true_iff {n : Nat} {rs : Ranges} (sorted : rs.Pairwise fun a b => a.1 ≤ b.1) :
    Ranges.has n rs = true ↔ ∃ r ∈ rs, r.1 ≤ n ∧ n ≤ r.2 := by
  induction rs with
  | nil => simp [Ranges.has]
  | cons r more ih =>
    obtain ⟨first, last⟩ := r
    obtain ⟨below, sorted⟩ := List.pairwise_cons.1 sorted
    unfold Ranges.has
    split
    · next low =>
      simp only [Bool.false_eq_true, List.mem_cons, false_iff, not_exists, not_and]
      rintro r (rfl | mem) start
      · omega
      · have := below r mem
        omega
    · split
      · next low high =>
        exact iff_of_true rfl ⟨(first, last), List.mem_cons_self, Nat.le_of_not_lt low, high⟩
      · next low high =>
        rw [ih sorted]
        constructor
        · rintro ⟨r, mem, start⟩
          exact ⟨r, List.mem_cons_of_mem _ mem, start⟩
        · rintro ⟨r, mem, start⟩
          rcases List.mem_cons.1 mem with rfl | mem
          · exact absurd start.2 high
          · exact ⟨r, mem, start⟩

end Recast.Letter

/-
  Recast chains — catalogs whose chains are the same.

  What a chain means depends on which token the grammar finds at each character, and on the step that
  each token stands for.

  * `Grammar.tokens_congr`, `split_congr`: grammars that find the same token at each character divide
    an input alike, and find the same tokens;
  * `Grammar.token?_of_perm`, `steps_of_perm`: the order of the entries changes neither;
  * `Grammar.ofCatalog_hide`, `steps_hide`: nor does hiding entries.
-/
import Recast.Proofs.Chain.Split
import Recast.Proofs.Command.Catalog

namespace Recast.Chain

/-! ## Grammars -/

section
variable {grammar other : Grammar}
  (h : ∀ c rest, grammar.token? c rest = other.token? c rest)
include h

theorem Grammar.tokens_congr (s : Text) : grammar.tokens s = other.tokens s := by
  have hfind : grammar.token? = other.token? := funext fun c => funext (h c)
  unfold tokens
  rw [hfind]

theorem Grammar.loose_congr (s : Text) : grammar.loose s = other.loose s := by
  have hfind : grammar.token? = other.token? := funext fun c => funext (h c)
  unfold loose
  rw [hfind]

theorem continues_congr (separator rest : Text) :
    Continues grammar separator rest ↔ Continues other separator rest := by
  unfold Continues
  rw [Grammar.tokens_congr h, Grammar.loose_congr h]

/-- **Grammars that find the same tokens divide an input alike**, also by the empty separator. -/
theorem split_congr (separator input : Text) :
    split grammar separator input = split other separator input := by
  by_cases hsep : separator = []
  · subst hsep
    rfl
  · have hfound := Text.foundFrom_occurrences hsep input
    have hchoice : (fun occurrence : Text.Occurrence =>
        decide (Continues grammar separator occurrence.after)) =
          fun occurrence => decide (Continues other separator occurrence.after) :=
      funext fun occurrence => decide_eq_decide.2 (continues_congr h separator occurrence.after)
    rw [split_of_foundFrom hsep hfound, split_of_foundFrom hsep hfound, hchoice]

end

/-! ## The order of the entries -/

section
variable {catalog other : Catalog} (hperm : catalog.entries.Perm other.entries)
include hperm

/-- At most one entry has the key that is read, so the order in which the entries are tried does not
    matter. -/
theorem Grammar.token?_of_perm (hc : ∀ entry ∈ catalog.entries, entry.IsConsistent)
    {grammar otherGrammar : Grammar} (hg : ofCatalog catalog = .ok grammar)
    (hother : ofCatalog other = .ok otherGrammar) (c : Char) (rest : Text) :
    grammar.token? c rest = otherGrammar.token? c rest := by
  have hc' : ∀ entry ∈ other.entries, entry.IsConsistent := fun entry hentry =>
    hc entry (hperm.mem_iff.2 hentry)
  refine Option.ext fun ⟨token, more⟩ => ?_
  rw [token?_eq_some_iff hc hg, token?_eq_some_iff hc' hother]
  simp only [hperm.mem_iff]

theorem steps_of_perm (tokens : List Token) : steps catalog tokens = steps other tokens := by
  unfold steps step?
  simp only [Catalog.resolve_of_perm hperm]

end

/-! ## Hidden entries -/

theorem Grammar.ofCatalog_hide (catalog : Catalog) (keys : List Char) :
    ofCatalog (catalog.hide keys) = ofCatalog catalog := by
  unfold ofCatalog
  rw [Catalog.source_hide]

theorem step?_hide (catalog : Catalog) (keys : List Char) (token : Token) :
    step? (catalog.hide keys) token = step? catalog token := by
  unfold step?
  rw [Catalog.resolve_hide]
  cases catalog.resolve token.key <;> rfl

theorem steps_hide (catalog : Catalog) (keys : List Char) (tokens : List Token) :
    steps (catalog.hide keys) tokens = steps catalog tokens :=
  List.filterMap_congr fun token _ => step?_hide catalog keys token

end Recast.Chain

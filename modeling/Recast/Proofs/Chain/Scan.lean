/-
  Recast chains — a scan that remembers is right.

  * `tailOf` says what a text holds by its tokens and its loose characters, with no scan;
  * `Scan.IsSound`: what a scan has noted about a place is what the text holds from there on;
  * `walk_spec`, `settle_spec`, `tailAt_spec`: a question is answered rightly and leaves a sound scan,
    whatever was asked before;
  * `answers_start`: so are any questions in any order.
-/
import Mathlib.Data.List.Forall2
import Mathlib.Tactic.SplitIfs
import Recast.Chain.Clean
import Std.Data.HashMap.Lemmas

namespace Recast.Chain

/-- What a text holds: a loose character that is not glue, or else tokens and glue, or else glue
    only. -/
def tailOf (grammar : Grammar) (isGlue : Char → Bool) (s : Text) : Tail :=
  if (grammar.loose s).all isGlue then
    if grammar.tokens s = [] then .glue else .tokens
  else .dirty

/-- What a text holds from a place on. -/
def tailFrom (grammar : Grammar) (isGlue : Char → Bool) (text : Text) (place : Nat) : Tail :=
  tailOf grammar isGlue (text.drop place)

section
variable {grammar : Grammar} {isGlue : Char → Bool}

theorem tailOf_nil : tailOf grammar isGlue [] = .glue := rfl

theorem tailOf_cons_token {c : Char} {rest : Text} {token : Token} {more : Nat}
    (h : grammar.token? c rest = some (token, more)) :
    tailOf grammar isGlue (c :: rest) = (tailOf grammar isGlue (rest.drop more)).before true := by
  unfold tailOf Grammar.loose Grammar.tokens
  rw [Text.cover_cons_of_some h, Text.items_item, Text.loose_item, if_neg (List.cons_ne_nil _ _)]
  split_ifs <;> rfl

theorem tailOf_cons_loose {c : Char} {rest : Text} (h : grammar.token? c rest = none) :
    tailOf grammar isGlue (c :: rest) =
      if isGlue c then (tailOf grammar isGlue rest).before false else .dirty := by
  unfold tailOf Grammar.loose Grammar.tokens
  rw [Text.cover_cons_of_none h, Text.items_loose, Text.loose_loose, List.all_cons]
  by_cases hc : isGlue c = true
  · rw [hc, Bool.true_and, if_pos rfl]
    split_ifs <;> rfl
  · rw [Bool.not_eq_true] at hc
    rw [hc, Bool.false_and, if_neg (by simp), if_neg (by simp)]

/-- A text is clean if it holds tokens. -/
theorem tailOf_eq_tokens_iff {s : Text} :
    tailOf grammar isGlue s = .tokens ↔
      grammar.tokens s ≠ [] ∧ ∀ c ∈ grammar.loose s, isGlue c = true := by
  unfold tailOf
  rw [← List.all_eq_true]
  split_ifs with hall hnil
  · simp [hnil]
  · simp [hall, hnil]
  · simp [hall]

end

/-! ## One question -/

/-- What a memo notes is what `spec` says. -/
def Memo.IsSound (spec : Nat → Tail) (memo : Memo) : Prop :=
  ∀ place tail, memo[place]? = some tail → tail = spec place

theorem Memo.IsSound.insert {spec : Nat → Tail} {memo : Memo} (h : Memo.IsSound spec memo)
    (place : Nat) : Memo.IsSound spec (memo.insert place (spec place)) := by
  intro other tail hother
  rw [Std.HashMap.getElem?_insert] at hother
  split at hother
  · next heq =>
    obtain rfl := eq_of_beq heq
    exact (Option.some.inj hother).symm
  · exact h other tail hother

/-- A path leads from `start` to `next`: what each place holds follows from what the next one
    holds. -/
def Leads (spec : Nat → Tail) (start : Nat) : List (Nat × Bool) → (next : Nat) → Prop
  | [], next => spec start = spec next
  | (place, isToken) :: path, next =>
    spec place = (spec next).before isToken ∧ Leads spec start path place

theorem Leads.congr {spec : Nat → Tail} {start next other : Nat} {path : List (Nat × Bool)}
    (h : Leads spec start path next) (heq : spec next = spec other) :
    Leads spec start path other := by
  cases path with
  | nil => exact h.trans heq
  | cons step path => exact ⟨heq ▸ h.1, h.2⟩

/-- **Going back along a path** finds what its start holds, and notes only what is so. -/
theorem settle_spec {spec : Nat → Tail} {start next : Nat} {path : List (Nat × Bool)} {memo : Memo}
    (hmemo : memo.IsSound spec) (hpath : Leads spec start path next) :
    (settle memo (spec next) path).1 = spec start ∧
      Memo.IsSound spec (settle memo (spec next) path).2 := by
  induction path generalizing memo next with
  | nil => exact ⟨hpath.symm, hmemo⟩
  | cons step path ih =>
    obtain ⟨place, isToken⟩ := step
    obtain ⟨hplace, hpath⟩ := hpath
    rw [settle, ← hplace]
    exact ih (hmemo.insert place) hpath

/-- **Walking on** leads to a place about which the walk is right.  The `skip` characters of a token
    are passed without a look, so the path leads behind them. -/
theorem walk_spec {grammar : Grammar} {isGlue : Char → Bool} {text : Text} {memo : Memo}
    (hmemo : memo.IsSound (tailFrom grammar isGlue text)) {start : Nat}
    {path : List (Nat × Bool)} {place skip : Nat} {rest : Text} (hrest : text.drop place = rest)
    (hpath : Leads (tailFrom grammar isGlue text) start path (place + skip)) :
    let walked := walk grammar isGlue memo path place skip rest
    walked.tail = tailFrom grammar isGlue text walked.stop ∧
      Leads (tailFrom grammar isGlue text) start walked.path walked.stop := by
  induction rest generalizing path place skip with
  | nil =>
    have hskip : text.drop (place + skip) = [] := by rw [← List.drop_drop, hrest, List.drop_nil]
    have hwalk : walk grammar isGlue memo path place skip [] =
        ⟨path, place, memo[place]?.getD .glue⟩ := by cases skip <;> rfl
    rw [hwalk]
    refine ⟨?_, hpath.congr (by rw [tailFrom, tailFrom, hskip, hrest])⟩
    cases hknown : memo[place]? with
    | none =>
      rw [tailFrom, hrest]
      exact tailOf_nil.symm
    | some tail => exact hmemo place tail hknown
  | cons c rest ih =>
    have hnext : text.drop (place + 1) = rest := by rw [← List.drop_drop, hrest]; rfl
    cases skip with
    | succ skip =>
      exact ih hnext (by rwa [Nat.add_assoc, Nat.add_comm 1])
    | zero =>
      unfold walk
      split
      · next tail hknown => exact ⟨hmemo place tail hknown, hpath⟩
      · split
        · next token more htoken =>
          refine ih hnext ⟨?_, hpath⟩
          rw [tailFrom, tailFrom, hrest, tailOf_cons_token htoken, ← List.drop_drop, hnext]
        · next htoken =>
          split
          · next hglue =>
            refine ih hnext ⟨?_, hpath⟩
            rw [tailFrom, tailFrom, hrest, tailOf_cons_loose htoken, if_pos hglue, Nat.add_zero,
              hnext]
          · next hglue =>
            refine ⟨?_, hpath⟩
            rw [tailFrom, hrest, tailOf_cons_loose htoken, if_neg hglue]

namespace Scan

/-- What a scan has noted about a place is what the text holds from there on. -/
def IsSound (scan : Scan) : Prop :=
  Memo.IsSound (tailFrom scan.grammar scan.isGlue scan.text) scan.memo

theorem isSound_start (grammar : Grammar) (isGlue : Char → Bool) (text : Text) :
    (start grammar isGlue text).IsSound := by
  intro place tail h
  rw [start, Std.HashMap.getElem?_empty] at h
  exact absurd h (by simp)

/-- **A question is answered rightly** by a sound scan, which stays sound; the text, the grammar and
    the glue stay as they are. -/
theorem tailAt_spec {scan : Scan} (h : scan.IsSound) (place : Nat) :
    (scan.tailAt place (scan.text.drop place)).1 =
        tailFrom scan.grammar scan.isGlue scan.text place ∧
      ∃ memo, (scan.tailAt place (scan.text.drop place)).2 = { scan with memo := memo } ∧
        IsSound { scan with memo := memo } := by
  obtain ⟨htail, hpath⟩ := walk_spec h rfl
    (show Leads (tailFrom scan.grammar scan.isGlue scan.text) place [] (place + 0) from rfl)
  obtain ⟨hstart, hmemo⟩ := settle_spec (h.insert _) hpath
  rw [← htail] at hstart hmemo
  exact ⟨hstart, _, rfl, hmemo⟩

theorem isCleanFrom_spec {scan : Scan} (h : scan.IsSound) (place : Nat) :
    ((scan.isCleanFrom place).1 = true ↔
        scan.grammar.tokens (scan.text.drop place) ≠ [] ∧
          ∀ c ∈ scan.grammar.loose (scan.text.drop place), scan.isGlue c = true) ∧
      ∃ memo, (scan.isCleanFrom place).2 = { scan with memo := memo } ∧
        IsSound { scan with memo := memo } := by
  obtain ⟨htail, hmemo⟩ := tailAt_spec h place
  refine ⟨?_, hmemo⟩
  change ((scan.tailAt place _).1 == Tail.tokens) = true ↔ _
  rw [htail, beq_iff_eq]
  exact tailOf_eq_tokens_iff

/-- The scan after some questions. -/
def after (scan : Scan) (places : List Nat) : Scan :=
  places.foldl (fun scan place => (scan.isCleanFrom place).2) scan

/-- **Any questions in any order are answered rightly**, and what is noted afterwards is right. -/
theorem answers_spec {scan : Scan} (h : scan.IsSound) (places : List Nat) :
    List.Forall₂ (fun place answer => answer = true ↔
        scan.grammar.tokens (scan.text.drop place) ≠ [] ∧
          ∀ c ∈ scan.grammar.loose (scan.text.drop place), scan.isGlue c = true)
        places (scan.answers places) ∧
      ∃ memo, scan.after places = { scan with memo := memo } ∧
        IsSound { scan with memo := memo } := by
  induction places generalizing scan with
  | nil => exact ⟨.nil, scan.memo, rfl, h⟩
  | cons place places ih =>
    obtain ⟨hanswer, memo, hscan, hsound⟩ := isCleanFrom_spec h place
    obtain ⟨hanswers, hafter⟩ := ih hsound
    constructor
    · change List.Forall₂ _ _
        ((scan.isCleanFrom place).1 :: (scan.isCleanFrom place).2.answers places)
      rw [hscan]
      exact .cons hanswer hanswers
    · rw [after, List.foldl_cons, hscan]
      exact hafter

/-- **A scan that remembers agrees with one that does not.**  On one scan, whatever is asked in
    whatever order, each answer says whether the text has a token from the place on and, outside its
    tokens, only glue; and each note says what the text holds from its place on. -/
theorem answers_start (grammar : Grammar) (isGlue : Char → Bool) (text : Text)
    (places : List Nat) :
    List.Forall₂ (fun place answer => answer = true ↔
        grammar.tokens (text.drop place) ≠ [] ∧
          ∀ c ∈ grammar.loose (text.drop place), isGlue c = true)
        places ((start grammar isGlue text).answers places) ∧
      ∀ place tail, ((start grammar isGlue text).after places).memo[place]? = some tail →
        tail = tailOf grammar isGlue (text.drop place) := by
  obtain ⟨hanswers, memo, hafter, hsound⟩ :=
    answers_spec (isSound_start grammar isGlue text) places
  refine ⟨hanswers, ?_⟩
  rw [hafter]
  exact hsound

end Scan

end Recast.Chain

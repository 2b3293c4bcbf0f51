/-
  Recast JSON — laying a document out anew keeps it.

  * `reformat_eq_ok_iff`: when a document is laid out;
  * `HasWordIntegers s`: the numbers of `s` are integers, other than `-0`, that fit into 64 bits with
    or without a sign;
  * `reformat_of_hasWordIntegers`: laid out anew, such a document means what it meant, and how it was
    laid out before makes no difference.
-/
import Recast.Proofs.Json.Meaning

namespace Recast.Json

theorem reformat_eq_ok_iff {i s written : Text} :
    reformat i s = .ok written ↔ ∃ indent value, Indent.ofText? i = some indent ∧
      Value.ofText? s = some value ∧ value.text indent.layout = written := by
  unfold reformat
  cases Indent.ofText? i with
  | none => simp
  | some indent => cases Value.ofText? s <;> simp

/-- The number that a token is. -/
def Token.literal? : Token → Option NumberLiteral
  | .number literal => some literal
  | _ => none

theorem Token.literal?_eq_some_iff {token : Token} {literal : NumberLiteral} :
    token.literal? = some literal ↔ token = .number literal := by
  cases token <;> simp [literal?]

/-- All numbers of a text are integers of 64 bits. -/
def HasWordIntegers (s : Text) : Prop :=
  ∀ tokens, tokens? s = some tokens →
    ∀ literal, Token.number literal ∈ tokens → literal.IsWordInteger

instance (s : Text) : Decidable (HasWordIntegers s) :=
  decidable_of_iff (∀ tokens ∈ tokens? s, ∀ literal ∈ tokens.filterMap Token.literal?,
      literal.IsWordInteger) <| by
    constructor
    · intro h tokens htokens literal hliteral
      exact h tokens htokens literal (List.mem_filterMap.2 ⟨_, hliteral, rfl⟩)
    · intro h tokens htokens literal hliteral
      obtain ⟨token, htoken, hnumber⟩ := List.mem_filterMap.1 hliteral
      exact h tokens htokens literal (Token.literal?_eq_some_iff.1 hnumber ▸ htoken)

theorem isStable_of_hasWordIntegers {s : Text} (h : HasWordIntegers s) {value : Value}
    (hvalue : Value.ofText? s = some value) : value.IsStable depthLimit := by
  obtain ⟨tree, htree, hvalue⟩ := Option.bind_eq_some_iff.1 hvalue
  obtain ⟨tokens, htokens, htree⟩ := Option.bind_eq_some_iff.1 htree
  obtain rfl := Tree.ofTokens?_eq_some_iff.1 htree
  exact Value.isStable_of_ofTree? tree hvalue (h _ htokens)

theorem exists_means_of_ofText? {s : Text} {value : Value} (h : Value.ofText? s = some value) :
    ∃ tree, Tree.ofText? s = some tree ∧ tree.Means value := by
  obtain ⟨tree, htree, hvalue⟩ := Option.bind_eq_some_iff.1 h
  exact ⟨tree, htree, Value.means_of_ofTree? tree hvalue⟩

/-- **A document laid out anew is the same document.**  If it is accepted with one indent, it is with
    every indent; what is written has the same value, which is what both trees mean; and laid out
    once more it is as if it had been laid out but once. -/
theorem reformat_of_hasWordIntegers {first s formatted i j : Text}
    (haccepted : reformat first s = .ok formatted) (hword : HasWordIntegers s)
    (hi : (Indent.ofText? i).isSome) (hj : (Indent.ofText? j).isSome) :
    ∃ value tree other written again,
      Tree.ofText? s = some tree ∧ tree.Means value ∧ Value.ofText? s = some value ∧
      reformat i s = .ok written ∧
      Tree.ofText? written = some other ∧ other.Means value ∧ Value.ofText? written = some value ∧
      reformat j s = .ok again ∧ reformat j written = .ok again := by
  obtain ⟨-, value, -, hvalue, -⟩ := reformat_eq_ok_iff.1 haccepted
  obtain ⟨narrow, hnarrow⟩ := Option.isSome_iff_exists.1 hi
  obtain ⟨wide, hwide⟩ := Option.isSome_iff_exists.1 hj
  have hstable := isStable_of_hasWordIntegers hword hvalue
  have hwritten := Value.ofText?_text narrow.isBlank_layout hstable
  obtain ⟨tree, htree, hmeans⟩ := exists_means_of_ofText? hvalue
  obtain ⟨other, hother, hsame⟩ := exists_means_of_ofText? hwritten
  exact ⟨value, tree, other, value.text narrow.layout, value.text wide.layout,
    htree, hmeans, hvalue, reformat_eq_ok_iff.2 ⟨narrow, value, hnarrow, hvalue, rfl⟩,
    hother, hsame, hwritten, reformat_eq_ok_iff.2 ⟨wide, value, hwide, hvalue, rfl⟩,
    reformat_eq_ok_iff.2 ⟨wide, value, hwide, hwritten, rfl⟩⟩

/-- A repeated key, a pair of units, a control character, empty containers and the least and the
    greatest integer. -/
def sampleDocument : Text :=
  "\x7b \"a\":[1], \"\\u0062\" :\"\\ud83d\\uDE00\\u0007/\\/é\",
    \"a\":\x7b\"\":-9223372036854775808,\"c\":[18446744073709551615,\x7b\x7d,[]]\x7d \x7d".toList

theorem reformat_sampleDocument :
    ∃ value tree other written again,
      Tree.ofText? sampleDocument = some tree ∧ tree.Means value ∧
      Value.ofText? sampleDocument = some value ∧
      reformat "t".toList sampleDocument = .ok written ∧
      Tree.ofText? written = some other ∧ other.Means value ∧ Value.ofText? written = some value ∧
      reformat " 03 ".toList sampleDocument = .ok again ∧
      reformat " 03 ".toList written = .ok again :=
  have haccepted : reformat "0".toList sampleDocument = .ok
      ("\x7b\"a\":\x7b\"\":-9223372036854775808,\"c\":[18446744073709551615,\x7b\x7d,[]]\x7d," ++
        "\"b\":\"😀\\u0007//é\"\x7d").toList := by decide +kernel
  reformat_of_hasWordIntegers haccepted (by decide +kernel) (by decide) (by decide)

end Recast.Json

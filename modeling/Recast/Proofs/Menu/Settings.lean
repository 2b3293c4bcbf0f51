/-
  Recast menus — the documents of settings.

  Settings have many documents: the members stand in any order, fields may be left out if they have
  their defaults, strings may be escaped, and members of other names hold any values.

  * `Settings.Shows settings field tree`: a tree is a way to write the value of a field;
  * `Settings.IsSpelled settings members`: the members of an object are a way to write settings;
  * `set_of_shows`, `agree_iff_of_set`: what setting a field does, to this field and to the others;
    `setMembers_of_allows`: what setting members does;
  * `Settings.ofText_of_isWritten`: settings are read from each of their documents, among which is
    the one that is written for them, unless the separator is empty;
  * `Settings.ofText_eq_invalidJson`: a key must be a text, though what a key of another name holds may
    be anything.
-/
import Recast.Menu.Settings
import Recast.Proofs.Json.Printed

namespace Recast.Menu

open Json (StringLiteral Tree Value quotePart means_map_quotePart text?_of_means)

/-! ## Fields -/

theorem Field.mem_all (field : Field) : field ∈ Field.all := by
  cases field <;> decide

theorem Field.named?_eq_some_iff {s : Text} {field : Field} :
    Field.named? s = some field ↔ s = field.name := by
  have hname : ∀ field : Field, Field.named? field.name = some field := by
    intro field
    cases field <;> decide
  constructor
  · intro h
    have hfound := List.find?_some h
    exact (of_decide_eq_true hfound).symm
  · rintro rfl
    exact hname field

theorem Field.named?_eq_none {s : Text} (h : ∀ field : Field, s ≠ field.name) :
    Field.named? s = none :=
  Option.eq_none_iff_forall_ne_some.2 fun field hfield => h field (named?_eq_some_iff.1 hfield)

/-- A key that stands for the names of two fields stands for one field. -/
theorem Field.eq_of_means {key : StringLiteral} {field other : Field} (h : key.Means field.name)
    (hother : key.Means other.name) : field = other := by
  have hname : field.name = other.name := h.unique hother
  exact Option.some.inj ((named?_eq_some_iff.2 rfl).symm.trans (named?_eq_some_iff.2 hname))

theorem FailurePolicy.named?_name (policy : FailurePolicy) :
    FailurePolicy.named? policy.name = some policy := by
  cases policy <;> decide

namespace Settings

/-! ## The documents of settings -/

/-- Two settings agree on a field. -/
def Agree (a b : Settings) : Field → Prop
  | .separator => a.separator = b.separator
  | .onFailure => a.onFailure = b.onFailure
  | .hidden => a.hidden = b.hidden
  | .iconDirectory => a.iconDirectory = b.iconDirectory
  | .multilineTitle => a.multilineTitle = b.multilineTitle
  | .failureTitle => a.failureTitle = b.failureTitle

/-- The ways to write the value of a field. -/
inductive Shows (settings : Settings) : Field → Tree → Prop
  | separator {literal : StringLiteral} : literal.Means settings.separator →
      Shows settings .separator (.string literal)
  | onFailure {literal : StringLiteral} : literal.Means settings.onFailure.name →
      Shows settings .onFailure (.string literal)
  | hidden {literals : List StringLiteral} :
      List.Forall₂ (fun key literal => StringLiteral.Means literal [key]) settings.hidden literals →
      Shows settings .hidden (.array (literals.map .string))
  | iconDirectory {literal : StringLiteral} : literal.Means settings.iconDirectory →
      Shows settings .iconDirectory (.string literal)
  | multilineTitle {literal : StringLiteral} : literal.Means settings.multilineTitle →
      Shows settings .multilineTitle (.string literal)
  | failureTitle {literal : StringLiteral} : literal.Means settings.failureTitle →
      Shows settings .failureTitle (.string literal)

/-- The members that a document of the settings may have. -/
inductive Allows (settings : Settings) : StringLiteral × Tree → Prop
  /-- a field with its value -/
  | field {field : Field} {key : StringLiteral} {tree : Tree} : key.Means field.name →
      settings.Shows field tree → Allows settings (key, tree)
  /-- a member of another name, with any value at all -/
  | other {name : Text} {key : StringLiteral} (tree : Tree) : key.Means name →
      (∀ field : Field, name ≠ field.name) → Allows settings (key, tree)

/-- The members of an object are a way to write settings. -/
structure IsSpelled (settings : Settings) (members : List (StringLiteral × Tree)) : Prop where
  allows : ∀ member ∈ members, settings.Allows member
  /-- no field is there twice -/
  once : members.Pairwise fun first second =>
    ∀ field : Field, first.1.Means field.name → ¬ second.1.Means field.name
  /-- a field that is not there has its default -/
  default_or_mem : ∀ field, Agree {} settings field ∨ ∃ member ∈ members, member.1.Means field.name

theorem eq_of_agree {a b : Settings} (h : ∀ field, a.Agree b field) : a = b := by
  cases a
  cases b
  simp only [mk.injEq]
  exact ⟨h .separator, h .onFailure, h .hidden, h .iconDirectory, h .multilineTitle,
    h .failureTitle⟩

/-! ## Setting fields -/

section Reading

variable {settings current next : Settings} {field other : Field} {key : StringLiteral} {tree : Tree}
  {seen : List Field} {more members : List (StringLiteral × Tree)}

/-- Setting a field leaves the others alone. -/
theorem agree_iff_of_set (h : current.set field tree = some next) (hother : other ≠ field) :
    next.Agree settings other ↔ current.Agree settings other := by
  cases field <;> obtain ⟨value, -, rfl⟩ := Option.map_eq_some_iff.1 h <;>
    cases other <;> first | exact Iff.rfl | exact absurd rfl hother

theorem keysOf?_of_means {keys : List Char} {literals : List StringLiteral}
    (h : List.Forall₂ (fun key literal => StringLiteral.Means literal [key]) keys literals) :
    keysOf? (.array (literals.map .string)) = some keys := by
  induction h with
  | nil => rfl
  | cons hkey _ ih =>
    have hfirst : ∀ literal : StringLiteral, ∀ c, literal.Means [c] →
        keyOf? (.string literal) = some c := by
      intro literal c h
      rw [keyOf?, textOf?, text?_of_means h]
    rw [keysOf?] at ih
    simp [keysOf?, hfirst _ _ hkey, ih]

/-- **A field is set to the value that is written.** -/
theorem set_of_shows (h : settings.Shows field tree) (current : Settings) :
    ∃ next, current.set field tree = some next ∧ next.Agree settings field := by
  have htext : ∀ {literal : StringLiteral} {s : Text}, literal.Means s →
      textOf? (.string literal) = some s := text?_of_means
  cases h with
  | separator h =>
    exact ⟨{ current with separator := settings.separator }, by simp [set, htext h], rfl⟩
  | @onFailure literal h =>
    have hpolicy : policyOf? (.string literal) = some settings.onFailure := by
      rw [policyOf?, text?_of_means h, Option.bind_some, FailurePolicy.named?_name]
    exact ⟨{ current with onFailure := settings.onFailure }, by simp [set, hpolicy], rfl⟩
  | hidden h =>
    exact ⟨{ current with hidden := settings.hidden }, by simp [set, keysOf?_of_means h], rfl⟩
  | iconDirectory h =>
    exact ⟨{ current with iconDirectory := settings.iconDirectory }, by simp [set, htext h], rfl⟩
  | multilineTitle h =>
    exact ⟨{ current with multilineTitle := settings.multilineTitle }, by simp [set, htext h], rfl⟩
  | failureTitle h =>
    exact ⟨{ current with failureTitle := settings.failureTitle }, by simp [set, htext h], rfl⟩

theorem setMembers_cons_of_field (hkey : key.Means field.name) (hseen : field ∉ seen)
    (hset : current.set field tree = some next) :
    current.setMembers seen ((key, tree) :: more) = next.setMembers (field :: seen) more := by
  have hnamed : Field.named? field.name = some field := Field.named?_eq_some_iff.2 rfl
  have hcontains : seen.contains field = false := by simpa using hseen
  simp only [setMembers, text?_of_means hkey, hnamed, hcontains, hset, Bool.false_eq_true, if_false,
    Option.bind_some]

theorem setMembers_cons_of_other {name : Text} (hkey : key.Means name)
    (hname : ∀ field : Field, name ≠ field.name) :
    current.setMembers seen ((key, tree) :: more) = current.setMembers seen more := by
  simp only [setMembers, text?_of_means hkey, Field.named?_eq_none hname]

/-- **Setting members makes the settings that they spell.**  Of each field, either the value is already
    there or a member is still to come, and no member that is still to come sets a field again. -/
theorem setMembers_of_allows (hallows : ∀ member ∈ members, settings.Allows member)
    (honce : members.Pairwise fun first second =>
      ∀ field : Field, first.1.Means field.name → ¬ second.1.Means field.name)
    (hseen : ∀ member ∈ members, ∀ field : Field, member.1.Means field.name → field ∉ seen)
    (hgiven : ∀ field, current.Agree settings field ∨ ∃ member ∈ members, member.1.Means field.name) :
    current.setMembers seen members = some settings := by
  induction members generalizing current seen with
  | nil =>
    have hagree : ∀ field, current.Agree settings field := fun field =>
      (hgiven field).resolve_right (by simp)
    rw [setMembers, eq_of_agree hagree]
  | cons member rest ih =>
    obtain ⟨hfirst, hrest⟩ := List.pairwise_cons.1 honce
    obtain ⟨hmember, hallows'⟩ := List.forall_mem_cons.1 hallows
    obtain ⟨hunseen, hseen'⟩ := List.forall_mem_cons.1 hseen
    -- a field that this member does not set is there already or still to come
    have hgiven' : ∀ field, ¬ member.1.Means field.name →
        current.Agree settings field ∨ ∃ member ∈ rest, member.1.Means field.name :=
      fun field hfield => (hgiven field).imp_right fun ⟨later, hlater, hkey⟩ => by
        rcases List.mem_cons.1 hlater with rfl | hlater
        · exact absurd hkey hfield
        · exact ⟨later, hlater, hkey⟩
    cases hmember with
    | @field field key tree hkey hshows =>
      obtain ⟨next, hset, hnext⟩ := set_of_shows hshows current
      rw [setMembers_cons_of_field hkey (hunseen field hkey) hset]
      refine ih hallows' hrest (fun later hlater other hother => ?_) fun other => ?_
      · have hne : other ≠ field := fun heq => hfirst later hlater field hkey (heq ▸ hother)
        simpa [hne] using hseen' later hlater other hother
      · by_cases hother : other = field
        · exact .inl (hother ▸ hnext)
        · rw [agree_iff_of_set hset hother]
          exact hgiven' other fun hmeans => hother (Field.eq_of_means hmeans hkey)
    | @other name key tree hkey hname =>
      rw [setMembers_cons_of_other hkey hname]
      exact ih hallows' hrest hseen' fun field =>
        hgiven' field fun hfield => hname field (hkey.unique hfield)

end Reading

/-! ## Reading settings -/

theorem ofTree?_of_isSpelled {settings : Settings} {members : List (StringLiteral × Tree)}
    (h : settings.IsSpelled members) : ofTree? (.object members) = some settings :=
  setMembers_of_allows h.allows h.once (by simp) h.default_or_mem

theorem ofText_of_ofTree? {settings : Settings} {tree : Tree} {s : Text} (hs : tree.IsWritten s)
    (htree : ofTree? tree = some settings) :
    ofText s = if settings.separator = [] then .error .emptySeparator else .ok settings := by
  simp only [ofText, Json.Tree.ofText?_of_isWritten hs, Option.bind_some, htree, List.isEmpty_iff]

/-- A key that is no text is an error, whatever its value and whatever else is there. -/
theorem setMembers_eq_none {members : List (StringLiteral × Tree)} {member : StringLiteral × Tree}
    (hmember : member ∈ members) (hkey : member.1.text? = none) (current : Settings)
    (seen : List Field) : current.setMembers seen members = none := by
  induction members generalizing current seen with
  | nil => exact absurd hmember List.not_mem_nil
  | cons first rest ih =>
    unfold setMembers
    rcases List.mem_cons.1 hmember with rfl | hrest
    · rw [hkey]
    · split
      · rfl
      · split
        · exact ih hrest current seen
        · split_ifs
          · rfl
          · exact Option.bind_eq_none_iff.2 fun next _ => ih hrest next _

theorem ofText_eq_invalidJson {members : List (StringLiteral × Tree)}
    {member : StringLiteral × Tree} {s : Text} (hs : (Tree.object members).IsWritten s)
    (hmember : member ∈ members) (hkey : member.1.text? = none) : ofText s = .error .invalidJson := by
  simp only [ofText, Json.Tree.ofText?_of_isWritten hs, Option.bind_some, ofTree?,
    setMembers_eq_none hmember hkey]

theorem separator_ne_nil_of_ofText {settings : Settings} {s : Text} (h : ofText s = .ok settings) :
    settings.separator ≠ [] := by
  unfold ofText at h
  split at h
  · cases h
  · split_ifs at h with hempty
    obtain rfl := Except.ok.inj h
    simpa using hempty

/-! ## Writing settings -/

theorem shows_fieldValue (settings : Settings) (field : Field) :
    settings.Shows field (settings.fieldValue field).tree := by
  cases field with
  | separator => exact .separator (means_map_quotePart _)
  | onFailure => exact .onFailure (means_map_quotePart _)
  | hidden =>
    have hkeys : List.Forall₂ (fun key literal => StringLiteral.Means literal [key])
        settings.hidden (settings.hidden.map fun key => [quotePart key]) := by
      rw [List.forall₂_map_right_iff, List.forall₂_same]
      exact fun key _ => means_map_quotePart [key]
    have hshows := Shows.hidden hkeys
    rw [List.map_map] at hshows
    rw [fieldValue, Value.tree, Value.trees_eq_map, List.map_map]
    exact hshows
  | iconDirectory => exact .iconDirectory (means_map_quotePart _)
  | multilineTitle => exact .multilineTitle (means_map_quotePart _)
  | failureTitle => exact .failureTitle (means_map_quotePart _)

theorem exists_tree_value (settings : Settings) :
    ∃ members, settings.value.tree = .object members ∧ settings.IsSpelled members := by
  have hmembers := Value.memberTrees_eq_map
    (Field.all.map fun field => (field.name, settings.fieldValue field))
  rw [List.map_map] at hmembers
  refine ⟨_, by rw [value, Value.tree, hmembers], List.forall_mem_map.2 fun field _ => ?_, ?_,
    fun field => .inr ⟨_, List.mem_map_of_mem (Field.mem_all field), means_map_quotePart _⟩⟩
  · exact .field (means_map_quotePart _) (settings.shows_fieldValue field)
  · have hdistinct : Field.all.Pairwise (· ≠ ·) := by decide
    rw [List.pairwise_map]
    refine hdistinct.imp fun hne field hfirst hsecond => hne ?_
    exact (Field.eq_of_means (means_map_quotePart _) hfirst).trans
      (Field.eq_of_means hsecond (means_map_quotePart _))

theorem isStable_value (settings : Settings) : settings.value.IsStable 2 := by
  have hnames : (Field.all.map Field.name).Nodup := by decide
  refine .object hnames (List.forall_mem_map.2 fun field _ => ?_)
  cases field with
  | hidden => exact .array (List.forall_mem_map.2 fun key _ => .string [key])
  | separator | onFailure | iconDirectory | multilineTitle | failureTitle => exact .string _

/-- **Settings are read from each of their documents.**  Whatever way an object is written whose
    members are a way to write settings, these are the settings that are read; unless their separator
    is empty, which is then the error.  The document that is written for settings is one of these.
    No settings that are read have an empty separator. -/
theorem ofText_of_isWritten (settings : Settings) :
    (∀ members s, (Tree.object members).IsWritten s → settings.IsSpelled members →
      ofText s = if settings.separator = [] then .error .emptySeparator else .ok settings) ∧
    (ofText settings.text =
      if settings.separator = [] then .error .emptySeparator else .ok settings) ∧
    ∀ s, ofText s = .ok settings → settings.separator ≠ [] := by
  refine ⟨fun members s hs hmembers => ofText_of_ofTree? hs (ofTree?_of_isSpelled hmembers), ?_,
    fun s => separator_ne_nil_of_ofText⟩
  obtain ⟨members, htree, hmembers⟩ := settings.exists_tree_value
  have hblank : Json.Layout.compact.IsBlank := fun _ => List.forall_mem_nil _
  have hwritten := Json.isWritten_textAt hblank settings.isStable_value 0
  rw [htree] at hwritten
  exact ofText_of_ofTree? hwritten (ofTree?_of_isSpelled hmembers)

/-- A member of another name whose value is half a pair of units, and a field behind white space. -/
theorem ofText_of_isWritten_hidden :
    ofText "\x7b\"x\":\"\\ud800\", \"hidden\":[\"d\"]\x7d".toList = .ok { hidden := ['d'] } ∧
      ({ hidden := ['d'] } : Settings).separator ≠ [] := by
  have hdigit : ∀ n < 16, Letter.IsHexDigit (Nat.digitChar n) n := fun n hn => ⟨hn, .inl rfl⟩
  have hhalf : StringLiteral.IsWritten [.unit 0xD800] "\"\\ud800\"".toList :=
    ⟨_, .cons (.unit (hdigit 13 (by decide)) (hdigit 8 (by decide)) (hdigit 0 (by decide))
      (hdigit 0 (by decide))) .nil, rfl⟩
  have hkey : (Tree.string ("hidden".toList.map quotePart)).IsWritten " \"hidden\"".toList :=
    .gap_append (List.forall_mem_singleton.2 (rfl : Json.isGap ' ' = true))
      (.string (Json.isWritten_quote "hidden".toList))
  have hvalue : (Tree.array [.string [.char 'd']]).IsWritten "[\"d\"]".toList :=
    @Json.Tree.IsWritten.array [(_, "\"d\"".toList)] [] (List.forall_mem_nil _)
      (List.forall_mem_singleton.2 (.string (Json.isWritten_quote ['d'])))
  have hwritten := @Json.Tree.IsWritten.object
    [⟨_, "\"x\"".toList, _, "\"\\ud800\"".toList⟩, ⟨_, " \"hidden\"".toList, _, "[\"d\"]".toList⟩] []
    (List.forall_mem_nil _)
    (List.forall_mem_cons.2 ⟨.string (Json.isWritten_quote ['x']), List.forall_mem_singleton.2 hkey⟩)
    (List.forall_mem_cons.2 ⟨.string hhalf, List.forall_mem_singleton.2 hvalue⟩)
  have hnone : ∀ field : Field, ['x'] ≠ field.name := by
    intro field
    cases field <;> decide
  have hspelled : Settings.IsSpelled { hidden := ['d'] }
      [(['x'].map quotePart, .string [.unit 0xD800]),
        ("hidden".toList.map quotePart, .array [.string [.char 'd']])] := by
    refine ⟨List.forall_mem_cons.2 ⟨.other _ (means_map_quotePart _) hnone,
      List.forall_mem_singleton.2 (@Allows.field _ .hidden _ _ (means_map_quotePart _)
        (shows_fieldValue { hidden := ['d'] } .hidden))⟩, ?_, fun field => ?_⟩
    · refine .cons (List.forall_mem_singleton.2 fun field hfield => ?_) (List.pairwise_singleton _ _)
      exact absurd ((means_map_quotePart ['x']).unique hfield) (hnone field)
    · cases field with
      | hidden => exact .inr ⟨_, .tail _ (.head _), means_map_quotePart _⟩
      | separator | onFailure | iconDirectory | multilineTitle | failureTitle => exact .inl rfl
  have hread := (ofText_of_isWritten { hidden := ['d'] }).1 _ _ hwritten hspelled
  exact ⟨hread, (ofText_of_isWritten _).2.2 _ hread⟩

end Settings

end Recast.Menu

/-
  Recast letters — Latin spellings.

  * `latinSpellings` spells the Russian letters, three letters of Ukrainian and the German umlauts
    with `ß` in basic Latin letters.  The hard and the soft sign are spelled by nothing;
  * `latin? c` is the spelling of `c`, for the letters the table covers;
  * `isWordChar c`: words are made of ASCII letters and digits and of the letters the table covers;
  * `isAlphanum_of_latin?`: a spelling holds ASCII letters only, and `latin?_of_isAlphanum`: these
    have none of their own.
-/
namespace Recast.Letter

/-- The letters that have a Latin spelling, each with its spelling. -/
def latinSpellings : List (Char × String) :=
  [('а', "a"), ('б', "b"), ('в', "v"), ('г', "g"), ('д', "d"), ('е', "e"), ('ё', "e"),
    ('ж', "zh"), ('з', "z"), ('и', "i"), ('й', "y"), ('к', "k"), ('л', "l"), ('м', "m"),
    ('н', "n"), ('о', "o"), ('п', "p"), ('р', "r"), ('с', "s"), ('т', "t"), ('у', "u"),
    ('ф', "f"), ('х', "h"), ('ц', "c"), ('ч', "ch"), ('ш', "sh"), ('щ', "sch"), ('ъ', ""),
    ('ы', "y"), ('ь', ""), ('э', "e"), ('ю', "yu"), ('я', "ya"), ('є', "ye"), ('ґ', "g"),
    ('ї', "yi"), ('А', "A"), ('Б', "B"), ('В', "V"), ('Г', "G"), ('Д', "D"), ('Е', "E"),
    ('Ё', "E"), ('Ж', "Zh"), ('З', "Z"), ('И', "I"), ('Й', "Y"), ('К', "K"), ('Л', "L"),
    ('М', "M"), ('Н', "N"), ('О', "O"), ('П', "P"), ('Р', "R"), ('С', "S"), ('Т', "T"),
    ('У', "U"), ('Ф', "F"), ('Х', "H"), ('Ц', "C"), ('Ч', "Ch"), ('Ш', "Sh"), ('Щ', "Sch"),
    ('Ъ', ""), ('Ы', "Y"), ('Ь', ""), ('Э', "E"), ('Ю', "Yu"), ('Я', "Ya"), ('Є', "Ye"),
    ('Ґ', "G"), ('Ї', "Yi"), ('ä', "ae"), ('ö', "oe"), ('ü', "ue"), ('Ä', "Ae"), ('Ö', "Oe"),
    ('Ü', "Ue"), ('ß', "ss")]

/-- The Latin spelling of a letter. -/
def latin? (c : Char) : Option (List Char) :=
  (latinSpellings.lookup c).map String.toList

/-- Whether a character belongs to a word. -/
def isWordChar (c : Char) : Bool :=
  c.isAlphanum || (latin? c).isSome

/-- A found entry is an entry of the table. -/
theorem mem_of_lookup_eq_some {α β : Type} [BEq α] [LawfulBEq α] {a : α} {b : β}
    {table : List (α × β)} (h : table.lookup a = some b) : (a, b) ∈ table := by
  induction table with
  | nil => simp at h
  | cons entry more ih =>
    obtain ⟨k, v⟩ := entry
    rw [List.lookup_cons] at h
    split at h
    · next eq =>
      obtain rfl := eq_of_beq eq
      obtain rfl := Option.some.inj h
      exact List.mem_cons_self
    · exact List.mem_cons_of_mem _ (ih h)

/-- Spellings consist of ASCII letters. -/
theorem isAlphanum_of_latin? {c d : Char} {spelling : List Char} (h : latin? c = some spelling)
    (mem : d ∈ spelling) : d.isAlphanum = true := by
  obtain ⟨s, found, rfl⟩ := Option.map_eq_some_iff.1 h
  have ascii : (latinSpellings.all fun entry => entry.2.toList.all Char.isAlphanum) = true := rfl
  exact List.all_eq_true.1 (List.all_eq_true.1 ascii _ (mem_of_lookup_eq_some found)) d mem

/-- The letters of the table are no ASCII letters. -/
theorem latin?_of_isAlphanum {c : Char} (h : c.isAlphanum = true) : latin? c = none := by
  have beyond : (latinSpellings.all fun entry => !entry.1.isAlphanum) = true := rfl
  cases found : latinSpellings.lookup c with
  | none => rw [latin?, found, Option.map_none]
  | some spelling =>
    have other := List.all_eq_true.1 beyond _ (mem_of_lookup_eq_some found)
    simp [h] at other

end Recast.Letter

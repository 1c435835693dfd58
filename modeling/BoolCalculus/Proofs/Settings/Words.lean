import BoolCalculus.Settings
import Mathlib.Data.List.TakeWhile

/-!
# Words for true and false

A text spells a word if it has the letters of the word, large or small, between blanks at both ends. The texts that are read
as a truth value are those that spell a word of its list (`Settings.word?_eq_some_iff`).
-/

namespace BoolCalculus

/-- A code point with a small letter for a large one of ASCII. -/
def Point.lower : Point → Point
  | char c => char c.toLower
  | half n => half n

namespace Text

variable {β : Type} {p : β → Bool}

/-! ## Blanks at both ends -/

/-- What stands between items to remove is kept, if it has none of them. -/
theorem stripList_append {before middle after : List β} (hbefore : ∀ b ∈ before, p b)
    (hmiddle : ∀ b ∈ middle, p b = false) (hafter : ∀ b ∈ after, p b) :
    stripList p (before ++ middle ++ after) = middle := by
  rw [stripList, List.append_assoc, List.dropWhile_append_of_pos hbefore]
  cases middle with
  | nil =>
      have nothing : after.dropWhile p = [] := List.dropWhile_eq_nil_iff.2 hafter
      rw [List.nil_append, nothing]
      rfl
  | cons b rest =>
      have first : ¬p b := by simp [hmiddle b (.head _)]
      have last : (b :: rest).reverse.dropWhile p = (b :: rest).reverse := by
        refine List.dropWhile_eq_self_iff.2 fun inside => ?_
        rw [hmiddle _ (List.mem_reverse.1 (List.getElem_mem inside))]
        exact Bool.false_ne_true
      rw [List.cons_append, List.dropWhile_cons_of_neg first, ← List.cons_append, List.reverse_append,
        List.dropWhile_append_of_pos (by simpa using hafter), last, List.reverse_reverse]

/-- What is removed at both ends of a list satisfies the test. -/
theorem exists_append_stripList (p : β → Bool) (items : List β) :
    ∃ before after, items = before ++ stripList p items ++ after ∧ (∀ b ∈ before, p b) ∧ ∀ b ∈ after, p b := by
  have split : ∀ items : List β, ∃ before, items = before ++ items.dropWhile p ∧ ∀ b ∈ before, p b := fun items =>
    ⟨items.takeWhile p, List.takeWhile_append_dropWhile.symm, fun _ => List.mem_takeWhile_imp⟩
  obtain ⟨before, front, hbefore⟩ := split items
  obtain ⟨after, back, hafter⟩ := split (items.dropWhile p).reverse
  refine ⟨before, after.reverse, ?_, hbefore, by simpa using hafter⟩
  have kept : items.dropWhile p = stripList p items ++ after.reverse := by
    rw [stripList, ← List.reverse_append, ← back, List.reverse_reverse]
  rw [List.append_assoc, ← kept, ← front]

/-! ## Letters -/

theorem chars?_eq_some_iff {s : Text} {cs : List Char} : s.chars? = some cs ↔ s.points = cs.map .char := by
  obtain ⟨points⟩ := s
  show points.mapM Point.char? = some cs ↔ points = cs.map .char
  induction points generalizing cs with
  | nil => cases cs <;> simp
  | cons point points ih =>
      cases point with
      | half n => cases cs <;> simp [Point.char?]
      | char c =>
          simp only [List.mapM_cons, Point.char?, Option.bind_eq_bind, Option.bind_some, Option.bind_eq_some_iff, ih]
          cases cs with
          | nil => simp
          | cons d cs => grind

/-- What has the small letters of characters consists of characters. -/
theorem map_lower_eq_iff {points : List Point} {letters : List Char} :
    points.map Point.lower = letters.map .char ↔
      ∃ cs : List Char, points = cs.map .char ∧ cs.map Char.toLower = letters := by
  constructor
  · intro same
    induction points generalizing letters with
    | nil =>
        obtain rfl : letters = [] := List.map_eq_nil_iff.1 same.symm
        exact ⟨[], rfl, rfl⟩
    | cons point points ih =>
        cases letters with
        | nil => cases same
        | cons letter letters =>
            obtain ⟨first, rest⟩ := List.cons.inj same
            obtain ⟨cs, rfl, rfl⟩ := ih rest
            cases point with
            | half n => cases first
            | char c =>
                obtain rfl : c.toLower = letter := Point.char.inj first
                exact ⟨c :: cs, rfl, rfl⟩
  · rintro ⟨cs, rfl, rfl⟩
    rw [List.map_map, List.map_map]
    rfl

/-- A blank is no letter. -/
theorem toLower_of_isBlank {c : Char} (blank : isBlank c) : c.toLower = c := by
  refine dif_neg ?_
  rintro ⟨fromA, toZ⟩
  have low : 65 ≤ c.toNat := fromA
  have high : c.toNat ≤ 90 := toZ
  simp [isBlank, blanks] at blank
  omega

/-- A text spells a word: it has the letters of the word, large or small, between blanks at both ends. The words for true and
false have no letter that is the small form of one outside ASCII. -/
def Spells (text : Text) (word : String) : Prop :=
  ∃ before middle after, text.points = before ++ middle ++ after ∧
    (∀ point ∈ before, point.char?.any isBlank) ∧ (∀ point ∈ after, point.char?.any isBlank) ∧
      middle.map Point.lower = (ofString word).points

/-- A word without blanks is spelled by the texts that are left with its letters when the blanks at both ends are
removed. -/
theorem spells_iff {text : Text} {word : String} (solid : ∀ c ∈ word.toList, isBlank c = false) :
    text.Spells word ↔ ∃ cs, text.strip.chars? = some cs ∧ (String.ofList cs).toLower = word := by
  have letters : ∀ cs, (String.ofList cs).toLower = word ↔ cs.map Char.toLower = word.toList := by
    intro cs
    show String.map Char.toLower (String.ofList cs) = word ↔ _
    rw [← String.toList_inj, String.toList_map, String.toList_ofList]
  simp only [chars?_eq_some_iff, letters]
  constructor
  · rintro ⟨before, middle, after, points, hbefore, hafter, same⟩
    obtain ⟨cs, rfl, lowered⟩ := map_lower_eq_iff.1 same
    refine ⟨cs, ?_, lowered⟩
    rw [strip, points]
    refine stripList_append hbefore ?_ hafter
    intro point member
    obtain ⟨c, inside, rfl⟩ := List.mem_map.1 member
    -- A blank between the letters would be its own small form, and so a letter of the word.
    have letter := solid c.toLower (lowered ▸ List.mem_map_of_mem inside)
    refine Bool.eq_false_iff.2 fun blank => ?_
    rw [toLower_of_isBlank blank] at letter
    exact Bool.eq_false_iff.1 letter blank
  · rintro ⟨cs, points, lowered⟩
    obtain ⟨before, after, split, hbefore, hafter⟩ :=
      exists_append_stripList (fun point => point.char?.any isBlank) text.points
    exact ⟨before, _, after, split, hbefore, hafter, map_lower_eq_iff.2 ⟨cs, points, lowered⟩⟩

end Text

namespace Settings

/-- The words for a truth value. -/
def words : Bool → List String
  | true => trueWords
  | false => falseWords

/-- The texts that are read as a truth value are those that spell one of its words. -/
theorem word?_eq_some_iff {text : Text} {b : Bool} : word? text = some b ↔ ∃ word ∈ words b, text.Spells word := by
  have solid : ∀ word ∈ words b, ∀ c ∈ word.toList, Text.isBlank c = false := by
    cases b <;> simp [words, trueWords, falseWords, Text.isBlank, Text.blanks]
  have listed : ∀ word : String,
      (if word ∈ trueWords then some true else if word ∈ falseWords then some false else none) = some b ↔
        word ∈ words b := by
    intro word
    have apart : word ∈ falseWords → word ∉ trueWords := by
      revert word
      decide
    cases b <;> grind [words]
  rw [word?, Option.bind_eq_some_iff]
  constructor
  · rintro ⟨cs, chars, read⟩
    have member := (listed (String.ofList cs).toLower).1 read
    exact ⟨_, member, (Text.spells_iff (solid _ member)).2 ⟨cs, chars, rfl⟩⟩
  · rintro ⟨word, member, spelled⟩
    obtain ⟨cs, chars, rfl⟩ := (Text.spells_iff (solid word member)).1 spelled
    exact ⟨cs, chars, (listed _).2 member⟩

end Settings

end BoolCalculus

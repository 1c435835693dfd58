import BoolCalculus.Text

/-!
# Blanks

The white space of Unicode together with the four separators U+001C to U+001F, and the removal of
blanks at both ends of a text.
-/

namespace BoolCalculus.Text

/-- The blank code points, as ranges with both ends, in rising order. -/
def blanks : List (Nat × Nat) :=
  [(0x09, 0x0D), (0x1C, 0x20), (0x85, 0x85), (0xA0, 0xA0), (0x1680, 0x1680), (0x2000, 0x200A),
    (0x2028, 0x2029), (0x202F, 0x202F), (0x205F, 0x205F), (0x3000, 0x3000)]

/-- Whether a character is blank. -/
def isBlank (c : Char) : Bool :=
  blanks.any fun (low, high) => low ≤ c.toNat && c.toNat ≤ high

/-- Removes what satisfies a test at both ends of a list. -/
def stripList {β : Type} (p : β → Bool) (items : List β) : List β :=
  ((items.dropWhile p).reverse.dropWhile p).reverse

/-- Removes the blanks at both ends of a text. -/
def strip (s : Text) : Text :=
  ⟨stripList (fun point => point.char?.any isBlank) s.points⟩

/-- What core calls white space is blank. -/
theorem isBlank_of_isWhitespace {c : Char} (h : c.isWhitespace) : isBlank c := by
  simp only [Char.isWhitespace, Bool.or_eq_true, decide_eq_true_eq] at h
  rcases h with ((h | h) | h) | h <;> subst h <;> decide

end BoolCalculus.Text

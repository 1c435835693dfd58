import BoolCalculus.Text

/-!
# Bytes of a text

The names that a system knows are rows of bytes. A character has its bytes of UTF-8, and a lone half from U+DC80 to
U+DCFF stands for one byte that is no UTF-8. A text with any other half is no row of bytes.
-/

namespace BoolCalculus

namespace Point

/-- How many bytes a code point has, if it has any. -/
def byteCount? : Point → Option Nat
  | char c => some c.utf8Size
  | half n => if 0x480 ≤ n.val ∧ n.val ≤ 0x4FF then some 1 else none

/-- Whether a code point is half of a surrogate pair. -/
def isHalf (p : Point) : Bool :=
  p.char?.isNone

end Point

namespace Text

/-- The first code point that has no bytes, with its place and the place of the last half in the row of halves that
it starts; `before` counts the code points already passed. -/
def byteless? (before : Nat) : List Point → Option (Point × Nat × Nat)
  | [] => none
  | p :: rest =>
    if p.byteCount?.isSome then byteless? (before + 1) rest
    else some (p, before, before + (rest.takeWhile Point.isHalf).length)

/-- The number of bytes of a text; what has none does not count. -/
def byteCount (s : Text) : Nat :=
  s.points.foldl (fun n p => n + p.byteCount?.getD 0) 0

end Text

end BoolCalculus

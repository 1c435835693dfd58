import BoolCalculus.Tensor

/-!
# Mappings

A mapping sends axis `i` of a tensor to axis `m i` of a new shape. Two axes may be sent to one place, and a new axis
may have nothing that is sent to it. Every entry is checked before a tensor is reindexed: negative entries do not
count from the end.
-/

namespace BoolCalculus.Shape

/-- The first axis that a mapping does not fit; `axis` counts the axes already passed. -/
def axisMisfit? (new old : Shape) (axis : Nat) : List Int → List Int → Option Misfit
  | n :: ns, target :: targets =>
    if 0 ≤ target ∧ target < new.rank then
      let required := new.sizes[target.toNat]?.getD 0
      if n = required then axisMisfit? new old (axis + 1) ns targets
      else some (.sizes axis old target new required n)
    else some (.noTarget target new)
  | _, _ => none

/-- Why a mapping does not reindex an old shape into a new one: it has another number of entries than
the old shape has axes, or some axis has no place or no fitting place in the new shape. -/
def misfit? (new old : Shape) (mapping : List Int) : Option Misfit :=
  if mapping.length = old.rank then axisMisfit? new old 0 old.sizes mapping
  else some (.uncovered mapping old)

/-- Accepts a mapping from an old shape into a new one, or says why it does not fit. -/
def checkReindex (new old : Shape) (mapping : List Int) : Except Fault Unit :=
  match new.misfit? old mapping with
  | some cause => .error (.shapeMismatch cause)
  | none => .ok ()

end BoolCalculus.Shape

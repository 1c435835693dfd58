import BoolCalculus.Shape

/-!
# Coordinates in row-major order

An array with axis sizes `ns` has `volume ns` cells. The cell at coordinate `c` has the flat position
`flat ns c`, in which the last axis runs fastest; `coordAt ns j` is the coordinate of position `j`.
The two are inverse to each other (`coordAt_flat`, `flat_coordAt`).
-/

namespace BoolCalculus.Axes

/-- The number of cells. -/
def volume : List Nat → Nat
  | [] => 1
  | n :: ns => n * volume ns

/-- A coordinate is in bounds if it has one entry for each axis, below its size. -/
def InBounds : List Nat → List Nat → Prop
  | [], [] => True
  | n :: ns, i :: c => i < n ∧ InBounds ns c
  | _, _ => False

instance decidableInBounds : (ns c : List Nat) → Decidable (InBounds ns c)
  | [], [] => .isTrue trivial
  | n :: ns, i :: c =>
    have := decidableInBounds ns c
    inferInstanceAs (Decidable (i < n ∧ InBounds ns c))
  | [], _ :: _ | _ :: _, [] => .isFalse id

/-- The flat position of a coordinate. -/
def flat : List Nat → List Nat → Nat
  | _ :: ns, i :: c => i * volume ns + flat ns c
  | _, _ => 0

/-- The coordinate at a flat position. -/
def coordAt : List Nat → Nat → List Nat
  | [], _ => []
  | _ :: ns, j => j / volume ns :: coordAt ns (j % volume ns)

theorem flat_lt {ns c : List Nat} (h : InBounds ns c) : flat ns c < volume ns := by
  induction ns generalizing c with
  | nil => cases c <;> simp_all [InBounds, flat, volume]
  | cons n ns ih =>
      cases c with
      | nil => simp [InBounds] at h
      | cons i c =>
          obtain ⟨hi, hc⟩ := h
          have hflat := ih hc
          calc i * volume ns + flat ns c
              < i * volume ns + volume ns := by omega
            _ = (i + 1) * volume ns := by rw [Nat.add_mul, Nat.one_mul]
            _ ≤ n * volume ns := Nat.mul_le_mul_right _ hi

theorem inBounds_coordAt {ns : List Nat} {j : Nat} (h : j < volume ns) :
    InBounds ns (coordAt ns j) := by
  induction ns generalizing j with
  | nil => trivial
  | cons n ns ih =>
      have hpos : 0 < volume ns := by
        rcases Nat.eq_zero_or_pos (volume ns) with h0 | h0
        · simp [volume, h0] at h
        · exact h0
      exact ⟨Nat.div_lt_of_lt_mul (by rw [Nat.mul_comm]; exact h), ih (Nat.mod_lt _ hpos)⟩

theorem coordAt_flat {ns c : List Nat} (h : InBounds ns c) : coordAt ns (flat ns c) = c := by
  induction ns generalizing c with
  | nil => cases c <;> simp_all [InBounds, coordAt]
  | cons n ns ih =>
      cases c with
      | nil => simp [InBounds] at h
      | cons i c =>
          have hlt := flat_lt h.2
          have hpos : 0 < volume ns := by omega
          simp only [flat, coordAt, List.cons.injEq]
          constructor
          · rw [Nat.mul_comm, Nat.mul_add_div hpos, Nat.div_eq_of_lt hlt, Nat.add_zero]
          · rw [Nat.mul_comm, Nat.mul_add_mod, Nat.mod_eq_of_lt hlt]
            exact ih h.2

theorem flat_coordAt {ns : List Nat} {j : Nat} (h : j < volume ns) :
    flat ns (coordAt ns j) = j := by
  induction ns generalizing j with
  | nil => simp only [volume, Nat.lt_one_iff] at h; simp [flat, h]
  | cons n ns ih =>
      have hpos : 0 < volume ns := by
        rcases Nat.eq_zero_or_pos (volume ns) with h0 | h0
        · simp [volume, h0] at h
        · exact h0
      simp only [coordAt, flat, ih (Nat.mod_lt j hpos)]
      rw [Nat.mul_comm]
      exact Nat.div_add_mod j (volume ns)

/-- All coordinates, in the order of their flat positions. -/
def positions (ns : List Nat) : List (List Nat) :=
  (List.range (volume ns)).map (coordAt ns)

@[simp] theorem length_positions (ns : List Nat) : (positions ns).length = volume ns := by
  simp [positions]

end BoolCalculus.Axes

namespace BoolCalculus.Shape

/-- All coordinates in row-major order, the last axis fastest. An axis of a size below one has no
coordinates, and a shape without axes has one. -/
def positions (s : Shape) : List (List Nat) :=
  Axes.positions (s.sizes.map Int.toNat)

end BoolCalculus.Shape

import BoolCalculus.Proofs.Domain.Reading
import BoolCalculus.Proofs.Outcome
import Mathlib.Data.Fin.SuccPred

/-!
# Screening of operands

A construction with checks of membership screens its operands for one without checks (`Domain.Screens`): on members the
two are one construction that cannot fail, and otherwise an operand that is no member is refused. The judgement has a
rule for every way of composing constructions, and it holds of the gates of a classical domain that is closed under its
operations (`Domain.ClosedUnder.screens`). The sets of points are such a domain (`Powerset.closedUnder`).
-/

namespace BoolCalculus

variable {σ α β γ ι : Type}

namespace Domain

theorem ne_of_member {contains : α → Bool} {a x : α} (member : contains a) (alien : contains x = false) : x ≠ a := by
  rintro rfl
  simp [member] at alien

/-- A domain that decides membership, and whose bounds and operations yield members when given members. -/
structure ClosedUnder (D : Domain σ α) (contains : α → Bool) : Prop where
  classical : ∃ equals edge, D.predicates = .classical contains equals edge
  bound : ∀ act ∈ [D.bot, D.top], act.Makes (fun _ => False) (contains ·)
  compl : ∀ a, contains a → (D.compl a).Makes (fun _ => False) (contains ·)
  binary : ∀ f ∈ [D.meet, D.join, D.imp, D.equ, D.xor], ∀ a b, contains a → contains b →
    (f a b).Makes (fun _ => False) (contains ·)

variable [Shown α]

/-- The construction `checked` screens the operands of `plain`, which are the elements with `F`. If all of them are
members, the two are the same, and they make something with `P`; otherwise one that is not a member is refused. -/
structure Screens (D : Domain σ α) (contains : α → Bool) (F : α → Prop) (P : β → Prop)
    (checked plain : Build σ β) : Prop where
  passes : (∀ a, F a → contains a) → checked = plain ∧ plain.Makes (fun _ => False) P
  refuses : (∃ a, F a ∧ contains a = false) → ∀ s, ∃ a t, F a ∧ contains a = false ∧
    checked.runFrom s = (.error (.foreign D.name (Shown.value a)), t)

namespace Screens

variable {D : Domain σ α} {contains : α → Bool} {F G : α → Prop} {P : β → Prop} {Q : γ → Prop}
variable {act act' : Build σ β}

/-! ## Rules -/

/-- What has no operands is screened by itself. -/
theorem of_makes (made : act.Makes (fun _ => False) P) : D.Screens contains (fun _ => False) P act act where
  passes _ := ⟨rfl, made⟩
  refuses foreign := by
    obtain ⟨a, none, -⟩ := foreign
    exact none.elim

theorem pure {b : β} (holds : P b) : D.Screens contains (fun _ => False) P (pure b) (pure b) :=
  of_makes (.pure holds)

theorem bind {next next' : β → Build σ γ} (first : D.Screens contains F P act act')
    (rest : ∀ b, P b → D.Screens contains G Q (next b) (next' b)) :
    D.Screens contains (fun a => F a ∨ G a) Q (act >>= next) (act' >>= next') where
  passes members := by
    obtain ⟨same, made⟩ := first.passes fun a isF => members a (.inl isF)
    have later := fun b holds => (rest b holds).passes fun a isG => members a (.inr isG)
    refine ⟨Build.ext_runFrom fun s => ?_, made.bind fun b holds => (later b holds).2⟩
    obtain ⟨b, t, run, holds⟩ := made.succeeds s
    rw [same, Build.runFrom_bind_ok run, Build.runFrom_bind_ok run, (later b holds).1]
  refuses foreign s := by
    by_cases early : ∃ a, F a ∧ contains a = false
    · obtain ⟨a, t, isF, alien, refused⟩ := first.refuses early s
      exact ⟨a, t, .inl isF, alien, Build.runFrom_bind_error refused⟩
    · -- The first part passes, so it is the rest that meets an operand that is no member.
      have members : ∀ a, F a → contains a := by
        intro a isF
        by_contra alien
        exact early ⟨a, isF, eq_false_of_ne_true alien⟩
      obtain ⟨same, made⟩ := first.passes members
      obtain ⟨b, t, run, holds⟩ := made.succeeds s
      have late : ∃ a, G a ∧ contains a = false := by
        obtain ⟨a, isF | isG, alien⟩ := foreign
        · exact absurd ⟨a, isF, alien⟩ early
        · exact ⟨a, isG, alien⟩
      obtain ⟨a, u, isG, alien, refused⟩ := (rest b holds).refuses late t
      refine ⟨a, u, .inr isG, alien, ?_⟩
      rw [same, Build.runFrom_bind_ok run]
      exact refused

theorem weaken {P' : β → Prop} (screens : D.Screens contains F P act act') (weaker : ∀ b, P b → P' b) :
    D.Screens contains F P' act act' where
  passes members := ⟨(screens.passes members).1, (screens.passes members).2.weaken weaker⟩
  refuses := screens.refuses

/-- Members do not count as operands. -/
theorem of_iff (screens : D.Screens contains F P act act') (same : ∀ a, contains a = false → (F a ↔ G a)) :
    D.Screens contains G P act act' where
  passes members := by
    refine screens.passes fun a isF => ?_
    by_contra alien
    exact alien (members a ((same a (eq_false_of_ne_true alien)).1 isF))
  refuses foreign s := by
    obtain ⟨a, isG, alien⟩ := foreign
    obtain ⟨b, t, isF, alien', refused⟩ := screens.refuses ⟨a, (same a alien).2 isG, alien⟩ s
    exact ⟨b, t, (same b alien').1 isF, alien', refused⟩

/-- Where all operands are members, none is left to screen. -/
theorem settled (screens : D.Screens contains F P act act') (members : ∀ a, F a → contains a) :
    D.Screens contains (fun _ => False) P act act' :=
  screens.of_iff fun a alien => ⟨fun isF => by simp [members a isF] at alien, False.elim⟩

/-! ## Loops -/

theorem mapM {F : ι → α → Prop} {f f' : ι → Build σ β} (xs : List ι)
    (each : ∀ x, D.Screens contains (F x) P (f x) (f' x)) :
    D.Screens contains (fun a => ∃ x ∈ xs, F x a) (fun bs => ∀ b ∈ bs, P b) (xs.mapM f) (xs.mapM f') := by
  induction xs with
  | nil => exact (pure (by simp)).of_iff (by simp)
  | cons x xs ih =>
      rw [List.mapM_cons, List.mapM_cons]
      refine ((each x).bind fun b first => ih.bind fun bs rest => pure ?_).of_iff (by simp)
      exact List.forall_mem_cons.2 ⟨first, rest⟩

theorem ofFnM {n : Nat} {F : Fin n → α → Prop} {f f' : Fin n → Build σ β}
    (each : ∀ i, D.Screens contains (F i) P (f i) (f' i)) :
    D.Screens contains (fun a => ∃ i, F i a) (fun bs => ∀ b ∈ bs, P b) (Vector.ofFnM f) (Vector.ofFnM f') := by
  induction n with
  | zero =>
      rw [Vector.ofFnM_zero, Vector.ofFnM_zero]
      refine (pure fun b member => ?_).of_iff (by simp)
      exact absurd member (Vector.not_mem_empty b)
  | succ n ih =>
      rw [Vector.ofFnM_succ, Vector.ofFnM_succ]
      refine ((ih fun i => each i.castSucc).bind fun bs before => (each (Fin.last n)).bind fun b last =>
        pure fun c member => ?_).of_iff (by simp [Fin.exists_fin_succ'])
      rcases Vector.mem_push.1 member with earlier | rfl
      · exact before c earlier
      · exact last

/-- A loop with an accumulator that keeps `P`. -/
theorem foldlM {n : Nat} {F : Fin n → α → Prop} {f f' : β → Fin n → Build σ β}
    (each : ∀ b i, P b → D.Screens contains (F i) P (f b i) (f' b i)) {start : β} (holds : P start) :
    D.Screens contains (fun a => ∃ i, F i a) P (Fin.foldlM n f start) (Fin.foldlM n f' start) := by
  induction n generalizing start with
  | zero =>
      rw [Fin.foldlM_zero, Fin.foldlM_zero]
      exact (pure holds).of_iff (by simp)
  | succ n ih =>
      rw [Fin.foldlM_succ, Fin.foldlM_succ]
      have steps := (each start 0 holds).bind fun b next => ih (fun b i => each b i.succ) next
      exact steps.of_iff (by simp [Fin.exists_fin_succ])

end Screens

end Domain

/-! ## Gates -/

variable [Shown α]

/-- The gates of `A` screen the operands of those of `A'` and make members. -/
structure GateSet.Screens (D : Domain σ α) (contains : α → Bool) (A A' : GateSet σ α) : Prop where
  zero : D.Screens contains (fun _ => False) (contains ·) A.zero A'.zero
  unit : D.Screens contains (fun _ => False) (contains ·) A.unit A'.unit
  not : ∀ a, D.Screens contains (· = a) (contains ·) (A.not a) (A'.not a)
  binary : ∀ gate a b,
    D.Screens contains (fun x => x = a ∨ x = b) (contains ·) (A.binary gate a b) (A'.binary gate a b)
  ternary : ∀ gate a b c, D.Screens contains (fun x => x = a ∨ x = b ∨ x = c) (contains ·)
    (A.ternary gate a b c) (A'.ternary gate a b c)

namespace Domain

variable {D : Domain σ α} {contains : α → Bool}

namespace ClosedUnder

variable (closed : D.ClosedUnder contains)

include closed

theorem checkMember_eq (a : α) :
    D.checkMember a = if contains a then pure a else throw (.foreign D.name (Shown.value a)) := by
  obtain ⟨equals, edge, classical⟩ := closed.classical
  rw [checkMember, classical]

/-- The guard in front of a gate refuses its first operand that is no member. -/
theorem screens_guard (operands : List α) : D.Screens contains (· ∈ operands)
    (fun _ => ∀ a ∈ operands, contains a) (D.guard true operands) (D.guard false operands) := by
  induction operands with
  | nil => exact (Screens.pure (by simp)).of_iff (by simp)
  | cons a rest ih =>
      have check := closed.checkMember_eq a
      by_cases member : contains a
      · have unfold : D.guard true (a :: rest) = D.guard true rest := by
          show (discard (D.checkMember a) >>= fun _ => D.guard true rest) = _
          rw [check, if_pos member]
          rfl
        rw [unfold]
        refine (ih.weaken fun _ members => ?_).of_iff fun x alien => ?_
        · exact List.forall_mem_cons.2 ⟨member, members⟩
        · simp [ne_of_member member alien]
      · constructor
        · intro members
          exact absurd (members a List.mem_cons_self) member
        · intro _ s
          refine ⟨a, s, List.mem_cons_self, eq_false_of_ne_true member, ?_⟩
          show (discard (D.checkMember a) >>= fun _ => D.guard true rest).runFrom s = _
          rw [check, if_neg member]
          rfl

/-- A gate behind a check of its operands screens them, if it never fails on members. -/
theorem screens_gate {operands : List α} {P : β → Prop} {act : Build σ β}
    (made : (∀ a ∈ operands, contains a) → act.Makes (fun _ => False) P) :
    D.Screens contains (· ∈ operands) P (D.guard true operands >>= fun _ => act)
      (D.guard false operands >>= fun _ => act) := by
  have guarded := (closed.screens_guard operands).bind fun _ members => .of_makes (made members)
  exact guarded.of_iff (by simp)

/-- A gate of two operands that is an operation of the domain. -/
theorem screens_binary {f : α → α → Build σ α} (operation : f ∈ [D.meet, D.join, D.imp, D.equ, D.xor])
    (a b : α) : D.Screens contains (fun x => x = a ∨ x = b) (contains ·)
      (D.guard true [a, b] >>= fun _ => f a b) (D.guard false [a, b] >>= fun _ => f a b) := by
  have gate : D.Screens contains (· ∈ [a, b]) (contains ·) (D.guard true [a, b] >>= fun _ => f a b)
      (D.guard false [a, b] >>= fun _ => f a b) :=
    closed.screens_gate fun members => closed.binary f operation a b (members a (by simp)) (members b (by simp))
  exact gate.of_iff (by simp)

/-- The gates with checks screen the operands of those without. -/
theorem screens : GateSet.Screens D contains (.ofDomain D true) (.ofDomain D false) := by
  have and := closed.screens_binary (f := D.meet) (by simp)
  have or := closed.screens_binary (f := D.join) (by simp)
  have imp := closed.screens_binary (f := D.imp) (by simp)
  have equ := closed.screens_binary (f := D.equ) (by simp)
  have xor := closed.screens_binary (f := D.xor) (by simp)
  constructor
  case zero => exact .of_makes (closed.bound D.bot (by simp))
  case unit => exact .of_makes (closed.bound D.top (by simp))
  case not =>
    intro a
    have gate : D.Screens contains (· ∈ [a]) (contains ·) (D.guard true [a] >>= fun _ => D.compl a)
        (D.guard false [a] >>= fun _ => D.compl a) :=
      closed.screens_gate fun members => closed.compl a (members a (by simp))
    exact gate.of_iff (by simp)
  case binary =>
    intro gate
    cases gate with
    | or => exact or
    | and => exact and
    | xor => exact xor
    | equ => exact equ
    | imp => exact imp
    | add => exact xor
    | leq => exact imp
  case ternary =>
    -- What comes out of one gate and goes into the next is a member.
    intro gate a b c
    cases gate with
    | ad3 =>
        refine ((xor a b).bind fun ab hab => (xor ab c).of_iff (G := (· = c)) fun x alien => ?_).of_iff ?_
        · simp [ne_of_member hab alien]
        · simp [or_assoc]
    | maj =>
        refine ((and a b).bind fun ab hab => (and a c).bind fun ac hac => (and b c).bind fun bc hbc =>
          ((or ab ac).settled ?_).bind fun both hboth => (or both bc).settled ?_).of_iff fun x _ => ?_
        · simp [hab, hac]
        · simp [hboth, hbc]
        · tauto

end ClosedUnder

end Domain

/-! ## Sets of points -/

/-- A domain is closed under operations that are read as those of a Boolean algebra, where just the members are read. -/
theorem Valuation.RespectsDomain.closedUnder {B : Type} [BooleanAlgebra B] {V : Valuation σ α B} {D : Domain σ α}
    {contains : α → Bool} (h : V.RespectsDomain D)
    (classical : ∃ equals edge, D.predicates = .classical contains equals edge)
    (members : ∀ s a, V.Elem s a ↔ contains a) : D.ClosedUnder contains := by
  have made : ∀ {act : Build σ α}, (∀ s, ∃ x, V.Runs V.Is s act (.ok x)) →
      act.Makes (fun _ => False) (contains ·) := by
    intro act runs s
    obtain ⟨x, runs⟩ := runs s
    cases runs with
    | ok run _ related =>
        rw [run]
        exact (members _ _).1 related.1
  have is : ∀ s a, contains a → V.Is s a (V.value s a) := fun s a member => ⟨(members s a).2 member, rfl⟩
  have binary : ∀ {f g}, V.Binary f g → ∀ a b, contains a → contains b →
      (f a b).Makes (fun _ => False) (contains ·) :=
    fun reads a b ha hb => made fun s => ⟨_, reads (is s a ha) (is s b hb)⟩
  constructor
  case classical => exact classical
  case bound =>
    simp only [List.forall_mem_cons]
    exact ⟨made fun s => ⟨_, h.bot s⟩, made fun s => ⟨_, h.top s⟩, by simp⟩
  case compl => exact fun a member => made fun s => ⟨_, h.compl (is s a member)⟩
  case binary =>
    simp only [List.forall_mem_cons]
    exact ⟨binary h.meet, binary h.join, binary h.reads_imp, binary h.reads_equ, binary h.reads_xor, by simp⟩

theorem Powerset.contains_iff {n : Nat} {v : Value} :
    contains n v ↔ ∃ k : Nat, v = .int k ∧ k < 2 ^ n := by
  constructor
  · intro member
    cases v with
    | int k =>
        obtain ⟨nonneg, below⟩ := of_decide_eq_true member
        lift k to Nat using nonneg
        exact ⟨k, rfl, by exact_mod_cast below⟩
    | _ => cases member
  · rintro ⟨k, rfl, below⟩
    exact decide_eq_true ⟨Int.natCast_nonneg k, by exact_mod_cast below⟩

/-- The operations on subsets of a finite set make subsets of it. -/
theorem Powerset.closedUnder (n : Nat) : (domain n : Domain σ Value).ClosedUnder (contains n) :=
  (respects_sets n).closedUnder ⟨_, _, rfl⟩ fun _ _ => contains_iff.symm

end BoolCalculus

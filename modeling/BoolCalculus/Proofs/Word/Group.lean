import BoolCalculus.Proofs.Word.Numeral

/-!
# Words are an abelian group

Over every gate set that computes the operations of a Boolean algebra, words of a width are an abelian
group under the sum, and the words of integers follow the sums, differences and negatives of integers
(`Word.arithmetic_abelianGroup`). The laws hold element by element; where a gate set is read by a valuation,
they hold of what the elements are read as.
-/

namespace BoolCalculus

open Word

variable {σ α B : Type}

namespace Valuation

variable {V : Valuation σ α B} {A : GateSet σ α} {width : Nat} {s : σ}
variable {a b : Word α} {x y : Numeral B width}

variable (V) in
/-- In a state, the elements of a word are there and are read as those of a numeral. -/
abbrev IsNumeral (s : σ) (a : Word α) (x : Numeral B width) : Prop :=
  V.IsWord s a x.bits

/-- Every word whose elements are there is read as a numeral of its width. -/
theorem exists_isNumeral (length : a.length = width) (there : ∀ i ∈ a, V.Elem s i) :
    ∃ x : Numeral B width, V.IsNumeral s a x :=
  ⟨⟨a.map (V.value s), by rw [List.length_map, length]⟩, isWord_iff.2 ⟨there, rfl⟩⟩

/-- A word that is read as the bits of a numeral is read as the numeral. -/
theorem Runs.numeral {act : Build σ (Word α)} (run : V.Runs V.IsWord s act (.ok x.bits)) :
    V.Runs V.IsNumeral s act (.ok x) := by
  cases run with
  | ok run later is => exact .ok run later is

theorem length_eq_of_isNumeral (ha : V.IsNumeral s a x) : a.length = width :=
  ha.length_eq.trans x.length_bits

variable (V) in
/-- Two constructions, run from `s`, make words of a width whose elements are read alike. -/
def Alike (width : Nat) (s : σ) (act act' : Build σ (Word α)) : Prop :=
  ∃ x : Numeral B width, V.Runs V.IsNumeral s act (.ok x) ∧ V.Runs V.IsNumeral s act' (.ok x)

/-- Where elements are read as they are, words that are read alike are equal. -/
theorem Alike.agree {V : Valuation σ B B} (plain : ∀ s b c, V.Is s b c → b = c) {width : Nat} {s : σ}
    {act act' : Build σ (Word B)} (alike : V.Alike width s act act') : Build.Agree s act act' := by
  have yields : ∀ {act : Build σ (Word B)} {x : Numeral B width},
      V.Runs V.IsNumeral s act (.ok x) → act.Yields s x.bits := by
    intro act x runs
    cases runs with
    | ok run later is =>
        have same := List.forall₂_eq_eq_eq ▸ is.imp fun b c => plain _ b c
        rw [Build.Yields, run, same]
  obtain ⟨x, runs, runs'⟩ := alike
  exact ⟨x.bits, yields runs, yields runs'⟩

variable [BooleanAlgebra B] (respects : V.Respects A)

include respects

/-- The addition of words is that of the numerals they are read as. -/
theorem runs_numeral_add (ha : V.IsNumeral s a x) (hb : V.IsNumeral s b y) :
    V.Runs V.IsNumeral s (add A a b) (.ok (x + y)) := by
  have width := (length_eq_of_isNumeral ha).trans (length_eq_of_isNumeral hb).symm
  exact Runs.numeral (x := x + y) (runs_add respects width ha hb)

theorem runs_numeral_sub (ha : V.IsNumeral s a x) (hb : V.IsNumeral s b y) :
    V.Runs V.IsNumeral s (sub A a b) (.ok (x - y)) := by
  have width := (length_eq_of_isNumeral ha).trans (length_eq_of_isNumeral hb).symm
  exact Runs.numeral (x := x - y) (runs_sub respects width ha hb)

theorem runs_numeral_neg (ha : V.IsNumeral s a x) :
    V.Runs V.IsNumeral s (neg A a) (.ok (-x)) :=
  Runs.numeral (x := -x) (runs_neg respects ha)

theorem runs_numeral_bitNot (ha : V.IsNumeral s a x) :
    V.Runs V.IsNumeral s (bitNot A a) (.ok x.complement) :=
  Runs.numeral (x := x.complement) (runs_bitNot respects ha)

theorem runs_numeral_lifted (s : σ) (width : Nat) (value : Int) :
    V.Runs V.IsNumeral s (lifted A width value) (.ok (.ofInt value : Numeral B width)) := by
  rw [lifted_eq_lift]
  exact Runs.numeral (x := .ofInt value) (runs_lift respects s (Bits.ofInt value width))

end Valuation

namespace Word

/-- A word has a width, and its elements are all `there`. -/
def IsOver (there : α → Prop) (width : Nat) (a : Word α) : Prop :=
  a.length = width ∧ ∀ i ∈ a, there i

/-- The arithmetic of a gate set makes an abelian group of the words of a width whose elements are `there`,
and a homomorphic image of the integers of the words of integers. What two constructions make is compared
by `Same`. -/
structure IsAbelianGroup (A : GateSet σ α) (width : Nat) (there : α → Prop)
    (Same : Build σ (Word α) → Build σ (Word α) → Prop) : Prop where
  add_assoc : ∀ a b c, IsOver there width a → IsOver there width b → IsOver there width c →
    Same (do add A (← add A a b) c) (do add A a (← add A b c))
  add_comm : ∀ a b, IsOver there width a → IsOver there width b → Same (add A a b) (add A b a)
  add_zero : ∀ a, IsOver there width a → Same (do add A a (← lifted A width 0)) (pure a)
  zero_add : ∀ a, IsOver there width a → Same (do add A (← lifted A width 0) a) (pure a)
  add_neg : ∀ a, IsOver there width a → Same (do add A a (← neg A a)) (lifted A width 0)
  sub_eq_add_neg : ∀ a b, IsOver there width a → IsOver there width b →
    Same (sub A a b) (do add A a (← neg A b))
  neg_eq_bitNot_add_one : ∀ a, IsOver there width a →
    Same (neg A a) (do add A (← bitNot A a) (← lifted A width 1))
  lifted_add : ∀ m n : Int, Same (do add A (← lifted A width m) (← lifted A width n))
    (lifted A width (m + n))
  lifted_sub : ∀ m n : Int, Same (do sub A (← lifted A width m) (← lifted A width n))
    (lifted A width (m - n))
  lifted_neg : ∀ n : Int, Same (do neg A (← lifted A width n)) (lifted A width (-n))

end Word

/-- Each law is the law of numerals of that name. -/
theorem Valuation.isAbelianGroup [BooleanAlgebra B] {V : Valuation σ α B} {A : GateSet σ α}
    (respects : V.Respects A) (width : Nat) (s : σ)
    {Same : Build σ (Word α) → Build σ (Word α) → Prop}
    (same : ∀ {act act'}, V.Alike width s act act' → Same act act') :
    IsAbelianGroup A width (V.Elem s) Same := by
  have read : ∀ {a}, IsOver (V.Elem s) width a → ∃ x : Numeral B width, V.IsNumeral s a x :=
    fun word => exists_isNumeral word.1 word.2
  have integer : ∀ (t : σ) (n : Int), V.Runs V.IsNumeral t (lifted A width n)
      (.ok (.ofInt n : Numeral B width)) := fun t n => runs_numeral_lifted respects t width n
  have law : ∀ {act act'} (x : Numeral B width), V.Runs V.IsNumeral s act (.ok x) →
      V.Runs V.IsNumeral s act' (.ok x) → Same act act' := fun x runs runs' => same ⟨x, runs, runs'⟩
  constructor
  case add_assoc =>
    intro a b c overA overB overC
    obtain ⟨x, ha⟩ := read overA
    obtain ⟨y, hb⟩ := read overB
    obtain ⟨z, hc⟩ := read overC
    refine law (x + y + z) ?_ ?_
    · refine (runs_numeral_add respects ha hb).bind_ok fun later sum => ?_
      exact runs_numeral_add respects sum (isWord_later hc later)
    · rw [add_assoc]
      refine (runs_numeral_add respects hb hc).bind_ok fun later sum => ?_
      exact runs_numeral_add respects (isWord_later ha later) sum
  case add_comm =>
    intro a b overA overB
    obtain ⟨x, ha⟩ := read overA
    obtain ⟨y, hb⟩ := read overB
    refine law (x + y) (runs_numeral_add respects ha hb) ?_
    rw [add_comm]
    exact runs_numeral_add respects hb ha
  case add_zero =>
    intro a overA
    obtain ⟨x, ha⟩ := read overA
    refine law x ?_ (.pure ha)
    refine (integer s 0).bind_ok fun later zero => ?_
    have sum := runs_numeral_add respects (isWord_later ha later) zero
    rwa [show x + Numeral.ofInt 0 = x from add_zero x] at sum
  case zero_add =>
    intro a overA
    obtain ⟨x, ha⟩ := read overA
    refine law x ?_ (.pure ha)
    refine (integer s 0).bind_ok fun later zero => ?_
    have sum := runs_numeral_add respects zero (isWord_later ha later)
    rwa [show Numeral.ofInt 0 + x = x from zero_add x] at sum
  case add_neg =>
    intro a overA
    obtain ⟨x, ha⟩ := read overA
    refine law (.ofInt 0) ?_ (integer s 0)
    refine (runs_numeral_neg respects ha).bind_ok fun later negative => ?_
    have sum := runs_numeral_add respects (isWord_later ha later) negative
    rwa [add_neg_cancel] at sum
  case sub_eq_add_neg =>
    intro a b overA overB
    obtain ⟨x, ha⟩ := read overA
    obtain ⟨y, hb⟩ := read overB
    refine law (x - y) (runs_numeral_sub respects ha hb) ?_
    rw [sub_eq_add_neg]
    refine (runs_numeral_neg respects hb).bind_ok fun later negative => ?_
    exact runs_numeral_add respects (isWord_later ha later) negative
  case neg_eq_bitNot_add_one =>
    intro a overA
    obtain ⟨x, ha⟩ := read overA
    refine law (-x) (runs_numeral_neg respects ha) ?_
    rw [Numeral.neg_eq_complement_add_one]
    refine (runs_numeral_bitNot respects ha).bind_ok fun {t _} _ complement => ?_
    refine (integer t 1).bind_ok fun later one => ?_
    exact runs_numeral_add respects (isWord_later complement later) one
  case lifted_add =>
    intro m n
    refine law (.ofInt (m + n)) ?_ (integer s _)
    rw [Numeral.ofInt_add]
    refine (integer s m).bind_ok fun {t _} _ left => ?_
    refine (integer t n).bind_ok fun later right => ?_
    exact runs_numeral_add respects (isWord_later left later) right
  case lifted_sub =>
    intro m n
    refine law (.ofInt (m - n)) ?_ (integer s _)
    rw [Numeral.ofInt_sub]
    refine (integer s m).bind_ok fun {t _} _ left => ?_
    refine (integer t n).bind_ok fun later right => ?_
    exact runs_numeral_sub respects (isWord_later left later) right
  case lifted_neg =>
    intro n
    refine law (.ofInt (-n)) ?_ (integer s _)
    rw [Numeral.ofInt_neg]
    exact (integer s n).bind_ok fun _ word => runs_numeral_neg respects word

namespace Word

/-- Over every gate set that computes the operations of a Boolean algebra, words of a width are an abelian group
under the sum; and over every gate set that is read in a Boolean algebra, they are one up to their reading. -/
theorem arithmetic_abelianGroup (A : GateSet σ α) (width : Nat) (s : σ) :
    (∀ [BooleanAlgebra α], A.Lawful → IsAbelianGroup A width (fun _ => True) (Build.Agree s)) ∧
    ∀ {B : Type} [BooleanAlgebra B] {V : Valuation σ α B}, V.Respects A →
      IsAbelianGroup A width (V.Elem s) (V.Alike width s) := by
  constructor
  · intro algebra lawful
    exact Valuation.isAbelianGroup lawful width s fun alike => alike.agree fun _ _ _ is => is.2
  · intro B algebra V respects
    exact Valuation.isAbelianGroup respects width s id

/-- Words of pairs of truth values, and words of handles of a circuit with two inputs. -/
theorem arithmetic_abelianGroup_pairs :
    IsAbelianGroup (GateSet.ofAlgebra : GateSet Unit (Bool × Bool)) 3 (fun _ => True)
      (Build.Agree ()) ∧
    IsAbelianGroup (Circuit.gates id) 2 ((Circuit.evaluation fun i => i == 0).Elem #[.input, .input])
      ((Circuit.evaluation fun i => i == 0).Alike 2 #[.input, .input]) :=
  ⟨(arithmetic_abelianGroup _ 3 ()).1 GateSet.lawful_ofAlgebra,
    (arithmetic_abelianGroup _ 2 _).2 (Circuit.respects_evaluation fun i => i == 0)⟩

end Word

end BoolCalculus

import BoolCalculus.Universe.Closure
import Mathlib.Algebra.Group.Nat.Defs
import Mathlib.Data.Fintype.Card
import Mathlib.Data.Fintype.Prod
import Mathlib.Data.Finset.Lattice.Fold
import Mathlib.Data.List.Duplicate
import Mathlib.Order.BooleanAlgebra.Basic

/-!
# Closing matrices by squaring

A binary relation on `n` points over a Boolean algebra is a matrix. One round of squaring joins a matrix with its
composition with itself, so `k` rounds cover all walks of up to `2 ^ k` steps. A walk that is longer than
the number of points can be shortened without loss, and so finitely many rounds make a matrix transitive
(`comp_squared_iterate_le`); what they add is in every transitive matrix above the first
(`squared_iterate_le`).
-/

namespace BoolCalculus

/-- The matrices on `n` points. -/
abbrev Matrix (n : Nat) (α : Type) : Type := Fin n → Fin n → α

namespace Matrix

variable {α : Type} [BooleanAlgebra α] {n : Nat} {M N S : Matrix n α} {x y z : Fin n} {b : α}

/-- The composition of two matrices. -/
def comp (M N : Matrix n α) : Matrix n α := fun x z =>
  Fin.foldl n (fun acc y => acc ⊔ M x y ⊓ N y z) ⊥

/-- The matrix that relates every point to itself. -/
def diag : Matrix n α := fun x y =>
  if x = y then ⊤ else ⊥

theorem foldl_sup_le_iff {n : Nat} {f : Fin n → α} {start : α} :
    Fin.foldl n (fun acc i => acc ⊔ f i) start ≤ b ↔ start ≤ b ∧ ∀ i, f i ≤ b := by
  induction n generalizing start with
  | zero => simp
  | succ n ih => rw [Fin.foldl_succ, ih, sup_le_iff, and_assoc, Fin.forall_fin_succ]

theorem le_foldl_inf_iff {n : Nat} {f : Fin n → α} {start : α} :
    b ≤ Fin.foldl n (fun acc i => acc ⊓ f i) start ↔ b ≤ start ∧ ∀ i, b ≤ f i := by
  induction n generalizing start with
  | zero => simp
  | succ n ih => rw [Fin.foldl_succ, ih, le_inf_iff, and_assoc, Fin.forall_fin_succ]

/-- The meet of all entries. -/
def all (M : Matrix n α) : α :=
  Finset.univ.inf fun p : Fin n × Fin n => M p.1 p.2

theorem le_all_iff : b ≤ all M ↔ ∀ x y, b ≤ M x y := by
  simp [all, Finset.le_inf_iff]

theorem all_eq_top_iff : all M = ⊤ ↔ M = ⊤ := by
  simp only [← top_le_iff, le_all_iff]
  exact Iff.rfl

theorem all_inf (M N : Matrix n α) : all (M ⊓ N) = all M ⊓ all N :=
  eq_of_forall_le_iff fun b => by simp only [le_inf_iff, le_all_iff, Pi.inf_apply, forall_and]

/-- The meet of all entries, column by column. -/
theorem foldl_foldl_inf (M : Matrix n α) :
    Fin.foldl n (fun acc y => acc ⊓ Fin.foldl n (fun acc x => acc ⊓ M x y) ⊤) ⊤ = all M := by
  refine eq_of_forall_le_iff fun b => ?_
  simp only [le_foldl_inf_iff, le_all_iff, le_top, true_and]
  exact forall_comm

theorem comp_le_iff : comp M N x z ≤ b ↔ ∀ y, M x y ⊓ N y z ≤ b := by
  rw [comp, foldl_sup_le_iff]
  exact and_iff_right bot_le

theorem le_comp (M N : Matrix n α) (x y z : Fin n) : M x y ⊓ N y z ≤ comp M N x z :=
  comp_le_iff.1 le_rfl y

theorem comp_mono {M' N' : Matrix n α} (hM : M ≤ M') (hN : N ≤ N') : comp M N ≤ comp M' N' :=
  fun x z => comp_le_iff.2 fun y => (inf_le_inf (hM x y) (hN y z)).trans (le_comp M' N' x y z)

/-- One round of squaring. -/
def squared (M : Matrix n α) : Matrix n α :=
  M ⊔ comp M M

theorem le_squared_iterate (M : Matrix n α) (k : Nat) : M ≤ squared^[k] M := by
  induction k with
  | zero => exact le_rfl
  | succ k ih =>
      rw [Function.iterate_succ_apply']
      exact ih.trans le_sup_left

/-- Squaring stays below every transitive matrix. -/
theorem squared_iterate_le (below : M ≤ S) (transitive : comp S S ≤ S) (k : Nat) :
    squared^[k] M ≤ S := by
  induction k with
  | zero => exact below
  | succ k ih =>
      rw [Function.iterate_succ_apply']
      exact sup_le ih ((comp_mono ih ih).trans transitive)

/-! ## Walks -/

/-- The weight of the walk from `x` to `z` through the given points. -/
def walk (M : Matrix n α) : Fin n → List (Fin n) → Fin n → α
  | x, [], z => M x z
  | x, y :: ys, z => M x y ⊓ walk M y ys z

theorem walk_append (M : Matrix n α) (x : Fin n) (ys : List (Fin n)) (y : Fin n)
    (zs : List (Fin n)) (z : Fin n) :
    walk M x (ys ++ y :: zs) z = walk M x ys y ⊓ walk M y zs z := by
  induction ys generalizing x with
  | nil => rfl
  | cons w ys ih => rw [List.cons_append, walk, ih, walk, inf_assoc]

/-- `k` rounds cover the walks of up to `2 ^ k` steps. -/
theorem walk_le_squared {k : Nat} {ys : List (Fin n)} (short : ys.length < 2 ^ k) :
    walk M x ys z ≤ squared^[k] M x z := by
  induction k generalizing x ys z with
  | zero =>
      obtain rfl := List.length_eq_zero_iff.1 (Nat.lt_one_iff.1 short)
      exact le_rfl
  | succ k ih =>
      rw [Function.iterate_succ_apply']
      rw [Nat.pow_succ] at short
      by_cases half : ys.length < 2 ^ k
      · exact (ih half).trans le_sup_left
      · -- The walk is cut at its point number `2 ^ k`, so that both parts are short.
        have inside : 2 ^ k - 1 < ys.length := by
          have := Nat.two_pow_pos k
          omega
        have cut : ys = ys.take (2 ^ k - 1) ++ ys[2 ^ k - 1] :: ys.drop (2 ^ k - 1 + 1) := by
          rw [← List.drop_eq_getElem_cons inside, List.take_append_drop]
        have first : (ys.take (2 ^ k - 1)).length < 2 ^ k := by
          rw [List.length_take]
          omega
        have second : (ys.drop (2 ^ k - 1 + 1)).length < 2 ^ k := by
          rw [List.length_drop]
          omega
        rw [cut, walk_append]
        exact (inf_le_inf (ih first) (ih second)).trans
          ((le_comp _ _ x _ z).trans (Pi.le_def.1 (Pi.le_def.1 le_sup_right x) z))

/-- What bounds all walks bounds every number of rounds. -/
theorem squared_iterate_le_of_walks {k : Nat} (bound : ∀ ys, walk M x ys z ≤ b) :
    squared^[k] M x z ≤ b := by
  induction k generalizing x z b with
  | zero => exact bound []
  | succ k ih =>
      rw [Function.iterate_succ_apply']
      refine sup_le (ih bound) (comp_le_iff.2 fun y => ?_)
      -- Residuation moves the second factor to the right, so that the first is bounded by walks.
      refine le_himp_iff.1 (ih fun ys => ?_)
      refine le_himp_iff.2 (inf_comm (walk M x ys y) _ ▸ le_himp_iff.1 (ih fun zs => ?_))
      refine le_himp_iff.2 ?_
      rw [inf_comm, ← walk_append]
      exact bound _

theorem exists_repeated {ys : List (Fin n)} (h : ¬ys.Nodup) :
    ∃ y as bs cs, ys = as ++ y :: (bs ++ y :: cs) := by
  obtain ⟨y, twice⟩ := List.exists_duplicate_iff_not_nodup.2 h
  obtain ⟨front, back, rfl, first, second⟩ :=
    List.cons_sublist_iff.1 (List.duplicate_iff_sublist.1 twice)
  obtain ⟨as, bs, rfl⟩ := List.append_of_mem first
  obtain ⟨bs', cs, rfl⟩ := List.append_of_mem (List.singleton_sublist.1 second)
  exact ⟨y, as, bs ++ bs', cs, by simp⟩

/-- A walk can be shortened without loss until it goes through no point twice. -/
theorem exists_nodup_walk (M : Matrix n α) (x z : Fin n) (ys : List (Fin n)) :
    ∃ zs : List (Fin n), zs.Nodup ∧ walk M x ys z ≤ walk M x zs z := by
  induction length : ys.length using Nat.strong_induction_on generalizing ys with
  | _ m ih =>
      by_cases nodup : ys.Nodup
      · exact ⟨ys, nodup, le_rfl⟩
      · obtain ⟨y, as, bs, cs, rfl⟩ := exists_repeated nodup
        obtain ⟨zs, distinct, below⟩ := ih (as ++ y :: cs).length (by simp at length ⊢; omega) _ rfl
        refine ⟨zs, distinct, le_trans ?_ below⟩
        rw [walk_append, walk_append, walk_append]
        exact inf_le_inf_left _ inf_le_right

/-- So many rounds that `2 ^ k` exceeds the number of points cover all walks. -/
theorem walk_le_squared_of_lt {k : Nat} (enough : n < 2 ^ k) (ys : List (Fin n)) :
    walk M x ys z ≤ squared^[k] M x z := by
  obtain ⟨zs, distinct, below⟩ := exists_nodup_walk M x z ys
  have short : zs.length ≤ n := by simpa using distinct.length_le_card
  exact below.trans (walk_le_squared (Nat.lt_of_le_of_lt short enough))

/-- Enough rounds make a matrix transitive. -/
theorem comp_squared_iterate_le {k : Nat} (enough : n < 2 ^ k) :
    comp (squared^[k] M) (squared^[k] M) ≤ squared^[k] M := by
  have steady : squared^[k + 1] M ≤ squared^[k] M := fun x z =>
    squared_iterate_le_of_walks fun ys => walk_le_squared_of_lt enough ys
  rw [Function.iterate_succ_apply'] at steady
  exact le_sup_right.trans steady

end Matrix

/-- The binary digits of a number bound it. -/
theorem lt_two_pow_binaryLength (n : Nat) : n < 2 ^ binaryLength n := by
  rw [binaryLength]
  split
  · omega
  · exact Nat.lt_log2_self

/-- The rounds of a universe suffice for its number of points. -/
theorem Universe.size_lt_two_pow_rounds {σ α : Type} (U : Universe σ α) :
    U.size < 2 ^ U.rounds := by
  have digits := lt_two_pow_binaryLength (U.size - 1)
  rw [rounds, Nat.pow_succ]
  omega

end BoolCalculus

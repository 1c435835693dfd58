import BoolCalculus.Proofs.Circuit.Evaluation
import BoolCalculus.Proofs.Domain.Reading
import BoolCalculus.Proofs.Tensor.Derived
import BoolCalculus.Proofs.Universe.RelationAlgebra

/-!
# Derivations agree with what is given

Domains, gate sets, tensor operations and universes each derive some operations, in ways that differ, and each of
them may be given an operation directly instead. In every Boolean algebra all of these ways have the same
results (`Valuation.derivations_agree`).
-/

namespace BoolCalculus

open scoped symmDiff

variable {σ α B β γ : Type}

/-- The gate set that derives everything from the four primitives of another one. -/
def GateSet.derived (A : GateSet σ α) : GateSet σ α :=
  .ofPrimitives A.lift A.not A.or A.and

/-- A tensor whose cells are all `there`. -/
abbrev Tensor.Over (there : α → Prop) : Type :=
  {T : Tensor α // ∀ c h, there (T.get c h)}

/-- On elements that are `there`, the gates agree with those that are derived from the primitives, the lifted
operations on tensors of one shape with the derived ones, and the union of binary relations with its derivation by
complements and intersection. What two constructions make is compared by `Same` and `SameTensor`. -/
structure GateSet.DerivationsAgree (A : GateSet σ α) (there : α → Prop)
    (Same : Build σ α → Build σ α → Prop)
    (SameTensor : Build σ (Tensor α) → Build σ (Tensor α) → Prop) : Prop where
  binary : ∀ (gate : GateSet.Binary) {a b}, there a → there b →
    Same (A.binary gate a b) (A.derived.binary gate a b)
  ternary : ∀ (gate : GateSet.Ternary) {a b c}, there a → there b → there c →
    Same (A.ternary gate a b c) (A.derived.ternary gate a b c)
  xor : ∀ S T : Tensor.Over there, S.1.axes = T.1.axes →
    SameTensor ((TensorOps.lifted A).xor S T) ((TensorOps.liftedDerived A).xor S T)
  equ : ∀ S T : Tensor.Over there, S.1.axes = T.1.axes →
    SameTensor ((TensorOps.lifted A).equ S T) ((TensorOps.liftedDerived A).equ S T)
  imp : ∀ S T : Tensor.Over there, S.1.axes = T.1.axes →
    SameTensor ((TensorOps.lifted A).imp S T) ((TensorOps.liftedDerived A).imp S T)
  join : ∀ {n} (R S : (Universe.mk (TensorOps.lifted A) n).BinaryRelation there),
    SameTensor ((Universe.mk (TensorOps.lifted A) n).deMorganJoin R S)
      ((Universe.mk (TensorOps.lifted A) n).join R S)

/-- Agreement in a sharper sense is agreement in a weaker one. -/
theorem GateSet.DerivationsAgree.mono {A : GateSet σ α} {there : α → Prop}
    {Same Same' : Build σ α → Build σ α → Prop}
    {SameTensor SameTensor' : Build σ (Tensor α) → Build σ (Tensor α) → Prop}
    (h : A.DerivationsAgree there Same SameTensor)
    (gates : ∀ {act act'}, Same act act' → Same' act act')
    (tensors : ∀ {act act'}, SameTensor act act' → SameTensor' act act') :
    A.DerivationsAgree there Same' SameTensor' where
  binary gate _ _ ha hb := gates (h.binary gate ha hb)
  ternary gate _ _ _ ha hb hc := gates (h.ternary gate ha hb hc)
  xor S T axes := tensors (h.xor S T axes)
  equ S T axes := tensors (h.equ S T axes)
  imp S T axes := tensors (h.imp S T axes)
  join R S := tensors (h.join R S)

namespace Valuation

variable {V : Valuation σ α B} {Rel : σ → β → γ → Prop} {s : σ} {act act' : Build σ β}

variable (V) in
/-- Two constructions, run from `s`, make things that are related to one. -/
def Coincide (Rel : σ → β → γ → Prop) (s : σ) (act act' : Build σ β) : Prop :=
  ∃ c, V.Runs Rel s act (.ok c) ∧ V.Runs Rel s act' (.ok c)

theorem faithful_ofFn : (ofFn id : Valuation σ α α).Faithful :=
  fun ha hb => ha.2.trans hb.2.symm

/-- Where elements are told apart by what they are read as, so are tensors. -/
theorem Faithful.tensor (faithful : V.Faithful) {s t : σ} {S T : Tensor α} {X : Tensor B}
    (hS : V.IsTensor s S X) (hT : V.IsTensor t T X) : S = T := by
  refine Tensor.ext_get (hS.axes_eq.symm.trans hT.axes_eq) fun c inS inT => ?_
  have inX : Axes.InBounds X.axes c := hS.axes_eq ▸ inS
  exact faithful (hS.is_get inS inX) (hT.is_get inT inX)

/-- Where things that are related to one are one, constructions of such things agree. -/
theorem Coincide.agree (same : V.Coincide Rel s act act')
    (unique : ∀ {t t' b b' c}, Rel t b c → Rel t' b' c → b = b') : Build.Agree s act act' := by
  obtain ⟨c, first, second⟩ := same
  cases first with
  | ok run _ related =>
      cases second with
      | ok run' _ related' =>
          obtain rfl := unique related related'
          exact ⟨_, congrArg Prod.fst run, congrArg Prod.fst run'⟩

/-- Pointwise operations that are read as one coincide on tensors of one shape. -/
theorem Pointwise.coincide {f f' : Tensor α → Tensor α → Build σ (Tensor α)} {g : B → B → B}
    (hf : V.Pointwise f g) (hf' : V.Pointwise f' g) (S T : Tensor.Over (V.Elem s))
    (axes : S.1.axes = T.1.axes) : V.Coincide V.IsTensor s (f S T) (f' S T) := by
  have hS : V.IsTensor s S.1 (S.1.map (V.value s)) := ⟨S.2, rfl⟩
  have hT : V.IsTensor s T.1 (T.1.map (V.value s)) := ⟨T.2, rfl⟩
  have first := hf hS hT
  have second := hf' hS hT
  rw [Tensor.zip?_of_eq g (by exact axes)] at first second
  exact ⟨_, first, second⟩

variable [BooleanAlgebra B] {A A' : GateSet σ α}

/-- Gates that respect a reading still do when all but the primitives are derived. -/
theorem Respects.derived (respects : V.Respects A) : V.Respects A.derived :=
  .ofPrimitives respects.lift respects.not respects.or respects.and

/-- Gates of gate sets that respect one valuation coincide. -/
theorem Respects.coincide_binary (h : V.Respects A) (h' : V.Respects A') (gate : GateSet.Binary)
    {a b : α} (ha : V.Elem s a) (hb : V.Elem s b) :
    V.Coincide V.Is s (A.binary gate a b) (A'.binary gate a b) :=
  ⟨_, h.reads_binary gate ⟨ha, rfl⟩ ⟨hb, rfl⟩, h'.reads_binary gate ⟨ha, rfl⟩ ⟨hb, rfl⟩⟩

theorem Respects.coincide_ternary (h : V.Respects A) (h' : V.Respects A') (gate : GateSet.Ternary)
    {a b c : α} (ha : V.Elem s a) (hb : V.Elem s b) (hc : V.Elem s c) :
    V.Coincide V.Is s (A.ternary gate a b c) (A'.ternary gate a b c) :=
  ⟨_, h.reads_ternary gate ⟨ha, rfl⟩ ⟨hb, rfl⟩ ⟨hc, rfl⟩,
    h'.reads_ternary gate ⟨ha, rfl⟩ ⟨hb, rfl⟩ ⟨hc, rfl⟩⟩

variable {allowed : Shape → Prop} {O : TensorOps σ α} {n : Nat}

/-- The join by De Morgan's law is read as the join. -/
theorem Reads.runs_deMorganJoin (reads : V.Reads allowed O) {R S : Tensor α} {M N : Matrix n B}
    (hR : V.IsMatrix s R M) (hS : V.IsMatrix s S N) :
    V.Runs V.IsMatrix s ((Universe.mk O n).deMorganJoin R S) (.ok (M ⊔ N)) := by
  have union : M ⊔ N = (Mᶜ ⊓ Nᶜ)ᶜ := by rw [compl_inf, compl_compl, compl_compl]
  rw [union]
  refine (reads.runs_comp hR).bind_ok fun first notR => ?_
  refine (reads.runs_comp (hS.later first)).bind_ok fun second notS => ?_
  refine (reads.runs_meet (notR.later second) notS).bind_ok fun _ neither => ?_
  exact reads.runs_comp neither

/-- The union by complements and intersection is the union. -/
theorem Reads.coincide_join (reads : V.Reads allowed O)
    (R S : (Universe.mk O n).BinaryRelation (V.Elem s)) :
    V.Coincide V.IsTensor s ((Universe.mk O n).deMorganJoin R S) ((Universe.mk O n).join R S) := by
  obtain ⟨M, isM⟩ := exists_isMatrix R.2.1 R.2.2
  obtain ⟨N, isN⟩ := exists_isMatrix S.2.1 S.2.2
  refine ⟨.ofMatrix (M ⊔ N), ?_, ?_⟩
  · exact (reads.runs_deMorganJoin isM isN).relate id
  · exact (reads.runs_join isM isN).relate id

/-- What two respectful sets of gates make is read as the same. -/
theorem Respects.derivationsAgree (respects : V.Respects A) (s : σ) :
    A.DerivationsAgree (V.Elem s) (V.Coincide V.Is s) (V.Coincide V.IsTensor s) := by
  have reads := Reads.lifted respects
  have derived := reads.derived
  rw [TensorOps.derived_lifted] at derived
  exact {
    binary := fun gate _ _ => respects.coincide_binary respects.derived gate
    ternary := fun gate _ _ _ => respects.coincide_ternary respects.derived gate
    xor := reads.xor.coincide derived.xor
    equ := reads.equ.coincide derived.equ
    imp := reads.imp.coincide derived.imp
    join := reads.coincide_join }

/-- A conjunction over the first axis that is derived is the meet of the cells at every coordinate. -/
theorem Reads.runs_all (reads : V.Reads allowed O) (T : Tensor.Over (V.Elem s)) {m : Nat} {ms : List Nat}
    (axes : T.1.axes = m :: ms) :
    V.Runs V.IsTensor s (O.all T) (.ok (.ofFn ms fun c hc =>
      Finset.univ.inf fun i => V.value s (T.1.fibre axes c hc i))) := by
  have hT : V.IsTensor s T.1 (T.1.map (V.value s)) := ⟨T.2, rfl⟩
  have all := reads.all hT
  rw [Tensor.foldFirst_inf (by exact axes)] at all
  have cells : ∀ c hc, (T.1.map (V.value s)).fibre axes c hc =
      fun i => V.value s (T.1.fibre axes c hc i) :=
    fun c hc => funext fun i => Tensor.get_map (V.value s) T.1 (axes ▸ ⟨i.isLt, hc⟩)
  simp only [cells] at all
  exact all

variable (V) in
/-- Derivations agree with what is given, as far as the valuation reads it, and exactly where it is faithful; and a
conjunction over the first axis is read as the meet of the cells, which is the greatest element where there are
none. -/
structure ReadsDerivations (A : GateSet σ α) (s : σ) : Prop where
  coincide : A.DerivationsAgree (V.Elem s) (V.Coincide V.Is s) (V.Coincide V.IsTensor s)
  agree : V.Faithful → A.DerivationsAgree (V.Elem s) (Build.Agree s) (Build.Agree s)
  all : ∀ (T : Tensor.Over (V.Elem s)) {m : Nat} {ms : List Nat} (axes : T.1.axes = m :: ms),
    V.Runs V.IsTensor s ((TensorOps.lifted A).all T) (.ok (.ofFn ms fun c hc =>
      Finset.univ.inf fun i => V.value s (T.1.fibre axes c hc i)))

theorem Respects.readsDerivations (respects : V.Respects A) (s : σ) : V.ReadsDerivations A s where
  coincide := respects.derivationsAgree s
  agree faithful := (respects.derivationsAgree s).mono
    (fun same => same.agree faithful) (fun same => same.agree faithful.tensor)
  all T _ _ axes := (Reads.lifted respects).runs_all T axes

/-- In every Boolean algebra, what is derived agrees with what is given. Over dense tensors the derived operations are
those that are given, and the derived union is the union. Over a domain whose elements are read in a Boolean
algebra, and over every gate set whose gates are, all gates agree with those derived from the primitives, the
lifted operations on tensors with the derived ones, and unions with the derived ones. -/
theorem derivations_agree :
    (∀ {σ : Type}, (TensorOps.dense : TensorOps σ Bool).derived = TensorOps.dense) ∧
    (∀ {σ : Type} {n : Nat} (s : σ)
      (R S : (Universe.mk .dense n : Universe σ Bool).BinaryRelation fun _ => True),
      Build.Agree s ((Universe.mk .dense n).deMorganJoin R S) ((Universe.mk .dense n).join R S)) ∧
    ∀ {σ α B : Type} [BooleanAlgebra B] {V : Valuation σ α B},
      (∀ [Shown α] {D : Domain σ α}, V.RespectsDomain D → ∀ (check : Bool) (s : σ),
        V.ReadsDerivations (GateSet.ofDomain D check) s) ∧
      ∀ {A : GateSet σ α}, V.Respects A → ∀ s : σ, V.ReadsDerivations A s := by
  refine ⟨TensorOps.derived_dense, fun {σ n} s R S => ?_, fun {σ α B _ V} => ⟨?_, ?_⟩⟩
  · have reads := Reads.dense (V := (.ofFn id : Valuation σ Bool Bool)) fun _ _ => ⟨trivial, rfl⟩
    exact (reads.coincide_join (s := s) R S).agree faithful_ofFn.tensor
  · intro _ D respects check s
    exact (respects.ofDomain check).readsDerivations s
  · intro A respects s
    exact respects.readsDerivations s

/-- The subsets of three points, pairs of truth values, and handles of a circuit with two inputs. -/
theorem derivations_agree_sets :
    (GateSet.ofDomain (Powerset.domain 3) true).DerivationsAgree ((Powerset.sets Unit 3).Elem ())
      (Build.Agree ()) (Build.Agree ()) ∧
    (GateSet.ofAlgebra : GateSet Unit (Bool × Bool)).DerivationsAgree (fun _ => True) (Build.Agree ())
      (Build.Agree ()) ∧
    (Circuit.evaluation fun i => i == 0).ReadsDerivations (Circuit.gates id) #[.input, .input] :=
  ⟨((derivations_agree.2.2.1 (Powerset.respects_sets 3) true ()).agree Powerset.faithful_sets),
    (derivations_agree.2.2.2 GateSet.lawful_ofAlgebra ()).agree faithful_ofFn,
    derivations_agree.2.2.2 (Circuit.respects_evaluation fun i => i == 0) _⟩

end Valuation

end BoolCalculus

import ShapedTensor.Proofs.Contraction.Reduce
import ShapedTensor.Proofs.Element.Length
import ShapedTensor.Proofs.Source.Conjugate
import ShapedTensor.Proofs.Tensor.RoundTrip

namespace ShapedTensor

open Index

variable {T R : Type} [RealElement R] [Magnitude T R]

namespace Source

variable {source other : Source T} {element otherElement : List Nat → T}

/-- The squared lengths of a source are summed up over its indices. -/
theorem sumAbsSq_of_reads (reads : source.Reads element) :
    source.sumAbsSq = .ok ((all source.shape.sizes).foldl
      (fun total index => total + Magnitude.absSq (element index)) (0 : R)) := by
  refine foldM_pure (fun total index inside => ?_) 0
  rw [reads index inside]
  rfl

/-- The inner product of a source with itself is its sum of squared lengths. -/
theorem inner_self [Element T] (laws : LengthLaws T R) {sizes : List Nat}
    (words : ∀ size ∈ sizes, size < Size.bound) (shaped : source.shape.sizes = sizes)
    (reads : source.Reads element) :
    ∃ length : R, source.sumAbsSq = .ok length ∧
      source.inner source = .ok (Magnitude.ofReal length) := by
  have rank : source.shape.rank = sizes.length := by rw [← Shape.sizes_length, shaped]
  refine ⟨_, sumAbsSq_of_reads reads, ?_⟩
  rw [inner, rank, reduce_of_reads Update.conjAdd words shaped shaped reads reads, shaped,
    ← laws.ofReal_zero]
  refine congrArg Except.ok (List.foldl_hom Magnitude.ofReal fun total index => ?_)
  rw [Update.conjAdd, laws.conj_mul, laws.ofReal_add]

variable (R) in
/-- The squared lengths of the elements of a box, and 0. -/
def lengths (sizes : List Nat) (element : List Nat → T) : Set R :=
  {value | value = 0 ∨ ∃ index, Inside sizes index ∧ Magnitude.absSq (element index) = value}

/-- The elements of a box that is read with its axes reversed have the same squared lengths. -/
theorem lengths_reverse (sizes : List Nat) (element : List Nat → T) :
    lengths R sizes.reverse (fun index => element index.reverse) = lengths R sizes element := by
  refine Set.ext fun value => or_congr Iff.rfl ?_
  rw [List.reverse_surjective.exists]
  simp only [Inside, List.forall₂_reverse_iff, List.reverse_reverse]

section Order

variable [LinearOrder R] (order : LengthOrder T R)
include order

/-- The running maximum over a source ends in the greatest of its squared lengths and 0. -/
theorem isGreatest_maxAbsSq (reads : source.Reads element) :
    ∃ greatest, source.maxAbsSq = .ok greatest ∧
      IsGreatest (lengths R source.shape.sizes element) greatest := by
  have steps (greatest : R) (index : List Nat) (inside : Inside source.shape.sizes index) :
      (do
        let element ← source.read index
        let length : R := Magnitude.absSq element
        return if RealElement.less greatest length then length else greatest) =
      (pure (if RealElement.less greatest (Magnitude.absSq (element index) : R) then
        Magnitude.absSq (element index) else greatest) : Except Fault R) := by
    rw [reads index inside]
    rfl
  have greatest := order.isGreatest_foldl (all source.shape.sizes)
    (fun index => Magnitude.absSq (element index)) 0
  simp only [mem_all] at greatest
  exact ⟨_, foldM_pure steps 0, greatest⟩

/-- Sources whose elements have the same squared lengths have the same greatest one. -/
theorem maxAbsSq_of_lengths (reads : source.Reads element) (otherReads : other.Reads otherElement)
    (same : lengths R other.shape.sizes otherElement = lengths R source.shape.sizes element)
    {greatest : R} (found : source.maxAbsSq = .ok greatest) : other.maxAbsSq = .ok greatest := by
  obtain ⟨own, ownFound, ownGreatest⟩ := isGreatest_maxAbsSq order reads
  obtain ⟨others, othersFound, othersGreatest⟩ := isGreatest_maxAbsSq order otherReads
  obtain rfl := Except.ok.inj (ownFound.symm.trans found)
  rw [same] at othersGreatest
  rw [othersFound, othersGreatest.unique ownGreatest]

/-- A turned matrix has the same greatest squared length. -/
theorem Turns.maxAbsSq {rows columns : Nat} (turns : source.Turns other rows columns)
    (reads : source.Reads element) {greatest : R} (found : source.maxAbsSq = .ok greatest) :
    other.maxAbsSq = .ok greatest := by
  refine maxAbsSq_of_lengths order reads (turns.reads reads) ?_ found
  rw [turns.turnedSizes, turns.sizes]
  exact lengths_reverse [rows, columns] element

/-- The image of a source under a change that keeps squared lengths has the same greatest one. -/
theorem maxAbsSq_image {change : T → T}
    (keeps : ∀ element : T, (Magnitude.absSq (change element) : R) = Magnitude.absSq element)
    (reads : source.Reads element) {greatest : R} (found : source.maxAbsSq = .ok greatest) :
    (source.image change).maxAbsSq = .ok greatest := by
  have imageReads : (source.image change).Reads fun index => change (element index) := by
    intro index inside
    exact congrArg (change <$> ·) (reads index inside)
  refine maxAbsSq_of_lengths order reads imageReads ?_ found
  rw [lengths, lengths]
  simp only [keeps]
  rfl

end Order

end Source

namespace Operand

variable [Element T] {operand : Operand T} {sizes : List Nat} {element : List Nat → T}

/-- An operand is dense when it is a full tensor or a view. -/
def Dense : Operand T → Prop
  | ofTensor tensor => tensor.Full
  | ofView _ => True
  | ofZero _ => False

omit [Element T] in
theorem Dense.concrete (dense : operand.Dense) : operand.Concrete := by
  cases operand with
  | ofZero zero => exact dense.elim
  | _ => trivial

/-- The cells of a tensor sum up like its elements. -/
theorem Dense.sumAbsSq_eq (dense : operand.Dense) :
    operand.sumAbsSq = (operand.source.sumAbsSq : Except Fault R) := by
  cases operand with
  | ofTensor tensor => exact (Source.sumAbsSq_of_elements (Tensor.Full.elements_eq dense)).symm
  | ofView view => rfl
  | ofZero zero => exact dense.elim

/-- A squared length is the greatest one of an operand, also in its transposed and its adjoint view. -/
structure GreatestLength [LinearOrder R] (operand : Operand T) (sizes : List Nat)
    (element : List Nat → T) (greatest : R) : Prop where
  found : operand.source.maxAbsSq = .ok greatest
  root : operand.maxAbs = .ok (RealElement.sqrt greatest)
  bound : ∀ index, Inside sizes index → Magnitude.absSq (element index) ≤ greatest
  attained : greatest = 0 ∨ ∃ index, Inside sizes index ∧ Magnitude.absSq (element index) = greatest
  zero : greatest = 0 ↔ ∀ index, Inside sizes index → (Magnitude.absSq (element index) : R) = 0
  empty : 0 ∈ sizes → greatest = 0
  sum : ∃ total, operand.sumAbsSq = .ok total ∧ greatest ≤ total
  transpose : operand.asView.IsMatrix → ∃ turned, operand.asView.transpose = .ok turned ∧
    turned.source.maxAbsSq = .ok greatest ∧ (ofView turned).maxAbs = .ok (RealElement.sqrt greatest)
  adjoint : operand.asView.IsMatrix → operand.asView.accessor = .plain →
    (∀ element : T, (Magnitude.absSq (Element.conj element) : R) = Magnitude.absSq element) →
    ∃ adjoint, operand.asView.adjoint = .ok adjoint ∧ adjoint.source.maxAbsSq = .ok greatest ∧
      (ofView adjoint).maxAbs = .ok (RealElement.sqrt greatest)

/-- In a linear order a dense operand that holds elements has a greatest squared length. -/
theorem Holds.exists_greatestLength [LinearOrder R] (order : LengthOrder T R) (dense : operand.Dense)
    (holds : operand.Holds sizes element) : ∃ greatest : R, operand.GreatestLength sizes element greatest := by
  obtain ⟨_, rfl, reads⟩ := holds
  obtain ⟨greatest, found, attained, bounds⟩ := Source.isGreatest_maxAbsSq order reads
  have bound (index : List Nat) (inside : Inside operand.source.shape.sizes index) :
      Magnitude.absSq (element index) ≤ greatest := bounds (.inr ⟨index, inside, rfl⟩)
  have zero : greatest = 0 ↔ ∀ index, Inside operand.source.shape.sizes index →
      (Magnitude.absSq (element index) : R) = 0 := by
    constructor
    · rintro rfl index inside
      exact le_antisymm (bound index inside) (order.absSq_nonneg _)
    · intro vanish
      rcases attained with start | ⟨index, inside, same⟩
      · exact start
      · rw [← same, vanish index inside]
  refine ⟨greatest, ?_⟩
  constructor
  case found => exact found
  case root =>
    rw [dense.concrete.maxAbs_eq]
    exact Checked.map_eq_ok.mpr ⟨greatest, found, rfl⟩
  case bound => exact bound
  case attained => exact attained
  case zero => exact zero
  case empty =>
    intro empty
    exact zero.mpr fun index inside => absurd empty inside.zero_notMem
  case sum =>
    refine ⟨_, dense.sumAbsSq_eq.trans (Source.sumAbsSq_of_reads reads), ?_⟩
    rcases attained with rfl | ⟨index, inside, rfl⟩
    · exact order.le_foldl_add _ element 0
    · exact order.absSq_le_foldl_add (mem_all.mpr inside) element le_rfl
  case transpose =>
    intro matrix
    obtain ⟨_, _, turned, transposed, _, _, turns⟩ := matrix.turns
    rw [source_asView] at turns
    have same := turns.maxAbsSq order reads found
    exact ⟨turned, transposed, same, Checked.map_eq_ok.mpr ⟨greatest, same, rfl⟩⟩
  case adjoint =>
    intro matrix plain keeps
    obtain ⟨_, _, turned, transposed, conjugated, accessor, turns⟩ := matrix.turns
    rw [source_asView] at turns
    have image : View.source { turned with accessor := .conjugating } =
        turned.source.image Element.conj :=
      source_conjugate (show (ofView turned).asView.accessor = .plain from accessor.trans plain)
    have same := Source.maxAbsSq_image order keeps (turns.reads reads) (turns.maxAbsSq order reads found)
    rw [← image] at same
    exact ⟨_, conjugated, same, Checked.map_eq_ok.mpr ⟨greatest, same, rfl⟩⟩

/-- The inner product of an operand with itself is its sum of squared lengths, and its greatest length
bounds the others. -/
theorem norms_agree (dense : operand.Dense) (holds : operand.Holds sizes element) :
    (LengthLaws T R → ∃ length : R, operand.sumAbsSq = .ok length ∧
      operand.inner operand.source = .ok (Magnitude.ofReal length)) ∧
    ∀ [LinearOrder R], LengthOrder T R →
      ∃ greatest : R, operand.GreatestLength sizes element greatest := by
  refine ⟨fun laws => ?_, fun order => holds.exists_greatestLength order dense⟩
  rw [dense.sumAbsSq_eq, dense.concrete.inner_eq]
  exact Source.inner_self laws holds.words holds.sizes holds.reads

open scoped Integer in
/-- A square of complex numbers has the squared lengths 5, 1, 9 and 2, and so has its adjoint view. -/
theorem norms_agree_square :
    let square : Tensor (Complex Int) := .ofLiteral [2, 2] #[⟨1, 2⟩, ⟨0, 1⟩, ⟨3, 0⟩, ⟨1, -1⟩]
    (ofTensor square).inner square.source = .ok ⟨17, 0⟩ ∧
      (ofTensor square).maxAbs = .ok (3 : Int) ∧
      ∃ adjoint, square.view.adjoint = .ok adjoint ∧ adjoint.source.maxAbsSq = .ok (9 : Int) := by
  intro square
  have dense : (ofTensor square).Dense := show square.Full from rfl
  have holds := holds_of_full (show square.Full from rfl) (by decide)
  obtain ⟨products, lengths⟩ := norms_agree dense holds
  obtain ⟨length, summed, inner⟩ := products (Complex.lengthLaws Integer.ringLaws)
  obtain rfl : length = 17 := (Except.ok.inj summed).symm
  obtain ⟨greatest, measured⟩ := lengths Integer.complexLengthOrder
  have found : square.source.maxAbsSq = .ok (9 : Int) := rfl
  obtain rfl := Except.ok.inj (found.symm.trans measured.found)
  have keeps (element : Complex Int) :
      (Magnitude.absSq (Element.conj element) : Int) = Magnitude.absSq element :=
    congrArg (Int.add (Int.mul element.re element.re)) (Int.neg_mul_neg element.im element.im)
  obtain ⟨adjoint, conjugated, same, _⟩ :=
    measured.adjoint ⟨rfl, by decide, trivial, rfl⟩ rfl keeps
  have root : RealElement.sqrt (9 : Int) = 3 := Int.sqrt_eq 3
  exact ⟨inner, measured.root.trans (congrArg Except.ok root), adjoint, conjugated, same⟩

end Operand

end ShapedTensor

import Mathlib
import ShapedTensor.Proofs.Contraction.Reduce
import ShapedTensor.Proofs.Operand.Holds
import ShapedTensor.Proofs.Target.MatVec
import ShapedTensor.Proofs.ZeroTensor.Sums

namespace ShapedTensor

open Index

variable {T : Type} [Element T]

namespace Operand

variable {matrix vector left right : Operand T} {sizes : List Nat}
  {matrixElement vectorElement leftElement rightElement : List Nat → T}

/-- The inner product of operands of the same sizes is the sum of the products of their elements, the
left ones conjugated. -/
theorem inner_of_holds (laws : ConjLaws T) (leftHolds : left.Holds sizes leftElement)
    (rightHolds : right.Holds sizes rightElement) :
    left.inner right.source = .ok ((all sizes).map fun index =>
      Element.conj (leftElement index) * rightElement index).sum := by
  let ring := laws.toCommRing
  have general : left.source.inner right.source = .ok ((all sizes).map fun index =>
      Element.conj (leftElement index) * rightElement index).sum := by
    have rank : left.source.shape.rank = sizes.length := by
      rw [← Shape.sizes_length, leftHolds.sizes]
    rw [Source.inner, rank, Source.reduce_of_reads Update.conjAdd leftHolds.words leftHolds.sizes
      rightHolds.sizes leftHolds.reads rightHolds.reads]
    exact congrArg Except.ok (foldl_add_sum_zero _ _)
  cases left with
  | ofTensor tensor => exact general
  | ofView view => exact general
  | ofZero zero =>
      have same : zero.shape.sizes = right.source.shape.sizes :=
        leftHolds.sizes.trans rightHolds.sizes.symm
      refine Checked.check_eq_ok.mpr ⟨ZeroTensor.requireSameSizes_of_sizes same, ?_⟩
      refine congrArg Except.ok (List.sum_eq_zero fun term listed => ?_).symm
      obtain ⟨index, inside, rfl⟩ := List.mem_map.mp listed
      rw [leftHolds.eq_zero (mem_all.mp inside), laws.conj_zero]
      exact zero_mul _

/-- The elements of the product of a zero tensor with a vector are zero. -/
theorem Holds.product_eq_zero (laws : ConjLaws T) {zero : ZeroTensor T} {form : MatrixForm}
    {kept summed output : Nat} (holds : (ofZero zero).Holds (form.sizes kept summed) matrixElement)
    (below : output < kept) : form.product matrixElement vectorElement summed output = 0 := by
  let ring := laws.toCommRing
  refine List.sum_eq_zero fun term listed => ?_
  obtain ⟨position, inRange, rfl⟩ := List.mem_map.mp listed
  have inside := List.mem_range.mp inRange
  cases form with
  | plain =>
      have zero := holds.eq_zero (inside_pair.mpr ⟨output, below, position, inside, rfl⟩)
      exact (congrArg (· * _) zero).trans (zero_mul _)
  | transposed =>
      have zero := holds.eq_zero (inside_pair.mpr ⟨position, inside, output, below, rfl⟩)
      exact (congrArg (· * _) zero).trans (zero_mul _)
  | adjoint =>
      have zero := holds.eq_zero (inside_pair.mpr ⟨position, inside, output, below, rfl⟩)
      exact (congrArg (Element.conj · * _) zero).trans
        ((congrArg (· * _) laws.conj_zero).trans (zero_mul _))

/-- The product of a matrix with a vector fills a writable vector. -/
theorem filledBy_matVec (laws : ConjLaws T) (form : MatrixForm) {kept summed : Nat}
    (keptWord : kept < Size.bound)
    (matrixHolds : matrix.Holds (form.sizes kept summed) matrixElement)
    (vectorHolds : vector.Holds [summed] vectorElement) {output : Writable T} {cell : List Nat → Nat}
    (offers : output.Offers kept cell) :
    output.FilledBy kept cell (form.product matrixElement vectorElement summed)
      (matrix.matVec form .overwrite vector.source) := by
  have general : output.FilledBy kept cell (form.product matrixElement vectorElement summed)
      (matrix.source.matVec form .overwrite vector.source) := by
    obtain ⟨after, run, size, rows⟩ := Source.matVec_becomes keptWord
      (vectorHolds.words summed (by simp)) vectorHolds.sizes offers.sizes matrixHolds.reads
      vectorHolds.reads offers.addressed form .overwrite matrixHolds.sizes
    refine ⟨after, run, size, fun row below => ?_⟩
    have inside : Inside output.target.shape.sizes [row] := offers.sizes ▸ .cons below .nil
    rw [rows row below, Array.getElem?_eq_getElem (offers.addressed.cell_lt inside), Option.map_some,
      form.entry_eq_result laws.toRingLaws .overwrite]
    rfl
  cases matrix with
  | ofTensor tensor => exact general
  | ofView view => exact general
  | ofZero zero =>
      obtain ⟨after, run, size, becomes⟩ :=
        output.target.map_becomes offers.addressed fun _ => (0 : T)
      refine ⟨after, run, size, fun row below => ?_⟩
      have inside : Inside output.target.shape.sizes [row] := offers.sizes ▸ .cons below .nil
      rw [becomes [row] inside, Array.getElem?_eq_getElem (offers.addressed.cell_lt inside),
        Option.map_some, matrixHolds.product_eq_zero laws below]

/-- Over a commutative ring with a conjugation, a matrix leaves one side of an inner product for the
other as its adjoint. -/
theorem inner_adjoint (laws : ConjLaws T) :
    (∀ (matrix right left : Operand T) (image back : Writable T)
      (matrixElement rightElement leftElement : List Nat → T) (rows columns : Nat)
      (imageCell backCell : List Nat → Nat),
      matrix.Holds [rows, columns] matrixElement → right.Holds [columns] rightElement →
      left.Holds [rows] leftElement → image.Offers rows imageCell → back.Offers columns backCell →
      ∃ imageAfter backAfter value,
        Writable.writing (matrix.matVec .plain .overwrite right.source) image = .ok () imageAfter ∧
        Writable.writing (matrix.matVec .adjoint .overwrite left.source) back = .ok () backAfter ∧
        imageAfter.operand.inner left.source = .ok value ∧
        right.inner backAfter.operand.source = .ok value) ∧
    ∀ (left right : Operand T) (sizes : List Nat) (leftElement rightElement : List Nat → T),
      left.Holds sizes leftElement → right.Holds sizes rightElement →
      ∃ value, left.inner right.source = .ok value ∧
        right.inner left.source = .ok (Element.conj value) := by
  let ring := laws.toCommRing
  let star := laws.toStarRing
  constructor
  · intro matrix right left image back matrixElement rightElement leftElement rows columns imageCell
      backCell matrixHolds rightHolds leftHolds imageOffers backOffers
    have rowsWord := leftHolds.words rows (by simp)
    have columnsWord := rightHolds.words columns (by simp)
    obtain ⟨imageAfter, imageRun, imageHolds⟩ := Writable.FilledBy.holds imageOffers rowsWord
      (filledBy_matVec laws .plain rowsWord matrixHolds rightHolds imageOffers)
    obtain ⟨backAfter, backRun, backHolds⟩ := Writable.FilledBy.holds backOffers columnsWord
      (filledBy_matVec laws .adjoint columnsWord matrixHolds leftHolds backOffers)
    refine ⟨imageAfter, backAfter, _, imageRun, backRun, inner_of_holds laws imageHolds leftHolds, ?_⟩
    rw [inner_of_holds laws rightHolds backHolds, all_singleton, all_singleton, List.map_map,
      List.map_map]
    exact congrArg Except.ok (star_sum_exchange (List.range rows) (List.range columns)
      (fun row column => matrixElement [row, column]) (rightElement [·]) (leftElement [·])).symm
  · intro left right sizes leftElement rightElement leftHolds rightHolds
    refine ⟨_, inner_of_holds laws leftHolds rightHolds, ?_⟩
    rw [inner_of_holds laws rightHolds leftHolds]
    exact congrArg Except.ok (star_sum_star_mul (all sizes) leftElement rightElement).symm

open scoped Integer in
/-- A row of complex numbers is moved across an inner product: one product is written to a tensor, the
other to every other cell of a buffer. -/
theorem inner_adjoint_row :
    let matrix : View (Complex Int) := ⟨⟨.ofFree [1, 2], .columnMajor⟩, .plain,
      .ofCells #[⟨1, 2⟩, ⟨3, 0⟩]⟩
    let right : Tensor (Complex Int) := .ofLiteral [2] #[⟨1, 0⟩, ⟨0, 1⟩]
    let left : Tensor (Complex Int) := .ofLiteral [1] #[⟨2, 1⟩]
    let other : Tensor (Complex Int) := .ofLiteral [1, 2] #[⟨0, 1⟩, ⟨1, 0⟩]
    let image : Tensor (Complex Int) := .ofLiteral [1] #[⟨9, 9⟩]
    let target : Target := .whole ⟨.ofFree [2], .strided [2]⟩
    (∃ imageAfter backAfter,
      Writable.writing ((ofView matrix).matVec .plain .overwrite right.source) (.ofTensor image) =
        .ok () imageAfter ∧
      Writable.writing ((ofView matrix).matVec .adjoint .overwrite left.source)
        (.ofBuffer target #[⟨9, 9⟩, ⟨7, 7⟩, ⟨8, 8⟩]) = .ok () backAfter ∧
      imageAfter.operand.inner left.source = .ok ⟨7, -9⟩ ∧
      (ofTensor right).inner backAfter.operand.source = .ok ⟨7, -9⟩) ∧
    (ofView matrix).inner other.source = .ok ⟨5, 1⟩ ∧
    (ofTensor other).inner matrix.source = .ok ⟨5, -1⟩ := by
  intro matrix right left other image target
  let element (index : List Nat) : Complex Int := (matrix.read index).toOption.getD 0
  have matrixHolds : (ofView matrix).Holds [1, 2] element := by
    refine ⟨by decide, rfl, fun index inside => ?_⟩
    change Inside [1, 2] index at inside
    obtain ⟨row, rowBelow, column, columnBelow, rfl⟩ := inside_pair.mp inside
    interval_cases row
    interval_cases column <;> rfl
  have rightHolds := holds_of_full (show right.Full from rfl) (by decide)
  have leftHolds := holds_of_full (show left.Full from rfl) (by decide)
  have otherHolds := holds_of_full (show other.Full from rfl) (by decide)
  let back : Writable (Complex Int) := .ofBuffer target #[⟨9, 9⟩, ⟨7, 7⟩, ⟨8, 8⟩]
  have imageOffers : (Writable.ofTensor image).Offers 1 (·.headD 0) :=
    ⟨rfl, Target.addressed_of_all (by decide) (by decide)⟩
  have backOffers : back.Offers 2 (2 * ·.headD 0) :=
    ⟨rfl, Target.addressed_of_all (by decide) (by decide)⟩
  obtain ⟨moves, exchanges⟩ := inner_adjoint (Complex.conjLaws Integer.ringLaws)
  obtain ⟨imageAfter, backAfter, value, imageRun, backRun, imageInner, backInner⟩ :=
    moves (ofView matrix) (ofTensor right) (ofTensor left) (.ofTensor image) back _ _ _ 1 2 _ _
      matrixHolds rightHolds leftHolds imageOffers backOffers
  have formed : Writable.writing ((ofView matrix).matVec .plain .overwrite right.source)
      (.ofTensor image) = .ok () (.ofTensor (.ofLiteral [1] #[⟨1, 5⟩])) := by cbv
  obtain ⟨_, rfl⟩ := EStateM.Result.ok.inj (formed.symm.trans imageRun)
  have valued : (ofTensor (.ofLiteral [1] #[⟨1, 5⟩])).inner left.source =
      .ok (⟨7, -9⟩ : Complex Int) := by cbv
  obtain rfl := Except.ok.inj (valued.symm.trans imageInner)
  obtain ⟨product, inner, exchanged⟩ := exchanges (ofView matrix) (ofTensor other) [1, 2] _ _
    matrixHolds otherHolds
  have crossed : (ofView matrix).inner other.source = .ok (⟨5, 1⟩ : Complex Int) := by cbv
  obtain rfl := Except.ok.inj (crossed.symm.trans inner)
  exact ⟨⟨_, backAfter, imageRun, backRun, imageInner, backInner⟩, inner, exchanged⟩

end Operand

end ShapedTensor

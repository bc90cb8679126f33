import ShapedTensor.Proofs.Element.Laws
import ShapedTensor.Proofs.Target.Addressed
import ShapedTensor.Proofs.Target.Frame

namespace ShapedTensor

open Index

variable {T : Type}

section Rows

variable {cell : List Nat → Nat} {count : Nat} {change otherChange : Nat → T → T}
  {before middle after : Array T}

/-- The cells of the first `count` rows change, each as its row asks for, and no others. -/
structure RowsChange (cell : List Nat → Nat) (count : Nat) (change : Nat → T → T)
    (before after : Array T) : Prop where
  size : after.size = before.size
  row : ∀ output < count, ∃ own, before[cell [output]]? = some own ∧
    after[cell [output]]? = some (change output own)
  rest : ∀ position, (∀ output < count, cell [output] ≠ position) →
    after[position]? = before[position]?

/-- Changes of the same rows go on from one to the next. -/
theorem RowsChange.trans (first : RowsChange cell count change before middle)
    (second : RowsChange cell count otherChange middle after) :
    RowsChange cell count (fun output own => otherChange output (change output own)) before after where
  size := second.size.trans first.size
  row output below := by
    obtain ⟨own, found, changed⟩ := first.row output below
    obtain ⟨image, again, result⟩ := second.row output below
    obtain rfl := Option.some.inj (changed.symm.trans again)
    exact ⟨own, found, result⟩
  rest position apart := (second.rest position apart).trans (first.rest position apart)

/-- Buffers that agree except in the rows, and whose rows end as the same elements, end as the same
buffer. -/
theorem RowsChange.eq_of_rows {other otherAfter : Array T}
    (first : RowsChange cell count change before after)
    (second : RowsChange cell count otherChange other otherAfter)
    (rest : ∀ position, (∀ output < count, cell [output] ≠ position) →
      other[position]? = before[position]?)
    (same : ∀ output < count, ∀ own otherOwn, before[cell [output]]? = some own →
      other[cell [output]]? = some otherOwn → change output own = otherChange output otherOwn) :
    after = otherAfter := by
  refine Array.ext_getElem? fun position => ?_
  by_cases row : ∃ output < count, cell [output] = position
  · obtain ⟨output, below, rfl⟩ := row
    obtain ⟨own, found, result⟩ := first.row output below
    obtain ⟨otherOwn, otherFound, otherResult⟩ := second.row output below
    rw [result, otherResult, same output below own otherOwn found otherFound]
  · have apart : ∀ output < count, cell [output] ≠ position :=
      fun output below equal => row ⟨output, below, equal⟩
    rw [first.rest position apart, second.rest position apart, rest position apart]

/-- Rows that change into themselves leave a buffer as it is. -/
theorem RowsChange.eq_self (changed : RowsChange cell count change before after)
    (same : ∀ output < count, ∀ own, change output own = own) : after = before := by
  refine Array.ext_getElem? fun position => ?_
  by_cases row : ∃ output < count, cell [output] = position
  · obtain ⟨output, below, rfl⟩ := row
    obtain ⟨own, found, result⟩ := changed.row output below
    rw [result, found, same output below own]
  · exact changed.rest position fun output below equal => row ⟨output, below, equal⟩

end Rows

variable [Element T]

namespace MatrixForm

/-- A term of an element of the product of a matrix, in its form, with a vector. -/
def term (matrix vector : List Nat → T) (output summed : Nat) : MatrixForm → T
  | .plain => matrix [output, summed] * vector [summed]
  | .transposed => matrix [summed, output] * vector [summed]
  | .adjoint => Element.conj (matrix [summed, output]) * vector [summed]

/-- An element of the product of a matrix, in its form, with a vector of `count` elements. -/
def product (form : MatrixForm) (matrix vector : List Nat → T) (count output : Nat) : T :=
  ((List.range count).map fun summed => form.term matrix vector output summed).sum

end MatrixForm

namespace Accumulation

/-- What becomes of an element, given the element of the product. -/
def result (own product : T) : Accumulation T → T
  | overwrite => product
  | add => own + product
  | subtract => own - product
  | addMultiple factor => own + factor * product

/-- What becomes of an element at one of the terms of the product. -/
def step (own term : T) : Accumulation T → T
  | overwrite | add => own + term
  | subtract => own - term
  | addMultiple factor => own + factor * term

/-- The update of a form takes one more term of its product, whichever operand comes first. -/
theorem combine_eq_step (laws : CommSemiringLaws T) (accumulation : Accumulation T)
    (form : MatrixForm) (matrix vector : List Nat → T) (output summed : Nat) (own : T) :
    form.combine (accumulation.update form) matrix vector output summed own =
      accumulation.step own (form.term matrix vector output summed) := by
  cases form with
  | plain =>
      cases accumulation with
      | overwrite => rfl
      | add => rfl
      | subtract => rfl
      | addMultiple factor => exact congrArg (own + ·) (laws.mul_assoc ..)
  | transposed =>
      cases accumulation with
      | overwrite => exact congrArg (own + ·) (laws.mul_comm ..)
      | add => exact congrArg (own + ·) (laws.mul_comm ..)
      | subtract => exact congrArg (own - ·) (laws.mul_comm ..)
      | addMultiple factor =>
          refine congrArg (own + ·) ((laws.mul_assoc ..).trans ?_)
          exact congrArg (factor * ·) (laws.mul_comm ..)
  | adjoint =>
      cases accumulation with
      | overwrite => exact congrArg (own + ·) (laws.mul_comm ..)
      | add => exact congrArg (own + ·) (laws.mul_comm ..)
      | subtract => exact congrArg (own - ·) (laws.mul_comm ..)
      | addMultiple factor =>
          refine congrArg (own + ·) ((laws.mul_assoc ..).trans ?_)
          exact congrArg (factor * ·) (laws.mul_comm ..)

/-- The steps for all terms, from what an element is at first, give the result for their sum. -/
theorem foldl_step (laws : RingLaws T) (accumulation : Accumulation T) (items : List Nat)
    (term : Nat → T) (own : T) :
    items.foldl (fun own item => accumulation.step own (term item)) (accumulation.start own) =
      accumulation.result own (items.map term).sum := by
  let ring := laws.toCommRing
  cases accumulation with
  | overwrite => exact foldl_add_sum_zero items term
  | add => exact foldl_add_sum items term own
  | subtract => exact foldl_sub_sum items term own
  | addMultiple factor =>
      refine (foldl_add_sum items (factor * term ·) own).trans ?_
      exact congrArg (own + ·) (List.sum_map_mul_left items term factor)

end Accumulation

/-- An element of a matrix-vector product ends as the result for the element of the product. -/
theorem MatrixForm.entry_eq_result (laws : RingLaws T) (form : MatrixForm)
    (accumulation : Accumulation T) (matrix vector : List Nat → T) (count output : Nat) (own : T) :
    form.entry (accumulation.update form) matrix vector count output (accumulation.start own) =
      accumulation.result own (form.product matrix vector count output) := by
  simp only [entry, accumulation.combine_eq_step laws.toCommSemiringLaws]
  exact accumulation.foldl_step laws _ _ own

namespace Source

variable {matrix vector : Source T} {target : Target} {cell : List Nat → Nat} {cells : Array T}
  {matrixElement vectorElement : List Nat → T} {kept summed : Nat} {form : MatrixForm}

/-- A matrix-vector product that changes its rows in a way changes nothing else. -/
theorem rowsChange_matVec {accumulation : Accumulation T} {change : Nat → T → T} {after : Array T}
    (outputs : target.shape.sizes = [kept]) (addressed : target.Addressed cells.size cell)
    (run : matrix.matVec form accumulation vector target cells = .ok () after)
    (rows : ∀ output < kept, after[cell [output]]? = cells[cell [output]]?.map (change output)) :
    RowsChange cell kept change cells after := by
  have inside {output : Nat} (below : output < kept) : Inside target.shape.sizes [output] :=
    outputs ▸ .cons below .nil
  have moves : Writing.Moves target.Confined (target.apply (.matVec form accumulation matrix vector)) :=
    Target.confined_apply fun _ reached => reached
  have confined : target.Confined cells after := by
    have moved : target.Confined cells
      (Writing.left (matrix.matVec form accumulation vector target) cells) := moves cells
    rwa [Writing.left_of_ok run] at moved
  refine ⟨confined.size, fun output below => ?_, fun position apart => ?_⟩
  · have found := Array.getElem?_eq_getElem (addressed.cell_lt (inside below))
    exact ⟨_, found, by rw [rows output below, found, Option.map_some]⟩
  · refine confined.kept position fun index indexInside located => ?_
    have own := indexInside
    rw [outputs] at own
    obtain ⟨row, below, rfl⟩ := inside_single.mp own
    exact apart _ below (Except.ok.inj ((addressed.located _ indexInside).symm.trans located))

/-- Over a commutative ring each matrix-vector product leaves its result in every row and changes no
other cell. -/
theorem matVec_consistent (laws : RingLaws T) (keptWord : kept < Size.bound)
    (summedWord : summed < Size.bound) (matrixSizes : matrix.shape.sizes = form.sizes kept summed)
    (vectorSizes : vector.shape.sizes = [summed]) (outputs : target.shape.sizes = [kept])
    (matrixReads : matrix.Reads matrixElement) (vectorReads : vector.Reads vectorElement)
    (addressed : target.Addressed cells.size cell) :
    (∀ accumulation, ∃ after, matrix.matVec form accumulation vector target cells = .ok () after ∧
      RowsChange cell kept (fun output own => accumulation.result own
        (form.product matrixElement vectorElement summed output)) cells after) ∧
    (∃ middle, matrix.matVec form .add vector target cells = .ok () middle ∧
      matrix.matVec form .subtract vector target middle = .ok () cells) ∧
    matrix.matVec form (.addMultiple 1) vector target cells =
      matrix.matVec form .add vector target cells ∧
    ∀ other : Array T, other.size = cells.size →
      (∀ position, (∀ output < kept, cell [output] ≠ position) →
        other[position]? = cells[position]?) →
      matrix.matVec form .overwrite vector target other =
        matrix.matVec form .overwrite vector target cells := by
  let ring := laws.toCommRing
  have runs {start : Array T} (addressed : target.Addressed start.size cell)
      (accumulation : Accumulation T) :
      ∃ after, matrix.matVec form accumulation vector target start = .ok () after ∧
        RowsChange cell kept (fun output own => accumulation.result own
          (form.product matrixElement vectorElement summed output)) start after := by
    obtain ⟨after, run, _, rows⟩ := matVec_becomes keptWord summedWord vectorSizes outputs matrixReads
      vectorReads addressed form accumulation matrixSizes
    simp only [form.entry_eq_result laws accumulation] at rows
    exact ⟨after, run, rowsChange_matVec outputs addressed run rows⟩
  refine ⟨runs addressed, ?_, ?_, fun other size rest => ?_⟩
  · obtain ⟨middle, added, first⟩ := runs addressed .add
    obtain ⟨after, subtracted, second⟩ := runs (first.size ▸ addressed) .subtract
    obtain rfl := (first.trans second).eq_self fun output _ own => add_sub_cancel_right own _
    exact ⟨middle, added, subtracted⟩
  · obtain ⟨added, run, rows⟩ := runs addressed .add
    obtain ⟨after, multiple, multipleRows⟩ := runs addressed (.addMultiple 1)
    have same : after = added := multipleRows.eq_of_rows rows (fun _ _ => rfl)
      fun output _ own otherOwn found otherFound => by
        obtain rfl := Option.some.inj (found.symm.trans otherFound)
        exact congrArg (own + ·) (one_mul _)
    rw [run, multiple, same]
  · obtain ⟨after, run, rows⟩ := runs addressed .overwrite
    obtain ⟨otherAfter, otherRun, otherRows⟩ := runs (size ▸ addressed) .overwrite
    have same := rows.eq_of_rows otherRows rest fun _ _ _ _ _ _ => rfl
    rw [run, otherRun, same]

open scoped Integer in
/-- A multiple of an adjoint product is added to every other cell, with the matrix conjugated and the
factor not. -/
theorem matVec_consistent_adjoint :
    let matrix : Tensor (Complex Int) :=
      .ofLiteral [3, 2] #[⟨1, 2⟩, ⟨0, 1⟩, ⟨3, 0⟩, ⟨1, 1⟩, ⟨0, -1⟩, ⟨2, 0⟩]
    let vector : Tensor (Complex Int) := .ofLiteral [3] #[⟨1, 0⟩, ⟨0, 1⟩, ⟨2, 1⟩]
    let target : Target := .whole ⟨.ofFree [2], .strided [2]⟩
    ∃ after, matrix.source.matVec .adjoint (.addMultiple ⟨0, 1⟩) vector.source target
        #[⟨1, 0⟩, ⟨7, 7⟩, ⟨0, 0⟩] = .ok () after ∧
      after[0]? = some ⟨-2, 0⟩ ∧ after[1]? = some ⟨7, 7⟩ ∧ after[2]? = some ⟨-2, 5⟩ := by
  intro matrix vector target
  have matrixFull : matrix.Full := rfl
  have vectorFull : vector.Full := rfl
  let start : Array (Complex Int) := #[⟨1, 0⟩, ⟨7, 7⟩, ⟨0, 0⟩]
  have addressed : target.Addressed start.size (2 * ·.headD 0) :=
    Target.addressed_of_all (by decide) (by decide)
  obtain ⟨after, run, rows⟩ := (matVec_consistent (Complex.conjLaws Integer.ringLaws).toRingLaws
    (by decide) (by decide) (show matrix.source.shape.sizes = MatrixForm.adjoint.sizes 2 3 from rfl) rfl
    rfl matrixFull.reads vectorFull.reads addressed).1 (.addMultiple ⟨0, 1⟩)
  refine ⟨after, run, ?_, ?_, ?_⟩
  · obtain ⟨own, found, changed⟩ := rows.row 0 (by decide)
    obtain rfl := Option.some.inj found
    exact changed.trans rfl
  · exact rows.rest 1 fun output _ => by simp
  · obtain ⟨own, found, changed⟩ := rows.row 1 (by decide)
    obtain rfl := Option.some.inj found
    exact changed.trans rfl

end Source

end ShapedTensor

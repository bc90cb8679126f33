import ShapedTensor.Proofs.Contraction.Run
import ShapedTensor.Proofs.Operand.Holds
import ShapedTensor.Proofs.Element.Integer

namespace ShapedTensor

variable {T : Type}

theorem Shape.eq_scalar {shape : Shape} (none : shape.axes = []) : shape = .scalar := by
  cases shape
  exact congrArg Shape.mk none

/-- The source whose elements are the images of those of another. -/
def Source.image (change : T → T) (source : Source T) : Source T :=
  ⟨source.shape, fun index => change <$> source.read index⟩

@[simp]
theorem Source.image_id (source : Source T) : source.image id = source := by
  simp [image]

namespace Contraction

/-- An update of images is the update that takes the images itself. -/
theorem step_image (contraction : Contraction) (update : T → T → T → T)
    (leftChange rightChange : T → T) (left right : Source T) (target : Target)
    (summed output : List Nat) :
    contraction.step update (left.image leftChange) (right.image rightChange) target summed output =
      contraction.step (fun own first second => update own (leftChange first) (rightChange second))
        left right target summed output := by
  refine bind_congr fun cell => ?_
  simp only [Source.image]
  cases left.read (contraction.leftIndex summed output) with
  | error fault => rfl
  | ok leftElement =>
      cases right.read (contraction.rightIndex summed output) with
      | error fault => rfl
      | ok rightElement => rfl

/-- A run on images is the run whose update takes the images itself. -/
theorem run_image (contraction : Contraction) (update : T → T → T → T)
    (leftChange rightChange : T → T) (left right : Source T) (target : Target) :
    contraction.run update (left.image leftChange) (right.image rightChange) target =
      contraction.run (fun own first second => update own (leftChange first) (rightChange second))
        left right target := by
  simp only [run, step_image]

end Contraction

/-- An adjoint product updates with the conjugate of the matrix where a transposed one has it itself. -/
theorem Accumulation.update_adjoint [Element T] (accumulation : Accumulation T) :
    accumulation.update .adjoint =
      fun own first second => accumulation.update .transposed own first (Element.conj second) := by
  cases accumulation <;> rfl

namespace Source

section Images

variable (update : T → T → T → T) (leftChange rightChange : T → T) (left right : Source T)

/-- A contraction of images is the contraction whose update takes the images itself. -/
theorem contractInto_image (leftAxes rightAxes : List Nat) :
    (left.image leftChange).contractInto update leftAxes (right.image rightChange) rightAxes =
      left.contractInto
        (fun own first second => update own (leftChange first) (rightChange second)) leftAxes right
        rightAxes := by
  funext target
  exact bind_congr fun contraction => contraction.run_image update leftChange rightChange left right
    target

variable [Element T]

/-- A contraction of adjacent axes of an image is the one whose update takes the image itself. -/
theorem contractAdjacentWith_image (count : Nat) :
    (left.image leftChange).contractAdjacentWith update count right =
      left.contractAdjacentWith (fun own first second => update own (leftChange first) second) count
        right := by
  have into : (left.image leftChange).contractAdjacentInto update count right =
      left.contractAdjacentInto (fun own first second => update own (leftChange first) second) count
        right := by
    funext target
    refine bind_congr fun axes => ?_
    have images := left.contractInto_image update leftChange id right axes.1 axes.2
    rw [image_id] at images
    exact congrFun images target
  rw [contractAdjacentWith, contractAdjacentWith, into]
  rfl

/-- A contraction of an image to one element is the one whose update takes the image itself. -/
theorem reduce_image (leftAxes rightAxes : List Nat) :
    (left.image leftChange).reduce update leftAxes right rightAxes =
      left.reduce (fun own first second => update own (leftChange first) second) leftAxes right
        rightAxes := by
  have images := left.contractInto_image update leftChange id right leftAxes rightAxes
  rw [image_id] at images
  rw [reduce, reduce, images]
  rfl

/-- The adjoint product with a matrix is the transposed one with its conjugates. -/
theorem matVec_image_conj (accumulation : Accumulation T) (matrix vector : Source T) :
    (matrix.image Element.conj).matVec .transposed accumulation vector =
      matrix.matVec .adjoint accumulation vector := by
  have images := vector.contractInto_image (accumulation.update .transposed) id Element.conj matrix
    [0] [0]
  rw [image_id] at images
  funext target
  have products : (matrix.image Element.conj).timesInto (accumulation.update .transposed) .transposed
      vector target = matrix.timesInto (accumulation.update .adjoint) .adjoint vector target := by
    rw [accumulation.update_adjoint]
    exact congrFun images target
  simp only [matVec, products]

end Images

section Scalars

variable [Element T] {left right : Source T} {update : T → T → T → T} {leftAxes rightAxes : List Nat}
  {tensor : Tensor T}

/-- What is contracted into one element is a tensor of one element. -/
theorem scalar_of_written
    (written : (Tensor.scalar 0).written (left.contractInto update leftAxes right rightAxes) =
      .ok tensor) : ∃ value, tensor = .scalar value := by
  obtain ⟨cells, run, rfl⟩ := Tensor.written_eq_ok.mp written
  obtain ⟨contraction, _, run⟩ := contractInto_eq_ok.mp run
  have kept : Writing.Keeps (·.size = 1)
      (contraction.run update left right (Tensor.scalar (0 : T)).target) := by
    apply Contraction.keeps_run
    intro cells cell _ _ _ _ _ _ size
    rwa [Array.size_modify]
  obtain ⟨value, rfl⟩ := Array.size_eq_one_iff.mp (kept _ _ _ rfl run)
  exact ⟨value, rfl⟩

/-- The contraction to one element is the one into a tensor of one zero. -/
theorem scalar_reduce_eq_ok :
    Tensor.scalar <$> left.reduce update leftAxes right rightAxes = .ok tensor ↔
      (Tensor.scalar 0).written (left.contractInto update leftAxes right rightAxes) = .ok tensor := by
  rw [Checked.map_eq_ok, reduce]
  constructor
  · rintro ⟨value, reduced, rfl⟩
    obtain ⟨output, written, read⟩ := Checked.bind_eq_ok.mp reduced
    obtain ⟨element, rfl⟩ := scalar_of_written written
    obtain rfl := Except.ok.inj read
    exact written
  · intro written
    obtain ⟨value, rfl⟩ := scalar_of_written written
    exact ⟨value, Checked.bind_eq_ok.mpr ⟨_, written, rfl⟩, rfl⟩

variable (room : Buffer.reserve T 1 = .ok ())
include room

theorem zeros_scalar : Tensor.zeros .growable .scalar = .ok (Tensor.scalar (0 : T)) :=
  Tensor.filled_eq_ok.mpr ⟨1, rfl, room, rfl⟩

/-- A contraction that leaves no axis is the one into a tensor of one zero. -/
theorem contract_nil_eq_ok :
    left.contract leftAxes right rightAxes [] = .ok tensor ↔
      (Tensor.scalar 0).written (left.contractInto Update.add leftAxes right rightAxes) =
        .ok tensor := by
  constructor
  · intro contracted
    obtain ⟨contraction, planned, contracted⟩ := Checked.bind_eq_ok.mp contracted
    obtain ⟨shape, shaped, contracted⟩ := Checked.bind_eq_ok.mp contracted
    obtain ⟨output, zeros, written⟩ := Checked.bind_eq_ok.mp contracted
    obtain rfl : shape = .scalar :=
      Shape.eq_scalar (List.map_eq_nil_iff.mp (Shape.ofSizes_eq_ok.mp shaped).2)
    obtain rfl := Except.ok.inj ((zeros_scalar room).symm.trans zeros)
    rw [Tensor.written, contractInto_of_plan planned]
    exact written
  · intro written
    obtain ⟨cells, run, rfl⟩ := Tensor.written_eq_ok.mp written
    obtain ⟨contraction, planned, run⟩ := contractInto_eq_ok.mp run
    have shaped : Shape.ofSizes [] contraction.outputSizes = .ok .scalar := by
      rw [← Contraction.outputs_of_run run]
      rfl
    exact Checked.bind_eq_ok.mpr ⟨contraction, planned, Checked.bind_eq_ok.mpr ⟨.scalar, shaped,
      Checked.bind_eq_ok.mpr ⟨_, zeros_scalar room, Tensor.written_eq_ok.mpr ⟨cells, run, rfl⟩⟩⟩⟩

/-- The contraction of all axes of operands of one rank is the one into a tensor of one zero. -/
theorem contractAdjacentWith_rank_eq_ok (rank : right.shape.rank = left.shape.rank) :
    left.contractAdjacentWith update left.shape.rank right = .ok tensor ↔
      (Tensor.scalar 0).written (left.contractInto update (List.range left.shape.rank) right
        (List.range left.shape.rank)) = .ok tensor := by
  by_cases same : right.shape.sizes = left.shape.sizes
  · have leftSizes : left.shape.sizes = [] ++ left.shape.sizes := rfl
    have rightSizes : right.shape.sizes = left.shape.sizes ++ [] := by rw [same, List.append_nil]
    have kept : left.shape.kept right.shape left.shape.rank = .scalar := by
      rw [← left.shape.sizes_length]
      exact Shape.eq_scalar (List.map_eq_nil_iff.mp (Shape.sizes_kept leftSizes rightSizes))
    have contracted := contractAdjacentWith_eq leftSizes rightSizes update
    have planned := Contraction.plan_adjacent [] left.shape.sizes []
    rw [← rightSizes, List.nil_append, List.length_nil, ← List.range_eq_range',
      left.shape.sizes_length] at planned
    rw [left.shape.sizes_length, kept, zeros_scalar room] at contracted
    rw [contracted, Tensor.written, contractInto_of_plan planned]
    exact Iff.rfl
  · -- Neither contraction accepts operands of different sizes.
    constructor
    · intro contracted
      obtain ⟨outer, inner, last, leftSizes, rightSizes, count⟩ :=
        sizes_of_contractAdjacentWith contracted
      have leftLength := congrArg List.length leftSizes
      have rightLength := congrArg List.length rightSizes
      simp only [Shape.sizes_length, List.length_append, rank, count] at leftLength rightLength
      obtain rfl := List.length_eq_zero_iff.mp (show outer.length = 0 by omega)
      obtain rfl := List.length_eq_zero_iff.mp (show last.length = 0 by omega)
      exact absurd (by rw [leftSizes, rightSizes, List.nil_append, List.append_nil]) same
    · intro written
      obtain ⟨cells, run, _⟩ := Tensor.written_eq_ok.mp written
      obtain ⟨contraction, planned, run⟩ := contractInto_eq_ok.mp run
      rw [← left.shape.sizes_length] at planned
      exact absurd
        (Contraction.sizes_of_plan_range planned (Contraction.outputs_of_run run).symm).symm same

end Scalars

end Source

/-- A conjugating accessor reads the conjugates of what a plain one reads. -/
theorem Accessor.conjugating_read [Element T] (handle : Handle T) (position : Nat) :
    Accessor.conjugating.read handle position =
      Element.conj <$> Accessor.plain.read handle position := by
  rw [Accessor.read, Accessor.read]
  cases handle.cells[handle.window.start + position]? <;> rfl

/-- The whole operand as a view that reads conjugates; only what is read plainly has one. -/
def Operand.conjugate (operand : Operand T) : View T :=
  { operand.asView with accessor := .conjugating }

/-- What is read plainly gives the conjugates of its elements when it is read conjugated. -/
theorem Operand.source_conjugate [Element T] {operand : Operand T}
    (plain : operand.asView.accessor = .plain) :
    operand.conjugate.source = operand.source.image Element.conj := by
  rw [← source_asView]
  refine congrArg (Source.mk operand.asView.shape) (funext fun index => ?_)
  change (operand.asView.mapping.offset index >>= _) =
    Element.conj <$> (operand.asView.mapping.offset index >>= _)
  rw [map_bind, plain]
  exact bind_congr fun place => Accessor.conjugating_read operand.asView.handle place

/-- For elements without any law, a product that conjugates an operand is the plain product of the
operand read conjugated. -/
theorem Operand.conjugating_products [Element T] {operand : Operand T}
    (plain : operand.asView.accessor = .plain) :
    let conjugate := operand.conjugate.source
    let axes := List.range operand.source.shape.rank
    (∀ right, operand.source.dot right = conjugate.contractAdjacent 1 right) ∧
    (∀ right, operand.source.doubleDot right = conjugate.contractAdjacent 2 right) ∧
    (∀ right, operand.inner right = conjugate.reduce Update.add axes right axes) ∧
    (Buffer.reserve T 1 = .ok () → ∀ right tensor,
      (Tensor.scalar <$> operand.inner right = .ok tensor ↔
        conjugate.contract axes right axes [] = .ok tensor) ∧
      (operand.source.shape.rank = 2 → right.shape.rank = 2 →
        (Tensor.scalar <$> operand.inner right = .ok tensor ↔
          operand.source.doubleDot right = .ok tensor))) ∧
    (∀ accumulation vector, operand.matVec .adjoint accumulation vector =
      (Operand.ofView operand.conjugate).matVec .transposed accumulation vector) ∧
    ((∀ element : T, Element.conj element = element) →
      (∀ right, operand.source.dot right = operand.source.mul right) ∧
      (∀ right, Operand.ofTensor <$> operand.source.dot right.source =
        (Operand.ofView operand.asView).mul right) ∧
      ∀ accumulation vector, operand.matVec .adjoint accumulation vector =
        operand.matVec .transposed accumulation vector) := by
  intro conjugate axes
  have image : conjugate = operand.source.image Element.conj := source_conjugate plain
  have concrete := concrete_of_plain plain
  have inner (right : Source T) : operand.inner right =
      conjugate.reduce Update.add axes right axes := by
    rw [concrete.inner_eq, image, Source.reduce_image]
    rfl
  have dot (right : Source T) : operand.source.dot right = conjugate.contractAdjacent 1 right := by
    rw [Source.contractAdjacent, image, Source.contractAdjacentWith_image]
    rfl
  have adjoint (accumulation : Accumulation T) (vector : Source T) :
      operand.matVec .adjoint accumulation vector =
        conjugate.matVec .transposed accumulation vector := by
    rw [concrete.matVec_eq, image, Source.matVec_image_conj]
  refine ⟨dot, fun right => ?_, inner, fun room right tensor => ⟨?_, fun leftRank rightRank => ?_⟩,
    adjoint, fun unchanged => ?_⟩
  · rw [Source.contractAdjacent, image, Source.contractAdjacentWith_image]
    rfl
  · rw [inner, Source.scalar_reduce_eq_ok, Source.contract_nil_eq_ok room]
  · rw [concrete.inner_eq, Source.inner, Source.scalar_reduce_eq_ok, Source.doubleDot, ← leftRank,
      Source.contractAdjacentWith_rank_eq_ok room (rightRank.trans leftRank.symm)]
  · have same : conjugate = operand.source := by
      rw [image, show Element.conj = (id : T → T) from funext unchanged, Source.image_id]
    refine ⟨fun right => ?_, fun right => ?_, fun accumulation vector => ?_⟩
    · rw [dot, same]
      rfl
    · rw [dot, same, ← source_asView]
      rfl
    · rw [adjoint, same, concrete.matVec_eq]

open scoped Integer in
/-- Matrices of complex numbers in columns and of integers in rows are multiplied in both ways. -/
theorem Operand.conjugating_products_columns :
    let view : View (Complex Int) :=
      ⟨⟨.ofFree [2, 2], .columnMajor⟩, .plain, .ofCells #[⟨1, 2⟩, ⟨0, -1⟩, ⟨3, 0⟩, ⟨2, 5⟩]⟩
    let right : Tensor (Complex Int) := .ofLiteral [2, 2] #[⟨1, 0⟩, ⟨0, 1⟩, ⟨2, -1⟩, ⟨4, 3⟩]
    let matrix : Tensor Int := .ofLiteral [2, 3] #[1, 2, 3, 4, 5, 6]
    let vector : Tensor Int := .ofLiteral [2] #[7, 8]
    (∃ product, view.source.doubleDot right.source = .ok product ∧
      (Operand.ofView view).conjugate.source.contract [0, 1] right.source [0, 1] [] = .ok product ∧
      product.value = .ok ⟨25, -11⟩) ∧
    matrix.source.matVec .adjoint (.addMultiple 2) vector.source (.whole ⟨.ofFree [3], .rowMajor⟩)
      #[100, 200, 300] = .ok () #[178, 308, 438] := by
  intro view right matrix vector
  constructor
  · have viewPlain : (Operand.ofView view).asView.accessor = .plain := rfl
    obtain ⟨_, _, _, scalars, _, _⟩ := conjugating_products viewPlain
    have found : view.source.doubleDot right.source = .ok (.scalar ⟨25, -11⟩) := by
      dsimp only [view, right]
      rfl
    obtain ⟨contracts, meets⟩ := scalars rfl right.source (.scalar ⟨25, -11⟩)
    exact ⟨_, found, contracts.mp ((meets rfl rfl).mpr found), rfl⟩
  · have matrixPlain : (Operand.ofTensor matrix).asView.accessor = .plain := rfl
    obtain ⟨_, _, _, _, _, real⟩ := conjugating_products matrixPlain
    obtain ⟨_, _, products⟩ := real fun _ => rfl
    have run : matrix.source.matVec .transposed (.addMultiple 2) vector.source
        (.whole ⟨.ofFree [3], .rowMajor⟩) #[100, 200, 300] = .ok () #[178, 308, 438] := by
      dsimp only [matrix, vector]
      rfl
    have same := products (.addMultiple 2) vector.source
    exact (congrFun (congrFun same _) _).trans run

end ShapedTensor

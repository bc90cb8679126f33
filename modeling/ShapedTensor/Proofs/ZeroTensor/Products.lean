import ShapedTensor.Proofs.Contraction.Plan
import ShapedTensor.Proofs.ZeroTensor.Sums

namespace ShapedTensor

open Index

variable {T R : Type} [Element T]

namespace ZeroTensor

variable {tensor : Tensor T} {zero : ZeroTensor T}

/-- The dense tensor of zeros agrees with every zero tensor of its shape. -/
theorem zeros_agree {kind : StorageKind} {shape : Shape}
    (built : Tensor.zeros kind shape = .ok tensor) :
    (Outcome.ofTensor tensor : Outcome T R).Agrees (Outcome.ofZero ⟨shape⟩) :=
  Outcome.agrees_of_zeros (congrArg Shape.sizes (Tensor.shape_zeros built))
    fun _ inside => Tensor.read_zeros built inside

/-- A product of adjacent axes with a silent update agrees with the zero tensor of its shape. -/
theorem product_agrees {update : T → T → T → T} {left right : Source T}
    (silent : Source.Silent update left right) {count : Nat} {result : Tensor T}
    (contracted : left.contractAdjacentWith update count right = .ok result) :
    ∃ shape, left.shape.contract right.shape count = .ok shape ∧
      Tensor.zeros .growable shape = .ok result ∧
      (Outcome.ofTensor result : Outcome T R).Agrees (Outcome.ofZero ⟨shape⟩) := by
  obtain ⟨shape, shaped, cleared⟩ := silent.contractAdjacentWith contracted
  exact ⟨shape, shaped, cleared, zeros_agree cleared⟩

/-- The product of a zero tensor has the shape of the dense product. -/
theorem contractAdjacent_of_shape (built : zero.toTensor = .ok tensor) {right : Source T}
    {count : Nat} {shape : Shape} (shaped : tensor.shape.contract right.shape count = .ok shape) :
    zero.contractAdjacent count right = .ok ⟨shape⟩ := by
  rw [Tensor.shape_zeros built] at shaped
  exact Checked.map_eq_ok.mpr ⟨shape, shaped, rfl⟩

/-- The zero tensor that is found is the outcome. -/
theorem outcome_of_zero {found : Except Fault (ZeroTensor T)} {other : ZeroTensor T}
    (same : found = .ok other) :
    Outcome.ofOperand <$> (Operand.ofZero <$> found) =
      (.ok (Outcome.ofZero other) : Except Fault (Outcome T R)) := by
  rw [same]
  rfl

variable [RealElement R] [Magnitude T R]

theorem change_zero (laws : ZeroLaws T R) (scaling : Scaling T) : scaling.change 0 = 0 := by
  cases scaling with
  | neg => exact laws.neg_zero
  | scale factor => exact laws.zero_mul factor
  | scaleLeft factor => exact laws.mul_zero factor
  | unscale divisor nonzero => exact laws.zero_div divisor nonzero

/-- The product of conjugated zeros is zeros. -/
theorem conjProduct_agrees (laws : ZeroLaws T R) (built : zero.toTensor = .ok tensor) {count : Nat}
    {right : Source T} {result : Tensor T}
    (contracted : tensor.source.contractAdjacentWith Update.conjAdd count right = .ok result) :
    ∃ product, zero.contractAdjacent count right = .ok product ∧ product.toTensor = .ok result ∧
      (Outcome.ofTensor result : Outcome T R).Agrees (Outcome.ofZero product) := by
  have silent := (Tensor.zeros_vanishes built).silent_left right laws.conjAdd_zero_left
  obtain ⟨shape, shaped, cleared, agrees⟩ := product_agrees silent contracted
  exact ⟨⟨shape⟩, contractAdjacent_of_shape built shaped, cleared, agrees⟩

variable [ElementText T]

/-- The image of zeros is zeros. -/
theorem image_simulated (laws : ZeroLaws T R) (built : zero.toTensor = .ok tensor)
    (scaling : Scaling T) : (Operation.image scaling).Simulated R tensor zero := by
  intro outcome run
  obtain ⟨image, mapped, rfl⟩ := Checked.map_eq_ok.mp run
  obtain ⟨result, formed, rfl⟩ := Checked.map_eq_ok.mp mapped
  rw [scaling.ofSource_eq] at formed
  obtain ⟨shape, _, reads⟩ := Source.map_eq_ok formed
  have same : result.shape = zero.shape := shape.trans (Tensor.shape_zeros built)
  refine ⟨_, rfl, Outcome.agrees_of_zeros (congrArg Shape.sizes same) fun index inside => ?_⟩
  obtain ⟨element, read, image⟩ := reads index (shape ▸ inside)
  obtain rfl := Tensor.zeros_vanishes built index element read
  rw [image, change_zero laws]

/-- The image of zeros in their own cells is zeros. -/
theorem imageInPlace_simulated (laws : ZeroLaws T R) (built : zero.toTensor = .ok tensor)
    (scaling : Scaling T) : (Operation.imageInPlace scaling).Simulated R tensor zero := by
  intro outcome run
  obtain ⟨result, mapped, rfl⟩ := Checked.map_eq_ok.mp run
  have reads (index : List Nat) (inside : Inside tensor.shape.sizes index) :
      tensor.read index = .ok 0 := Tensor.read_zeros built inside
  obtain ⟨after, formed, shape, images⟩ :=
    Tensor.map_of_reads (fun index inside => ⟨0, reads index inside⟩) scaling.change
  obtain rfl := Except.ok.inj (mapped.symm.trans formed)
  have same : result.shape = zero.shape := shape.trans (Tensor.shape_zeros built)
  refine ⟨_, rfl, Outcome.agrees_of_zeros (congrArg Shape.sizes same) fun index inside => ?_⟩
  rw [shape] at inside
  rw [images index 0 inside (reads index inside), change_zero laws]

/-- The product of zeros with an operand is zeros. -/
theorem mul_simulated (laws : ZeroLaws T R) (built : zero.toTensor = .ok tensor)
    (right : Operand T) : (Operation.mul right).Simulated R tensor zero := by
  intro outcome run
  obtain ⟨product, multiplied, rfl⟩ := Checked.map_eq_ok.mp run
  have silent := (Tensor.zeros_vanishes built).silent_left right.source
    (laws.update_zero_left .add .plain)
  have dense {result : Tensor T} (contracted : tensor.source.mul right.source = .ok result) :
      ∃ other, zero.contractAdjacent 1 right.source = .ok other ∧
        (Outcome.ofTensor result : Outcome T R).Agrees (Outcome.ofZero other) := by
    obtain ⟨shape, shaped, _, agrees⟩ := product_agrees silent contracted
    exact ⟨⟨shape⟩, contractAdjacent_of_shape built shaped, agrees⟩
  cases right with
  | ofTensor right =>
      obtain ⟨result, contracted, rfl⟩ := Checked.map_eq_ok.mp multiplied
      obtain ⟨other, shaped, agrees⟩ := dense contracted
      exact ⟨_, outcome_of_zero shaped, agrees⟩
  | ofView right =>
      obtain ⟨result, contracted, rfl⟩ := Checked.map_eq_ok.mp multiplied
      obtain ⟨other, shaped, agrees⟩ := dense contracted
      exact ⟨_, outcome_of_zero shaped, agrees⟩
  | ofZero right =>
      obtain ⟨other, found, rfl⟩ := Checked.map_eq_ok.mp multiplied
      obtain ⟨shape, shaped, rfl⟩ := Checked.map_eq_ok.mp found
      have same : zero.contractAdjacent 1 right.source = .ok ⟨shape⟩ :=
        contractAdjacent_of_shape built shaped
      exact ⟨_, outcome_of_zero same, rfl, fun index inside => ⟨0, rfl, rfl⟩⟩

/-- The product of an operand with zeros is zeros. -/
theorem mulTo_simulated (laws : ZeroLaws T R) (built : zero.toTensor = .ok tensor)
    (left : Operand T) : (Operation.mulTo left).Simulated R tensor zero := by
  intro outcome run
  obtain ⟨product, multiplied, rfl⟩ := Checked.map_eq_ok.mp run
  have silent := (Tensor.zeros_vanishes built).silent_right left.source
    (laws.update_zero_right .add .plain)
  cases left with
  | ofTensor left =>
      obtain ⟨result, contracted, rfl⟩ := Checked.map_eq_ok.mp multiplied
      obtain ⟨shape, shaped, _, agrees⟩ := product_agrees silent contracted
      change left.shape.contract tensor.shape 1 = .ok shape at shaped
      rw [Tensor.shape_zeros built] at shaped
      have other : zero.mulLeft left.source = .ok ⟨shape⟩ := Checked.map_eq_ok.mpr ⟨shape, shaped, rfl⟩
      exact ⟨_, outcome_of_zero other, agrees⟩
  | ofView left =>
      obtain ⟨result, contracted, rfl⟩ := Checked.map_eq_ok.mp multiplied
      obtain ⟨shape, _, cleared, _⟩ := product_agrees (R := R) silent contracted
      have other : left.source.mul zero.source = .ok result :=
        Source.contractAdjacentWith_imp (follows_toTensor built) contracted
      exact ⟨_, Checked.map_eq_ok.mpr ⟨.ofTensor result, Checked.map_eq_ok.mpr ⟨result, other, rfl⟩, rfl⟩,
        Outcome.agrees_of_full (Tensor.filled_full cleared)⟩
  | ofZero left =>
      obtain ⟨product, found, rfl⟩ := Checked.map_eq_ok.mp multiplied
      obtain ⟨shape, shaped, rfl⟩ := Checked.map_eq_ok.mp found
      change left.shape.contract tensor.shape 1 = .ok shape at shaped
      rw [Tensor.shape_zeros built] at shaped
      have other : left.contractAdjacent 1 zero.source = .ok ⟨shape⟩ :=
        Checked.map_eq_ok.mpr ⟨shape, shaped, rfl⟩
      exact ⟨_, outcome_of_zero other, rfl, fun index inside => ⟨0, rfl, rfl⟩⟩

/-- The product of zeros over one pair of axes is zeros. -/
theorem dot_simulated (laws : ZeroLaws T R) (built : zero.toTensor = .ok tensor)
    (right : Source T) : (Operation.dot right).Simulated R tensor zero := by
  intro outcome run
  obtain ⟨result, contracted, rfl⟩ := Checked.map_eq_ok.mp run
  obtain ⟨product, shaped, _, agrees⟩ := conjProduct_agrees laws built contracted
  exact ⟨_, Checked.map_eq_ok.mpr ⟨product, shaped, rfl⟩, agrees⟩

/-- The product of zeros over two pairs of axes is zeros. -/
theorem doubleDot_simulated (laws : ZeroLaws T R) (built : zero.toTensor = .ok tensor)
    (right : Source T) : (Operation.doubleDot right).Simulated R tensor zero := by
  intro outcome run
  obtain ⟨result, contracted, rfl⟩ := Checked.map_eq_ok.mp run
  obtain ⟨product, shaped, _, agrees⟩ := conjProduct_agrees laws built contracted
  exact ⟨_, Checked.map_eq_ok.mpr ⟨product, shaped, rfl⟩, agrees⟩

/-- The dense product of zeros over one pair of axes is the same dense tensor. -/
theorem denseDot_simulated (laws : ZeroLaws T R) (built : zero.toTensor = .ok tensor)
    (right : Source T) : (Operation.denseDot right).Simulated R tensor zero := by
  intro outcome run
  obtain ⟨result, contracted, rfl⟩ := Checked.map_eq_ok.mp run
  obtain ⟨product, shaped, cleared, _⟩ := conjProduct_agrees laws built contracted
  refine ⟨_, Checked.bind_eq_ok.mpr ⟨product, shaped, ?_⟩,
    Outcome.agrees_of_full (Tensor.filled_full cleared)⟩
  exact Checked.map_eq_ok.mpr ⟨result, cleared, rfl⟩

/-- The dense product of zeros over two pairs of axes is the same dense tensor. -/
theorem denseDoubleDot_simulated (laws : ZeroLaws T R) (built : zero.toTensor = .ok tensor)
    (right : Source T) : (Operation.denseDoubleDot right).Simulated R tensor zero := by
  intro outcome run
  obtain ⟨result, contracted, rfl⟩ := Checked.map_eq_ok.mp run
  obtain ⟨product, shaped, cleared, _⟩ := conjProduct_agrees laws built contracted
  refine ⟨_, Checked.bind_eq_ok.mpr ⟨product, shaped, ?_⟩,
    Outcome.agrees_of_full (Tensor.filled_full cleared)⟩
  exact Checked.map_eq_ok.mpr ⟨result, cleared, rfl⟩

/-- The inner product of zeros is zero, and needs an operand of the same sizes. -/
theorem inner_simulated (laws : ZeroLaws T R) (built : zero.toTensor = .ok tensor)
    (right : Source T) : (Operation.inner right).Simulated R tensor zero := by
  intro outcome run
  obtain ⟨value, reduced, rfl⟩ := Checked.map_eq_ok.mp run
  have silent := (Tensor.zeros_vanishes built).silent_left right laws.conjAdd_zero_left
  have zeroValue : value = 0 := silent.reduce reduced
  have sizes : tensor.shape.sizes = right.shape.sizes := by
    obtain ⟨output, written, _⟩ := Checked.bind_eq_ok.mp reduced
    obtain ⟨cells, contracted, _⟩ := Tensor.written_eq_ok.mp written
    obtain ⟨contraction, planned, contracted⟩ := Source.contractInto_eq_ok.mp contracted
    refine Contraction.sizes_of_plan_range ?_ (Contraction.outputs_of_run contracted).symm
    rw [Shape.sizes_length]
    exact planned
  refine ⟨.element 0, Checked.map_eq_ok.mpr ⟨0, ?_, rfl⟩, zeroValue⟩
  change ZeroTensor.inner zero right = .ok 0
  rw [inner, requireSameSizes_of_sizes (Tensor.shape_zeros built ▸ sizes)]
  rfl

/-- A bilinear form of zeros is zero. -/
theorem bilinear_simulated (laws : ZeroLaws T R) (built : zero.toTensor = .ok tensor)
    (left right : Source T) : (Operation.bilinear left right).Simulated R tensor zero := by
  intro outcome run
  obtain ⟨value, formed, rfl⟩ := Checked.map_eq_ok.mp run
  obtain ⟨rows, _, formed⟩ := Checked.bind_eq_ok.mp formed
  obtain ⟨start, started, formed⟩ := Checked.bind_eq_ok.mp formed
  obtain ⟨image, written, reduced⟩ := Checked.bind_eq_ok.mp formed
  obtain ⟨cells, contracted, rfl⟩ := Tensor.written_eq_ok.mp written
  obtain ⟨contraction, _, contracted⟩ := Source.contractInto_eq_ok.mp contracted
  have matrixSilent := (Tensor.zeros_vanishes built).silent_left right
    (laws.update_zero_left .add .plain)
  obtain rfl := matrixSilent.run contracted
  have imageSilent := (Tensor.zeros_vanishes started).silent_right left
    (laws.update_zero_right .add .plain)
  exact ⟨.element 0, rfl, imageSilent.reduce reduced⟩

/-- Contractions of all axes of zeros are the same dense tensor. -/
theorem multilinear_simulated (built : zero.toTensor = .ok tensor) (first : Source T)
    (others : List (Source T)) : (Operation.multilinear first others).Simulated R tensor zero := by
  intro outcome run
  obtain ⟨result, contracted, rfl⟩ := Checked.map_eq_ok.mp run
  have same := Source.multilinear_imp (follows_toTensor built) first others contracted
  exact ⟨_, Checked.map_eq_ok.mpr ⟨result, same, rfl⟩,
    Outcome.agrees_of_full (Source.multilinear_full _ first others contracted)⟩

/-- A matrix-vector product of zeros leaves the same cells. -/
theorem matVec_simulated (laws : ZeroLaws T R) (built : zero.toTensor = .ok tensor)
    (form : MatrixForm) (accumulation : Accumulation T) (vector : Source T) (target : Target)
    (cells : Array T) :
    (Operation.matVec form accumulation vector target cells).Simulated R tensor zero := by
  intro outcome run
  obtain ⟨after, product, rfl⟩ := Operation.run_matVec.mp run
  have cleared := (Tensor.zeros_vanishes built).matVec laws product
  exact ⟨.cells after, Operation.run_matVec.mpr ⟨after, cleared, rfl⟩, rfl⟩

end ZeroTensor

end ShapedTensor

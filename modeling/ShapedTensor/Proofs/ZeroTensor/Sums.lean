import ShapedTensor.Proofs.ZeroTensor.Dense
import ShapedTensor.Proofs.ZeroTensor.Operation

namespace ShapedTensor

open Index

variable {T R : Type} [Element T]

namespace ZeroTensor

variable {tensor : Tensor T} {zero : ZeroTensor T}

/-- Shapes of the same sizes pass the comparison of sizes. -/
theorem requireSameSizes_of_sizes {left right : Shape} (same : left.sizes = right.sizes) :
    requireSameSizes left right = .ok () := by
  rw [requireSameSizes, if_pos ((left.sameSizes_iff right).mpr same)]

/-- An owned tensor plus zeros, or minus zeros, is that tensor. -/
theorem keepTensor_agrees {combine : T → T → T} (neutral : ∀ element, combine element 0 = element)
    (built : zero.toTensor = .ok tensor) {other result : Tensor T}
    (combined : other.source.zipWith combine tensor.source = .ok result) :
    zero.keepTensor other = .ok other ∧
      (Outcome.ofTensor result : Outcome T R).Agrees (Outcome.ofTensor other) := by
  obtain ⟨same, sizes, _, reads⟩ := Source.zipWith_eq_ok combined
  refine ⟨?_, sizes, fun index inside => ?_⟩
  · rw [keepTensor, requireSameSizes_of_sizes (Tensor.shape_zeros built ▸ same)]
    rfl
  · obtain ⟨left, right, leftRead, rightRead, read⟩ := reads index inside
    obtain rfl := Tensor.zeros_vanishes built index right rightRead
    rw [neutral] at read
    exact ⟨left, read, leftRead⟩

/-- A combination with zeros on the left that only needs the right elements is the same tensor. -/
theorem zipWith_left {combine other : T → T → T}
    (same : ∀ element, other 0 element = combine 0 element) (built : zero.toTensor = .ok tensor)
    {right : Source T} {result : Tensor T}
    (combined : tensor.source.zipWith combine right = .ok result) :
    zero.source.zipWith other right = .ok result := by
  refine Source.zipWith_imp (Tensor.shape_zeros built).symm rfl ?_ combined
  intro index leftElement rightElement leftRead rightRead
  obtain rfl := Tensor.zeros_vanishes built index leftElement leftRead
  exact ⟨0, rightElement, rfl, rightRead, same rightElement⟩

/-- A combination with zeros on the right is the same full tensor. -/
theorem zipWith_right (built : zero.toTensor = .ok tensor) {combine : T → T → T} {left : Source T}
    {result : Tensor T} (combined : left.zipWith combine tensor.source = .ok result) :
    left.zipWith combine zero.source = .ok result ∧ result.Full := by
  obtain ⟨_, _, full, _⟩ := Source.zipWith_eq_ok combined
  refine ⟨?_, full⟩
  refine Source.zipWith_imp rfl (Tensor.shape_zeros built).symm ?_ combined
  intro index leftElement rightElement leftRead rightRead
  obtain rfl := Tensor.zeros_vanishes built index rightElement rightRead
  exact ⟨leftElement, 0, leftRead, rfl, rfl⟩

/-- Two zero tensors combine to the zero tensor of their joined shape. -/
theorem combine_agrees {combine : T → T → T} (neutral : combine 0 0 = 0)
    (built : zero.toTensor = .ok tensor) {other : ZeroTensor T} {result : Tensor T}
    (combined : tensor.source.zipWith combine other.source = .ok result) :
    ∃ sum, zero.combine other = .ok sum ∧
      (Outcome.ofTensor result : Outcome T R).Agrees (Outcome.ofZero sum) := by
  obtain ⟨_, sizes, _, reads⟩ := Source.zipWith_eq_ok combined
  obtain ⟨shape, joined, _⟩ := Checked.bind_eq_ok.mp combined
  have joinedSizes := (Shape.sizes_of_combine joined).2
  change tensor.shape.combine other.shape = .ok shape at joined
  rw [Tensor.shape_zeros built] at joined
  refine ⟨⟨shape⟩, Checked.map_eq_ok.mpr ⟨shape, joined, rfl⟩, ?_⟩
  refine Outcome.agrees_of_zeros (sizes.trans joinedSizes.symm) fun index inside => ?_
  obtain ⟨left, right, leftRead, rightRead, read⟩ := reads index inside
  obtain rfl := Tensor.zeros_vanishes built index left leftRead
  obtain rfl := Except.ok.inj rightRead
  rw [read, neutral]

end ZeroTensor

variable [RealElement R] [Magnitude T R] [ElementText T]

namespace ZeroTensor

variable {tensor : Tensor T} {zero : ZeroTensor T}

/-- The owned sum with zeros on the left is the other tensor. -/
theorem addTensor_simulated (laws : ZeroLaws T R) (built : zero.toTensor = .ok tensor)
    (other : Tensor T) : (Operation.addTensor other).Simulated R tensor zero := by
  intro outcome run
  obtain ⟨result, summed, rfl⟩ := Checked.map_eq_ok.mp run
  obtain ⟨same, sizes, _, reads⟩ := Source.zipWith_eq_ok summed
  have kept : zero.addTensor other = .ok other := by
    rw [addTensor, requireSameSizes_of_sizes (Tensor.shape_zeros built ▸ same)]
    rfl
  refine ⟨_, Checked.map_eq_ok.mpr ⟨other, kept, rfl⟩, sizes.trans same, fun index inside => ?_⟩
  obtain ⟨left, right, leftRead, rightRead, read⟩ := reads index inside
  obtain rfl := Tensor.zeros_vanishes built index left leftRead
  rw [laws.zero_add] at read
  exact ⟨right, read, rightRead⟩

/-- The owned difference to a tensor is its negation. -/
theorem subTensor_simulated (laws : ZeroLaws T R) (built : zero.toTensor = .ok tensor)
    (other : Tensor T) : (Operation.subTensor other).Simulated R tensor zero := by
  intro outcome run
  obtain ⟨result, summed, rfl⟩ := Checked.map_eq_ok.mp run
  obtain ⟨same, sizes, _, reads⟩ := Source.zipWith_eq_ok summed
  have readable (index : List Nat) (inside : Inside other.shape.sizes index) :
      ∃ element, other.read index = .ok element := by
    obtain ⟨_, right, _, rightRead, _⟩ := reads index (sizes ▸ same ▸ inside)
    exact ⟨right, rightRead⟩
  obtain ⟨after, mapped, shape, images⟩ := Tensor.map_of_reads readable (- ·)
  have negated : zero.subTensor other = .ok after := by
    rw [subTensor, requireSameSizes_of_sizes (Tensor.shape_zeros built ▸ same)]
    exact mapped
  refine ⟨_, Checked.map_eq_ok.mpr ⟨after, negated, rfl⟩, ?_, fun index inside => ?_⟩
  · exact (sizes.trans same).trans (congrArg Shape.sizes shape).symm
  · obtain ⟨left, right, leftRead, rightRead, read⟩ := reads index inside
    obtain rfl := Tensor.zeros_vanishes built index left leftRead
    rw [laws.zero_sub] at read
    exact ⟨-right, read, images index right (same ▸ sizes ▸ inside) rightRead⟩

/-- The owned sum with zeros on the right is the other tensor. -/
theorem tensorAdd_simulated (laws : ZeroLaws T R) (built : zero.toTensor = .ok tensor)
    (other : Tensor T) : (Operation.tensorAdd other).Simulated R tensor zero := by
  intro outcome run
  obtain ⟨result, summed, rfl⟩ := Checked.map_eq_ok.mp run
  obtain ⟨kept, agrees⟩ := keepTensor_agrees laws.add_zero built summed
  exact ⟨_, Checked.map_eq_ok.mpr ⟨other, kept, rfl⟩, agrees⟩

/-- The owned difference of a tensor and zeros is that tensor. -/
theorem tensorSub_simulated (laws : ZeroLaws T R) (built : zero.toTensor = .ok tensor)
    (other : Tensor T) : (Operation.tensorSub other).Simulated R tensor zero := by
  intro outcome run
  obtain ⟨result, summed, rfl⟩ := Checked.map_eq_ok.mp run
  obtain ⟨kept, agrees⟩ := keepTensor_agrees laws.sub_zero built summed
  exact ⟨_, Checked.map_eq_ok.mpr ⟨other, kept, rfl⟩, agrees⟩

/-- The sum with zeros on the left is a copy of the other operand. -/
theorem add_simulated (laws : ZeroLaws T R) (built : zero.toTensor = .ok tensor)
    (right : Operand T) : (Operation.add right).Simulated R tensor zero := by
  intro outcome run
  obtain ⟨result, summed, rfl⟩ := Checked.map_eq_ok.mp run
  have copied : zero.add right.source = .ok result :=
    zipWith_left (fun element => (laws.zero_add element).symm) built summed
  obtain ⟨_, _, full, _⟩ := Source.zipWith_eq_ok summed
  exact ⟨_, Checked.map_eq_ok.mpr ⟨result, copied, rfl⟩, Outcome.agrees_of_full full⟩

/-- The difference of zeros and an operand is its negation. -/
theorem sub_simulated (laws : ZeroLaws T R) (built : zero.toTensor = .ok tensor)
    (right : Operand T) : (Operation.sub right).Simulated R tensor zero := by
  intro outcome run
  obtain ⟨result, summed, rfl⟩ := Checked.map_eq_ok.mp run
  have negated : zero.sub right.source = .ok result :=
    zipWith_left (fun element => (laws.zero_sub element).symm) built summed
  obtain ⟨_, _, full, _⟩ := Source.zipWith_eq_ok summed
  exact ⟨_, Checked.map_eq_ok.mpr ⟨result, negated, rfl⟩, Outcome.agrees_of_full full⟩

/-- The sum of an operand with zeros on its right is the same tensor. -/
theorem addTo_simulated (built : zero.toTensor = .ok tensor) (left : Operand T) :
    (Operation.addTo left).Simulated R tensor zero := by
  intro outcome run
  obtain ⟨result, summed, rfl⟩ := Checked.map_eq_ok.mp run
  have same : left.add zero.source = .ok result ∧ result.Full := by
    cases left with
    | ofTensor left => exact zipWith_right built summed
    | ofView left => exact zipWith_right built summed
    | ofZero left => exact zipWith_right built summed
  exact ⟨_, Checked.map_eq_ok.mpr ⟨result, same.1, rfl⟩, Outcome.agrees_of_full same.2⟩

/-- The difference of an operand and zeros is the same tensor. -/
theorem subFrom_simulated (built : zero.toTensor = .ok tensor) (left : Operand T) :
    (Operation.subFrom left).Simulated R tensor zero := by
  intro outcome run
  obtain ⟨result, summed, rfl⟩ := Checked.map_eq_ok.mp run
  have same : left.sub zero.source = .ok result ∧ result.Full := by
    cases left with
    | ofTensor left => exact zipWith_right built summed
    | ofView left => exact zipWith_right built summed
    | ofZero left => exact zipWith_right built summed
  exact ⟨_, Checked.map_eq_ok.mpr ⟨result, same.1, rfl⟩, Outcome.agrees_of_full same.2⟩

/-- The sum of two zero tensors is a zero tensor. -/
theorem addZero_simulated (laws : ZeroLaws T R) (built : zero.toTensor = .ok tensor)
    (other : ZeroTensor T) : (Operation.addZero other).Simulated R tensor zero := by
  intro outcome run
  obtain ⟨result, summed, rfl⟩ := Checked.map_eq_ok.mp run
  obtain ⟨sum, combined, agrees⟩ := combine_agrees (laws.add_zero 0) built summed
  exact ⟨_, Checked.map_eq_ok.mpr ⟨sum, combined, rfl⟩, agrees⟩

/-- The difference of two zero tensors is a zero tensor. -/
theorem subZero_simulated (laws : ZeroLaws T R) (built : zero.toTensor = .ok tensor)
    (other : ZeroTensor T) : (Operation.subZero other).Simulated R tensor zero := by
  intro outcome run
  obtain ⟨result, summed, rfl⟩ := Checked.map_eq_ok.mp run
  obtain ⟨sum, combined, agrees⟩ := combine_agrees (laws.sub_zero 0) built summed
  exact ⟨_, Checked.map_eq_ok.mpr ⟨sum, combined, rfl⟩, agrees⟩

end ZeroTensor

end ShapedTensor

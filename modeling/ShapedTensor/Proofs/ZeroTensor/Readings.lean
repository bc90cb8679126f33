import ShapedTensor.Proofs.ZeroTensor.Sums

namespace ShapedTensor

open Index

variable {T R : Type} [Element T]

namespace Source

/-- Comparing two sources in steps agrees with another comparison in steps that agree. -/
theorem sameElements_imp {left right : Source T} {compare : List Nat → Except Fault Bool}
    {sizes : List Nat} (same : left.shape.sizes = sizes)
    (agrees : ∀ index leftElement rightElement, left.read index = .ok leftElement →
      right.read index = .ok rightElement → compare index = .ok (leftElement == rightElement))
    {truth : Bool} (compared : left.sameElements right = .ok truth) :
    Index.foldM sizes (fun equal index => if equal then compare index else return false) true =
      .ok truth := by
  rw [sameElements, foldM_eq, same] at compared
  rw [foldM_eq]
  refine Checked.foldlM_imp (fun equal index _ next step => ?_) compared
  cases equal with
  | false => exact step
  | true =>
      obtain ⟨leftElement, leftRead, step⟩ := Checked.bind_eq_ok.mp step
      obtain ⟨rightElement, rightRead, step⟩ := Checked.bind_eq_ok.mp step
      obtain rfl := Except.ok.inj step
      exact agrees index leftElement rightElement leftRead rightRead

end Source

variable [RealElement R] [Magnitude T R]

/-- A source that vanishes has only zeros. -/
theorem Source.Vanishes.allZero {source : Source T} (vanishes : source.Vanishes)
    (laws : ZeroLaws T R) {truth : Bool} (tested : ZeroTensor.allZero source = .ok truth) :
    truth = true := by
  rw [ZeroTensor.allZero, foldM_eq] at tested
  have keeps (state : Bool) (index : List Nat) (next : Bool) (holds : state = true)
      (step : (if state then do
          let element ← source.read index
          return element == 0
        else return false) = Except.ok (ε := Fault) next) : next = true := by
    rw [if_pos holds] at step
    obtain ⟨element, read, step⟩ := Checked.bind_eq_ok.mp step
    obtain rfl := vanishes index element read
    obtain rfl := Except.ok.inj step
    exact laws.zero_beq
  exact Checked.foldlM_inv keeps rfl tested

namespace ZeroTensor

variable {tensor : Tensor T} {zero : ZeroTensor T}

/-- A dense comparison with zeros on the left is the test for zeros. -/
theorem equals_of_left (laws : ZeroLaws T R) (built : zero.toTensor = .ok tensor)
    {right : Source T} {truth : Bool} (compared : tensor.source.equals right = .ok truth) :
    zero.equals right = .ok truth := by
  have shape := Tensor.shape_zeros built
  unfold Source.equals at compared
  rw [equals, ← shape]
  split at compared
  · next same =>
      refine (if_pos same).trans ?_
      refine Source.sameElements_imp ((tensor.shape.sameSizes_iff right.shape).mp same) ?_ compared
      intro index leftElement rightElement leftRead rightRead
      obtain rfl := Tensor.zeros_vanishes built index leftElement leftRead
      rw [rightRead, laws.beq_comm]
      rfl
  · next differ =>
      refine (if_neg differ).trans ?_
      exact compared

/-- A dense comparison with zeros on the right is the test for zeros. -/
theorem equals_of_right (built : zero.toTensor = .ok tensor) {left : Source T} {truth : Bool}
    (compared : left.equals tensor.source = .ok truth) : zero.equals left = .ok truth := by
  have shape := Tensor.shape_zeros built
  have symmetric : tensor.shape.sameSizes left.shape = left.shape.sameSizes tensor.shape := by
    rw [Bool.eq_iff_iff, Shape.sameSizes_iff, Shape.sameSizes_iff, eq_comm]
  unfold Source.equals at compared
  rw [equals, ← shape, symmetric]
  split at compared
  · next same =>
      refine (if_pos same).trans ?_
      refine Source.sameElements_imp rfl ?_ compared
      intro index leftElement rightElement leftRead rightRead
      obtain rfl := Tensor.zeros_vanishes built index rightElement rightRead
      rw [leftRead]
      rfl
  · next differ =>
      refine (if_neg differ).trans ?_
      exact compared

/-- A zero tensor equals a dense tensor of zeros when the sizes are the same. -/
theorem sameSizes_of_equals (laws : ZeroLaws T R) (built : zero.toTensor = .ok tensor)
    {other : ZeroTensor T} {truth : Bool} (compared : other.equals tensor.source = .ok truth) :
    truth = other.shape.sameSizes zero.shape := by
  rw [← Tensor.shape_zeros built]
  unfold equals at compared
  split at compared
  · next same => exact ((Tensor.zeros_vanishes built).allZero laws compared).trans same.symm
  · next differ =>
      obtain rfl := Except.ok.inj compared
      exact (Bool.eq_false_iff.mpr differ).symm

variable [ElementText T]

/-- The squared lengths of zeros sum up to zero. -/
theorem sumAbsSq_simulated (laws : ZeroLaws T R) (built : zero.toTensor = .ok tensor) :
    (Operation.sumAbsSq : Operation T).Simulated R tensor zero := by
  intro outcome run
  obtain ⟨total, summed, rfl⟩ := Checked.map_eq_ok.mp run
  obtain rfl := Except.ok.inj summed
  exact ⟨.length 0, rfl, Tensor.sumAbsSq_zeros laws built⟩

/-- The length of zeros is the root of zero. -/
theorem length_simulated (laws : ZeroLaws T R) (built : zero.toTensor = .ok tensor) :
    (Operation.length : Operation T).Simulated R tensor zero := by
  intro outcome run
  obtain ⟨total, summed, rfl⟩ := Checked.map_eq_ok.mp run
  obtain rfl := Except.ok.inj summed
  exact ⟨.length (RealElement.sqrt 0), rfl,
    congrArg RealElement.sqrt (Tensor.sumAbsSq_zeros laws built)⟩

/-- The greatest length among zeros is zero. -/
theorem maxAbs_simulated (laws : ZeroLaws T R) (built : zero.toTensor = .ok tensor) :
    (Operation.maxAbs : Operation T).Simulated R tensor zero := by
  intro outcome run
  obtain ⟨greatest, measured, rfl⟩ := Checked.map_eq_ok.mp run
  exact ⟨.length 0, rfl, (Tensor.zeros_vanishes built).maxAbs laws measured⟩

/-- A comparison with zeros on the left has the same truth value. -/
theorem equals_simulated (laws : ZeroLaws T R) (built : zero.toTensor = .ok tensor)
    (right : Operand T) : (Operation.equals right).Simulated R tensor zero := by
  intro outcome run
  obtain ⟨truth, compared, rfl⟩ := Checked.map_eq_ok.mp run
  have same : (Operand.ofZero zero).equals right = .ok truth := by
    cases right with
    | ofTensor right => exact equals_of_left laws built compared
    | ofView right => exact equals_of_left laws built compared
    | ofZero right =>
        rw [sameSizes_of_equals laws built compared]
        refine congrArg Except.ok ?_
        rw [Bool.eq_iff_iff, Shape.sameSizes_iff, Shape.sameSizes_iff, eq_comm]
  exact ⟨_, Checked.map_eq_ok.mpr ⟨truth, same, rfl⟩, rfl⟩

/-- A comparison with zeros on the right has the same truth value. -/
theorem equalsTo_simulated (laws : ZeroLaws T R) (built : zero.toTensor = .ok tensor)
    (left : Operand T) : (Operation.equalsTo left).Simulated R tensor zero := by
  intro outcome run
  obtain ⟨truth, compared, rfl⟩ := Checked.map_eq_ok.mp run
  have same : left.equals (.ofZero zero) = .ok truth := by
    cases left with
    | ofTensor left => exact equals_of_right built compared
    | ofView left => exact equals_of_right built compared
    | ofZero left => exact congrArg Except.ok (sameSizes_of_equals laws built compared).symm
  exact ⟨_, Checked.map_eq_ok.mpr ⟨truth, same, rfl⟩, rfl⟩

/-- The comparison of the only zero with a value is the comparison of the value with zero. -/
theorem equalsValue_simulated (laws : ZeroLaws T R) (built : zero.toTensor = .ok tensor)
    (value : T) : (Operation.equalsValue value).Simulated R tensor zero := by
  intro outcome run
  obtain ⟨element, read, compared⟩ := Checked.bind_eq_ok.mp run
  obtain rfl := Tensor.zeros_vanishes built [] element read
  obtain rfl := Except.ok.inj compared
  exact ⟨.truth (value == 0), rfl, laws.beq_comm value⟩

/-- The copy of a zero tensor is the dense tensor of zeros, so both have the same text. -/
theorem text_simulated (built : zero.toTensor = .ok tensor) :
    (Operation.text : Operation T).Simulated R tensor zero := by
  intro outcome run
  obtain ⟨text, written, rfl⟩ := Checked.map_eq_ok.mp run
  have copied : zero.source.map id = .ok tensor := by
    obtain ⟨count, size, reserved, rfl⟩ := Tensor.filled_eq_ok.mp built
    have product := (Shape.prod_of_size size).1
    refine Checked.bind_eq_ok.mpr ⟨count, size, Checked.check_eq_ok.mpr ⟨reserved,
      Checked.bind_eq_ok.mpr ⟨_, Source.elements_of_constant (fun _ => rfl) product, rfl⟩⟩⟩
  have same : zero.text = .ok text := Checked.bind_eq_ok.mpr ⟨tensor, copied, written⟩
  exact ⟨_, Checked.map_eq_ok.mpr ⟨text, same, rfl⟩, rfl⟩

end ZeroTensor

end ShapedTensor

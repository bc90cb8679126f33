import ShapedTensor.Operand
import ShapedTensor.Proofs.Contraction.Run
import ShapedTensor.Proofs.Elementwise

namespace ShapedTensor

open Index

/-- The laws of zero in the arithmetic and the comparison of elements and of their lengths. -/
structure ZeroLaws (T R : Type) [Element T] [RealElement R] [Magnitude T R] : Prop where
  zero_add (element : T) : 0 + element = element
  add_zero (element : T) : element + 0 = element
  sub_zero (element : T) : element - 0 = element
  zero_sub (element : T) : 0 - element = -element
  neg_zero : -(0 : T) = 0
  zero_mul (element : T) : 0 * element = 0
  mul_zero (element : T) : element * 0 = 0
  zero_div (divisor : T) : divisor ≠ 0 → 0 / divisor = 0
  conj_zero : Element.conj (0 : T) = 0
  absSq_zero : Magnitude.absSq (0 : T) = (0 : R)
  length_add_zero : (0 : R) + 0 = 0
  sqrt_zero : RealElement.sqrt (0 : R) = 0
  zero_beq : ((0 : T) == 0) = true
  beq_comm (element : T) : ((0 : T) == element) = (element == 0)

variable {T R : Type} [Element T] [RealElement R] [Magnitude T R]

namespace ZeroLaws

/-- A zero on the left leaves every accumulated product without effect. -/
theorem update_zero_left (laws : ZeroLaws T R) (accumulation : Accumulation T) (form : MatrixForm)
    (own right : T) : accumulation.update form own 0 right = own := by
  cases accumulation <;> cases form <;>
    simp [Accumulation.update, Update.add, Update.sub, Update.addConj, Update.subConj,
      Update.scaled, Update.scaledConj, laws.zero_mul, laws.mul_zero, laws.add_zero, laws.sub_zero]

/-- A zero on the right leaves every accumulated product without effect. -/
theorem update_zero_right (laws : ZeroLaws T R) (accumulation : Accumulation T) (form : MatrixForm)
    (own left : T) : accumulation.update form own left 0 = own := by
  cases accumulation <;> cases form <;>
    simp [Accumulation.update, Update.add, Update.sub, Update.addConj, Update.subConj,
      Update.scaled, Update.scaledConj, laws.mul_zero, laws.conj_zero, laws.add_zero, laws.sub_zero]

/-- A zero on the left leaves the product with its conjugate without effect. -/
theorem conjAdd_zero_left (laws : ZeroLaws T R) (own right : T) :
    Update.conjAdd own 0 right = own := by
  rw [Update.conjAdd, laws.conj_zero, laws.zero_mul, laws.add_zero]

end ZeroLaws

namespace Source

/-- A source vanishes when it reads nothing but zero. -/
def Vanishes (source : Source T) : Prop :=
  ∀ index element, source.read index = .ok element → element = 0

/-- An update is silent on a left source that vanishes if a zero there has no effect. -/
theorem Vanishes.silent_left {left : Source T} (vanishes : left.Vanishes) (right : Source T)
    {update : T → T → T → T} (neutral : ∀ own element, update own 0 element = own) :
    Silent update left right := by
  intro own leftIndex leftElement rightIndex rightElement leftRead _
  rw [vanishes leftIndex leftElement leftRead, neutral]

/-- An update is silent on a right source that vanishes if a zero there has no effect. -/
theorem Vanishes.silent_right {right : Source T} (vanishes : right.Vanishes) (left : Source T)
    {update : T → T → T → T} (neutral : ∀ own element, update own element 0 = own) :
    Silent update left right := by
  intro own leftIndex leftElement rightIndex rightElement _ rightRead
  rw [vanishes rightIndex rightElement rightRead, neutral]

/-- The greatest length in a source that vanishes is zero. -/
theorem Vanishes.maxAbs {source : Source T} (vanishes : source.Vanishes) (laws : ZeroLaws T R)
    {length : R} (measured : source.maxAbs = .ok length) : length = 0 := by
  obtain ⟨greatest, run, rfl⟩ := Checked.map_eq_ok.mp measured
  have zero : greatest = 0 := by
    rw [maxAbsSq, foldM_eq] at run
    have keeps (state : R) (item : List Nat) (next : R) (holds : state = 0)
        (step : (do
          let element ← source.read item
          let length : R := Magnitude.absSq element
          return if RealElement.less state length then length else state) = Except.ok next) :
        next = 0 := by
      obtain ⟨element, read, step⟩ := Checked.bind_eq_ok.mp step
      obtain rfl := vanishes item element read
      obtain rfl := Except.ok.inj step
      simp only [laws.absSq_zero]
      split
      · rfl
      · exact holds
    exact Checked.foldlM_inv keeps rfl run
  rw [zero, laws.sqrt_zero]

/-- A matrix-vector product with a matrix that vanishes only clears what it overwrites. -/
theorem Vanishes.matVec {matrix : Source T} (vanishes : matrix.Vanishes) (laws : ZeroLaws T R)
    {form : MatrixForm} {accumulation : Accumulation T} {vector : Source T} {target : Target}
    {cells after : Array T}
    (run : matrix.matVec form accumulation vector target cells = .ok () after) :
    ZeroTensor.matVec accumulation target cells = .ok () after := by
  have cleared : matrix.matVec form accumulation vector target = (do
      ZeroTensor.matVec accumulation target
      matrix.timesInto (accumulation.update form) form vector target) := by
    cases accumulation <;> rfl
  rw [cleared] at run
  obtain ⟨_, middle, first, run⟩ := Writing.bind_eq_ok.mp run
  have unchanged : after = middle := by
    cases form with
    | plain =>
        obtain ⟨contraction, _, run⟩ := contractInto_eq_ok.mp run
        exact (vanishes.silent_left vector (laws.update_zero_left accumulation .plain)).run run
    | transposed =>
        obtain ⟨contraction, _, run⟩ := contractInto_eq_ok.mp run
        exact (vanishes.silent_right vector (laws.update_zero_right accumulation .transposed)).run run
    | adjoint =>
        obtain ⟨contraction, _, run⟩ := contractInto_eq_ok.mp run
        exact (vanishes.silent_right vector (laws.update_zero_right accumulation .adjoint)).run run
  rw [unchanged]
  exact first

end Source

namespace Tensor

variable {kind : StorageKind} {shape : Shape} {tensor : Tensor T}

theorem zeros_vanishes (built : zeros kind shape = .ok tensor) : tensor.source.Vanishes := by
  intro index element read
  obtain ⟨count, _, _, rfl⟩ := filled_eq_ok.mp built
  exact (Array.mem_replicate.mp (mem_of_read read)).2

theorem shape_zeros (built : zeros kind shape = .ok tensor) : tensor.shape = shape := by
  obtain ⟨count, _, _, rfl⟩ := filled_eq_ok.mp built
  rfl

/-- A tensor of zeros reads zero at every index of its shape. -/
theorem read_zeros (built : zeros kind shape = .ok tensor) {index : List Nat}
    (inside : Inside tensor.shape.sizes index) : tensor.read index = .ok 0 := by
  obtain ⟨element, _, read⟩ := (filled_full built).read_eq inside
  rw [read, zeros_vanishes built index element read]

/-- The squared lengths of zeros sum up to zero. -/
theorem sumAbsSq_zeros (laws : ZeroLaws T R) (built : zeros kind shape = .ok tensor) :
    tensor.sumAbsSq = (0 : R) := by
  obtain ⟨count, _, _, rfl⟩ := filled_eq_ok.mp built
  change (Array.replicate count (0 : T)).foldl _ (0 : R) = 0
  rw [← Array.foldl_toList, Array.toList_replicate]
  clear * - laws
  induction count with
  | zero => rfl
  | succ count ih =>
      rw [List.replicate_succ, List.foldl_cons, laws.absSq_zero, laws.length_add_zero]
      exact ih

end Tensor

/-- The zero tensor follows the dense tensor of its zeros. -/
theorem ZeroTensor.follows_toTensor {zero : ZeroTensor T} {tensor : Tensor T}
    (built : zero.toTensor = .ok tensor) : tensor.source.Follows zero.source := by
  constructor
  · exact (Tensor.shape_zeros built).symm
  · intro index element read
    rw [Tensor.zeros_vanishes built index element read]
    rfl

end ShapedTensor

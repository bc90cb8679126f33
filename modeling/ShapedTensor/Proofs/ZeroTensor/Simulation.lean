import ShapedTensor.Proofs.Element.Integer
import ShapedTensor.Proofs.ZeroTensor.Products
import ShapedTensor.Proofs.ZeroTensor.Readings

namespace ShapedTensor

variable {T R : Type} [Element T] [RealElement R] [Magnitude T R] [ElementText T]

/-- A zero tensor stands for the dense tensor of its zeros under every operation. -/
theorem ZeroTensor.simulates_toTensor (laws : ZeroLaws T R) {zero : ZeroTensor T} {tensor : Tensor T}
    (built : zero.toTensor = .ok tensor) (operation : Operation T) {outcome : Outcome T R}
    (run : operation.run (.ofTensor tensor) = .ok outcome) :
    ∃ other : Outcome T R, operation.run (.ofZero zero) = .ok other ∧ outcome.Agrees other := by
  cases operation with
  | addTensor right => exact addTensor_simulated laws built right outcome run
  | subTensor right => exact subTensor_simulated laws built right outcome run
  | tensorAdd left => exact tensorAdd_simulated laws built left outcome run
  | tensorSub left => exact tensorSub_simulated laws built left outcome run
  | add right => exact add_simulated laws built right outcome run
  | sub right => exact sub_simulated laws built right outcome run
  | addTo left => exact addTo_simulated built left outcome run
  | subFrom left => exact subFrom_simulated built left outcome run
  | addZero right => exact addZero_simulated laws built right outcome run
  | subZero right => exact subZero_simulated laws built right outcome run
  | image scaling => exact image_simulated laws built scaling outcome run
  | imageInPlace scaling => exact imageInPlace_simulated laws built scaling outcome run
  | mul right => exact mul_simulated laws built right outcome run
  | mulTo left => exact mulTo_simulated laws built left outcome run
  | dot right => exact dot_simulated laws built right outcome run
  | doubleDot right => exact doubleDot_simulated laws built right outcome run
  | denseDot right => exact denseDot_simulated laws built right outcome run
  | denseDoubleDot right => exact denseDoubleDot_simulated laws built right outcome run
  | inner right => exact inner_simulated laws built right outcome run
  | bilinear left right => exact bilinear_simulated laws built left right outcome run
  | multilinear first others => exact multilinear_simulated built first others outcome run
  | matVec form accumulation vector target cells =>
      exact matVec_simulated laws built form accumulation vector target cells outcome run
  | sumAbsSq => exact sumAbsSq_simulated laws built outcome run
  | length => exact length_simulated laws built outcome run
  | maxAbs => exact maxAbs_simulated laws built outcome run
  | equals right => exact equals_simulated laws built right outcome run
  | equalsTo left => exact equalsTo_simulated laws built left outcome run
  | equalsValue value => exact equalsValue_simulated laws built value outcome run
  | text => exact text_simulated built outcome run

open scoped Integer in
/-- A product with an adjoint of zeros clears every other cell of a buffer. -/
theorem ZeroTensor.simulates_toTensor_adjoint :
    let zero : ZeroTensor Int := ⟨.ofFree [2, 3]⟩
    let vector : Tensor Int := .ofLiteral [2] #[5, 7]
    let target : Target := .whole ⟨.ofFree [3], .strided [2]⟩
    ∃ other : Outcome Int Int,
      (Operation.matVec .adjoint .overwrite vector.source target #[1, 2, 3, 4, 5, 6]).run
        (.ofZero zero) = .ok other ∧
      (Outcome.cells #[0, 2, 0, 4, 0, 6]).Agrees other := by
  intro zero vector target
  let tensor : Tensor Int := ⟨.ofFree [2, 3], ⟨.growable, #[0, 0, 0, 0, 0, 0]⟩⟩
  have product : tensor.source.matVec .adjoint .overwrite vector.source target
      #[1, 2, 3, 4, 5, 6] = .ok () #[0, 2, 0, 4, 0, 6] := by
    have left : (match tensor.source.matVec .adjoint .overwrite vector.source target
        #[1, 2, 3, 4, 5, 6] with
      | .ok _ after => some after
      | .error _ _ => none) = some #[0, 2, 0, 4, 0, 6] := by decide +kernel
    split at left
    · next found => rw [found, Option.some.inj left]
    · cases left
  exact simulates_toTensor Integer.zeroLaws (show zero.toTensor = .ok tensor from rfl) _
    (Operation.run_matVec.mpr ⟨_, product, rfl⟩)

end ShapedTensor

import ShapedTensor.Contraction.Kernel

namespace ShapedTensor

/-- Which matrix is meant. -/
inductive MatrixForm where
  | plain
  | transposed
  | adjoint
  deriving DecidableEq

/-- What becomes of the product. -/
inductive Accumulation (T : Type) where
  | overwrite
  | add
  | subtract
  | addMultiple (factor : T)

variable {T : Type} [Element T]

/-- The update of each output element; an adjoint conjugates the matrix and nothing else. -/
def Accumulation.update : Accumulation T → MatrixForm → T → T → T → T
  | overwrite, .adjoint | add, .adjoint => Update.addConj
  | overwrite, _ | add, _ => Update.add
  | subtract, .adjoint => Update.subConj
  | subtract, _ => Update.sub
  | addMultiple factor, .adjoint => Update.scaledConj factor
  | addMultiple factor, _ => Update.scaled factor

namespace Source

/-- Runs the products of a matrix with a vector into a target. -/
def timesInto (update : T → T → T → T) (form : MatrixForm) (matrix vector : Source T)
    (target : Target) : Writing T Unit :=
  match form with
  | .plain => matrix.contractInto update [1] vector [0] target
  | .transposed | .adjoint => vector.contractInto update [0] matrix [0] target

/-- A matrix-vector product; one that overwrites clears the target first. -/
def matVec (form : MatrixForm) (accumulation : Accumulation T) (matrix vector : Source T)
    (target : Target) : Writing T Unit := do
  match accumulation with
  | .overwrite => target.fill 0
  | _ => pure ()
  matrix.timesInto (accumulation.update form) form vector target

end Source

end ShapedTensor

import ShapedTensor.Size

namespace ShapedTensor

/-- The axes of a contraction and the sizes that belong to them. -/
structure Contraction where
  pairs : List (Nat × Nat)
  freeLeft : List Nat
  freeRight : List Nat
  contractedSizes : List Nat
  outputSizes : List Nat

namespace Contraction

/-- Refuses an axis that the operand does not have or that came before. -/
def checkAxes (rank : Nat) : (seen axes : List Nat) → Except Fault Unit
  | _, [] => .ok ()
  | seen, axis :: axes =>
      if rank ≤ axis then .error (.axisOutOfRange axis rank)
      else if axis ∈ seen then .error (.axisRepeated axis)
      else checkAxes rank (seen ++ [axis]) axes

/-- Refuses a pair of axes of different sizes, as checked builds do; the others accept it. -/
def checkPairs (leftSizes rightSizes : List Nat) : List (Nat × Nat) → Except Fault Unit
  | [] => .ok ()
  | (leftAxis, rightAxis) :: pairs =>
      let leftSize := leftSizes.getD leftAxis 0
      let rightSize := rightSizes.getD rightAxis 0
      if leftSize = rightSize then checkPairs leftSizes rightSizes pairs
      else .error (.contractedAxesDiffer leftAxis leftSize rightAxis rightSize)

/-- The axes below a rank that are not contracted, in order. -/
def freeAxes (axes : List Nat) (rank : Nat) : List Nat :=
  (List.range rank).filter fun axis => axis ∉ axes

/-- The plan of a contraction, pair by pair; the lists of axes are checked in every build. -/
def plan (leftAxes leftSizes rightAxes rightSizes : List Nat) : Except Fault Contraction := do
  if leftAxes.length ≠ rightAxes.length then
    throw (.axisCount leftAxes.length rightAxes.length)
  checkAxes leftSizes.length [] leftAxes
  checkAxes rightSizes.length [] rightAxes
  checkPairs leftSizes rightSizes (leftAxes.zip rightAxes)
  let freeLeft := freeAxes leftAxes leftSizes.length
  let freeRight := freeAxes rightAxes rightSizes.length
  return {
    pairs := leftAxes.zip rightAxes
    freeLeft
    freeRight
    contractedSizes := leftAxes.map (leftSizes.getD · 0)
    outputSizes := freeLeft.map (leftSizes.getD · 0) ++ freeRight.map (rightSizes.getD · 0) }

/-- The index with each coordinate put at its axis, in the order of the axes. -/
def scatter (axes coordinates index : List Nat) : List Nat :=
  (axes.zip coordinates).foldl (fun index pair => index.set pair.1 pair.2) index

/-- The index of zeros with each coordinate put at its axis. -/
def assemble (axes coordinates : List Nat) : List Nat :=
  scatter axes coordinates (List.replicate axes.length 0)

/-- The index of the left operand at the summed coordinates and the coordinates of the output. -/
def leftIndex (contraction : Contraction) (summed output : List Nat) : List Nat :=
  assemble (contraction.pairs.map Prod.fst ++ contraction.freeLeft)
    (summed ++ output.take contraction.freeLeft.length)

/-- The index of the right operand at the summed coordinates and the coordinates of the output. -/
def rightIndex (contraction : Contraction) (summed output : List Nat) : List Nat :=
  assemble (contraction.pairs.map Prod.snd ++ contraction.freeRight)
    (summed ++ output.drop contraction.freeLeft.length)

/-- The last `count` axes of a left operand and the first `count` of a right one. -/
def adjacentAxes (rank count : Nat) : Except Fault (List Nat × List Nat) :=
  if count ≤ rank then .ok (List.range' (rank - count) count, List.range count)
  else .error (.tooManyAxes count rank)

end Contraction

end ShapedTensor

import Mathlib.Algebra.BigOperators.Group.List.Basic
import ShapedTensor.Proofs.Contraction.Adjacent

namespace ShapedTensor.Contraction

section Operand

variable {axes sizes : List Nat}

/-- Axes in range are looked up without a default. -/
theorem map_some_getD (inRange : ∀ axis ∈ axes, axis < sizes.length) :
    (axes.map (sizes.getD · 0)).map some = axes.map (sizes[·]?) := by
  rw [List.map_map]
  refine List.map_congr_left fun axis listed => ?_
  simp [inRange axis listed]

/-- The contracted and the free axes together have the elements of the operand. -/
theorem prod_axes (named : Names sizes.length axes) :
    (axes.map (sizes.getD · 0)).prod * ((freeAxes axes sizes.length).map (sizes.getD · 0)).prod =
      sizes.prod := by
  have all := (perm_axes named).map (sizes.getD · 0)
  rw [map_getD_take 0 sizes le_rfl, List.take_length, List.map_append] at all
  rw [← List.prod_append, all.prod_eq]

end Operand

variable {leftAxes leftSizes rightAxes rightSizes : List Nat}

/-- Pairs of axes in range have one size by default exactly when they have one. -/
theorem pairs_getD_iff (leftInRange : ∀ axis ∈ leftAxes, axis < leftSizes.length)
    (rightInRange : ∀ axis ∈ rightAxes, axis < rightSizes.length) :
    (∀ pair ∈ leftAxes.zip rightAxes, leftSizes.getD pair.1 0 = rightSizes.getD pair.2 0) ↔
      ∀ pair ∈ leftAxes.zip rightAxes, leftSizes[pair.1]? = rightSizes[pair.2]? := by
  refine forall₂_congr fun pair listed => ?_
  obtain ⟨leftListed, rightListed⟩ := List.of_mem_zip listed
  have left := leftInRange _ leftListed
  have right := rightInRange _ rightListed
  simp [left, right]

/-- A plan parts the axes of its operands into contracted and free ones and counts every element. -/
structure Parts (contraction : Contraction)
    (leftAxes leftSizes rightAxes rightSizes : List Nat) : Prop where
  pairs : contraction.pairs = leftAxes.zip rightAxes
  left : (leftAxes ++ contraction.freeLeft).Perm (List.range leftSizes.length)
  right : (rightAxes ++ contraction.freeRight).Perm (List.range rightSizes.length)
  leftAscending : contraction.freeLeft.Pairwise (· < ·)
  rightAscending : contraction.freeRight.Pairwise (· < ·)
  contractedLeft : contraction.contractedSizes.map some = leftAxes.map (leftSizes[·]?)
  contractedRight : contraction.contractedSizes.map some = rightAxes.map (rightSizes[·]?)
  output : contraction.outputSizes.map some =
    contraction.freeLeft.map (leftSizes[·]?) ++ contraction.freeRight.map (rightSizes[·]?)
  elements : leftSizes.prod * rightSizes.prod =
    contraction.contractedSizes.prod * contraction.contractedSizes.prod * contraction.outputSizes.prod

/-- An accepted plan parts the axes of its operands. -/
theorem parts_of_plan {contraction : Contraction}
    (planned : plan leftAxes leftSizes rightAxes rightSizes = .ok contraction) :
    contraction.Parts leftAxes leftSizes rightAxes rightSizes := by
  obtain ⟨paired, leftNamed, rightNamed, fit, rfl⟩ := plan_eq_ok.mp planned
  have same := map_contracted paired fit
  have below (axes : List Nat) (rank : Nat) : ∀ axis ∈ freeAxes axes rank, axis < rank :=
    fun axis listed => List.mem_range.mp (List.mem_of_mem_filter listed)
  constructor
  case pairs => rfl
  case left => exact perm_axes leftNamed
  case right => exact perm_axes rightNamed
  case leftAscending => exact freeAxes_increasing _ _
  case rightAscending => exact freeAxes_increasing _ _
  case contractedLeft => exact map_some_getD leftNamed.2
  case contractedRight =>
    rw [ofAxes, same]
    exact map_some_getD rightNamed.2
  case output =>
    rw [ofAxes, List.map_append, map_some_getD (below _ _), map_some_getD (below _ _)]
  case elements =>
    rw [← prod_axes leftNamed, ← prod_axes rightNamed, ofAxes, List.prod_append, ← same]
    exact Nat.mul_mul_mul_comm _ _ _ _

/-- A plan exists exactly when its lists are of one length, name distinct axes and pair equal sizes, and
it parts the axes. -/
theorem plan_partitions (leftAxes leftSizes rightAxes rightSizes : List Nat) :
    ((∃ contraction, plan leftAxes leftSizes rightAxes rightSizes = .ok contraction) ↔
      leftAxes.length = rightAxes.length ∧
        (leftAxes.Nodup ∧ ∀ axis ∈ leftAxes, axis < leftSizes.length) ∧
        (rightAxes.Nodup ∧ ∀ axis ∈ rightAxes, axis < rightSizes.length) ∧
        ∀ pair ∈ leftAxes.zip rightAxes, leftSizes[pair.1]? = rightSizes[pair.2]?) ∧
      ∀ contraction, plan leftAxes leftSizes rightAxes rightSizes = .ok contraction →
        contraction.Parts leftAxes leftSizes rightAxes rightSizes := by
  refine ⟨?_, fun contraction => parts_of_plan⟩
  constructor
  · rintro ⟨contraction, planned⟩
    obtain ⟨paired, leftNamed, rightNamed, fit, _⟩ := plan_eq_ok.mp planned
    exact ⟨paired, leftNamed, rightNamed, (pairs_getD_iff leftNamed.2 rightNamed.2).mp fit⟩
  · rintro ⟨paired, leftNamed, rightNamed, agree⟩
    have fit := (pairs_getD_iff leftNamed.2 rightNamed.2).mpr agree
    exact ⟨_, plan_eq_ok.mpr ⟨paired, leftNamed, rightNamed, fit, rfl⟩⟩

/-- Two crossed pairs part the axes of their operands and leave one free axis on either side. -/
theorem plan_partitions_crossed :
    ∃ contraction, plan [1, 2] [2, 3, 4] [1, 0] [4, 3, 5] = .ok contraction ∧
      ([1, 2] ++ contraction.freeLeft).Perm [0, 1, 2] ∧
      ([1, 0] ++ contraction.freeRight).Perm [0, 1, 2] ∧
      24 * 60 = contraction.contractedSizes.prod * contraction.contractedSizes.prod *
        contraction.outputSizes.prod := by
  obtain ⟨accepted, partitions⟩ := plan_partitions [1, 2] [2, 3, 4] [1, 0] [4, 3, 5]
  obtain ⟨contraction, planned⟩ := accepted.mpr (by decide)
  have parts := partitions contraction planned
  exact ⟨contraction, planned, parts.left, parts.right, parts.elements⟩

end ShapedTensor.Contraction

import Mathlib.Data.List.Perm.Subperm
import Mathlib.Data.List.NodupEquivFin
import ShapedTensor.Contraction.Plan
import ShapedTensor.Proofs.Index.Box
import ShapedTensor.Proofs.Run.Checked

namespace ShapedTensor.Contraction

open Index

/-- The check accepts distinct axes below the rank that did not come before. -/
theorem checkAxes_eq_ok {rank : Nat} {seen axes : List Nat} :
    checkAxes rank seen axes = .ok () ↔
      axes.Nodup ∧ (∀ axis ∈ axes, axis < rank) ∧ ∀ axis ∈ axes, axis ∉ seen := by
  induction axes generalizing seen with
  | nil => simp [checkAxes]
  | cons axis axes ih =>
      rw [checkAxes]
      split
      · next outside =>
          simp only [reduceCtorEq, List.mem_cons, forall_eq_or_imp, false_iff]
          omega
      · split
        · next repeated => simp [repeated]
        · next inside fresh =>
            rw [ih]
            simp only [List.nodup_cons, List.mem_cons, forall_eq_or_imp, List.mem_append]
            grind

/-- The check accepts pairs of axes of one size. -/
theorem checkPairs_eq_ok {leftSizes rightSizes : List Nat} {pairs : List (Nat × Nat)} :
    checkPairs leftSizes rightSizes pairs = .ok () ↔
      ∀ pair ∈ pairs, leftSizes.getD pair.1 0 = rightSizes.getD pair.2 0 := by
  induction pairs with
  | nil => simp [checkPairs]
  | cons pair pairs ih =>
      rcases pair with ⟨leftAxis, rightAxis⟩
      simp only [checkPairs, List.mem_cons, forall_eq_or_imp]
      split
      · next same =>
          rw [ih]
          exact (and_iff_right same).symm
      · next differ =>
          constructor
          · intro refused
            cases refused
          · intro accepted
            exact absurd accepted.1 differ

/-- The plan of accepted axes. -/
def ofAxes (leftAxes leftSizes rightAxes rightSizes : List Nat) : Contraction where
  pairs := leftAxes.zip rightAxes
  freeLeft := freeAxes leftAxes leftSizes.length
  freeRight := freeAxes rightAxes rightSizes.length
  contractedSizes := leftAxes.map (leftSizes.getD · 0)
  outputSizes := (freeAxes leftAxes leftSizes.length).map (leftSizes.getD · 0) ++
    (freeAxes rightAxes rightSizes.length).map (rightSizes.getD · 0)

/-- A list names axes of an operand when they are distinct and in range. -/
def Names (rank : Nat) (axes : List Nat) : Prop := axes.Nodup ∧ ∀ axis ∈ axes, axis < rank

/-- A plan is accepted when the lists name as many axes on either side and all pairs fit. -/
theorem plan_eq_ok {leftAxes leftSizes rightAxes rightSizes : List Nat} {contraction : Contraction} :
    plan leftAxes leftSizes rightAxes rightSizes = .ok contraction ↔
      leftAxes.length = rightAxes.length ∧ Names leftSizes.length leftAxes ∧
        Names rightSizes.length rightAxes ∧
        (∀ pair ∈ leftAxes.zip rightAxes, leftSizes.getD pair.1 0 = rightSizes.getD pair.2 0) ∧
        ofAxes leftAxes leftSizes rightAxes rightSizes = contraction := by
  have guard {rank : Nat} {axes : List Nat} : checkAxes rank [] axes = .ok () ↔ Names rank axes := by
    simp [checkAxes_eq_ok, Names]
  rw [plan]
  by_cases lengths : leftAxes.length = rightAxes.length
  · rw [if_neg (by simp [lengths]), Checked.check_eq_ok, Checked.check_eq_ok, Checked.check_eq_ok,
      guard, guard, checkPairs_eq_ok]
    simp only [pure, Except.pure, Except.ok.injEq, lengths, true_and]
    exact Iff.rfl
  · rw [if_pos lengths]
    constructor
    · intro refused
      cases refused
    · intro accepted
      exact absurd accepted.1 lengths

/-- Operands of which all axes are contracted in order, and none is left, have the same sizes. -/
theorem sizes_of_plan_range {leftSizes rightSizes : List Nat} {contraction : Contraction}
    (planned : plan (List.range leftSizes.length) leftSizes (List.range leftSizes.length) rightSizes =
      .ok contraction) (closed : contraction.outputSizes = []) : leftSizes = rightSizes := by
  obtain ⟨_, _, named, pairs, rfl⟩ := plan_eq_ok.mp planned
  have free : freeAxes (List.range leftSizes.length) rightSizes.length = [] :=
    List.map_eq_nil_iff.mp (List.append_eq_nil_iff.mp closed).2
  have noMore : rightSizes.length ≤ leftSizes.length := by
    by_contra more
    have left := List.filter_eq_nil_iff.mp free leftSizes.length (by simp; omega)
    simp at left
  have noLess : leftSizes.length ≤ rightSizes.length := by
    by_contra less
    have below := named.2 rightSizes.length (by simp; omega)
    omega
  refine List.ext_getElem (by omega) fun axis leftInside rightInside => ?_
  have pair : (axis, axis) ∈ (List.range leftSizes.length).zip (List.range leftSizes.length) := by
    rw [List.mem_iff_getElem]
    exact ⟨axis, by simpa using leftInside, by simp⟩
  simpa [leftInside, rightInside] using pairs (axis, axis) pair

/-- The contracted and the free axes together are all axes. -/
theorem perm_axes {rank : Nat} {axes : List Nat} (named : Names rank axes) :
    (axes ++ freeAxes axes rank).Perm (List.range rank) := by
  have apart : (axes ++ freeAxes axes rank).Nodup := by
    refine named.1.append (List.nodup_range.filter _) ?_
    intro axis contracted free
    simp [freeAxes, contracted] at free
  rw [List.perm_ext_iff_of_nodup apart List.nodup_range]
  intro axis
  have below := named.2 axis
  by_cases contracted : axis ∈ axes <;> simp_all [freeAxes]

/-- The free axes are in order. -/
theorem freeAxes_increasing (axes : List Nat) (rank : Nat) :
    (freeAxes axes rank).Pairwise (· < ·) := List.pairwise_lt_range.filter _

/-- An index has coordinates at axes when the first axis has the first of them, and so on. -/
def Places (axes coordinates index : List Nat) : Prop :=
  index.length = axes.length ∧
    ∀ (place : Nat) (inside : place < axes.length), index[axes[place]]? = coordinates[place]?

section Scatter

variable {axes coordinates index : List Nat}

theorem scatter_cons (axis : Nat) (axes : List Nat) (coordinate : Nat) (coordinates index : List Nat) :
    scatter (axis :: axes) (coordinate :: coordinates) index =
      scatter axes coordinates (index.set axis coordinate) := rfl

/-- Coordinates of two groups of axes are put one group after the other. -/
theorem scatter_append {free rest : List Nat} (paired : axes.length = coordinates.length) :
    scatter (axes ++ free) (coordinates ++ rest) index =
      scatter free rest (scatter axes coordinates index) := by
  rw [scatter, List.zip_append paired, List.foldl_append]
  rfl

/-- An index keeps its length when coordinates are put. -/
theorem length_scatter (axes coordinates index : List Nat) :
    (scatter axes coordinates index).length = index.length := by
  induction axes generalizing coordinates index with
  | nil => rfl
  | cons axis axes ih =>
      cases coordinates with
      | nil => rfl
      | cons coordinate coordinates => rw [scatter_cons, ih, List.length_set]

/-- An axis that is not named keeps its coordinate. -/
theorem getElem?_scatter_of_notMem {axis : Nat} (unnamed : axis ∉ axes)
    (coordinates index : List Nat) :
    (scatter axes coordinates index)[axis]? = index[axis]? := by
  induction axes generalizing coordinates index with
  | nil => rfl
  | cons other axes ih =>
      obtain ⟨apart, unnamed⟩ := not_or.mp (mt List.mem_cons.mpr unnamed)
      cases coordinates with
      | nil => rfl
      | cons coordinate coordinates =>
          rw [scatter_cons, ih unnamed, List.getElem?_set_ne (Ne.symm apart)]

/-- An axis that is named once has the coordinate that was put there. -/
theorem getElem?_scatter (distinct : axes.Nodup) (paired : axes.length = coordinates.length)
    (below : ∀ axis ∈ axes, axis < index.length) (place : Nat) (inside : place < axes.length) :
    (scatter axes coordinates index)[axes[place]]? = coordinates[place]? := by
  induction axes generalizing coordinates index place with
  | nil => simp at inside
  | cons axis axes ih =>
      obtain ⟨fresh, distinct⟩ := List.nodup_cons.mp distinct
      obtain ⟨own, others⟩ := List.forall_mem_cons.mp below
      cases coordinates with
      | nil => simp at paired
      | cons coordinate coordinates =>
          rw [scatter_cons]
          cases place with
          -- The other axes are not this one, so its coordinate stays.
          | zero => simp [getElem?_scatter_of_notMem fresh, own]
          | succ place =>
              exact ih distinct (by simpa using paired)
                (fun axis listed => by simpa using others axis listed) place (by simpa using inside)

variable {rank : Nat} (all : axes.Perm (List.range rank))
include all

/-- Coordinates for all axes are found there, whatever the index had before. -/
theorem places_scatter (paired : axes.length = coordinates.length) (length : index.length = rank) :
    Places axes coordinates (scatter axes coordinates index) := by
  have count : axes.length = rank := by simpa using all.length_eq
  refine ⟨by rw [length_scatter, length, count], ?_⟩
  apply getElem?_scatter (all.nodup_iff.mpr List.nodup_range) paired
  intro axis listed
  rw [length]
  exact List.mem_range.mp (all.mem_iff.mp listed)

/-- The assembled index has each coordinate at its axis. -/
theorem places_assemble (paired : axes.length = coordinates.length) :
    Places axes coordinates (assemble axes coordinates) :=
  places_scatter all paired (by simpa using all.length_eq)

/-- Coordinates at all axes make up one index. -/
theorem Places.unique {other : List Nat} (placed : Places axes coordinates index)
    (otherPlaced : Places axes coordinates other) : index = other := by
  have count : axes.length = rank := by simpa using all.length_eq
  apply List.ext_getElem?
  intro axis
  by_cases below : axis < rank
  · obtain ⟨place, inside, rfl⟩ := List.getElem_of_mem (all.mem_iff.mpr (List.mem_range.mpr below))
    rw [placed.2 place inside, otherPlaced.2 place inside]
  · rw [List.getElem?_eq_none (by have := placed.1; omega),
      List.getElem?_eq_none (by have := otherPlaced.1; omega)]

/-- Coordinates for all axes leave nothing of the index in which they are put. -/
theorem scatter_eq_assemble (paired : axes.length = coordinates.length)
    (length : index.length = rank) : scatter axes coordinates index = assemble axes coordinates :=
  Places.unique all (places_scatter all paired length) (places_assemble all paired)

end Scatter

/-- Coordinates below the sizes of their axes make an index inside the box. -/
theorem Places.inside {sizes axes coordinates index : List Nat} (placed : Places axes coordinates index)
    (all : axes.Perm (List.range sizes.length))
    (below : Inside (axes.map (sizes.getD · 0)) coordinates) : Inside sizes index := by
  have length : axes.length = sizes.length := by simpa using all.length_eq
  obtain ⟨paired, less⟩ := List.forall₂_iff_get.mp below
  refine List.forall₂_iff_get.mpr ⟨placed.1.trans length, fun axis inIndex inSizes => ?_⟩
  obtain ⟨place, inside, rfl⟩ := List.getElem_of_mem (all.mem_iff.mpr (List.mem_range.mpr inSizes))
  have inCoordinates : place < coordinates.length := by simpa [paired] using inside
  have found := placed.2 place inside
  have bound := less place inCoordinates (by simpa using inside)
  rw [List.getElem?_eq_getElem inIndex, List.getElem?_eq_getElem inCoordinates] at found
  simpa [Option.some.inj found, inSizes] using bound

/-- The sizes of the contracted axes are the same on either side. -/
theorem map_contracted {leftAxes leftSizes rightAxes rightSizes : List Nat}
    (paired : leftAxes.length = rightAxes.length)
    (fit : ∀ pair ∈ leftAxes.zip rightAxes, leftSizes.getD pair.1 0 = rightSizes.getD pair.2 0) :
    leftAxes.map (leftSizes.getD · 0) = rightAxes.map (rightSizes.getD · 0) := by
  refine List.ext_getElem (by simpa using paired) fun place inLeft inRight => ?_
  have inZip : place < (leftAxes.zip rightAxes).length := by
    rw [List.length_zip]
    simp only [List.length_map] at inLeft inRight
    omega
  simpa using fit _ (List.getElem_mem inZip)

/-- Coordinates for the contracted and for the free axes assemble to an index of the operand. -/
theorem assemble_inside {sizes axes contracted free : List Nat} (named : Names sizes.length axes)
    (contractedInside : Inside (axes.map (sizes.getD · 0)) contracted)
    (freeInside : Inside ((freeAxes axes sizes.length).map (sizes.getD · 0)) free) :
    let index := assemble (axes ++ freeAxes axes sizes.length) (contracted ++ free)
    Places (axes ++ freeAxes axes sizes.length) (contracted ++ free) index ∧ Inside sizes index := by
  intro index
  have all := perm_axes named
  have below : Inside ((axes ++ freeAxes axes sizes.length).map (sizes.getD · 0))
      (contracted ++ free) := by
    rw [List.map_append]
    exact List.rel_append contractedInside freeInside
  have paired : (axes ++ freeAxes axes sizes.length).length = (contracted ++ free).length := by
    simpa using below.length_eq.symm
  have placed := places_assemble all paired
  exact ⟨placed, placed.inside all below⟩

/-- Operands are read with the summed coordinates at the contracted axes and those of the output at the
free ones. -/
structure Aligned (contraction : Contraction)
    (leftAxes leftSizes rightAxes rightSizes : List Nat) : Prop where
  leftAscending : contraction.freeLeft.Pairwise (· < ·)
  leftFree : ∀ axis, axis ∈ contraction.freeLeft ↔ axis < leftSizes.length ∧ axis ∉ leftAxes
  rightAscending : contraction.freeRight.Pairwise (· < ·)
  rightFree : ∀ axis, axis ∈ contraction.freeRight ↔ axis < rightSizes.length ∧ axis ∉ rightAxes
  leftPlaced : ∀ summed output, Inside contraction.contractedSizes summed →
    Inside contraction.outputSizes output →
      Places (leftAxes ++ contraction.freeLeft) (summed ++ output.take contraction.freeLeft.length)
        (contraction.leftIndex summed output) ∧
      Inside leftSizes (contraction.leftIndex summed output)
  rightPlaced : ∀ summed output, Inside contraction.contractedSizes summed →
    Inside contraction.outputSizes output →
      Places (rightAxes ++ contraction.freeRight) (summed ++ output.drop contraction.freeLeft.length)
        (contraction.rightIndex summed output) ∧
      Inside rightSizes (contraction.rightIndex summed output)

/-- The coordinates of an output are those of the free axes on the left, then those on the right. -/
theorem inside_outputs {leftAxes leftSizes rightAxes rightSizes output : List Nat}
    (inside : Inside (ofAxes leftAxes leftSizes rightAxes rightSizes).outputSizes output) :
    Inside ((freeAxes leftAxes leftSizes.length).map (leftSizes.getD · 0))
        (output.take (freeAxes leftAxes leftSizes.length).length) ∧
      Inside ((freeAxes rightAxes rightSizes.length).map (rightSizes.getD · 0))
        (output.drop (freeAxes leftAxes leftSizes.length).length) := by
  constructor
  · simpa using List.forall₂_take_append _ _ _ inside
  · simpa using List.forall₂_drop_append _ _ _ inside

/-- An accepted plan reads its operands at aligned indices. -/
theorem aligned_of_plan {leftAxes leftSizes rightAxes rightSizes : List Nat}
    {contraction : Contraction}
    (planned : plan leftAxes leftSizes rightAxes rightSizes = .ok contraction) :
    contraction.Aligned leftAxes leftSizes rightAxes rightSizes := by
  obtain ⟨paired, leftNamed, rightNamed, fit, rfl⟩ := plan_eq_ok.mp planned
  constructor
  case leftAscending => exact freeAxes_increasing _ _
  case leftFree => simp [ofAxes, freeAxes]
  case rightAscending => exact freeAxes_increasing _ _
  case rightFree => simp [ofAxes, freeAxes]
  case leftPlaced =>
    intro summed output summedInside outputInside
    have axes : (leftAxes.zip rightAxes).map Prod.fst = leftAxes := List.map_fst_zip paired.le
    rw [leftIndex, ofAxes, axes]
    exact assemble_inside leftNamed summedInside (inside_outputs outputInside).1
  case rightPlaced =>
    intro summed output summedInside outputInside
    have axes : (leftAxes.zip rightAxes).map Prod.snd = rightAxes := List.map_snd_zip paired.ge
    rw [rightIndex, ofAxes, axes]
    refine assemble_inside rightNamed ?_ (inside_outputs outputInside).2
    rw [← map_contracted paired fit]
    exact summedInside

/-- Coordinates for the contracted and then for the free axes leave nothing of an index of the operand. -/
theorem scatter_axes {sizes axes contracted free index : List Nat} (named : Names sizes.length axes)
    (contractedInside : Inside (axes.map (sizes.getD · 0)) contracted)
    (freeInside : Inside ((freeAxes axes sizes.length).map (sizes.getD · 0)) free)
    (length : index.length = sizes.length) :
    scatter (freeAxes axes sizes.length) free (scatter axes contracted index) =
      assemble (axes ++ freeAxes axes sizes.length) (contracted ++ free) := by
  have paired : axes.length = contracted.length := by simpa using contractedInside.length_eq.symm
  have others : (freeAxes axes sizes.length).length = free.length := by
    simpa using freeInside.length_eq.symm
  rw [← scatter_append paired]
  exact scatter_eq_assemble (perm_axes named) (by simp [paired, others]) length

/-- The coordinates of an update, put over any indices of the operands, give those that it reads: nothing
is left of an earlier update. -/
theorem scatter_of_plan {leftAxes leftSizes rightAxes rightSizes : List Nat}
    {contraction : Contraction}
    (planned : plan leftAxes leftSizes rightAxes rightSizes = .ok contraction)
    {summed output left right : List Nat} (summedInside : Inside contraction.contractedSizes summed)
    (outputInside : Inside contraction.outputSizes output) (leftLength : left.length = leftSizes.length)
    (rightLength : right.length = rightSizes.length) :
    scatter contraction.freeLeft (output.take contraction.freeLeft.length)
        (scatter leftAxes summed left) = contraction.leftIndex summed output ∧
      scatter contraction.freeRight (output.drop contraction.freeLeft.length)
        (scatter rightAxes summed right) = contraction.rightIndex summed output := by
  obtain ⟨paired, leftNamed, rightNamed, fit, rfl⟩ := plan_eq_ok.mp planned
  obtain ⟨leftInside, rightInside⟩ := inside_outputs outputInside
  constructor
  · have axes : (leftAxes.zip rightAxes).map Prod.fst = leftAxes := List.map_fst_zip paired.le
    rw [leftIndex, ofAxes, axes]
    exact scatter_axes leftNamed summedInside leftInside leftLength
  · have axes : (leftAxes.zip rightAxes).map Prod.snd = rightAxes := List.map_snd_zip paired.ge
    rw [rightIndex, ofAxes, axes]
    refine scatter_axes rightNamed ?_ rightInside rightLength
    rw [← map_contracted paired fit]
    exact summedInside

end ShapedTensor.Contraction

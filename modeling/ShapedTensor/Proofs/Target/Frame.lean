import ShapedTensor.Edit
import ShapedTensor.Proofs.Contraction.Fold
import ShapedTensor.Proofs.Elementwise
import ShapedTensor.Proofs.Run.Outcome

namespace ShapedTensor

open Index

variable {T : Type}

/-- The indices whose cells an edit may change: one that is written unchecked, or those of the shape. -/
def Edit.Reaches (shape : Shape) : Edit T → List Nat → Prop
  | .assign .unchecked place _, index => index = place
  | _, index => Inside shape.sizes index

namespace Target

/-- A relation allows a target to change the cell of an index. -/
def Allows (related : Array T → Array T → Prop) (target : Target) (index : List Nat) : Prop :=
  ∀ cells cell change, target.locate cells.size index = .ok cell →
    related cells (cells.modify cell change)

/-- A change at an index succeeds when its cell is located, and changes this cell. -/
theorem modifyAt_eq_ok {target : Target} {index : List Nat} {change : T → T} {cells after : Array T} :
    target.modifyAt index change cells = .ok () after ↔
      ∃ cell, target.locate cells.size index = .ok cell ∧ cells.modify cell change = after := by
  cases located : target.locate cells.size index with
  | ok cell => simp [modifyAt_of_locate located]
  | error fault => simp [modifyAt_of_error located]

section Moves

variable {related : Array T → Array T → Prop} (chained : Writing.Chained related) {target : Target}
include chained

/-- A change at an index moves within a relation that allows it. -/
theorem moves_modifyAt {index : List Nat} (allowed : target.Allows related index) (change : T → T) :
    Writing.Moves related (target.modifyAt index change) := by
  intro cells
  cases located : target.locate cells.size index with
  | ok cell =>
      rw [Writing.left_of_ok (modifyAt_of_locate located change)]
      exact allowed cells cell change located
  | error fault =>
      rw [Writing.left, modifyAt_of_error located]
      exact chained.refl cells

/-- An update moves within a relation that allows the index of its output. -/
theorem moves_step {output : List Nat} (allowed : target.Allows related output)
    (contraction : Contraction) (update : T → T → T → T) (left right : Source T) (summed : List Nat) :
    Writing.Moves related (contraction.step update left right target summed output) := by
  intro cells
  cases located : target.locate cells.size output with
  | error fault =>
      have failed : contraction.step update left right target summed output cells =
          .error fault cells := by
        change EStateM.bind (target.cell output) _ cells = _
        rw [EStateM.bind, cell_eq, located]
        rfl
      rw [Writing.left, failed]
      exact chained.refl cells
  | ok cell =>
      have found : (target.cell output : Writing T Nat) cells = .ok cell cells := by
        rw [cell_eq, located]
        rfl
      rw [Contraction.step, Writing.left, Writing.bind_of_ok found]
      cases left.read (contraction.leftIndex summed output) with
      | error fault => exact chained.refl cells
      | ok leftElement =>
          cases right.read (contraction.rightIndex summed output) with
          | error fault => exact chained.refl cells
          | ok rightElement => exact allowed cells cell _ located

variable (allowed : ∀ index, Inside target.shape.sizes index → target.Allows related index)
include allowed

theorem moves_map (change : T → T) : Writing.Moves related (target.map change) := by
  rw [map_eq]
  exact chained.walk fun index inside => moves_modifyAt chained (allowed index inside) change

/-- A combination with a source moves within a relation that allows every index. -/
theorem moves_zip (change : T → T → T) (source : Source T) :
    Writing.Moves related (target.zip change source) := by
  rw [zip_eq]
  split
  · refine chained.walk fun index inside => chained.bind (chained.lift _) fun element => ?_
    exact moves_modifyAt chained (allowed index inside) _
  · exact chained.lift (.error _)

/-- A contraction moves within a relation that allows every index of its output. -/
theorem moves_contractInto (update : T → T → T → T) (left right : Source T)
    (leftAxes rightAxes : List Nat) :
    Writing.Moves related (left.contractInto update leftAxes right rightAxes target) := by
  intro cells
  cases planned : Contraction.plan leftAxes left.shape.sizes rightAxes right.shape.sizes with
  | error fault =>
      rw [Source.contractInto, planned]
      exact chained.refl cells
  | ok contraction =>
      have pairs := Contraction.pairs_of_plan planned
      rw [Source.contractInto_of_plan planned, Contraction.run]
      split
      · next outputs =>
          refine chained.odometer (fun _ position inside => ?_) () cells
          have output : Inside target.shape.sizes (position.drop contraction.pairs.length) := by
            rw [outputs, pairs]
            exact List.forall₂_drop_append _ _ _ inside
          exact moves_step chained (allowed _ output) contraction update left right _
      · exact chained.refl cells

/-- A matrix-vector product moves within a relation that allows every index of its output. -/
theorem moves_matVec [Element T] (form : MatrixForm) (accumulation : Accumulation T)
    (matrix vector : Source T) :
    Writing.Moves related (matrix.matVec form accumulation vector target) := by
  have products (update : T → T → T → T) :
      Writing.Moves related (matrix.timesInto update form vector target) := by
    cases form with
    | plain => exact moves_contractInto chained allowed update matrix vector [1] [0]
    | transposed => exact moves_contractInto chained allowed update vector matrix [0] [0]
    | adjoint => exact moves_contractInto chained allowed update vector matrix [0] [0]
  cases accumulation with
  | overwrite => exact chained.bind (moves_map chained allowed _) fun _ => products _
  | add => exact products _
  | subtract => exact products _
  | addMultiple factor => exact products _

end Moves

/-- An edit moves within a relation that allows every index that it reaches. -/
theorem moves_apply [Element T] {related : Array T → Array T → Prop}
    (chained : Writing.Chained related) {target : Target} (edit : Edit T)
    (allowed : ∀ index, edit.Reaches target.shape index → target.Allows related index) :
    Writing.Moves related (target.apply edit) := by
  have checked {check : IndexCheck} {index : List Nat} {value : T}
      (reached : check.require target.shape index = .ok () → target.Allows related index) :
      Writing.Moves related (target.apply (.assign check index value)) := by
    intro cells
    cases required : check.require target.shape index with
    | error fault =>
        rw [Target.apply, required]
        exact chained.refl cells
    | ok _ =>
        rw [Target.apply, required]
        exact moves_modifyAt chained (reached required) _ cells
  cases edit with
  | assign check index value =>
      apply checked
      intro required
      cases check with
      | unchecked => exact allowed index rfl
      | promised => exact allowed index (Shape.contains_iff.mp (Checked.ite_eq_ok.mp required).1)
      | checked => exact allowed index (Shape.contains_iff.mp (Checked.ite_eq_ok.mp required).1)
  | fill value => exact moves_map chained allowed _
  | map change => exact moves_map chained allowed change
  | scale factor => exact moves_map chained allowed _
  | unscale divisor => exact moves_map chained allowed _
  | zip change source => exact moves_zip chained allowed change source
  | add source => exact moves_zip chained allowed _ source
  | sub source => exact moves_zip chained allowed _ source
  | addMultiple factor source => exact moves_zip chained allowed _ source
  | scaleAdd factor source => exact moves_zip chained allowed _ source
  | checkedAdd source =>
      exact chained.bind (chained.lift _) fun _ => moves_zip chained allowed _ source
  | checkedSub source =>
      exact chained.bind (chained.lift _) fun _ => moves_zip chained allowed _ source
  | contract update left leftAxes right rightAxes =>
      exact moves_contractInto chained allowed update left right leftAxes rightAxes
  | matVec form accumulation matrix vector =>
      exact moves_matVec chained allowed form accumulation matrix vector

/-- A buffer with as many cells, and the same ones but for those of the indices of a target. -/
structure Confined (target : Target) (before after : Array T) : Prop where
  size : after.size = before.size
  kept : ∀ position, (∀ index, Inside target.shape.sizes index →
    target.locate before.size index ≠ .ok position) → after[position]? = before[position]?

theorem confined_chained (target : Target) : Writing.Chained (T := T) target.Confined where
  refl _ := ⟨rfl, fun _ _ => rfl⟩
  trans first second third start rest := by
    refine ⟨rest.size.trans start.size, fun position apart => ?_⟩
    rw [rest.kept position (start.size ▸ apart), start.kept position apart]

/-- The cell of an index of a target may change. -/
theorem confined_allows (target : Target) {index : List Nat} (inside : Inside target.shape.sizes index) :
    target.Allows (T := T) target.Confined index := by
  intro cells cell change located
  refine ⟨Array.size_modify, fun position apart => ?_⟩
  rw [Array.getElem?_modify, if_neg]
  rintro rfl
  exact apart index inside located

/-- An edit that stays inside a target changes no cell but those of its indices. -/
theorem confined_apply [Element T] {target : Target} {edit : Edit T}
    (stays : ∀ index, edit.Reaches target.shape index → Inside target.shape.sizes index) :
    Writing.Moves target.Confined (target.apply edit) :=
  moves_apply target.confined_chained edit fun index reached =>
    target.confined_allows (stays index reached)

end Target

end ShapedTensor

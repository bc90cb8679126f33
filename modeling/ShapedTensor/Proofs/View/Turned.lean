import ShapedTensor.Proofs.Contraction.Adjacent
import ShapedTensor.Proofs.Element.Laws
import ShapedTensor.Proofs.Run.Outcome
import ShapedTensor.Proofs.Source.Conjugate

namespace ShapedTensor

open Index

variable {T : Type}

namespace Writing

/-- The order in which two elements are read before a change does not show in what it ends in. -/
theorem outcome_reads {change other : T → T → T → T}
    (same : ∀ own first second, change own first second = other own second first)
    (firstRead secondRead : Except Fault T) (cell : Nat) :
    outcome (do
      let first ← firstRead
      let second ← secondRead
      modify (·.modify cell fun own => change own first second) : Writing T Unit) =
    outcome (do
      let second ← secondRead
      let first ← firstRead
      modify (·.modify cell fun own => other own second first) : Writing T Unit) := by
  cases firstRead with
  | error fault => cases secondRead <;> rfl
  | ok first =>
      cases secondRead with
      | error fault => rfl
      | ok second =>
          simp only [same]
          rfl

end Writing

/-- Images of matrices that are turned from each other are turned from each other. -/
theorem Source.Turns.image {matrix turned : Source T} {rows columns : Nat}
    (turns : matrix.Turns turned rows columns) (change : T → T) :
    (matrix.image change).Turns (turned.image change) rows columns where
  sizes := turns.sizes
  turnedSizes := turns.turnedSizes
  read row rowBelow column columnBelow :=
    congrArg (change <$> ·) (turns.read row rowBelow column columnBelow)

namespace Source

section Products

variable {matrix turned vector : Source T} {rows columns : Nat}
  (turns : matrix.Turns turned rows columns)
include turns

/-- At each pair of coordinates the turned matrix meets the elements that the transposed matrix meets,
exchanged. -/
theorem Turns.step {update other : T → T → T → T}
    (exchange : ∀ own first second, update own first second = other own second first)
    (target : Target) {row column : Nat} (rowBelow : row < rows) (columnBelow : column < columns) :
    Writing.outcome ((Contraction.adjacent [columns] [rows] []).step update turned vector target [row]
        [column]) =
      Writing.outcome ((Contraction.adjacent [] [rows] [columns]).step other vector matrix target [row]
        [column]) := by
  have summed : Inside [rows] [row] := .cons rowBelow .nil
  have output : Inside [columns] [column] := .cons columnBelow .nil
  have plainLeft : (Contraction.adjacent [columns] [rows] []).leftIndex [row] [column] =
      [column, row] := Contraction.leftIndex_adjacent output summed .nil
  have plainRight : (Contraction.adjacent [columns] [rows] []).rightIndex [row] [column] = [row] :=
    Contraction.rightIndex_adjacent output summed .nil
  have transposedLeft : (Contraction.adjacent [] [rows] [columns]).leftIndex [row] [column] = [row] :=
    Contraction.leftIndex_adjacent .nil summed output
  have transposedRight : (Contraction.adjacent [] [rows] [columns]).rightIndex [row] [column] =
      [row, column] := Contraction.rightIndex_adjacent .nil summed output
  apply Writing.outcome_bind rfl
  intro cell
  rw [plainLeft, plainRight, transposedLeft, transposedRight,
    turns.read row rowBelow column columnBelow]
  exact Writing.outcome_reads exchange _ _ cell

variable (rowsWord : rows < Size.bound) (columnsWord : columns < Size.bound)
  (vectorSizes : vector.shape.sizes = [rows])
include rowsWord columnsWord vectorSizes

/-- The turned matrix times a vector ends in what the transposed matrix times the vector ends in, if
the updates exchange their operands. -/
theorem Turns.timesInto {update other : T → T → T → T}
    (exchange : ∀ own first second, update own first second = other own second first)
    (target : Target) :
    Writing.outcome (turned.timesInto update .plain vector target) =
      Writing.outcome (matrix.timesInto other .transposed vector target) := by
  have plainPlan := Contraction.plan_adjacent [columns] [rows] []
  have transposedPlan := Contraction.plan_adjacent [] [rows] [columns]
  rw [show [columns] ++ [rows] = turned.shape.sizes from turns.turnedSizes.symm,
    show [rows] ++ [] = vector.shape.sizes from vectorSizes.symm] at plainPlan
  rw [show [] ++ [rows] = vector.shape.sizes from vectorSizes.symm,
    show [rows] ++ [columns] = matrix.shape.sizes from turns.sizes.symm] at transposedPlan
  have plain : turned.timesInto update .plain vector target =
      (Contraction.adjacent [columns] [rows] []).run update turned vector target :=
    contractInto_of_plan plainPlan
  have transposed : matrix.timesInto other .transposed vector target =
      (Contraction.adjacent [] [rows] [columns]).run other vector matrix target :=
    contractInto_of_plan transposedPlan
  rw [plain, transposed]
  by_cases outputs : target.shape.sizes = [columns]
  · have words : ∀ size ∈ [rows] ++ [columns], size < Size.bound := by
      simp [rowsWord, columnsWord]
    rw [Contraction.run_eq _ _ _ outputs rfl words, Contraction.run_eq _ _ _ outputs rfl words]
    apply Writing.outcome_foldlM
    rintro _ ⟨summed, output⟩ called
    obtain ⟨summedInside, outputInside⟩ := Contraction.mem_calls.mp called
    obtain ⟨row, rowBelow, rfl⟩ := inside_single.mp summedInside
    obtain ⟨column, columnBelow, rfl⟩ := inside_single.mp outputInside
    exact turns.step exchange target rowBelow columnBelow
  · have plainRefused : (Contraction.adjacent [columns] [rows] []).run update turned vector target =
        throw (.outputSizes target.shape.sizes [columns]) := if_neg outputs
    have transposedRefused : (Contraction.adjacent [] [rows] [columns]).run other vector matrix
        target = throw (.outputSizes target.shape.sizes [columns]) := if_neg outputs
    rw [plainRefused, transposedRefused]

end Products

end Source

variable [Element T]

/-- An accumulation regroups when a factor that it has may be multiplied first or last. -/
def Accumulation.Regroups : Accumulation T → Prop
  | addMultiple factor => ∀ first second, factor * first * second = factor * (first * second)
  | _ => True

/-- When multiplication commutes and a factor regroups, the operands of a product may be exchanged. -/
theorem Accumulation.update_exchange (commutes : ∀ first second : T, first * second = second * first)
    {accumulation : Accumulation T} (regroups : accumulation.Regroups) (own first second : T) :
    accumulation.update .plain own first second =
      accumulation.update .transposed own second first := by
  cases accumulation with
  | overwrite => exact congrArg (own + ·) (commutes first second)
  | add => exact congrArg (own + ·) (commutes first second)
  | subtract => exact congrArg (own - ·) (commutes first second)
  | addMultiple factor =>
      change own + factor * first * second = own + factor * second * first
      rw [regroups, regroups, commutes first second]

/-- When multiplication commutes, the plain product of the turned matrix ends in what the transposed
product of the matrix ends in. -/
theorem Source.Turns.matVec (commutes : ∀ first second : T, first * second = second * first)
    {matrix turned vector : Source T} {rows columns : Nat} (rowsWord : rows < Size.bound)
    (columnsWord : columns < Size.bound) (turns : matrix.Turns turned rows columns)
    (vectorSizes : vector.shape.sizes = [rows]) {accumulation : Accumulation T}
    (regroups : accumulation.Regroups) (target : Target) :
    Writing.outcome (turned.matVec .plain accumulation vector target) =
      Writing.outcome (matrix.matVec .transposed accumulation vector target) := by
  have times := turns.timesInto rowsWord columnsWord vectorSizes
    (Accumulation.update_exchange commutes regroups) target
  cases accumulation with
  | overwrite => exact Writing.outcome_bind rfl fun _ => times
  | add => exact times
  | subtract => exact times
  | addMultiple factor => exact times

namespace View

variable {view : View T} {rows columns : Nat}

/-- When multiplication commutes, the plain product of a transposed view ends like the transposed
product of the matrix. -/
theorem transpose_replaces (commutes : ∀ first second : T, first * second = second * first)
    (sizes : view.shape.sizes = [rows, columns]) (rowsWord : rows < Size.bound)
    (columnsWord : columns < Size.bound) (regular : view.mapping.Regular)
    (strided : view.mapping.isStrided = true) :
    ∃ turned again, view.transpose = .ok turned ∧ turned.transpose = .ok again ∧
      turned.shape = view.shape.transpose ∧ again.shape = view.shape ∧
      (∀ row < rows, ∀ column < columns,
        turned.read [column, row] = view.read [row, column] ∧
        again.read [row, column] = view.read [row, column]) ∧
      (∀ accumulation : Accumulation T, accumulation.Regroups → ∀ vector : Source T,
        vector.shape.sizes = [rows] → ∀ target,
          Writing.outcome (turned.source.matVec .plain accumulation vector target) =
            Writing.outcome (view.source.matVec .transposed accumulation vector target)) ∧
      (view.accessor = .plain → ∃ adjoint, view.adjoint = .ok adjoint ∧
        adjoint.shape = view.shape.transpose ∧
        (∀ row < rows, ∀ column < columns,
          adjoint.read [column, row] = Element.conj <$> view.read [row, column]) ∧
        ∀ accumulation : Accumulation T, accumulation.Regroups → ∀ vector : Source T,
          vector.shape.sizes = [rows] → ∀ target,
            Writing.outcome (adjoint.source.matVec .plain accumulation vector target) =
              Writing.outcome (view.source.matVec .adjoint accumulation vector target)) := by
  obtain ⟨turned, transposed, shape, turnedRegular, turnedStrided, conjugated, accessor, turns⟩ :=
    transpose_turns sizes rowsWord columnsWord regular strided
  obtain ⟨again, transposedAgain, againShape, _, _, _, _, turnsAgain⟩ :=
    transpose_turns turns.turnedSizes columnsWord rowsWord turnedRegular turnedStrided
  refine ⟨turned, again, transposed, transposedAgain, shape, ?_, ?_, ?_, ?_⟩
  · rw [againShape, shape, Shape.transpose, Shape.transpose, List.reverse_reverse]
  · intro row rowBelow column columnBelow
    have once : turned.read [column, row] = view.read [row, column] :=
      turns.read row rowBelow column columnBelow
    exact ⟨once, (turnsAgain.read column columnBelow row rowBelow).trans once⟩
  · intro accumulation regroups vector vectorSizes target
    exact turns.matVec commutes rowsWord columnsWord vectorSizes regroups target
  · intro plain
    let adjoint : View T := { turned with accessor := .conjugating }
    have image : adjoint.source = turned.source.image Element.conj :=
      Operand.source_conjugate (show (Operand.ofView turned).asView.accessor = .plain from
        accessor.trans plain)
    refine ⟨adjoint, conjugated, shape, ?_, ?_⟩
    · intro row rowBelow column columnBelow
      have reads := (turns.image Element.conj).read row rowBelow column columnBelow
      rw [← image] at reads
      exact reads
    · intro accumulation regroups vector vectorSizes target
      rw [image, ← Source.matVec_image_conj]
      exact (turns.image Element.conj).matVec commutes rowsWord columnsWord vectorSizes regroups
        target

open scoped Integer in
/-- A matrix with its columns one after the other has both views, and a multiple of its adjoint product
is added through the view that conjugates. -/
theorem transpose_replaces_columns :
    let view : View (Complex Int) := ⟨⟨.ofFree [2, 3], .strided [1, 2]⟩, .plain,
      .ofCells #[⟨1, 2⟩, ⟨0, 1⟩, ⟨3, 0⟩, ⟨1, 1⟩, ⟨0, -1⟩, ⟨2, 0⟩]⟩
    let vector : Tensor (Complex Int) := .ofLiteral [2] #[⟨1, 0⟩, ⟨0, 1⟩]
    let target : Target := .whole ⟨.ofFree [3], .rowMajor⟩
    ∃ turned adjoint, view.transpose = .ok turned ∧ view.adjoint = .ok adjoint ∧
      turned.read [1, 0] = .ok ⟨3, 0⟩ ∧ adjoint.read [0, 1] = .ok ⟨0, -1⟩ ∧
      Writing.outcome
          (adjoint.source.matVec .plain (.addMultiple ⟨0, 1⟩) vector.source target)
          #[⟨1, 0⟩, ⟨0, 0⟩, ⟨0, 5⟩] =
        (some (), #[⟨3, 2⟩, ⟨-1, 4⟩, ⟨-3, 5⟩]) := by
  intro view vector target
  have laws := Complex.conjLaws Integer.ringLaws
  obtain ⟨turned, _, transposed, _, _, _, reads, _, adjoints⟩ :=
    transpose_replaces laws.mul_comm (show view.shape.sizes = [2, 3] from rfl) (by decide) (by decide) rfl rfl
  obtain ⟨adjoint, conjugated, _, conjugates, products⟩ := adjoints rfl
  refine ⟨turned, adjoint, transposed, conjugated, ?_, ?_, ?_⟩
  · exact (reads 0 (by decide) 1 (by decide)).1
  · exact conjugates 1 (by decide) 0 (by decide)
  · rw [products (.addMultiple ⟨0, 1⟩) (laws.mul_assoc _) vector.source rfl target]
    dsimp only [view, vector, target]
    rfl

end View

end ShapedTensor

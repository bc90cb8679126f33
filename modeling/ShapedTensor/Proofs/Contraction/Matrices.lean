import ShapedTensor.Proofs.Contraction.Reduce
import ShapedTensor.Proofs.Contraction.Swap
import ShapedTensor.Proofs.Element.Laws
import ShapedTensor.Proofs.Target.Addressed

namespace ShapedTensor.Source

open Index

variable {T : Type} [Element T] {matrix left right : Source T}
  {matrixElement leftElement rightElement : List Nat → T}

/-- An entry of a contraction over one axis, from zero, is a sum over its coordinates. -/
theorem entry_sum (laws : SemiringLaws T) {outer last first rest : List Nat}
    (firstInside : Inside outer first) (restInside : Inside last rest) (count : Nat)
    (left right : List Nat → T) :
    (Contraction.adjacent outer [count] last).entry Update.add left right (first ++ rest) 0 =
      ((List.range count).map fun summed =>
        left (first ++ [summed]) * right (summed :: rest)).sum := by
  let ring := laws.toSemiring
  rw [entry_of_axis firstInside restInside]
  exact foldl_add_sum_zero _ _

/-- An element of a product of matrices: a row of the left by a column of the right. -/
def rowByColumn (inner : Nat) (left right : List Nat → T) (index : List Nat) : T :=
  ((List.range inner).map fun summed =>
    left [index.headD 0, summed] * right (summed :: index.tail)).sum

/-- Readable matrices that meet in one size have a product if its elements are as many as a word and a
buffer hold. -/
theorem mul_matrices (laws : SemiringLaws T) {outer inner last : Nat} (outerWord : outer < Size.bound)
    (innerWord : inner < Size.bound) (lastWord : last < Size.bound)
    (leftSizes : left.shape.sizes = [outer, inner]) (rightSizes : right.shape.sizes = [inner, last])
    (leftReads : left.Reads leftElement) (rightReads : right.Reads rightElement)
    (below : outer * last < Size.bound) (reserved : Buffer.reserve T (outer * last) = .ok ()) :
    ∃ product, left.mul right = .ok product ∧ product.shape = left.shape.kept right.shape 1 ∧
      product.source.Reads (rowByColumn inner leftElement rightElement) := by
  have leftCut : left.shape.sizes = [outer] ++ [inner] := leftSizes
  have rightCut : right.shape.sizes = [inner] ++ [last] := rightSizes
  have inWords : (Contraction.adjacent [outer] [inner] [last]).InWords := fun _ => by
    simp [Contraction.adjacent, outerWord, innerWord, lastWord]
  have sizes := Shape.sizes_kept leftCut rightCut
  have size : (left.shape.kept right.shape 1).size = .ok (outer * last) :=
    (congrArg Size.product sizes).trans (Size.product_pair outerWord below)
  obtain ⟨cells, multiplied, _, reads⟩ := contractAdjacentWith_of_zeros inWords leftCut rightCut
    leftReads rightReads (Tensor.filled_eq_ok.mpr ⟨outer * last, size, reserved, rfl⟩)
  refine ⟨_, multiplied, rfl, fun index inside => (reads index inside).trans ?_⟩
  have inside : Inside ([outer] ++ [last]) index := sizes ▸ inside
  obtain ⟨row, rowBelow, column, columnBelow, rfl⟩ := inside_pair.mp inside
  exact congrArg Except.ok (entry_sum laws (.cons rowBelow .nil) (.cons columnBelow .nil) inner
    leftElement rightElement)

/-- The value of the bilinear form of a matrix: the left vector by the rows times the right vector. -/
def bilinearSum (rows columns : Nat) (matrix left right : List Nat → T) : T :=
  ((List.range rows).map fun row => left [row] *
    ((List.range columns).map fun column => matrix [row, column] * right [column]).sum).sum

/-- A vector of zeros takes a buffer of its size. -/
theorem zeros_vector {size : Nat} (word : size < Size.bound) :
    Tensor.zeros .growable (.ofFree [size]) = (Buffer.reserve T size >>= fun _ =>
      .ok (⟨.ofFree [size], .growable, Array.replicate size 0⟩ : Tensor T)) := by
  have counted : (Shape.ofFree [size]).size = .ok size := by
    refine Checked.bind_eq_ok.mpr ⟨size, ?_, rfl⟩
    exact Size.mul_eq_ok.mpr ⟨Nat.one_mul size, word⟩
  rw [Tensor.zeros, Tensor.filled, counted]
  change (Buffer.reserve T size >>= fun _ => _) >>= _ = _
  cases Buffer.reserve T size <;> rfl

/-- The bilinear form of readable operands has its value if a buffer holds the rows, and is refused
otherwise. -/
theorem bilinear_eq (laws : SemiringLaws T) {rows columns : Nat} (rowsWord : rows < Size.bound)
    (columnsWord : columns < Size.bound) (matrixSizes : matrix.shape.sizes = [rows, columns])
    (leftSizes : left.shape.sizes = [rows]) (rightSizes : right.shape.sizes = [columns])
    (matrixReads : matrix.Reads matrixElement) (leftReads : left.Reads leftElement)
    (rightReads : right.Reads rightElement) :
    matrix.bilinear left right = (Buffer.reserve T rows >>= fun _ =>
      .ok (bilinearSum rows columns matrixElement leftElement rightElement)) := by
  let ring := laws.toSemiring
  have sized : matrix.shape.sizeAt 0 = .ok rows := Shape.sizeAt_first_eq_ok.mpr ⟨_, matrixSizes⟩
  have zeros := zeros_vector (T := T) rowsWord
  rw [bilinear, sized]
  change Tensor.zeros .growable (.ofFree [rows]) >>= _ = _
  cases reserved : Buffer.reserve T rows with
  | error fault =>
      rw [zeros, reserved]
      rfl
  | ok _ =>
      rw [reserved] at zeros
      have inWords : (Contraction.adjacent [rows] [columns] []).InWords := fun _ => by
        simp [Contraction.adjacent, rowsWord, columnsWord]
      have planned : Contraction.plan [1] matrix.shape.sizes [0] right.shape.sizes =
          .ok (.adjacent [rows] [columns] []) := by
        rw [matrixSizes, rightSizes]
        exact Contraction.plan_adjacent [rows] [columns] []
      have whole : matrix.contractInto Update.add [1] right [0] =
          (Contraction.adjacent [rows] [columns] []).run Update.add matrix right :=
        funext fun _ => contractInto_of_plan planned
      obtain ⟨cells, run, _, reads⟩ := Contraction.written_zeros Update.add inWords planned matrixReads
        rightReads zeros rfl
      rw [zeros]
      change Tensor.written _ (matrix.contractInto Update.add [1] right [0]) >>= _ = _
      rw [whole, run]
      have reduced := reduce_of_reads Update.add (by simpa using rowsWord) leftSizes
        (show (Shape.ofFree [rows]).sizes = [rows] from rfl) leftReads reads
      refine reduced.trans (congrArg Except.ok ?_)
      rw [all_singleton, List.foldl_map]
      refine (foldl_add_sum_zero _ _).trans ?_
      refine congrArg List.sum (List.map_congr_left fun row listed => ?_)
      have rowInside : Inside [rows] [row] := .cons (List.mem_range.mp listed) .nil
      exact congrArg (leftElement [row] * ·)
        (entry_sum laws rowInside .nil columns matrixElement rightElement)

end ShapedTensor.Source

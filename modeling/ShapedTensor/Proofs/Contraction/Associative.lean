import Mathlib
import ShapedTensor.Proofs.Contraction.Flat
import ShapedTensor.Proofs.Element.Laws

namespace ShapedTensor

open Index

variable {T : Type}

/-- A row times a matrix times a column is one sum, whichever product comes first. -/
theorem foldl_exchange [NonUnitalSemiring T] (rows columns : Nat) (left right : Nat → T)
    (middle : Nat → Nat → T) :
    (List.range columns).foldl (fun total column => total +
        (List.range rows).foldl (fun total row => total + left row * middle row column) 0 *
          right column) 0 =
      (List.range rows).foldl (fun total row => total + left row *
        (List.range columns).foldl (fun total column => total + middle row column * right column)
          0) 0 := by
  simp only [foldl_add_sum, zero_add, ← List.sum_map_mul_left, ← List.sum_map_mul_right, mul_assoc]
  exact sum_exchange _ _ _

namespace SemiringLaws

variable [Element T]

/-- Under the laws a row times a matrix times a column is one sum. -/
theorem exchange (laws : SemiringLaws T) (rows columns : Nat) (left right : Nat → T)
    (middle : Nat → Nat → T) :
    (List.range columns).foldl (fun total column => total +
        (List.range rows).foldl (fun total row => total + left row * middle row column) 0 *
          right column) 0 =
      (List.range rows).foldl (fun total row => total + left row *
        (List.range columns).foldl (fun total column => total + middle row column * right column)
          0) 0 :=
  @foldl_exchange T laws.toSemiring rows columns left right middle

end SemiringLaws

/-- The axes that three shapes keep do not depend on which two meet first. -/
theorem Shape.kept_assoc {left middle right : Shape} (two : 2 ≤ middle.rank) :
    (left.kept middle 1).kept right 1 = left.kept (middle.kept right 1) 1 := by
  rcases left with ⟨left⟩
  rcases middle with ⟨middle⟩
  rcases right with ⟨right⟩
  simp only [rank] at two
  have outer : (left.take (left.length - 1) ++ middle.drop 1).take
      ((left.take (left.length - 1) ++ middle.drop 1).length - 1) =
      left.take (left.length - 1) ++ (middle.drop 1).take (middle.length - 2) := by
    rw [List.take_append, List.take_of_length_le (by simp; omega)]
    congr 2
    simp
    omega
  have last : (middle.take (middle.length - 1) ++ right.drop 1).drop 1 =
      (middle.drop 1).take (middle.length - 2) ++ right.drop 1 := by
    rw [List.drop_append_of_le_length (by simp; omega), List.drop_take]
    rfl
  simp only [kept, splitLast, splitFirst, concat, rank, outer, last, List.append_assoc]

namespace Index

/-- Sizes that begin with one axis and end with another have the others between them, if there are
two of them or more. -/
theorem exists_between {first last : Nat} {behind before : List Nat}
    (same : [first] ++ behind = before ++ [last]) (two : 2 ≤ ([first] ++ behind).length) :
    ∃ between, behind = between ++ [last] ∧ before = [first] ++ between := by
  cases before with
  | nil =>
      rw [same] at two
      simp at two
  | cons start between =>
      obtain ⟨rfl, rest⟩ := List.cons.inj same
      exact ⟨between, rest, rfl⟩

/-- A matrix has a cell at each row and column. -/
theorem cell_lt {rows columns row column : Nat} (rowBelow : row < rows)
    (columnBelow : column < columns) : row * columns + column < rows * columns := by
  have next : (row + 1) * columns ≤ rows * columns := Nat.mul_le_mul_right columns rowBelow
  rw [Nat.add_mul, Nat.one_mul] at next
  omega

/-- Every cell of a matrix is in a row and a column. -/
theorem exists_row_column {rows columns position : Nat} (below : position < rows * columns) :
    ∃ row < rows, ∃ column < columns, position = row * columns + column := by
  have filled : 0 < columns := Nat.pos_of_mul_pos_left (Nat.zero_lt_of_lt below)
  refine ⟨position / columns, (Nat.div_lt_iff_lt_mul filled).mpr below, position % columns,
    Nat.mod_lt _ filled, ?_⟩
  rw [Nat.div_add_mod']

end Index

namespace Tensor

/-- What a cell is known to hold is also found with a default. -/
theorem getD_of_cell {cells : Array T} {position : Nat} {element default : T}
    (found : cells[position]? = some element) : cells.getD position default = element := by
  rw [Array.getD_eq_getD_getElem?, found, Option.getD_some]

/-- Tensors of one shape and one kind of storage with the same cells are the same. -/
theorem eq_of_cells {left right : Tensor T} (shape : left.shape = right.shape)
    (kind : left.storage.kind = right.storage.kind) (cells : left.cells = right.cells) :
    left = right := by
  rcases left with ⟨leftShape, leftKind, leftCells⟩
  rcases right with ⟨rightShape, rightKind, rightCells⟩
  obtain rfl : leftShape = rightShape := shape
  obtain rfl : leftKind = rightKind := kind
  obtain rfl : leftCells = rightCells := cells
  rfl

variable [Element T]

/-- A row of the product of two matrices by a column of a third is a row of the first by a column of the
other product. -/
theorem rowByColumn_exchange (laws : SemiringLaws T)
    {left middle right leftMiddle middleRight : Array T} {outer rows between columns last : Nat}
    (leftEntries : ∀ row < outer, ∀ column < between * columns,
      leftMiddle[row * (between * columns) + column]? =
        some ((List.range rows).foldl (fun total inner => total +
          left.getD (row * rows + inner) 0 *
            middle.getD (inner * (between * columns) + column) 0) 0))
    (rightEntries : ∀ row < rows * between, ∀ column < last, middleRight[row * last + column]? =
        some ((List.range columns).foldl (fun total inner => total +
          middle.getD (row * columns + inner) 0 * right.getD (inner * last + column) 0) 0))
    {row block column : Nat} (rowBelow : row < outer) (blockBelow : block < between)
    (columnBelow : column < last) :
    (List.range columns).foldl (fun total inner => total +
        leftMiddle.getD ((row * between + block) * columns + inner) 0 *
          right.getD (inner * last + column) 0) 0 =
      (List.range rows).foldl (fun total inner => total + left.getD (row * rows + inner) 0 *
        middleRight.getD (inner * (between * last) + (block * last + column)) 0) 0 := by
  have leftCell (inner : Nat) (below : inner < columns) :
      leftMiddle.getD ((row * between + block) * columns + inner) 0 =
        (List.range rows).foldl (fun total start => total + left.getD (row * rows + start) 0 *
          middle.getD ((start * between + block) * columns + inner) 0) 0 := by
    have place : (row * between + block) * columns + inner =
        row * (between * columns) + (block * columns + inner) := by ring
    rw [place, getD_of_cell (leftEntries row rowBelow _ (cell_lt blockBelow below))]
    refine List.foldl_ext _ _ _ fun total start _ => ?_
    have same : start * (between * columns) + (block * columns + inner) =
        (start * between + block) * columns + inner := by ring
    rw [same]
  have rightCell (start : Nat) (below : start < rows) :
      middleRight.getD (start * (between * last) + (block * last + column)) 0 =
        (List.range columns).foldl (fun total inner => total +
          middle.getD ((start * between + block) * columns + inner) 0 *
            right.getD (inner * last + column) 0) 0 := by
    have place : start * (between * last) + (block * last + column) =
        (start * between + block) * last + column := by ring
    rw [place, getD_of_cell (rightEntries _ (cell_lt below blockBelow) column columnBelow)]
  calc
    _ = (List.range columns).foldl (fun total inner => total +
          (List.range rows).foldl (fun total start => total + left.getD (row * rows + start) 0 *
            middle.getD ((start * between + block) * columns + inner) 0) 0 *
          right.getD (inner * last + column) 0) 0 :=
        List.foldl_ext _ _ _ fun total inner listed => by rw [leftCell inner (List.mem_range.mp listed)]
    _ = (List.range rows).foldl (fun total start => total + left.getD (row * rows + start) 0 *
          (List.range columns).foldl (fun total inner => total +
            middle.getD ((start * between + block) * columns + inner) 0 *
              right.getD (inner * last + column) 0) 0) 0 :=
        laws.exchange rows columns _ _ fun start inner =>
          middle.getD ((start * between + block) * columns + inner) 0
    _ = _ :=
        List.foldl_ext _ _ _ fun total start listed => by rw [rightCell start (List.mem_range.mp listed)]

/-- Two products of three matrices have the same cells if the middle one has its own sizes between
those that it shares with its neighbours. -/
theorem cells_associative (laws : SemiringLaws T) {outer between last : List Nat} {rows columns : Nat}
    {left middle right leftMiddle middleRight first second : Tensor T}
    (leftResult : MatrixProduct Update.add outer [rows] (between ++ [columns]) left middle leftMiddle)
    (rightResult :
      MatrixProduct Update.add ([rows] ++ between) [columns] last middle right middleRight)
    (firstResult : MatrixProduct Update.add (outer ++ between) [columns] last leftMiddle right first)
    (secondResult : MatrixProduct Update.add outer [rows] (between ++ last) left middleRight second) :
    first.cells = second.cells := by
  have leftCell := leftResult.cell
  have rightCell := rightResult.cell
  have firstCell := firstResult.cell
  have secondCell := secondResult.cell
  have firstSize := firstResult.full.size_cells
  have secondSize := secondResult.full.size_cells
  rw [firstResult.sizes] at firstSize
  rw [secondResult.sizes] at secondSize
  simp only [List.prod_append, List.prod_singleton] at leftCell rightCell firstCell secondCell
  simp only [List.prod_append, Nat.mul_assoc] at firstSize secondSize
  refine Array.ext_getElem? fun position => ?_
  by_cases below : position < outer.prod * between.prod * last.prod
  · obtain ⟨rowBlock, rowBlockBelow, column, columnBelow, rfl⟩ := exists_row_column below
    obtain ⟨row, rowBelow, block, blockBelow, rfl⟩ := exists_row_column rowBlockBelow
    have place : (row * between.prod + block) * last.prod + column =
        row * (between.prod * last.prod) + (block * last.prod + column) := by ring
    rw [firstCell _ rowBlockBelow column columnBelow, place,
      secondCell row rowBelow _ (cell_lt blockBelow columnBelow)]
    exact congrArg some
      (rowByColumn_exchange laws leftCell rightCell rowBelow blockBelow columnBelow)
  · rw [Nat.mul_assoc] at below
    rw [Array.getElem?_eq_none (by omega), Array.getElem?_eq_none (by omega)]

/-- The product of full tensors is associative over a semiring if the one in the middle has two axes or
more. -/
theorem mul_associative (laws : SemiringLaws T)
    {left middle right leftMiddle middleRight first second : Tensor T} (leftFull : left.Full)
    (middleFull : middle.Full) (rightFull : right.Full) (two : 2 ≤ middle.shape.rank)
    (leftProduct : left.source.mul middle.source = .ok leftMiddle)
    (firstProduct : leftMiddle.source.mul right.source = .ok first)
    (rightProduct : middle.source.mul right.source = .ok middleRight)
    (secondProduct : left.source.mul middleRight.source = .ok second) : first = second := by
  obtain ⟨outer, summed, behind, leftSizes, middleSizes, one⟩ :=
    Source.sizes_of_contractAdjacentWith leftProduct
  obtain ⟨before, joined, last, sameSizes, rightSizes, alsoOne⟩ :=
    Source.sizes_of_contractAdjacentWith rightProduct
  obtain ⟨rows, rfl⟩ := List.length_eq_one_iff.mp one
  obtain ⟨columns, rfl⟩ := List.length_eq_one_iff.mp alsoOne
  -- The middle operand has an axis for either neighbour and its own ones between them.
  have axes : 2 ≤ ([rows] ++ behind).length := by
    rw [← middleSizes, Shape.sizes_length]
    exact two
  obtain ⟨between, rfl, rfl⟩ := exists_between (middleSizes.symm.trans sameSizes) axes
  have leftResult := matrixProduct_of_contracted leftFull middleFull leftSizes middleSizes leftProduct
  have rightResult :=
    matrixProduct_of_contracted middleFull rightFull sameSizes rightSizes rightProduct
  have leftMiddleSizes := leftResult.sizes
  have middleRightSizes := rightResult.sizes
  rw [← List.append_assoc] at leftMiddleSizes
  rw [List.append_assoc] at middleRightSizes
  have firstResult :=
    matrixProduct_of_contracted leftResult.full rightFull leftMiddleSizes rightSizes firstProduct
  have secondResult :=
    matrixProduct_of_contracted leftFull rightResult.full leftSizes middleRightSizes secondProduct
  have shape : first.shape = second.shape := by
    rw [firstResult.shape, secondResult.shape, leftResult.shape, rightResult.shape]
    exact Shape.kept_assoc two
  exact eq_of_cells shape (firstResult.kind.trans secondResult.kind.symm)
    (cells_associative laws leftResult rightResult firstResult secondResult)

open scoped Integer in
/-- A matrix, a tensor of rank 3 and a vector are multiplied in either order. -/
theorem mul_associative_vector :
    let left : Tensor Int := .ofLiteral [1, 2] #[1, 2]
    let middle : Tensor Int := .ofLiteral [2, 2, 2] #[1, 2, 3, 4, 5, 6, 7, 8]
    let right : Tensor Int := .ofLiteral [2] #[3, -1]
    ∃ leftMiddle middleRight first second, left.source.mul middle.source = .ok leftMiddle ∧
      leftMiddle.source.mul right.source = .ok first ∧
      middle.source.mul right.source = .ok middleRight ∧
      left.source.mul middleRight.source = .ok second ∧ first = second ∧ first.cells = #[19, 31] := by
  intro left middle right
  have leftFull : left.Full := rfl
  have middleFull : middle.Full := rfl
  have rightFull : right.Full := rfl
  let leftMiddle : Tensor Int := ⟨⟨[.fixed 1, .fixed 2, .fixed 2]⟩, .growable, #[11, 14, 17, 20]⟩
  let middleRight : Tensor Int := ⟨⟨[.fixed 2, .fixed 2]⟩, .growable, #[1, 5, 9, 13]⟩
  let product : Tensor Int := ⟨⟨[.fixed 1, .fixed 2]⟩, .growable, #[19, 31]⟩
  have leftProduct : left.source.mul middle.source = .ok leftMiddle := by cbv
  have firstProduct : leftMiddle.source.mul right.source = .ok product := by cbv
  have rightProduct : middle.source.mul right.source = .ok middleRight := by cbv
  have secondProduct : left.source.mul middleRight.source = .ok product := by cbv
  exact ⟨leftMiddle, middleRight, product, product, leftProduct, firstProduct, rightProduct,
    secondProduct, mul_associative Integer.semiringLaws leftFull middleFull rightFull (by decide)
      leftProduct firstProduct rightProduct secondProduct, rfl⟩

end Tensor

end ShapedTensor

import ShapedTensor.MatrixView
import ShapedTensor.Proofs.Element.Laws
import ShapedTensor.Proofs.Source.Copy

namespace ShapedTensor

open Index

variable {Grid T : Type}

namespace MatrixLibrary

variable (library : MatrixLibrary Grid T)

/-- A matrix of some sizes that has an element in each entry. -/
structure Holds (matrix : MatrixOver Grid T) (rows columns : Nat)
    (element : (row column : Nat) → T) : Prop where
  rowCount : library.rows matrix.grid = rows
  columnCount : library.columns matrix.grid = columns
  entry : ∀ row < rows, ∀ column < columns,
    library.entry matrix row column = .ok (element row column)

/-- A matrix of some sizes whose entries are cells of its buffer, each one of its own. -/
structure Offers (matrix : MatrixOver Grid T) (rows columns : Nat) : Prop where
  rowCount : library.rows matrix.grid = rows
  columnCount : library.columns matrix.grid = columns
  below : ∀ row < rows, ∀ column < columns,
    library.cell matrix.grid row column < matrix.cells.size
  apart : ∀ row < rows, ∀ column < columns, ∀ otherRow < rows, ∀ otherColumn < columns,
    library.cell matrix.grid row column = library.cell matrix.grid otherRow otherColumn →
      row = otherRow ∧ column = otherColumn

/-- What the grids and the copies of a library are relied on for. -/
structure Lawful [Stored T] : Prop where
  byColumns (rows columns : Nat) (word : rows * columns < Size.bound) :
    ∃ grid, library.byColumns (rows * columns) rows columns = .ok grid ∧
      library.rows grid = rows ∧ library.columns grid = columns ∧
      ∀ row < rows, ∀ column < columns, library.cell grid row column = row + column * rows
  transpose (grid : Grid) : library.rows (library.transpose grid) = library.columns grid ∧
    library.columns (library.transpose grid) = library.rows grid ∧
    ∀ row < library.rows grid, ∀ column < library.columns grid,
      library.cell (library.transpose grid) column row = library.cell grid row column
  exists_tabulate {rows columns : Nat} {value : (row column : Nat) → Except Fault T}
    (room : Buffer.bytes T (rows * columns) < Buffer.bound)
    (values : ∀ row < rows, ∀ column < columns, ∃ element, value row column = .ok element) :
    ∃ matrix, library.tabulate rows columns value = .ok matrix
  tabulated {rows columns : Nat} {value : (row column : Nat) → Except Fault T}
    {matrix : MatrixOver Grid T} (made : library.tabulate rows columns value = .ok matrix) :
    library.rows matrix.grid = rows ∧ library.columns matrix.grid = columns ∧
      ∀ row < rows, ∀ column < columns, ∃ element, value row column = .ok element ∧
        library.entry matrix row column = .ok element

/-- The products of a library: each entry of a target is replaced by the sum of the products of a row
of the left matrix with a column of the right one. -/
def StoresProducts [Element T] : Prop :=
  ∀ (target left right : MatrixOver Grid T) (rows inner columns : Nat)
    (leftElement rightElement : (row column : Nat) → T), library.Offers target rows columns →
    library.Holds left rows inner leftElement → library.Holds right inner columns rightElement →
    ∃ cells, library.multiply target left right = .ok cells ∧ cells.size = target.cells.size ∧
      library.Holds ⟨target.grid, cells⟩ rows columns fun row column =>
        ((List.range inner).map fun middle =>
          leftElement row middle * rightElement middle column).sum

variable {library}

/-- An entry that a matrix has is one of its cells. -/
theorem entry_of_inside {matrix : MatrixOver Grid T} {row column : Nat}
    (rowBelow : row < library.rows matrix.grid) (columnBelow : column < library.columns matrix.grid) :
    library.entry matrix row column = matrix.cellAt (library.cell matrix.grid row column) := by
  rw [entry, place, if_pos ⟨rowBelow, columnBelow⟩]
  rfl

end MatrixLibrary

/-- The cell at a position is found when the matrix has it. -/
theorem MatrixOver.cellAt_eq_ok {matrix : MatrixOver Grid T} {position : Nat} {element : T} :
    matrix.cellAt position = .ok element ↔ matrix.cells[position]? = some element := by
  rw [cellAt]
  cases matrix.cells[position]? <;> simp

/-- The number of an index with two coordinates. -/
theorem Index.ordinal_pair (rows columns row column : Nat) :
    ordinal 0 [rows, columns] [row, column] = row * columns + column := by
  simp [ordinal]

/-- A function of two coordinates has all its values in a box if each of them exists. -/
theorem Source.exists_elements_atPair {first second : Nat}
    {value : (firstPosition secondPosition : Nat) → Except Fault T}
    (values : ∀ firstPosition < first, ∀ secondPosition < second, ∃ element,
      value firstPosition secondPosition = .ok element) :
    ∃ cells, elements ⟨.ofFree [first, second], Index.atPair value⟩ = .ok cells := by
  refine exists_elements.mpr fun index inside => ?_
  obtain ⟨firstPosition, firstBelow, secondPosition, secondBelow, rfl⟩ := inside_pair.mp inside
  exact values firstPosition firstBelow secondPosition secondBelow

namespace MatrixView

variable [Element T]

/-- The library over strided grids is lawful. -/
theorem library_lawful : (library : MatrixLibrary StridedGrid T).Lawful where
  byColumns rows columns _ := by
    refine ⟨.byColumns rows columns, rfl, rfl, rfl, fun row _ column _ => ?_⟩
    exact congrArg (· + column * rows) (Nat.mul_one row)
  transpose grid := ⟨rfl, rfl, fun _ _ _ _ => Nat.add_comm _ _⟩
  exists_tabulate {rows columns value} room values := by
    obtain ⟨cells, collected⟩ := Source.exists_elements_atPair
      fun column columnBelow row rowBelow => values row rowBelow column columnBelow
    exact ⟨_, Checked.check_eq_ok.mpr
      ⟨Buffer.reserve_eq_ok.mpr room, Checked.bind_eq_ok.mpr ⟨cells, collected, rfl⟩⟩⟩
  tabulated {rows columns value matrix} made := by
    obtain ⟨_, made⟩ := Checked.check_eq_ok.mp made
    obtain ⟨cells, collected, made⟩ := Checked.bind_eq_ok.mp made
    obtain rfl := Except.ok.inj made
    refine ⟨rfl, rfl, fun row rowBelow column columnBelow => ?_⟩
    have inside : Inside [columns, rows] [column, row] := .cons columnBelow (.cons rowBelow .nil)
    obtain ⟨element, read, found⟩ := Source.getElem?_elements collected inside
    refine ⟨element, read, ?_⟩
    rw [MatrixLibrary.entry_of_inside rowBelow columnBelow]
    refine MatrixOver.cellAt_eq_ok.mpr (Eq.trans (congrArg (cells[·]?) ?_) found)
    change row * 1 + column * rows = ordinal 0 [columns, rows] [column, row]
    rw [ordinal_pair, Nat.mul_one, Nat.add_comm]

/-- An entry of a product is the sum over the inner coordinate. -/
theorem productEntry_eq (laws : SemiringLaws T) {left right : MatrixView T} {rows inner columns : Nat}
    {leftElement rightElement : (row column : Nat) → T}
    (leftHolds : library.Holds left rows inner leftElement)
    (rightHolds : library.Holds right inner columns rightElement) {row column : Nat}
    (rowBelow : row < rows) (columnBelow : column < columns) :
    left.productEntry right row column = .ok ((List.range inner).map fun middle =>
      leftElement row middle * rightElement middle column).sum := by
  let ring := laws.toSemiring
  have steps (total : T) (middle : Nat) (listed : middle ∈ List.range inner) :
      (do
        let leftEntry ← left.cellAt (left.grid.cell row middle)
        let rightEntry ← right.cellAt (right.grid.cell middle column)
        return total + leftEntry * rightEntry : Except Fault T) =
      pure (total + leftElement row middle * rightElement middle column) := by
    have middleBelow := List.mem_range.mp listed
    have leftEntry := leftHolds.entry row rowBelow middle middleBelow
    have rightEntry := rightHolds.entry middle middleBelow column columnBelow
    rw [MatrixLibrary.entry_of_inside (leftHolds.rowCount.symm ▸ rowBelow)
      (leftHolds.columnCount.symm ▸ middleBelow)] at leftEntry
    rw [MatrixLibrary.entry_of_inside (rightHolds.rowCount.symm ▸ middleBelow)
      (rightHolds.columnCount.symm ▸ columnBelow)] at rightEntry
    exact Checked.bind_eq_ok.mpr ⟨_, leftEntry, Checked.bind_eq_ok.mpr ⟨_, rightEntry, rfl⟩⟩
  have sized : left.columns = inner := leftHolds.columnCount
  rw [productEntry, sized, foldlM_congr steps, List.foldlM_pure]
  exact congrArg Except.ok (foldl_add_sum_zero _ _)

/-- The library over strided grids stores products. -/
theorem library_storesProducts (laws : SemiringLaws T) :
    (library : MatrixLibrary StridedGrid T).StoresProducts := by
  intro target left right rows inner columns leftElement rightElement offers leftHolds rightHolds
  let cell (index : List Nat) : Nat := target.grid.cell (index.headD 0) (index.tail.headD 0)
  let value (index : List Nat) : T := ((List.range inner).map fun middle =>
    leftElement (index.headD 0) middle * rightElement middle (index.tail.headD 0)).sum
  have stored : multiply target left right = .ok ((all [rows, columns]).foldl
      (fun cells index => cells.modify (cell index) fun _ => value index) target.cells) := by
    have rowCount : MatrixView.rows target = rows := offers.rowCount
    have columnCount : MatrixView.columns target = columns := offers.columnCount
    rw [multiply, rowCount, columnCount]
    refine foldM_pure (fun cells index inside => ?_) target.cells
    obtain ⟨row, rowBelow, column, columnBelow, rfl⟩ := inside_pair.mp inside
    rw [← setIfInBounds_eq_modify]
    exact Checked.bind_eq_ok.mpr
      ⟨_, productEntry_eq laws leftHolds rightHolds rowBelow columnBelow, rfl⟩
  refine ⟨_, stored, size_foldl_modify cell _ _ _, offers.rowCount, offers.columnCount, ?_⟩
  intro row rowBelow column columnBelow
  have inside : Inside [rows, columns] [row, column] := .cons rowBelow (.cons columnBelow .nil)
  rw [MatrixLibrary.entry_of_inside (offers.rowCount.symm ▸ rowBelow)
    (offers.columnCount.symm ▸ columnBelow)]
  refine MatrixOver.cellAt_eq_ok.mpr ?_
  -- The entries have cells of their own, so the last value of this cell is that of its entry.
  have once : (all [rows, columns]).filter (fun other => cell other = cell [row, column]) =
      [[row, column]] := by
    refine filter_all inside fun other otherInside same => ?_
    obtain ⟨otherRow, otherBelow, otherColumn, otherColumnBelow, rfl⟩ := inside_pair.mp otherInside
    obtain ⟨rfl, rfl⟩ := offers.apart otherRow otherBelow otherColumn otherColumnBelow row rowBelow
      column columnBelow same
    rfl
  have below : cell [row, column] < target.cells.size := offers.below row rowBelow column columnBelow
  refine (getElem?_foldl_modify cell (fun index _ => value index) _ _ (cell [row, column])).trans ?_
  rw [once, Array.getElem?_eq_getElem below]
  rfl

end MatrixView

end ShapedTensor

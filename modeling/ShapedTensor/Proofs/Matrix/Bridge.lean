import ShapedTensor.Proofs.Contraction.Flat
import ShapedTensor.Proofs.Matrix.Laws
import ShapedTensor.Proofs.Tensor.RoundTrip

namespace ShapedTensor

open Index

variable {Grid T : Type}

/-- The sizes of two axes are found at these axes. -/
theorem Shape.sizeAt_pair {shape : Shape} {rows columns : Nat} (sizes : shape.sizes = [rows, columns]) :
    shape.sizeAt 0 = .ok rows ∧ shape.sizeAt 1 = .ok columns := by
  simp [sizeAt, sizes]

/-- A matrix that meets another shape has the inner size of that. -/
theorem Shape.inner_of_contract {left right shape : Shape} (rank : left.rank = 2)
    (joined : left.contract right 1 = .ok shape) : left.sizeAt 1 = right.sizeAt 0 := by
  obtain ⟨outer, inner, last, leftSizes, rightSizes, single⟩ := sizes_of_contract (by omega) joined
  obtain ⟨size, rfl⟩ := List.length_eq_one_iff.mp single
  rw [rank_of_append leftSizes, List.length_singleton] at rank
  obtain ⟨first, rfl⟩ := List.length_eq_one_iff.mp (Nat.succ.inj rank)
  simp [sizeAt, leftSizes, rightSizes]

namespace Tensor

/-- A tensor that has the elements of another one, but at one index a value of its own. -/
structure DiffersAt (tensor : Tensor T) (index : List Nat) (value : T) (after : Tensor T) : Prop where
  shape : after.shape = tensor.shape
  kind : after.storage.kind = tensor.storage.kind
  full : after.Full
  own : after.read index = .ok value
  others : ∀ other, Inside tensor.shape.sizes other → other ≠ index →
    after.read other = tensor.read other

/-- A full tensor with another value in the cell of an index differs there and nowhere else. -/
theorem Full.differsAt_of_set {tensor : Tensor T} (full : tensor.Full) {index : List Nat}
    (inside : Inside tensor.shape.sizes index) (value : T) :
    tensor.DiffersAt index value (tensor.withCells
      (tensor.cells.setIfInBounds (ordinal 0 tensor.shape.sizes index) value)) := by
  have bounded {other : List Nat} (otherInside : Inside tensor.shape.sizes other) :
      ordinal 0 tensor.shape.sizes other < tensor.cells.size := by
    rw [full.size_cells]
    exact ordinal_lt otherInside
  have word := (tensor.shape.prod_of_size full).2
  let after := tensor.withCells
    (tensor.cells.setIfInBounds (ordinal 0 tensor.shape.sizes index) value)
  have shaped : after.shape = tensor.shape := rfl
  refine ⟨shaped, rfl, ?_, ?_, fun other otherInside apart => ?_⟩
  · exact full.trans (congrArg Except.ok Array.size_setIfInBounds.symm)
  · have afterInside : Inside after.shape.sizes index := inside
    refine (read_eq_ok afterInside).mpr ⟨(bounded inside).trans word, ?_⟩
    exact Array.getElem?_setIfInBounds_self_of_lt (bounded inside)
  · obtain ⟨element, found, read⟩ := full.read_eq otherInside
    have afterInside : Inside after.shape.sizes other := otherInside
    rw [read]
    refine (read_eq_ok afterInside).mpr ⟨(bounded otherInside).trans word, ?_⟩
    have distinct : ordinal 0 tensor.shape.sizes index ≠ ordinal 0 tensor.shape.sizes other :=
      fun same => apart (ordinal_inj inside otherInside same).symm
    exact (Array.getElem?_setIfInBounds_ne distinct).trans found

end Tensor

namespace MatrixLibrary

variable {library : MatrixLibrary Grid T} {rows columns : Nat} {tensor : Tensor T}

section Rows

/-- A matrix whose rows follow each other and fill its buffer. -/
structure RowMajor (library : MatrixLibrary Grid T) (matrix : MatrixOver Grid T)
    (rows columns : Nat) : Prop where
  rowCount : library.rows matrix.grid = rows
  columnCount : library.columns matrix.grid = columns
  cell : ∀ row < rows, ∀ column < columns,
    library.cell matrix.grid row column = row * columns + column
  size : matrix.cells.size = rows * columns

/-- The transpose of a matrix of columns over a buffer has the buffer as its rows. -/
theorem Lawful.byRows [Stored T] (lawful : library.Lawful) {cells : Array T}
    (size : cells.size = rows * columns) (word : rows * columns < Size.bound) :
    ∃ grid, library.byRows cells rows columns = .ok ⟨grid, cells⟩ ∧
      library.RowMajor ⟨grid, cells⟩ rows columns := by
  rw [Nat.mul_comm] at word
  obtain ⟨grid, made, rowCount, columnCount, cell⟩ := lawful.byColumns columns rows word
  obtain ⟨turnedRows, turnedColumns, turnedCell⟩ := lawful.transpose grid
  refine ⟨library.transpose grid, ?_, turnedRows.trans columnCount, turnedColumns.trans rowCount, ?_,
    size⟩
  · rw [MatrixLibrary.byRows, size, Nat.mul_comm, made]
    rfl
  · intro row rowBelow column columnBelow
    have turned := turnedCell column (rowCount.symm ▸ columnBelow) row (columnCount.symm ▸ rowBelow)
    rw [turned, cell column columnBelow row rowBelow, Nat.add_comm]

/-- The rows of a row-major matrix lie in its buffer beside each other. -/
theorem RowMajor.offers {matrix : MatrixOver Grid T} (major : library.RowMajor matrix rows columns) :
    library.Offers matrix rows columns := by
  have inside {row column : Nat} (rowBelow : row < rows) (columnBelow : column < columns) :
      Inside [rows, columns] [row, column] := .cons rowBelow (.cons columnBelow .nil)
  refine ⟨major.rowCount, major.columnCount, fun row rowBelow column columnBelow => ?_, ?_⟩
  · have below := ordinal_lt (inside rowBelow columnBelow)
    rw [ordinal_pair] at below
    rw [major.cell row rowBelow column columnBelow, major.size]
    simpa using below
  · intro row rowBelow column columnBelow otherRow otherBelow otherColumn otherColumnBelow same
    rw [major.cell row rowBelow column columnBelow,
      major.cell otherRow otherBelow otherColumn otherColumnBelow, ← ordinal_pair rows,
      ← ordinal_pair rows] at same
    simpa using ordinal_inj (inside rowBelow columnBelow) (inside otherBelow otherColumnBelow) same

/-- An entry of a row-major matrix is the cell at its place in the rows. -/
theorem RowMajor.entry_eq {matrix : MatrixOver Grid T} (major : library.RowMajor matrix rows columns)
    {row column : Nat} (rowBelow : row < rows) (columnBelow : column < columns) :
    library.entry matrix row column = matrix.cellAt (row * columns + column) := by
  rw [entry_of_inside (major.rowCount.symm ▸ rowBelow) (major.columnCount.symm ▸ columnBelow),
    major.cell row rowBelow column columnBelow]

/-- A row-major matrix holds the elements of its cells. -/
theorem RowMajor.holds [Zero T] {matrix : MatrixOver Grid T}
    (major : library.RowMajor matrix rows columns) :
    library.Holds matrix rows columns fun row column =>
      matrix.cells.getD (row * columns + column) 0 := by
  refine ⟨major.rowCount, major.columnCount, fun row rowBelow column columnBelow => ?_⟩
  have below := major.offers.below row rowBelow column columnBelow
  rw [major.cell row rowBelow column columnBelow] at below
  rw [major.entry_eq rowBelow columnBelow, MatrixOver.cellAt_eq_ok, Array.getD_eq_getD_getElem?,
    Array.getElem?_eq_getElem below, Option.getD_some]

end Rows

section Cells

/-- A full tensor of rank 2 is a row-major matrix over its cells. -/
theorem Lawful.ofTensor [Stored T] (lawful : library.Lawful) (full : tensor.Full)
    (sizes : tensor.shape.sizes = [rows, columns]) :
    ∃ grid, library.ofTensor tensor = .ok ⟨grid, tensor.cells⟩ ∧
      library.RowMajor ⟨grid, tensor.cells⟩ rows columns := by
  obtain ⟨count, word⟩ := tensor.shape.prod_of_size full
  have product : tensor.shape.sizes.prod = rows * columns := by simp [sizes]
  have size : tensor.cells.size = rows * columns := count.symm.trans product
  obtain ⟨grid, made, major⟩ := lawful.byRows size (size ▸ word)
  obtain ⟨rowsFound, columnsFound⟩ := Shape.sizeAt_pair sizes
  refine ⟨grid, ?_, major⟩
  rw [MatrixLibrary.ofTensor, rowsFound, columnsFound]
  exact made

/-- The matrix of a tensor reads its elements and writes through to them, one after the other. -/
structure SharesCells (library : MatrixLibrary Grid T) (tensor : Tensor T) (rows columns : Nat) :
    Prop where
  reads : ∃ matrix, library.ofTensor tensor = .ok matrix ∧ library.rows matrix.grid = rows ∧
    library.columns matrix.grid = columns ∧ ∀ row < rows, ∀ column < columns, ∃ element,
      tensor.read [row, column] = .ok element ∧ library.entry matrix row column = .ok element
  writes : ∀ row < rows, ∀ column < columns, ∀ value, ∃ after,
    library.writeEntries tensor [(row, column, value)] = .ok after ∧
      tensor.DiffersAt [row, column] value after
  runs : ∀ entry entries, library.writeEntries tensor (entry :: entries) =
    library.writeEntries tensor [entry] >>= (library.writeEntries · entries)

/-- A matrix is found again over other cells of the same number. -/
theorem ofTensor_withCells {grid : Grid} (taken : library.ofTensor tensor = .ok ⟨grid, tensor.cells⟩)
    {cells : Array T} (size : cells.size = tensor.cells.size) :
    library.ofTensor (tensor.withCells cells) = .ok ⟨grid, cells⟩ := by
  obtain ⟨rows, rowsFound, taken⟩ := Checked.bind_eq_ok.mp taken
  obtain ⟨columns, columnsFound, taken⟩ := Checked.bind_eq_ok.mp taken
  obtain ⟨own, made, taken⟩ := Checked.bind_eq_ok.mp taken
  rw [← size] at made
  obtain rfl : library.transpose own = grid := congrArg MatrixOver.grid (Except.ok.inj taken)
  exact Checked.bind_eq_ok.mpr ⟨rows, rowsFound, Checked.bind_eq_ok.mpr ⟨columns, columnsFound,
    Checked.bind_eq_ok.mpr ⟨own, made, rfl⟩⟩⟩

/-- The matrix of a tensor is over the cells of the tensor. -/
theorem cells_of_ofTensor {matrix : MatrixOver Grid T}
    (taken : library.ofTensor tensor = .ok matrix) : matrix.cells = tensor.cells := by
  obtain ⟨rows, _, taken⟩ := Checked.bind_eq_ok.mp taken
  obtain ⟨columns, _, taken⟩ := Checked.bind_eq_ok.mp taken
  obtain ⟨own, _, taken⟩ := Checked.bind_eq_ok.mp taken
  exact congrArg MatrixOver.cells (Except.ok.inj taken).symm

/-- A write leaves the grid and the number of the cells. -/
theorem set_eq_ok {matrix after : MatrixOver Grid T} {row column : Nat} {value : T}
    (written : library.set matrix row column value = .ok after) :
    after.grid = matrix.grid ∧ after.cells.size = matrix.cells.size := by
  obtain ⟨cell, _, written⟩ := Checked.bind_eq_ok.mp written
  obtain rfl := Except.ok.inj written
  exact ⟨rfl, Array.size_setIfInBounds⟩

/-- Entries are written into the matrix of a tensor, and its cells are those of the tensor then. -/
theorem writeEntries_eq {matrix : MatrixOver Grid T} (taken : library.ofTensor tensor = .ok matrix)
    (entries : List (Nat × Nat × T)) :
    library.writeEntries tensor entries = (entries.foldlM (fun matrix entry =>
      library.set matrix entry.1 entry.2.1 entry.2.2) matrix >>= fun written =>
        .ok (tensor.withCells written.cells)) := by
  rw [writeEntries, taken]
  rfl

/-- Entries are written one after the other. -/
theorem writeEntries_cons (tensor : Tensor T) (entry : Nat × Nat × T)
    (entries : List (Nat × Nat × T)) :
    library.writeEntries tensor (entry :: entries) =
      library.writeEntries tensor [entry] >>= (library.writeEntries · entries) := by
  cases taken : library.ofTensor tensor with
  | error fault =>
      rw [writeEntries, writeEntries, taken]
      rfl
  | ok matrix =>
      obtain ⟨grid, cells⟩ := matrix
      obtain rfl : cells = tensor.cells := cells_of_ofTensor taken
      rw [writeEntries_eq taken, writeEntries_eq taken, List.foldlM_cons, List.foldlM_cons]
      cases written : library.set ⟨grid, tensor.cells⟩ entry.1 entry.2.1 entry.2.2 with
      | error fault => rfl
      | ok after =>
          obtain ⟨ownGrid, after⟩ := after
          obtain ⟨rfl, size⟩ := set_eq_ok written
          exact (writeEntries_eq (ofTensor_withCells taken size) entries).symm

/-- The matrix of a full tensor of rank 2 shares its cells. -/
theorem Lawful.sharesCells [Stored T] (lawful : library.Lawful) (full : tensor.Full)
    (sizes : tensor.shape.sizes = [rows, columns]) : library.SharesCells tensor rows columns := by
  obtain ⟨grid, taken, major⟩ := lawful.ofTensor full sizes
  have inside {row column : Nat} (rowBelow : row < rows) (columnBelow : column < columns) :
      Inside tensor.shape.sizes [row, column] := sizes ▸ .cons rowBelow (.cons columnBelow .nil)
  constructor
  case reads =>
    refine ⟨_, taken, major.rowCount, major.columnCount, fun row rowBelow column columnBelow => ?_⟩
    obtain ⟨element, found, read⟩ := full.read_eq (inside rowBelow columnBelow)
    rw [sizes, ordinal_pair] at found
    refine ⟨element, read, ?_⟩
    rw [major.entry_eq rowBelow columnBelow]
    exact MatrixOver.cellAt_eq_ok.mpr found
  case writes =>
    intro row rowBelow column columnBelow value
    have differs := full.differsAt_of_set (inside rowBelow columnBelow) value
    rw [sizes, ordinal_pair] at differs
    refine ⟨_, ?_, differs⟩
    have placed : library.place grid row column = .ok (row * columns + column) := by
      rw [place, if_pos ⟨major.rowCount.symm ▸ rowBelow, major.columnCount.symm ▸ columnBelow⟩]
      exact congrArg Except.ok (major.cell row rowBelow column columnBelow)
    rw [writeEntries_eq taken, List.foldlM_cons, set, placed]
    rfl
  case runs => exact writeEntries_cons tensor

end Cells

section Copies

/-- A source comes back from its matrix: with its elements under free axes, if it has them all and there
is room for them. -/
structure CopiesBack [Stored T] (library : MatrixLibrary Grid T) (source : Source T) : Prop where
  exists_iff : (∃ tensor, library.ofSource source >>= library.toTensor = .ok tensor) ↔
    (∀ index, Inside source.shape.sizes index → ∃ element, source.read index = .ok element) ∧
      ∃ count, source.shape.size = .ok count ∧ Buffer.bytes T count < Buffer.bound
  copied : ∀ tensor, library.ofSource source >>= library.toTensor = .ok tensor →
    tensor.shape = .ofFree source.shape.sizes ∧ tensor.Full ∧
      ∀ index, Inside source.shape.sizes index → ∃ element,
        source.read index = .ok element ∧ tensor.read index = .ok element

variable [Stored T] {source : Source T}

omit [Stored T] in
/-- The matrix of a source of rank 2 is that of its values. -/
theorem ofSource_eq (sizes : source.shape.sizes = [rows, columns]) :
    library.ofSource source =
      library.tabulate rows columns fun row column => source.read [row, column] := by
  obtain ⟨rowsFound, columnsFound⟩ := Shape.sizeAt_pair sizes
  rw [ofSource, rowsFound, columnsFound]
  rfl

/-- The tensor of a tabulated matrix is tabulated over its sizes from its entries. -/
theorem Lawful.toTensor_eq (lawful : library.Lawful) {value : (row column : Nat) → Except Fault T}
    {matrix : MatrixOver Grid T} (made : library.tabulate rows columns value = .ok matrix) :
    library.toTensor matrix =
      Tensor.tabulate .growable (.ofFree [rows, columns]) (Index.atPair (library.entry matrix)) := by
  obtain ⟨rowCount, columnCount, _⟩ := lawful.tabulated made
  rw [toTensor, rowCount, columnCount]

variable (lawful : library.Lawful) (sizes : source.shape.sizes = [rows, columns])
include lawful sizes

/-- What comes back from the matrix of a source reads its elements. -/
theorem Lawful.copied_reads (copied : library.ofSource source >>= library.toTensor = .ok tensor) :
    tensor.shape = .ofFree source.shape.sizes ∧ tensor.Full ∧
      ∀ index, Inside source.shape.sizes index → ∃ element,
        source.read index = .ok element ∧ tensor.read index = .ok element := by
  obtain ⟨matrix, made, copied⟩ := Checked.bind_eq_ok.mp copied
  rw [ofSource_eq sizes] at made
  rw [lawful.toTensor_eq made] at copied
  obtain ⟨shape, full, reads⟩ := Tensor.tabulate_eq_ok copied
  refine ⟨sizes ▸ shape, full, fun index inside => ?_⟩
  rw [sizes] at inside
  obtain ⟨row, rowBelow, column, columnBelow, rfl⟩ := inside_pair.mp inside
  obtain ⟨element, own, read⟩ := reads [row, column] inside
  obtain ⟨value, sourceRead, entry⟩ := (lawful.tabulated made).2.2 row rowBelow column columnBelow
  obtain rfl := Except.ok.inj (own.symm.trans entry)
  exact ⟨element, sourceRead, read⟩

/-- What comes back from the matrix of a source had room for its elements. -/
theorem Lawful.copied_room (copied : library.ofSource source >>= library.toTensor = .ok tensor) :
    ∃ count, source.shape.size = .ok count ∧ Buffer.bytes T count < Buffer.bound := by
  obtain ⟨matrix, made, copied⟩ := Checked.bind_eq_ok.mp copied
  rw [ofSource_eq sizes] at made
  rw [lawful.toTensor_eq made, Tensor.tabulate_eq] at copied
  obtain ⟨count, counted, copied⟩ := Checked.bind_eq_ok.mp copied
  obtain ⟨reserved, _⟩ := Checked.check_eq_ok.mp copied
  exact ⟨count, (congrArg Size.product sizes).trans counted, Buffer.reserve_eq_ok.mp reserved⟩

/-- A source that reads all its elements comes back from its matrix if there is room for them. -/
theorem Lawful.exists_copied {count : Nat}
    (reads : ∀ index, Inside source.shape.sizes index → ∃ element, source.read index = .ok element)
    (counted : source.shape.size = .ok count) (room : Buffer.bytes T count < Buffer.bound) :
    ∃ tensor, library.ofSource source >>= library.toTensor = .ok tensor := by
  have product : rows * columns = count := by
    simpa [sizes] using (source.shape.prod_of_size counted).1
  have values : ∀ row < rows, ∀ column < columns, ∃ element, source.read [row, column] = .ok element :=
    fun row rowBelow column columnBelow =>
      reads [row, column] (sizes ▸ .cons rowBelow (.cons columnBelow .nil))
  obtain ⟨matrix, made⟩ := lawful.exists_tabulate (product ▸ room) values
  obtain ⟨cells, collected⟩ := Source.exists_elements_atPair fun row rowBelow column columnBelow =>
    ((lawful.tabulated made).2.2 row rowBelow column columnBelow).imp fun _ found => found.2
  have size : (Shape.ofFree [rows, columns]).size = .ok count :=
    (congrArg Size.product sizes).symm.trans counted
  rw [ofSource_eq sizes, made]
  refine ⟨⟨.ofFree [rows, columns], ⟨.growable, cells⟩⟩, ?_⟩
  change library.toTensor matrix = _
  rw [lawful.toTensor_eq made, Tensor.tabulate_eq, size]
  exact Checked.check_eq_ok.mpr ⟨Buffer.reserve_eq_ok.mpr room,
    Checked.bind_eq_ok.mpr ⟨cells, collected, rfl⟩⟩

theorem Lawful.copiesBack : library.CopiesBack source := by
  refine ⟨⟨?_, ?_⟩, fun tensor => lawful.copied_reads sizes⟩
  · rintro ⟨tensor, copied⟩
    refine ⟨fun index inside => ?_, lawful.copied_room sizes copied⟩
    obtain ⟨element, read, _⟩ := (lawful.copied_reads sizes copied).2.2 index inside
    exact ⟨element, read⟩
  · rintro ⟨reads, count, counted, room⟩
    exact lawful.exists_copied sizes reads counted room

end Copies

section Products

variable [Element T] {left right : Tensor T}

/-- The product by way of matrices is the contraction over one pair of axes, with the same refusals. -/
structure MultipliesAs (library : MatrixLibrary Grid T) (left right : Tensor T) : Prop where
  same : library.product left right = left.source.contractAdjacent 1 right.source
  exists_iff : (∃ product, library.product left right = .ok product) ↔
    left.shape.sizeAt 1 = right.shape.sizeAt 0 ∧
      ∃ count, (left.shape.kept right.shape 1).size = .ok count ∧
        Buffer.bytes T count < Buffer.bound

/-- A product of matrices of some sizes is stored in zeros. -/
theorem product_eq {rows inner columns : Nat} (leftSizes : left.shape.sizes = [rows, inner])
    (rightSizes : right.shape.sizes = [inner, columns]) :
    library.product left right = (Tensor.zeros .growable (left.shape.kept right.shape 1) >>=
      fun output => library.byRows output.cells rows columns >>= fun target =>
        library.ofTensor left >>= fun leftMatrix => library.ofTensor right >>= fun rightMatrix =>
          library.multiply target leftMatrix rightMatrix >>= fun cells =>
            .ok (output.withCells cells)) := by
  have joined := Shape.contract_adjacent (show left.shape.sizes = [rows] ++ [inner] from leftSizes)
    (show right.shape.sizes = [inner] ++ [columns] from rightSizes)
  rw [product, show left.shape.contract right.shape 1 = _ from joined,
    (Shape.sizeAt_pair leftSizes).1, (Shape.sizeAt_pair rightSizes).2]
  rfl

/-- The cells of a row-major matrix that holds a product are those of the contraction. -/
theorem RowMajor.cells_eq (laws : SemiringLaws T) {rows inner columns : Nat} {product : Tensor T}
    {matrix : MatrixOver Grid T} (major : library.RowMajor matrix rows columns)
    (holds : library.Holds matrix rows columns fun row column =>
      ((List.range inner).map fun middle => left.cells.getD (row * inner + middle) 0 *
        right.cells.getD (middle * columns + column) 0).sum)
    (result : Tensor.MatrixProduct Update.add [rows] [inner] [columns] left right product) :
    matrix.cells = product.cells := by
  let ring := laws.toSemiring
  have productSize : product.cells.size = [rows, columns].prod :=
    result.full.size_cells.trans (congrArg List.prod result.sizes)
  have matrixSize : matrix.cells.size = [rows, columns].prod := major.size.trans (by simp)
  refine Array.ext_getElem? fun position => ?_
  by_cases below : position < [rows, columns].prod
  · obtain ⟨index, inside, rfl⟩ := exists_ordinal below
    obtain ⟨row, rowBelow, column, columnBelow, rfl⟩ := inside_pair.mp inside
    have entry := holds.entry row rowBelow column columnBelow
    have cell := result.cell row (by simpa using rowBelow) column (by simpa using columnBelow)
    rw [major.entry_eq rowBelow columnBelow, MatrixOver.cellAt_eq_ok] at entry
    simp only [List.prod_singleton] at cell
    rw [ordinal_pair, entry, cell]
    exact congrArg some (foldl_add_sum_zero _ _).symm
  · rw [Array.getElem?_eq_none (by omega), Array.getElem?_eq_none (by omega)]

/-- Into zeros of its shape the library stores the contraction. -/
theorem Lawful.product_of_zeros (lawful : library.Lawful) (stores : library.StoresProducts)
    (laws : SemiringLaws T) (leftFull : left.Full) (rightFull : right.Full)
    {rows inner columns : Nat} (leftSizes : left.shape.sizes = [rows, inner])
    (rightSizes : right.shape.sizes = [inner, columns]) {output : Tensor T}
    (zeros : Tensor.zeros .growable (left.shape.kept right.shape 1) = .ok output) :
    ∃ product, left.source.contractAdjacent 1 right.source = .ok product ∧
      library.product left right = .ok product := by
  have leftCut : left.source.shape.sizes = [rows] ++ [inner] := leftSizes
  have rightCut : right.source.shape.sizes = [inner] ++ [columns] := rightSizes
  have planned := Contraction.plan_adjacent [rows] [inner] [columns]
  rw [← leftCut, ← rightCut] at planned
  have leftReads := leftFull.reads
  have rightReads := rightFull.reads
  obtain ⟨cells, contracted, _⟩ := Source.contractAdjacentWith_of_zeros
    (Contraction.inWords_of_full leftFull rightFull planned) leftCut rightCut leftReads rightReads
    zeros
  have result := Tensor.matrixProduct_of_contracted leftFull rightFull leftCut rightCut contracted
  refine ⟨_, contracted, ?_⟩
  have outputSize : output.cells.size = rows * columns := by
    rw [(Tensor.filled_full zeros).size_cells, Tensor.shape_zeros zeros]
    exact (congrArg List.prod (Shape.sizes_kept leftCut rightCut)).trans (by simp)
  have word : rows * columns < Size.bound :=
    outputSize ▸ (Shape.prod_of_size (Tensor.filled_full zeros)).2
  obtain ⟨leftGrid, leftTaken, leftMajor⟩ := lawful.ofTensor leftFull leftSizes
  obtain ⟨rightGrid, rightTaken, rightMajor⟩ := lawful.ofTensor rightFull rightSizes
  obtain ⟨grid, target, major⟩ := lawful.byRows outputSize word
  obtain ⟨stored, multiplied, size, holds⟩ :=
    stores _ _ _ rows inner columns _ _ major.offers leftMajor.holds rightMajor.holds
  have storedMajor : library.RowMajor ⟨grid, stored⟩ rows columns :=
    ⟨major.rowCount, major.columnCount, major.cell, size.trans outputSize⟩
  obtain rfl : stored = cells := storedMajor.cells_eq laws holds result
  obtain ⟨count, _, _, rfl⟩ := Tensor.filled_eq_ok.mp zeros
  rw [product_eq leftSizes rightSizes, zeros]
  refine Checked.bind_eq_ok.mpr ⟨_, rfl, Checked.bind_eq_ok.mpr ⟨_, target, ?_⟩⟩
  refine Checked.bind_eq_ok.mpr ⟨_, leftTaken, Checked.bind_eq_ok.mpr ⟨_, rightTaken, ?_⟩⟩
  exact Checked.bind_eq_ok.mpr ⟨stored, multiplied, rfl⟩

/-- Without zeros of its shape neither the product nor the contraction is formed. -/
theorem multipliesAs_of_no_zeros {rows inner columns : Nat}
    (leftSizes : left.shape.sizes = [rows, inner])
    (rightSizes : right.shape.sizes = [inner, columns]) {fault : Fault}
    (zeros : (Tensor.zeros .growable (left.shape.kept right.shape 1) : Except Fault (Tensor T)) =
      .error fault) : library.MultipliesAs left right := by
  have refused : library.product left right = .error fault := by
    rw [product_eq leftSizes rightSizes, zeros]
    rfl
  have leftCut : left.source.shape.sizes = [rows] ++ [inner] := leftSizes
  have rightCut : right.source.shape.sizes = [inner] ++ [columns] := rightSizes
  have contracted : left.source.contractAdjacent 1 right.source = .error fault :=
    (Source.contractAdjacentWith_eq leftCut rightCut Update.add).trans (congrArg (· >>= _) zeros)
  refine ⟨refused.trans contracted.symm, iff_of_false ?_ ?_⟩
  · rintro ⟨product, made⟩
    cases refused.symm.trans made
  · rintro ⟨_, count, size, room⟩
    have reserved : StorageKind.growable.reserve T count = .ok () := Buffer.reserve_eq_ok.mpr room
    cases zeros.symm.trans (Tensor.filled_eq_ok.mpr ⟨count, size, reserved, rfl⟩)

/-- Inner sizes that differ are refused before there is a matrix. -/
theorem multipliesAs_of_apart (leftRank : left.shape.rank = 2)
    (apart : left.shape.sizeAt 1 ≠ right.shape.sizeAt 0) : library.MultipliesAs left right := by
  cases joined : left.shape.contract right.shape 1 with
  | ok shape => exact absurd (Shape.inner_of_contract leftRank joined) apart
  | error fault =>
      have refused : library.product left right = .error fault := by
        rw [product, joined]
        rfl
      have contracted : left.source.contractAdjacent 1 right.source = .error fault := by
        rw [Source.contractAdjacent, Source.contractAdjacentWith]
        exact congrArg (· >>= _) joined
      refine ⟨refused.trans contracted.symm, iff_of_false ?_ fun found => apart found.1⟩
      rintro ⟨product, made⟩
      cases refused.symm.trans made

/-- The product of full tensors of rank 2 by way of their matrices is their contraction. -/
theorem Lawful.multipliesAs (lawful : library.Lawful) (stores : library.StoresProducts)
    (laws : SemiringLaws T) (leftFull : left.Full) (rightFull : right.Full)
    (leftRank : left.shape.rank = 2) (rightRank : right.shape.rank = 2) :
    library.MultipliesAs left right := by
  by_cases agreed : left.shape.sizeAt 1 = right.shape.sizeAt 0
  case neg => exact multipliesAs_of_apart leftRank agreed
  case pos =>
    rw [← Shape.sizes_length] at leftRank rightRank
    obtain ⟨rows, inner, leftSizes⟩ := List.length_eq_two.mp leftRank
    obtain ⟨other, columns, rightSizes⟩ := List.length_eq_two.mp rightRank
    obtain rfl : inner = other := by
      rw [(Shape.sizeAt_pair leftSizes).2, (Shape.sizeAt_pair rightSizes).1] at agreed
      exact Except.ok.inj agreed
    cases zeros : (Tensor.zeros .growable (left.shape.kept right.shape 1) : Except Fault (Tensor T)) with
    | error fault => exact multipliesAs_of_no_zeros leftSizes rightSizes zeros
    | ok output =>
        obtain ⟨product, slow, fast⟩ :=
          lawful.product_of_zeros stores laws leftFull rightFull leftSizes rightSizes zeros
        obtain ⟨count, size, reserved, _⟩ := Tensor.filled_eq_ok.mp zeros
        exact ⟨fast.trans slow.symm, iff_of_true ⟨product, fast⟩
          ⟨agreed, count, size, Buffer.reserve_eq_ok.mp reserved⟩⟩

end Products

/-- Over a lawful library a full tensor of rank 2 shares its cells with its matrix and is multiplied as
by a contraction. -/
theorem bridges_tensors [Element T] (lawful : library.Lawful) :
    (∀ (tensor : Tensor T) (rows columns : Nat), tensor.Full →
      tensor.shape.sizes = [rows, columns] → library.SharesCells tensor rows columns) ∧
    (∀ source : Source T, source.shape.rank = 2 → library.CopiesBack source) ∧
    (RingLaws T → library.StoresProducts → ∀ left right : Tensor T, left.Full → right.Full →
      left.shape.rank = 2 → right.shape.rank = 2 → library.MultipliesAs left right) := by
  refine ⟨fun tensor rows columns full sizes => lawful.sharesCells full sizes, ?_, ?_⟩
  · intro source rank
    rw [← Shape.sizes_length] at rank
    obtain ⟨rows, columns, sizes⟩ := List.length_eq_two.mp rank
    exact lawful.copiesBack sizes
  · intro laws stores left right leftFull rightFull leftRank rightRank
    exact lawful.multipliesAs stores laws.toSemiringLaws leftFull rightFull leftRank rightRank

open scoped Integer in
/-- Two rows of three elements at their coordinates, a copied column-major view and a product with a
column. -/
theorem bridges_tensors_wide :
    let tensor : Tensor Int := .ofLiteral [2, 3] #[1, 2, 3, 4, 5, 6]
    let column : Tensor Int := ⟨.ofFree [3, 1], .growable, #[1, 0, -2]⟩
    let view : View Int := ⟨⟨.ofFree [3, 2], .columnMajor⟩, .plain, .ofCells tensor.cells⟩
    (∃ matrix, tensor.matrix = .ok matrix ∧ MatrixView.library.entry matrix 1 0 = .ok 4) ∧
    (∃ after, tensor.writeEntries [(1, 0, 9)] = .ok after ∧ after.read [1, 0] = .ok 9 ∧
      after.read [0, 1] = .ok 2) ∧
    (∃ matrix copy, MatrixView.ofSource view.source = .ok matrix ∧ matrix.toTensor = .ok copy ∧
      copy.read [2, 1] = .ok 6) ∧
    let product : Tensor Int := ⟨⟨[.fixed 2, .free 1]⟩, .growable, #[-5, -8]⟩
    tensor.matrixProduct column = .ok product ∧
      tensor.source.contractAdjacent 1 column.source = .ok product := by
  intro tensor column view
  obtain ⟨shares, copies, multiplies⟩ := bridges_tensors (MatrixView.library_lawful (T := Int))
  have tensorFull : tensor.Full := rfl
  have columnFull : column.Full := rfl
  refine ⟨?_, ?_, ?_, ?_⟩
  · obtain ⟨matrix, taken, _, _, entries⟩ := (shares tensor 2 3 tensorFull rfl).reads
    obtain ⟨element, read, entry⟩ := entries 1 (by decide) 0 (by decide)
    obtain rfl : 4 = element := Except.ok.inj read
    exact ⟨matrix, taken, entry⟩
  · obtain ⟨after, written, differs⟩ :=
      (shares tensor 2 3 tensorFull rfl).writes 1 (by decide) 0 (by decide) 9
    have other : Inside tensor.shape.sizes [0, 1] := .cons (by decide) (.cons (by decide) .nil)
    exact ⟨after, written, differs.own, differs.others [0, 1] other (by decide)⟩
  · let matrix : MatrixView Int := ⟨.byColumns 3 2, #[1, 2, 3, 4, 5, 6]⟩
    let copy : Tensor Int := ⟨.ofFree [3, 2], .growable, #[1, 4, 2, 5, 3, 6]⟩
    have taken : MatrixView.ofSource view.source = .ok matrix := rfl
    have made : matrix.toTensor = .ok copy := rfl
    have inside : Inside view.source.shape.sizes [2, 1] := .cons (by decide) (.cons (by decide) .nil)
    obtain ⟨element, read, same⟩ := ((copies view.source rfl).copied copy
      (Checked.bind_eq_ok.mpr ⟨matrix, taken, made⟩)).2.2 [2, 1] inside
    obtain rfl : 6 = element := Except.ok.inj read
    exact ⟨matrix, copy, taken, made, same⟩
  · have stores := MatrixView.library_storesProducts Integer.semiringLaws
    have multiplied := multiplies Integer.ringLaws stores tensor column tensorFull columnFull rfl rfl
    intro product
    have made : tensor.matrixProduct column = .ok product := rfl
    exact ⟨made, multiplied.same.symm.trans made⟩

end MatrixLibrary

end ShapedTensor

import ShapedTensor.MatrixLibrary

/-! One instance of the interface to a library of matrices, with which the bridge can be run. -/

namespace ShapedTensor

/-- A grid whose rows and columns lie at even distances. -/
structure StridedGrid where
  rows : Nat
  columns : Nat
  rowStride : Nat
  columnStride : Nat

namespace StridedGrid

/-- The grid whose columns follow each other. -/
def byColumns (rows columns : Nat) : StridedGrid := ⟨rows, columns, 1, rows⟩

def transpose (grid : StridedGrid) : StridedGrid :=
  ⟨grid.columns, grid.rows, grid.columnStride, grid.rowStride⟩

/-- The cell of an entry. -/
def cell (grid : StridedGrid) (row column : Nat) : Nat :=
  row * grid.rowStride + column * grid.columnStride

end StridedGrid

/-- A matrix over a strided grid. -/
abbrev MatrixView (T : Type) := MatrixOver StridedGrid T

namespace MatrixView

variable {T : Type}

def rows (matrix : MatrixView T) : Nat := matrix.grid.rows

def columns (matrix : MatrixView T) : Nat := matrix.grid.columns

/-- The column-major matrix of the values of a function. -/
def tabulate [Stored T] (rows columns : Nat) (value : (row column : Nat) → Except Fault T) :
    Except Fault (MatrixView T) := do
  Buffer.reserve T (rows * columns)
  let cells ← Source.elements
    ⟨.ofFree [columns, rows], Index.atPair fun column row => value row column⟩
  return ⟨.byColumns rows columns, cells⟩

variable [Element T]

/-- The entry of a product: the sum over the inner coordinate, from zero. -/
def productEntry (left right : MatrixView T) (row column : Nat) : Except Fault T :=
  (List.range left.columns).foldlM (fun total inner => do
    let leftEntry ← left.cellAt (left.grid.cell row inner)
    let rightEntry ← right.cellAt (right.grid.cell inner column)
    return total + leftEntry * rightEntry) 0

/-- Replaces the entries of a target by those of a product, row by row. -/
def multiply (target left right : MatrixView T) : Except Fault (Array T) :=
  Index.foldM [target.rows, target.columns] (fun cells => Index.atPair fun row column => do
    let value ← left.productEntry right row column
    return cells.setIfInBounds (target.grid.cell row column) value) target.cells

/-- The library of matrices over strided grids, which takes a buffer to have as many cells as the
grid. -/
def library : MatrixLibrary StridedGrid T where
  rows := StridedGrid.rows
  columns := StridedGrid.columns
  cell := StridedGrid.cell
  byColumns _ rows columns := .ok (.byColumns rows columns)
  transpose := StridedGrid.transpose
  tabulate := tabulate
  multiply := multiply

/-- The copy of a matrix as a tensor with free axes. -/
def toTensor (matrix : MatrixView T) : Except Fault (Tensor T) := library.toTensor matrix

/-- The copy of a source of rank 2 as a matrix. -/
def ofSource (source : Source T) : Except Fault (MatrixView T) := library.ofSource source

end MatrixView

namespace Tensor

variable {T : Type} [Element T]

/-- A tensor of rank 2 as a matrix over the same cells. -/
def matrix (tensor : Tensor T) : Except Fault (MatrixView T) := MatrixView.library.ofTensor tensor

/-- Writes entries of a tensor of rank 2 through its matrix. -/
def writeEntries (tensor : Tensor T) (entries : List (Nat × Nat × T)) : Except Fault (Tensor T) :=
  MatrixView.library.writeEntries tensor entries

/-- The product of two tensors of rank 2 by way of their matrices. -/
def matrixProduct (left right : Tensor T) : Except Fault (Tensor T) :=
  MatrixView.library.product left right

end Tensor

end ShapedTensor

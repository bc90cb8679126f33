import ShapedTensor.Contraction.Kernel

/-! A row-major tensor is the transpose of a column-major matrix over the same cells. -/

namespace ShapedTensor

/-- A matrix over a buffer: a grid, which knows the sizes and the cell of each entry, and the cells. -/
structure MatrixOver (Grid T : Type) where
  grid : Grid
  cells : Array T

/-- The cell at a position of the buffer. -/
def MatrixOver.cellAt {Grid T : Type} (matrix : MatrixOver Grid T) (position : Nat) :
    Except Fault T :=
  match matrix.cells[position]? with
  | some element => .ok element
  | none => .error (.positionPastEnd matrix.cells.size position)

/-- The calls of a library of matrices. -/
structure MatrixLibrary (Grid T : Type) where
  rows : Grid → Nat
  columns : Grid → Nat
  /-- The cell of an entry. -/
  cell : Grid → (row column : Nat) → Nat
  /-- The grid over a buffer of some length in which the columns follow each other. -/
  byColumns : (length rows columns : Nat) → Except Fault Grid
  transpose : Grid → Grid
  /-- A matrix of its own, of the values of a function. -/
  tabulate : (rows columns : Nat) → (value : (row column : Nat) → Except Fault T) →
    Except Fault (MatrixOver Grid T)
  /-- The buffer of a target whose entries are replaced by those of a product. -/
  multiply : (target left right : MatrixOver Grid T) → Except Fault (Array T)

/-- A function of two coordinates as one of an index of length 2. -/
def Index.atPair {α : Type} (value : (first second : Nat) → Except Fault α) :
    List Nat → Except Fault α
  | [first, second] => value first second
  | index => .error (.rankMismatch 2 index.length)

namespace MatrixLibrary

variable {Grid T : Type} (library : MatrixLibrary Grid T)

/-- The cell of an entry that the matrix has. -/
def place (grid : Grid) (row column : Nat) : Except Fault Nat :=
  if row < library.rows grid ∧ column < library.columns grid then .ok (library.cell grid row column)
  else .error (.outsideIndexSpace [row, column] [library.rows grid, library.columns grid])

def entry (matrix : MatrixOver Grid T) (row column : Nat) : Except Fault T := do
  let cell ← library.place matrix.grid row column
  matrix.cellAt cell

/-- The matrix with another value in one entry. -/
def set (matrix : MatrixOver Grid T) (row column : Nat) (value : T) :
    Except Fault (MatrixOver Grid T) := do
  let cell ← library.place matrix.grid row column
  return { matrix with cells := matrix.cells.setIfInBounds cell value }

/-- The matrix over a buffer in which the rows follow each other: the transpose of the one whose
columns do. -/
def byRows (cells : Array T) (rows columns : Nat) : Except Fault (MatrixOver Grid T) := do
  let grid ← library.byColumns cells.size columns rows
  return ⟨library.transpose grid, cells⟩

/-- A tensor of rank 2 as a matrix over the same cells. -/
def ofTensor (tensor : Tensor T) : Except Fault (MatrixOver Grid T) := do
  let rows ← tensor.shape.sizeAt 0
  let columns ← tensor.shape.sizeAt 1
  library.byRows tensor.cells rows columns

/-- Writes entries of a tensor of rank 2 through its matrix. -/
def writeEntries (tensor : Tensor T) (entries : List (Nat × Nat × T)) :
    Except Fault (Tensor T) := do
  let matrix ← library.ofTensor tensor
  let written ← entries.foldlM (fun matrix entry =>
    library.set matrix entry.1 entry.2.1 entry.2.2) matrix
  return tensor.withCells written.cells

/-- The copy of a matrix as a tensor with free axes. -/
def toTensor [Stored T] (matrix : MatrixOver Grid T) : Except Fault (Tensor T) :=
  Tensor.tabulate .growable (.ofFree [library.rows matrix.grid, library.columns matrix.grid])
    (Index.atPair (library.entry matrix))

/-- The copy of a source of rank 2 as a matrix. -/
def ofSource (source : Source T) : Except Fault (MatrixOver Grid T) := do
  let rows ← source.shape.sizeAt 0
  let columns ← source.shape.sizeAt 1
  library.tabulate rows columns fun row column => source.read [row, column]

/-- The product of two tensors of rank 2 by way of their matrices, into a tensor of zeros. -/
def product [Element T] (left right : Tensor T) : Except Fault (Tensor T) := do
  let shape ← left.shape.contract right.shape 1
  let rows ← left.shape.sizeAt 0
  let columns ← right.shape.sizeAt 1
  let output ← Tensor.zeros .growable shape
  let target ← library.byRows output.cells rows columns
  let leftMatrix ← library.ofTensor left
  let rightMatrix ← library.ofTensor right
  let cells ← library.multiply target leftMatrix rightMatrix
  return output.withCells cells

end MatrixLibrary

end ShapedTensor

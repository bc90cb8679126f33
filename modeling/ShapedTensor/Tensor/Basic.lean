import ShapedTensor.Tensor.Storage
import ShapedTensor.View.Basic

namespace ShapedTensor

/-- A shape with its own cells. -/
structure Tensor (T : Type) where
  shape : Shape
  storage : Storage T

namespace Tensor

variable {T : Type}

def cells (tensor : Tensor T) : Array T := tensor.storage.cells

def mapping (tensor : Tensor T) : Mapping := ⟨tensor.shape, .rowMajor⟩

/-- The same shape over other cells. -/
def withCells (tensor : Tensor T) (cells : Array T) : Tensor T :=
  { tensor with storage := { tensor.storage with cells } }

/-- The tensor with one value everywhere. -/
def filled [Stored T] (kind : StorageKind) (shape : Shape) (value : T) :
    Except Fault (Tensor T) := do
  let count ← shape.size
  let storage ← Storage.filled kind count value
  return ⟨shape, storage⟩

/-- The tensor of zeros. -/
def zeros [Stored T] [Zero T] (kind : StorageKind) (shape : Shape) : Except Fault (Tensor T) :=
  filled kind shape 0

/-- The tensor with the given cells, as many as the shape has elements. -/
def ofCells (kind : StorageKind) (shape : Shape) (cells : Array T) : Except Fault (Tensor T) := do
  let count ← shape.size
  if cells.size = count then
    let storage ← Storage.ofCells kind cells
    return ⟨shape, storage⟩
  else throw (.elementCount count cells.size)

/-- The tensor of what an action gives at each index, with room for the elements before the first
call. -/
def generate {m : Type → Type} [Monad m] [MonadLiftT (Except Fault) m] [Stored T]
    (kind : StorageKind) (shape : Shape) (entry : List Nat → m T) : m (Tensor T) := do
  let count ← shape.size
  Buffer.reserve T count
  let cells ← Index.collectM shape.sizes entry
  let storage ← Storage.ofCells kind cells
  return ⟨shape, storage⟩

/-- The tensor whose element at each index is the value of a function there. -/
def tabulate [Stored T] (kind : StorageKind) (shape : Shape) (entry : List Nat → Except Fault T) :
    Except Fault (Tensor T) :=
  generate kind shape entry

/-- The copy of a source under a pattern with the same sizes. -/
def ofSource [Stored T] (kind : StorageKind) (pattern : Pattern) (source : Source T) :
    Except Fault (Tensor T) := do
  let shape ← source.shape.convert pattern
  let count ← shape.size
  Buffer.reserve T count
  let cells ← source.elements
  let storage ← Storage.ofCells kind cells
  return ⟨shape, storage⟩

/-- The tensor of the cells of an array literal, whose axes are all fixed. -/
def ofLiteral (sizes : List Nat) (cells : Array T) : Tensor T :=
  ⟨⟨sizes.map Axis.fixed⟩, ⟨.inline cells.size, cells⟩⟩

/-- The rank-0 tensor of a value. -/
def scalar (value : T) : Tensor T := ⟨.scalar, ⟨.growable, #[value]⟩⟩

/-- The cell at a position. -/
def cellAt (tensor : Tensor T) (position : Nat) : Except Fault T :=
  match tensor.cells[position]? with
  | some element => .ok element
  | none => .error (.positionPastEnd tensor.cells.size position)

/-- The element of a rank-0 tensor. -/
def value (tensor : Tensor T) : Except Fault T := tensor.cellAt 0

/-- The element at an index; only the cells limit it. -/
def read (tensor : Tensor T) (index : List Nat) : Except Fault T := do
  let place ← tensor.mapping.offset index
  tensor.cellAt place

def source (tensor : Tensor T) : Source T := ⟨tensor.shape, tensor.read⟩

/-- The tensor as a view of its cells. -/
def view (tensor : Tensor T) : View T := ⟨tensor.mapping, .plain, .ofCells tensor.cells⟩

/-- The tensor under another shape, with a value in the cells that it did not have. -/
def resize [Stored T] (tensor : Tensor T) (shape : Shape) (value : T) :
    Except Fault (Tensor T) := do
  let count ← shape.size
  let storage ← tensor.storage.resize count value
  return ⟨shape, storage⟩

end Tensor

/-- The copy of a source under its own pattern. -/
def Source.copy {T : Type} [Stored T] (source : Source T) : Except Fault (Tensor T) :=
  Tensor.ofSource .growable source.shape.pattern source

end ShapedTensor

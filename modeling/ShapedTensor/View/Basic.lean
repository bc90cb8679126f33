import ShapedTensor.Layout.Conversion
import ShapedTensor.Source
import ShapedTensor.View.Accessor

namespace ShapedTensor

/-- A mapping over a buffer with a way to read it. -/
structure View (T : Type) where
  mapping : Mapping
  accessor : Accessor
  handle : Handle T

namespace View

variable {T : Type}

/-- Refuses a buffer that is shorter than the span of a mapping. -/
def checkSpan (mapping : Mapping) (length : Nat) : Except Fault Unit := do
  let span ← mapping.span
  if length < span then throw (.elementCount span length)

/-- The view of a buffer that is long enough for the mapping. -/
def ofCells (mapping : Mapping) (cells : Array T) : Except Fault (View T) := do
  checkSpan mapping cells.size
  return ⟨mapping, .plain, .ofCells cells⟩

/-- The row-major view of a sequence that is long enough for the shape. -/
def ofSequence (shape : Shape) (items : Array T) : Except Fault (View T) := do
  checkSpan ⟨shape, .rowMajor⟩ items.size
  return ⟨⟨shape, .rowMajor⟩, .sequence, .ofCells items⟩

/-- The conjugated row-major view of a buffer of any length. -/
def conjugated (shape : Shape) (cells : Array T) : View T :=
  ⟨⟨shape, .rowMajor⟩, .conjugating, .ofCells cells⟩

/-- A view that reads zero everywhere and has no buffer. -/
def zeros (shape : Shape) : View T := ⟨⟨shape, .broadcast⟩, .zero, .ofCells #[]⟩

def shape (view : View T) : Shape := view.mapping.shape

variable [Element T]

/-- The element at an index; only the buffer limits it. -/
def read (view : View T) (index : List Nat) : Except Fault T := do
  let place ← view.mapping.offset index
  view.accessor.read view.handle place

def source (view : View T) : Source T := ⟨view.shape, view.read⟩

/-- The view of the elements whose first coordinate is `position`. -/
def slice (view : View T) (position : Nat) : Except Fault (View T) := do
  let size ← view.shape.sizeAt 0
  if position < size then
    let stride ← view.mapping.stride 0
    let distance ← Size.mul stride position
    let handle ← view.accessor.advance view.handle distance
    let mapping ← view.mapping.tail
    return { view with mapping, handle }
  else throw (.sliceOutOfRange position size)

/-- The view with its two axes exchanged. -/
def transpose (view : View T) : Except Fault (View T) := do
  let mapping ← view.mapping.transpose
  return { view with mapping }

/-- The view of the conjugate transpose of a plainly read one. -/
def adjoint (view : View T) : Except Fault (View T) := do
  let mapping ← view.mapping.transpose
  return { view with mapping, accessor := .conjugating }

/-- One move from a view to another of the same buffer. -/
inductive Move where
  | slice (position : Nat)
  | transpose
  | adjoint

def move (view : View T) : Move → Except Fault (View T)
  | .slice position => view.slice position
  | .transpose => view.transpose
  | .adjoint => view.adjoint

/-- The view at the end of a path. -/
def walk (view : View T) (path : List Move) : Except Fault (View T) := path.foldlM move view

/-- The view as text, for elements of the named type. -/
def text (view : View T) (element : String) : String :=
  "TensorSpan \x7b mapping: " ++ view.mapping.text ++ ", accessor: " ++ view.accessor.text element ++
    ", .. \x7d"

end View

end ShapedTensor

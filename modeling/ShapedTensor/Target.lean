import ShapedTensor.Tensor.Basic

/-! The buffer is the state of an action, so what was written before a fault stays written. -/

namespace ShapedTensor

/-- An action on a buffer. -/
abbrev Writing (T : Type) := EStateM Fault (Array T)

instance {σ : Type} : MonadLift (Except Fault) (EStateM Fault σ) where
  monadLift
    | .ok value => pure value
    | .error fault => throw fault

/-- Replaces the element at a position of a window by its image. -/
def Window.modifyAt {T : Type} (window : Window) (position : Nat) (change : T → T) :
    Writing T Unit := do
  let cells ← get
  let cell ← window.cell cells.size position
  modify (·.modify cell change)

def Window.write {T : Type} (window : Window) (position : Nat) (value : T) : Writing T Unit :=
  window.modifyAt position fun _ => value

/-- Replaces the element at a position behind the first `count` cells of a window, which is lent out
for this write only. -/
def Window.writeBehind {T : Type} (window : Window) (count position : Nat) (value : T) :
    Writing T Unit := do
  let cells ← get
  let rest ← window.advance cells.size count
  rest.write position value

/-- A mapping over a window of the buffer that is written. -/
structure Target where
  mapping : Mapping
  window : Window

namespace Target

variable {T : Type}

/-- The target over a whole buffer of any length. -/
def whole (mapping : Mapping) : Target := ⟨mapping, .whole⟩

/-- The target over a buffer of `length` cells that is long enough for the mapping. -/
def ofLength (mapping : Mapping) (length : Nat) : Except Fault Target := do
  View.checkSpan mapping length
  return whole mapping

def shape (target : Target) : Shape := target.mapping.shape

/-- The cell of the buffer that belongs to an index. -/
def cell (target : Target) (index : List Nat) : Writing T Nat := do
  let place ← target.mapping.offset index
  let cells ← get
  target.window.cell cells.size place

/-- Replaces the element at an index by its image. -/
def modifyAt (target : Target) (index : List Nat) (change : T → T) : Writing T Unit := do
  let place ← target.mapping.offset index
  target.window.modifyAt place change

def write (target : Target) (index : List Nat) (value : T) : Writing T Unit :=
  target.modifyAt index fun _ => value

/-- The target as a view of the cells that the buffer holds now. -/
def view (target : Target) (cells : Array T) : View T :=
  ⟨target.mapping, .plain, ⟨cells, target.window⟩⟩

/-- The target of the elements whose first coordinate is `position`. -/
def slice (target : Target) (size position : Nat) : Except Fault Target := do
  let extent ← target.shape.sizeAt 0
  if position < extent then
    let mapping ← target.mapping.tail
    let stride ← target.mapping.stride 0
    let distance ← Size.mul stride position
    let window ← target.window.advance size distance
    return ⟨mapping, window⟩
  else throw (.sliceOutOfRange position extent)

/-- The cell of an index and the element in it. -/
def held (target : Target) (index : List Nat) : Writing T (Nat × T) := do
  let place ← target.mapping.offset index
  let cells ← get
  let cell := target.window.start + place
  match cells[cell]? with
  | some own => return (cell, own)
  | none => throw (.positionPastEnd (target.window.length cells.size) place)

section Calls

variable {m : Type → Type} [Monad m] [MonadLiftT (Writing T) m]

/-- Calls a function with the element at an index and puts the answer in its place. -/
def callAt (target : Target) (index : List Nat) (call : T → m T) : m Unit := do
  let (cell, own) ← (target.held index : Writing T (Nat × T))
  let answer ← call own
  (modify (·.setIfInBounds cell answer) : Writing T Unit)

/-- Calls a function with every element in row-major order and puts each answer in its place. -/
def mapM (target : Target) (call : T → m T) : m Unit :=
  Index.forM target.shape.sizes fun index => target.callAt index call

/-- Calls a function with every element and that of a source of the same sizes at its index, and puts
each answer in its place. -/
def zipM (target : Target) (call : T → T → m T) (source : Source T) : m Unit := do
  if target.shape.sameSizes source.shape then
    Index.forM target.shape.sizes fun index => do
      let other ← (liftM (source.read index) : Writing T T)
      target.callAt index fun own => call own other
  else (throw (.shapesDiffer target.shape source.shape) : Writing T Unit)

end Calls

/-- Replaces every element by its image. -/
def map (target : Target) (change : T → T) : Writing T Unit :=
  target.mapM fun own => pure (change own)

def fill (target : Target) (value : T) : Writing T Unit := target.map fun _ => value

/-- Replaces every element by its combination with the element of a source. -/
def zip (target : Target) (change : T → T → T) (source : Source T) : Writing T Unit :=
  target.zipM (fun own other => pure (change own other)) source

/-- The target as text, for elements of the named type. -/
def text (target : Target) (element : String) : String :=
  "TensorSpanMut \x7b mapping: " ++ target.mapping.text ++ ", accessor: " ++
    Accessor.plain.text element ++ ", .. \x7d"

end Target

namespace Tensor

variable {T : Type}

/-- The target that a tensor offers over its own cells. -/
def target (tensor : Tensor T) : Target := .whole tensor.mapping

/-- Runs an action on the cells of a tensor. -/
def writing {α : Type} (action : Target → Writing T α) : EStateM Fault (Tensor T) α := fun tensor =>
  match action tensor.target tensor.cells with
  | .ok result cells => .ok result (tensor.withCells cells)
  | .error fault cells => .error fault (tensor.withCells cells)

/-- The tensor after an action on its cells, if that succeeds. -/
def written (tensor : Tensor T) (action : Target → Writing T Unit) : Except Fault (Tensor T) :=
  match action tensor.target tensor.cells with
  | .ok _ cells => .ok (tensor.withCells cells)
  | .error fault _ => .error fault

/-- The tensor of the images of all elements, formed in its own cells. -/
def map (tensor : Tensor T) (change : T → T) : Except Fault (Tensor T) :=
  tensor.written (Target.map · change)

end Tensor

end ShapedTensor

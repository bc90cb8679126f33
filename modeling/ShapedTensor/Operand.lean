import ShapedTensor.Edit
import ShapedTensor.Norm
import ShapedTensor.Product
import ShapedTensor.ZeroTensor

/-! An operation is the one on sources unless the kind of operand has its own. -/

namespace ShapedTensor

/-- A value that can be read. -/
inductive Operand (T : Type) where
  | ofTensor (tensor : Tensor T)
  | ofView (view : View T)
  | ofZero (zero : ZeroTensor T)

namespace Operand

variable {T R : Type} [Element T]

def source : Operand T → Source T
  | .ofTensor tensor => tensor.source
  | .ofView view => view.source
  | .ofZero zero => zero.source

def shape (operand : Operand T) : Shape := operand.source.shape

def mapping : Operand T → Mapping
  | .ofTensor tensor => tensor.mapping
  | .ofView view => view.mapping
  | .ofZero zero => zero.mapping

/-- The whole operand as a view. -/
def asView : Operand T → View T
  | .ofTensor tensor => tensor.view
  | .ofView view => view
  | .ofZero zero => zero.view

/-- The printed operand. -/
def text [ElementText T] : Operand T → Except Fault String
  | .ofZero zero => zero.text
  | operand => operand.source.text

/-- The image of every element of what is not zero throughout; a zero tensor stays itself. -/
def map (byElement : Source T → Except Fault (Tensor T)) : Operand T → Except Fault (Operand T)
  | .ofZero zero => .ok (.ofZero zero)
  | operand => .ofTensor <$> byElement operand.source

/-- The sum of the squared lengths of the elements. -/
def sumAbsSq [RealElement R] [Magnitude T R] : Operand T → Except Fault R
  | .ofTensor tensor => .ok tensor.sumAbsSq
  | .ofView view => view.source.sumAbsSq
  | .ofZero _ => .ok 0

/-- The greatest length of an element. -/
def maxAbs [RealElement R] [Magnitude T R] : Operand T → Except Fault R
  | .ofZero _ => .ok 0
  | operand => operand.source.maxAbs

def add : Operand T → Source T → Except Fault (Tensor T)
  | .ofZero zero, right => zero.add right
  | left, right => left.source.add right

def sub : Operand T → Source T → Except Fault (Tensor T)
  | .ofZero zero, right => zero.sub right
  | left, right => left.source.sub right

/-- The product over one pair of axes: a zero tensor if the left operand is one, or if the right one
is and the left owns its cells. -/
def mul : Operand T → Operand T → Except Fault (Operand T)
  | .ofZero zero, right => .ofZero <$> zero.contractAdjacent 1 right.source
  | .ofTensor tensor, .ofZero zero => .ofZero <$> zero.mulLeft tensor.source
  | left, right => .ofTensor <$> left.source.mul right.source

def inner : Operand T → Source T → Except Fault T
  | .ofZero zero, right => zero.inner right
  | left, right => left.source.inner right

def bilinear : Operand T → (leftVector rightVector : Source T) → Except Fault T
  | .ofZero _, _, _ => .ok 0
  | matrix, leftVector, rightVector => matrix.source.bilinear leftVector rightVector

/-- A matrix-vector product. -/
def matVec (form : MatrixForm) (accumulation : Accumulation T) : Operand T → (vector : Source T) →
    Target → Writing T Unit
  | .ofZero _, _, target => ZeroTensor.matVec accumulation target
  | matrix, vector, target => matrix.source.matVec form accumulation vector target

/-- Equality of sizes and elements. -/
def equals : Operand T → Operand T → Except Fault Bool
  | .ofZero left, .ofZero right => .ok (left.shape.sameSizes right.shape)
  | .ofZero left, right => left.equals right.source
  | left, .ofZero right => right.equals left.source
  | left, right => left.source.equals right.source

end Operand

/-- A value that can be written: a tensor, or a target over a buffer. -/
inductive Writable (T : Type) where
  | ofTensor (tensor : Tensor T)
  | ofBuffer (target : Target) (cells : Array T)

namespace Writable

variable {T R : Type}

def target : Writable T → Target
  | .ofTensor tensor => tensor.target
  | .ofBuffer target _ => target

def cells : Writable T → Array T
  | .ofTensor tensor => tensor.cells
  | .ofBuffer _ cells => cells

def withCells : Writable T → Array T → Writable T
  | .ofTensor tensor, cells => .ofTensor (tensor.withCells cells)
  | .ofBuffer target _, cells => .ofBuffer target cells

/-- What is read of a writable value now. -/
def operand : Writable T → Operand T
  | .ofTensor tensor => .ofTensor tensor
  | .ofBuffer target cells => .ofView (target.view cells)

/-- Runs an action on the cells of a writable value. -/
def writing {α : Type} (action : Target → Writing T α) : EStateM Fault (Writable T) α :=
  fun writable =>
    match action writable.target writable.cells with
    | .ok result cells => .ok result (writable.withCells cells)
    | .error fault cells => .error fault (writable.withCells cells)

/-- Runs an edit on a tensor; a buffer has no shape of its own to change and stays as it is. -/
def applyToTensor [Element T] (edit : TensorEdit T) : EStateM Fault (Writable T) Unit :=
  fun writable =>
    match writable with
    | .ofTensor tensor =>
        match Tensor.apply edit tensor with
        | .ok result tensor => .ok result (.ofTensor tensor)
        | .error fault tensor => .error fault (.ofTensor tensor)
    | .ofBuffer target cells => .ok () (.ofBuffer target cells)

/-- Runs an edit; a tensor is filled cell by cell. -/
def apply [Element T] (edit : Edit T) : EStateM Fault (Writable T) Unit := do
  match edit, ← get with
  | .fill value, .ofTensor _ => applyToTensor (.refill value)
  | edit, _ => writing (·.apply edit)

/-- The target reached by fixing the first coordinates one after the other. -/
def sliceAlong (writable : Writable T) (path : List Nat) : Except Fault Target :=
  path.foldlM (fun target position => target.slice writable.cells.size position) writable.target

end Writable

end ShapedTensor

import ShapedTensor.Buffer

namespace ShapedTensor

/-- Where the cells of a tensor are kept. -/
inductive StorageKind where
  | growable
  | inline (count : Nat)
  deriving DecidableEq

/-- Inline storage takes its own number of elements and no other. -/
def StorageKind.check : StorageKind → (given : Nat) → Except Fault Unit
  | growable, _ => .ok ()
  | inline count, given => if given = count then .ok () else .error (.inlineCount count given)

/-- Room for elements: a buffer for growable storage, while inline storage has its own. -/
def StorageKind.reserve (T : Type) [Stored T] : StorageKind → (given : Nat) → Except Fault Unit
  | growable, given => Buffer.reserve T given
  | inline count, given => (inline count).check given

/-- The cells of a tensor in row-major order. -/
structure Storage (T : Type) where
  kind : StorageKind
  cells : Array T

namespace Storage

variable {T : Type}

def ofCells (kind : StorageKind) (cells : Array T) : Except Fault (Storage T) := do
  kind.check cells.size
  return ⟨kind, cells⟩

/-- Storage of `count` copies of a value. -/
def filled [Stored T] (kind : StorageKind) (count : Nat) (value : T) :
    Except Fault (Storage T) := do
  kind.reserve T count
  return ⟨kind, Array.replicate count value⟩

/-- Storage with another value in one cell. -/
def set (storage : Storage T) (position : Nat) (value : T) : Except Fault (Storage T) :=
  if position < storage.cells.size then
    .ok { storage with cells := storage.cells.setIfInBounds position value }
  else .error (.positionPastEnd storage.cells.size position)

/-- The first cells up to `count`, and copies of a value for those that are missing. -/
def resized (cells : Array T) (count : Nat) (value : T) : Array T :=
  cells.take count ++ Array.replicate (count - cells.size) value

/-- Storage of another number of cells; inline storage keeps its own. -/
def resize [Stored T] (storage : Storage T) (count : Nat) (value : T) :
    Except Fault (Storage T) := do
  storage.kind.reserve T count
  return { storage with cells := resized storage.cells count value }

/-- Equality cell by cell. -/
def equals [BEq T] (left right : Storage T) : Bool := left.cells == right.cells

/-- Growable storage as text. -/
def text [ElementText T] (storage : Storage T) : String :=
  Text.record "Dense" [("data", Text.bracketed (storage.cells.toList.map ElementText.diagnostic))]

end Storage

end ShapedTensor

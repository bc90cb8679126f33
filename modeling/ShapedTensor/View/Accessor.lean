import ShapedTensor.Fault
import ShapedTensor.Element.Basic

namespace ShapedTensor

/-- The part of a buffer that begins at `start`. -/
structure Window where
  start : Nat

namespace Window

/-- The window on a whole buffer. -/
def whole : Window := ⟨0⟩

/-- The number of cells in a window on a buffer of `size` cells. -/
def length (window : Window) (size : Nat) : Nat := size - window.start

/-- The cell of the buffer at a position of the window. -/
def cell (window : Window) (size position : Nat) : Except Fault Nat :=
  if window.start + position < size then .ok (window.start + position)
  else .error (.positionPastEnd (window.length size) position)

/-- The window without its first `count` cells. -/
def advance (window : Window) (size count : Nat) : Except Fault Window :=
  if count ≤ window.length size then .ok ⟨window.start + count⟩
  else .error (.startPastEnd count (window.length size))

end Window

/-- A buffer read through a window. -/
structure Handle (T : Type) where
  cells : Array T
  window : Window

namespace Handle

variable {T : Type}

/-- The handle on a whole buffer. -/
def ofCells (cells : Array T) : Handle T := ⟨cells, .whole⟩

/-- The next item of a sequence and the sequence behind it, which stays behind its last item. -/
def next (handle : Handle T) : Option T × Handle T :=
  match handle.cells[handle.window.start]? with
  | some item => (some item, { handle with window := ⟨handle.window.start + 1⟩ })
  | none => (none, handle)

/-- The item of a sequence after `count` others and the sequence behind it. -/
def nth (handle : Handle T) : Nat → Option T × Handle T
  | 0 => handle.next
  | count + 1 =>
      match handle.next with
      | (some _, rest) => rest.nth count
      | (none, rest) => (none, rest)

end Handle

/-- How the cells of a handle are read. -/
inductive Accessor where
  | plain
  | conjugating
  | sequence
  | zero
  deriving DecidableEq

namespace Accessor

variable {T : Type} [Element T]

/-- The element at a position of the window. -/
def read (accessor : Accessor) (handle : Handle T) (position : Nat) : Except Fault T :=
  match accessor with
  | zero => .ok 0
  | sequence =>
      match (handle.nth position).1 with
      | some element => .ok element
      | none => .error (.sequenceExhausted position)
  | plain =>
      match handle.cells[handle.window.start + position]? with
      | some element => .ok element
      | none => .error (.positionPastEnd (handle.window.length handle.cells.size) position)
  | conjugating =>
      match handle.cells[handle.window.start + position]? with
      | some element => .ok (Element.conj element)
      | none => .error (.positionPastEnd (handle.window.length handle.cells.size) position)

/-- The handle without its first `count` positions; a sequence may run out, zeros never do. -/
def advance (accessor : Accessor) (handle : Handle T) (count : Nat) : Except Fault (Handle T) :=
  match accessor with
  | zero => .ok handle
  | sequence => .ok (if 0 < count then (handle.nth (count - 1)).2 else handle)
  | plain | conjugating => do
      let window ← handle.window.advance handle.cells.size count
      return { handle with window }

/-- The accessor as text, for elements of the named type. -/
def text (accessor : Accessor) (element : String) : String :=
  let marked (name : String) :=
    Text.record name [("_marker", "PhantomData<" ++ element ++ ">")]
  match accessor with
  | plain => marked "DefaultAccessor"
  | conjugating => marked "ConjAccessor"
  | sequence => "IteratorAccessor"
  | zero => marked "ZeroAccessor"

end Accessor

end ShapedTensor

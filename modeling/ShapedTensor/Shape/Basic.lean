import ShapedTensor.Text

namespace ShapedTensor

/-- One axis of a shape. -/
inductive Axis where
  | fixed (size : Nat)
  | free (size : Nat)
  deriving DecidableEq

namespace Axis

def size : Axis → Nat
  | fixed size => size
  | free size => size

/-- The size of a fixed axis. -/
def fixedSize? : Axis → Option Nat
  | fixed size => some size
  | free _ => none

/-- Two axes of one size join to a fixed axis as soon as one of them is fixed. -/
def join : Axis → Axis → Axis
  | free _, right => right
  | left, _ => left

def text : Axis → String
  | fixed _ => "Const"
  | free size => size.repr

end Axis

/-- What a shape fixes in advance: one entry for each axis, a size or nothing. -/
abbrev Pattern := List (Option Nat)

/-- The axes of a tensor. -/
structure Shape where
  axes : List Axis
  deriving DecidableEq

namespace Shape

def rank (shape : Shape) : Nat := shape.axes.length

def sizes (shape : Shape) : List Nat := shape.axes.map Axis.size

def pattern (shape : Shape) : Pattern := shape.axes.map Axis.fixedSize?

/-- The sizes of the free axes, in order. -/
def freeSizes (shape : Shape) : List Nat :=
  shape.axes.filterMap fun axis => if axis.fixedSize?.isNone then some axis.size else none

def freeRank (shape : Shape) : Nat := shape.freeSizes.length

def isFixed (shape : Shape) : Bool := shape.freeRank == 0

/-- Equality of rank and sizes, whatever the patterns. -/
def sameSizes (left right : Shape) : Bool := left.sizes == right.sizes

/-- An index lies in the shape when it has one coordinate below the size of each axis. -/
def contains (shape : Shape) (index : List Nat) : Bool :=
  index.length == shape.rank && (index.zip shape.sizes).all fun entry => decide (entry.1 < entry.2)

def text (shape : Shape) : String := Text.tuple (shape.axes.map Axis.text)

@[simp] theorem sizes_length (shape : Shape) : shape.sizes.length = shape.rank := by
  simp [sizes, rank]

@[simp] theorem pattern_length (shape : Shape) : shape.pattern.length = shape.rank := by
  simp [pattern, rank]

theorem sameSizes_iff (left right : Shape) :
    left.sameSizes right = true ↔ left.sizes = right.sizes := by
  simp [sameSizes]

end Shape

end ShapedTensor

import ShapedTensor.Tensor.Basic

namespace ShapedTensor

/-- Lists nested to a depth. -/
def Nested (T : Type) : (depth : Nat) → Type
  | 0 => T
  | depth + 1 => List (Nested T depth)

namespace Nested

variable {T : Type}

/-- The lengths of the first list of each level, as far as one exists. -/
def lengths : (depth : Nat) → Nested T depth → List Nat
  | 0, _ => []
  | depth + 1, (items : List (Nested T depth)) =>
      items.length :: match items with
        | [] => []
        | first :: _ => lengths depth first

/-- Appends the elements to an array; each list has to have the size of its axis. -/
def flatten : (depth axis : Nat) → (sizes : List Nat) → Nested T depth → Array T →
    Except Fault (Array T)
  | 0, _, _, element, elements => .ok (elements.push element)
  | depth + 1, axis, sizes, (items : List (Nested T depth)), elements =>
      let size := sizes.headD 0
      if items.length = size then
        items.foldlM (fun elements item => flatten depth (axis + 1) sizes.tail item elements)
          elements
      else .error (.listLength axis size items.length)

/-- The sizes of the axes: those that lists have, and below an empty list the fixed ones or 0. -/
def sizesUnder : Pattern → (axis : Nat) → (reached : List Nat) → Except Fault (List Nat)
  | [], _, _ => .ok []
  | entry :: pattern, axis, [] => do
      let sizes ← sizesUnder pattern (axis + 1) []
      return entry.getD 0 :: sizes
  | entry :: pattern, axis, length :: reached =>
      let size := entry.getD length
      if size = length then do
        let sizes ← sizesUnder pattern (axis + 1) reached
        return size :: sizes
      else .error (.listLength axis size length)

end Nested

/-- The tensor of a nested list under a pattern. -/
def Tensor.ofNested {T : Type} [Stored T] (kind : StorageKind) (pattern : Pattern) (depth : Nat)
    (list : Nested T depth) : Except Fault (Tensor T) :=
  if depth = pattern.length then do
    let sizes ← Nested.sizesUnder pattern 0 (Nested.lengths depth list)
    let count ← Size.product sizes
    Buffer.reserve T count
    let cells ← Nested.flatten depth 0 sizes list #[]
    let shape ← Shape.ofSizes pattern sizes
    Tensor.ofCells kind shape cells
  else .error (.nestingDepth pattern.length depth)

end ShapedTensor

import ShapedTensor.Source
import ShapedTensor.Text

/-! All axes print through one index, in which an axis sets no coordinate but its own. -/

namespace ShapedTensor

/-- What has been written, and the shared index. -/
structure Printing where
  written : String
  index : List Nat

namespace Printing

def write (printing : Printing) (text : String) : Printing :=
  { printing with written := printing.written ++ text }

/-- Sets the coordinate of an axis. -/
def move (printing : Printing) (axis position : Nat) : Printing :=
  { printing with index := printing.index.set axis position }

end Printing

namespace Source

variable {T : Type} [ElementText T]

/-- Writes the elements under the coordinates of the index before an axis, over the sizes from this axis
on. -/
def writeAxis (source : Source T) :
    (axis : Nat) → (sizes : List Nat) → Printing → Except Fault Printing
  | _, [], printing => do
      let element ← source.read printing.index
      return printing.write (ElementText.display element)
  | axis, size :: sizes, printing => do
      let printing ← Index.countM (fun (printing : Printing) position =>
        let separated := if 0 < position then printing.write ", " else printing
        writeAxis source (axis + 1) sizes (separated.move axis position)) 0 size (printing.write "[")
      return printing.write "]"

/-- The printed tensor. -/
def text (source : Source T) : Except Fault String :=
  let rank := source.shape.rank
  if 3 < rank then .ok (s!"Tensor<{rank}>" ++ Text.numbers source.shape.sizes)
  else
    let sizes := source.shape.sizes
    Printing.written <$> source.writeAxis 0 sizes ⟨"", sizes.map fun _ => 0⟩

end Source

end ShapedTensor

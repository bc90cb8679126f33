import ShapedTensor.Display
import ShapedTensor.Elementwise
import ShapedTensor.MatVec

namespace ShapedTensor

/-- A tensor whose elements are all zero. -/
structure ZeroTensor (T : Type) where
  shape : Shape

namespace ZeroTensor

variable {T : Type} [Element T]

/-- The zero tensor that is given its value, which has to be zero. -/
def ofValue [ElementText T] (shape : Shape) (value : T) : Except Fault (ZeroTensor T) :=
  if value == 0 then .ok ⟨shape⟩ else .error (.nonzeroValue (ElementText.diagnostic value))

def mapping (zero : ZeroTensor T) : Mapping := ⟨zero.shape, .broadcast⟩

/-- The zero tensor as a view without cells. -/
def view (zero : ZeroTensor T) : View T := .zeros zero.shape

def source (zero : ZeroTensor T) : Source T := ⟨zero.shape, fun _ => .ok 0⟩

/-- The tensor of zeros of the same shape. -/
def toTensor (zero : ZeroTensor T) : Except Fault (Tensor T) := Tensor.zeros .growable zero.shape

/-- Refuses shapes of different sizes. -/
def requireSameSizes (left right : Shape) : Except Fault Unit :=
  if left.sameSizes right then .ok () else .error (.shapesDiffer left right)

/-- The sum or difference of two zero tensors. -/
def combine (left right : ZeroTensor T) : Except Fault (ZeroTensor T) :=
  ZeroTensor.mk <$> left.shape.combine right.shape

/-- The sum with a tensor, which it keeps. -/
def addTensor (zero : ZeroTensor T) (tensor : Tensor T) : Except Fault (Tensor T) := do
  requireSameSizes zero.shape tensor.shape
  return tensor

/-- The difference to a tensor, which it negates. -/
def subTensor (zero : ZeroTensor T) (tensor : Tensor T) : Except Fault (Tensor T) := do
  requireSameSizes zero.shape tensor.shape
  tensor.map (- ·)

/-- A tensor plus or minus zero, which it keeps. -/
def keepTensor (zero : ZeroTensor T) (tensor : Tensor T) : Except Fault (Tensor T) := do
  requireSameSizes tensor.shape zero.shape
  return tensor

/-- The sum with a source is a copy of it. -/
def add (zero : ZeroTensor T) (source : Source T) : Except Fault (Tensor T) :=
  zero.source.zipWith (fun _ element => element) source

/-- The difference to a source is its negation. -/
def sub (zero : ZeroTensor T) (source : Source T) : Except Fault (Tensor T) :=
  zero.source.zipWith (fun _ element => -element) source

/-- The product with a source over `count` pairs of axes. -/
def contractAdjacent (count : Nat) (zero : ZeroTensor T) (source : Source T) :
    Except Fault (ZeroTensor T) :=
  ZeroTensor.mk <$> zero.shape.contract source.shape count

/-- The product of a source with a zero tensor on its right. -/
def mulLeft (source : Source T) (zero : ZeroTensor T) : Except Fault (ZeroTensor T) :=
  ZeroTensor.mk <$> source.shape.contract zero.shape 1

/-- The inner product with a source of the same sizes. -/
def inner (zero : ZeroTensor T) (source : Source T) : Except Fault T := do
  requireSameSizes zero.shape source.shape
  return 0

/-- Negation and the products and quotients with a factor leave a zero tensor as it is. -/
def scale (zero : ZeroTensor T) (_factor : T) : ZeroTensor T := zero

/-- A matrix-vector product clears the target or leaves it alone. -/
def matVec (accumulation : Accumulation T) (target : Target) : Writing T Unit :=
  match accumulation with
  | .overwrite => target.fill 0
  | _ => pure ()

/-- Whether all elements of a source are zero; none is read after one that is not. -/
def allZero (source : Source T) : Except Fault Bool :=
  Index.foldM source.shape.sizes
    (fun zero index =>
      if zero then do
        let element ← source.read index
        return element == 0
      else return false)
    true

/-- A zero tensor equals the sources of its sizes that hold nothing but zeros. -/
def equals (zero : ZeroTensor T) (source : Source T) : Except Fault Bool :=
  if zero.shape.sameSizes source.shape then allZero source else .ok false

/-- The zero tensor with its parts, for elements of the named type. -/
def record (zero : ZeroTensor T) (element : String) : String :=
  Text.record "ZeroTensor" [("mapping", zero.mapping.text), ("accessor", Accessor.zero.text element)]

/-- The printed zero tensor. -/
def text [ElementText T] (zero : ZeroTensor T) : Except Fault String := do
  let copy ← zero.source.map id
  copy.source.text

end ZeroTensor

end ShapedTensor

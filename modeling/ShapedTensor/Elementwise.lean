import ShapedTensor.Target

namespace ShapedTensor

variable {T : Type}

namespace Source

/-- The tensor of the images of all elements. -/
def map [Stored T] (change : T → T) (source : Source T) : Except Fault (Tensor T) :=
  Tensor.tabulate .growable source.shape fun index => change <$> source.read index

/-- The tensor of the combinations of elements at the same index. -/
def zipWith [Stored T] (combine : T → T → T) (left right : Source T) :
    Except Fault (Tensor T) := do
  let shape ← left.shape.combine right.shape
  Tensor.tabulate .growable shape fun index => do
    let leftElement ← left.read index
    let rightElement ← right.read index
    return combine leftElement rightElement

/-- Refuses operands of different sizes. -/
def checkSizes (left right : Shape) : Except Fault Unit :=
  if left.sameSizes right then .ok () else .error (.sizesDiffer left.sizes right.sizes)

variable [Element T]

def add (left right : Source T) : Except Fault (Tensor T) := left.zipWith (· + ·) right

def sub (left right : Source T) : Except Fault (Tensor T) := left.zipWith (· - ·) right

def neg (source : Source T) : Except Fault (Tensor T) := source.map (- ·)

/-- Every element times a factor on its right. -/
def scale (source : Source T) (factor : T) : Except Fault (Tensor T) := source.map (· * factor)

/-- Every element times a factor on its left. -/
def scaleLeft (source : Source T) (factor : T) : Except Fault (Tensor T) := source.map (factor * ·)

def unscale (source : Source T) (divisor : T) : Except Fault (Tensor T) := source.map (· / divisor)

/-- The sum of operands whose sizes are compared first. -/
def checkedAdd (left right : Source T) : Except Fault (Tensor T) := do
  checkSizes left.shape right.shape
  left.add right

/-- The difference of operands whose sizes are compared first. -/
def checkedSub (left right : Source T) : Except Fault (Tensor T) := do
  checkSizes left.shape right.shape
  left.sub right

end Source

namespace Target

variable [Element T]

def add (target : Target) (source : Source T) : Writing T Unit := target.zip (· + ·) source

def sub (target : Target) (source : Source T) : Writing T Unit := target.zip (· - ·) source

def scale (target : Target) (factor : T) : Writing T Unit := target.map (· * factor)

def unscale (target : Target) (divisor : T) : Writing T Unit := target.map (· / divisor)

/-- Adds a multiple of a source. -/
def addMultiple (target : Target) (factor : T) (source : Source T) : Writing T Unit :=
  target.zip (fun own element => own + factor * element) source

/-- Multiplies by a factor and adds a source. -/
def scaleAdd (target : Target) (factor : T) (source : Source T) : Writing T Unit :=
  target.zip (fun own element => factor * own + element) source

/-- Adds a source whose sizes are compared first. -/
def checkedAdd (target : Target) (source : Source T) : Writing T Unit := do
  Source.checkSizes target.shape source.shape
  target.add source

/-- Subtracts a source whose sizes are compared first. -/
def checkedSub (target : Target) (source : Source T) : Writing T Unit := do
  Source.checkSizes target.shape source.shape
  target.sub source

end Target

end ShapedTensor

import ShapedTensor.Elementwise
import ShapedTensor.MatVec

/-! The changes of a target or a tensor as data, so that whole histories can be run. -/

namespace ShapedTensor

variable {T : Type}

/-- What is asked of an index before its element is written. -/
inductive IndexCheck where
  | unchecked
  | promised
  | checked
  deriving DecidableEq

/-- A change of the elements of a target. -/
inductive Edit (T : Type) where
  | assign (check : IndexCheck) (index : List Nat) (value : T)
  | fill (value : T)
  | map (change : T → T)
  | scale (factor : T)
  | unscale (divisor : T)
  | zip (change : T → T → T) (source : Source T)
  | add (source : Source T)
  | sub (source : Source T)
  | addMultiple (factor : T) (source : Source T)
  | scaleAdd (factor : T) (source : Source T)
  | checkedAdd (source : Source T)
  | checkedSub (source : Source T)
  | contract (update : T → T → T → T) (left : Source T) (leftAxes : List Nat) (right : Source T)
      (rightAxes : List Nat)
  | matVec (form : MatrixForm) (accumulation : Accumulation T) (matrix vector : Source T)

/-- Refuses an index outside of a shape in the way that the check asks for. -/
def IndexCheck.require (check : IndexCheck) (shape : Shape) (index : List Nat) :
    Except Fault Unit :=
  match check with
  | unchecked => .ok ()
  | promised => if shape.contains index then .ok () else .error (.indexOutOfRange index shape)
  | checked =>
      if shape.contains index then .ok () else .error (.outsideIndexSpace index shape.sizes)

/-- Runs an edit on a target. -/
def Target.apply [Element T] (target : Target) : Edit T → Writing T Unit
  | .assign check index value => do
      check.require target.shape index
      target.write index value
  | .fill value => target.fill value
  | .map change => target.map change
  | .scale factor => target.scale factor
  | .unscale divisor => target.unscale divisor
  | .zip change source => target.zip change source
  | .add source => target.add source
  | .sub source => target.sub source
  | .addMultiple factor source => target.addMultiple factor source
  | .scaleAdd factor source => target.scaleAdd factor source
  | .checkedAdd source => target.checkedAdd source
  | .checkedSub source => target.checkedSub source
  | .contract update left leftAxes right rightAxes =>
      left.contractInto update leftAxes right rightAxes target
  | .matVec form accumulation matrix vector => matrix.matVec form accumulation vector target

/-- A change of a tensor: of its elements, of one cell, of all cells at once, or of its shape. -/
inductive TensorEdit (T : Type) where
  | within (edit : Edit T)
  | assignCell (position : Nat) (value : T)
  | refill (value : T)
  | resize (shape : Shape) (value : T)

/-- Runs an edit on a tensor; an edit of its shape happens whole or not at all. -/
def Tensor.apply [Element T] : TensorEdit T → EStateM Fault (Tensor T) Unit
  | .within edit => Tensor.writing (·.apply edit)
  | .assignCell position value => do
      let tensor ← get
      let storage ← tensor.storage.set position value
      set { tensor with storage }
  | .refill value => modify fun tensor => tensor.withCells (tensor.cells.map fun _ => value)
  | .resize shape value => do
      let tensor ← get
      let resized ← tensor.resize shape value
      set resized

end ShapedTensor

import ShapedTensor.Index.Walk
import ShapedTensor.Size

/-! The walk over a list of sizes, whose coordinates are words and whose count can be refused. -/

namespace ShapedTensor.Odometer

variable {m : Type → Type} {σ : Type}

/-- The next multi-index, or nothing after the last one. -/
def advance (sizes index : List Nat) : Except Fault (Option (List Nat)) :=
  Index.advanceM (Size.add · 1) sizes index

/-- Steps at every multi-index below the sizes. -/
def foldM [Monad m] [MonadLiftT (Except Fault) m] (sizes : List Nat) (step : σ → List Nat → m σ)
    (state : σ) : m σ :=
  Index.sweepM (fun index => liftM (advance sizes index)) sizes step state

/-- The multi-indices in the order of their visits. -/
def visited (sizes : List Nat) : Except Fault (List (List Nat)) :=
  Array.toList <$> foldM sizes (fun seen index => .ok (seen.push index)) #[]

end ShapedTensor.Odometer

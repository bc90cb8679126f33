namespace ShapedTensor.Index

variable {m : Type → Type} {α σ : Type}

/-- All multi-indices below the given sizes, in row-major order. -/
def all : List Nat → List (List Nat)
  | [] => [[]]
  | size :: sizes => (List.range size).flatMap fun first => (all sizes).map (first :: ·)

/-- Runs a step at `start`, `start + 1` and so on, `count` times. -/
def countM [Monad m] (step : σ → Nat → m σ) : (start count : Nat) → σ → m σ
  | _, 0, state => pure state
  | start, count + 1, state => do
      let state ← step state start
      countM step (start + 1) count state

/-- The index after the given one, or nothing after the last one, by a way to count a coordinate on. -/
def advanceM [Monad m] (count : Nat → m Nat) : (sizes index : List Nat) → m (Option (List Nat))
  | size :: sizes, coordinate :: index => do
      match ← advanceM count sizes index with
      | some rest => return some (coordinate :: rest)
      | none =>
          let next ← count coordinate
          return if next < size then some (next :: index.map fun _ => 0) else none
  | _, _ => pure none

/-- Steps at the index and at those after it, at most `fuel` in number. -/
def runM [Monad m] (advance : List Nat → m (Option (List Nat))) (step : σ → List Nat → m σ) :
    (fuel : Nat) → (index : List Nat) → σ → m σ
  | 0, _, state => pure state
  | fuel + 1, index, state => do
      let state ← step state index
      match ← advance index with
      | some next => runM advance step fuel next state
      | none => pure state

/-- Steps at every multi-index below the sizes; there are as many as the product of the sizes. -/
def sweepM [Monad m] (advance : List Nat → m (Option (List Nat))) (sizes : List Nat)
    (step : σ → List Nat → m σ) (state : σ) : m σ :=
  if sizes.contains 0 then pure state
  else runM advance step (sizes.foldl (· * ·) 1) (sizes.map fun _ => 0) state

/-- The index after the given one, by numbers of any size. -/
def next (sizes index : List Nat) : Option (List Nat) :=
  advanceM (m := Id) (fun coordinate => coordinate + 1) sizes index

/-- Runs a step at every multi-index below the sizes; a box with an empty side has none. -/
def foldM [Monad m] (sizes : List Nat) (step : σ → List Nat → m σ) (state : σ) : m σ :=
  sweepM (fun index => pure (next sizes index)) sizes step state

/-- Runs an action at every multi-index below the sizes. -/
def forM [Monad m] (sizes : List Nat) (visit : List Nat → m Unit) : m Unit :=
  foldM sizes (fun _ index => visit index) ()

/-- What an action gives at each multi-index below the sizes, in row-major order. -/
def collectM [Monad m] (sizes : List Nat) (entry : List Nat → m α) : m (Array α) :=
  foldM sizes (fun values index => values.push <$> entry index) #[]

/-- The multi-indices in the order of their visits. -/
def visited (sizes : List Nat) : List (List Nat) :=
  (foldM (m := Id) sizes (fun (seen : Array (List Nat)) index => seen.push index) #[]).toList

end ShapedTensor.Index

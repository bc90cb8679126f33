import ShapedTensor.Operand
import ShapedTensor.Proofs.Contraction.Fold
import ShapedTensor.Proofs.Elementwise
import ShapedTensor.Proofs.Source.Printing

namespace ShapedTensor

open Index

variable {T R α σ : Type}

/-- Two sources are alike when they have one shape and read the same at every index of it. -/
structure Source.Alike (left right : Source T) : Prop where
  shape : left.shape = right.shape
  read : ∀ index, Inside left.shape.sizes index → left.read index = right.read index

namespace Index

variable {m : Type → Type} [Monad m]

/-- A run depends on its steps at the listed items only. -/
theorem foldlM_congr {items : List α} {step other : σ → α → m σ}
    (same : ∀ state, ∀ item ∈ items, step state item = other state item) (state : σ) :
    items.foldlM step state = items.foldlM other state := by
  induction items generalizing state with
  | nil => rfl
  | cons item items ih =>
      rw [List.foldlM_cons, List.foldlM_cons, same state item (by simp)]
      exact bind_congr fun next => ih (fun state item after => same state item (by simp [after])) next

/-- A walk depends on its steps inside the box only. -/
theorem foldM_congr [LawfulMonad m] {sizes : List Nat} {step other : σ → List Nat → m σ}
    (same : ∀ state index, Inside sizes index → step state index = other state index) (state : σ) :
    foldM sizes step state = foldM sizes other state := by
  rw [foldM_eq, foldM_eq]
  exact foldlM_congr (fun state index listed => same state index (mem_all.mp listed)) state

/-- A walk whose steps all succeed ends where the fold over its indices ends. -/
theorem foldM_pure [LawfulMonad m] {sizes : List Nat} {step : σ → List Nat → m σ}
    {next : σ → List Nat → σ}
    (steps : ∀ state index, Inside sizes index → step state index = pure (next state index))
    (state : σ) : foldM sizes step state = pure ((all sizes).foldl next state) := by
  rw [foldM_congr steps, foldM_eq, List.foldlM_pure]

end Index

namespace Odometer

/-- The odometer depends on its steps inside the box only. -/
theorem foldM_congr {sizes : List Nat} {step other : σ → List Nat → Writing T σ}
    (same : ∀ state index, Inside sizes index → step state index = other state index) (state : σ) :
    foldM sizes step state = foldM sizes other state := by
  have walk (fuel : Nat) : ∀ index state, Inside sizes index →
      runM (fun index => liftM (advance sizes index)) step fuel index state =
        runM (fun index => liftM (advance sizes index)) other fuel index state := by
    induction fuel with
    | zero => exact fun _ _ _ => rfl
    | succ fuel ih =>
        intro index state inside
        rw [runM, runM, same state index inside]
        refine bind_congr fun state => ?_
        cases advanced : advance sizes index with
        | error fault => rfl
        | ok next =>
            cases next with
            | none => rfl
            | some next => exact ih next state (inside_advance inside advanced)
  unfold foldM sweepM
  split
  · rfl
  · next filled => exact walk _ _ state (inside_first (by simpa using filled))

end Odometer

namespace Contraction

/-- A planned contraction has the same run on operands that are alike. -/
theorem run_congr {leftAxes rightAxes : List Nat} {left right otherLeft otherRight : Source T}
    {contraction : Contraction} (leftAlike : left.Alike otherLeft)
    (rightAlike : right.Alike otherRight)
    (planned : plan leftAxes left.shape.sizes rightAxes right.shape.sizes = .ok contraction)
    (update : T → T → T → T) :
    contraction.run update left right = contraction.run update otherLeft otherRight := by
  funext target
  have aligned := aligned_of_plan planned
  have pairs := pairs_of_plan planned
  unfold run
  split
  · refine Odometer.foldM_congr (fun _ position inside => ?_) ()
    have summed := List.forall₂_take_append _ _ _ inside
    have output := List.forall₂_drop_append _ _ _ inside
    rw [← pairs] at summed output
    simp only [step]
    rw [leftAlike.read _ (aligned.leftPlaced _ _ summed output).2,
      rightAlike.read _ (aligned.rightPlaced _ _ summed output).2]
  · rfl

end Contraction

namespace Source.Alike

theorem refl (source : Source T) : source.Alike source := ⟨rfl, fun _ _ => rfl⟩

variable {left right other otherLeft otherRight : Source T}

theorem elements (alike : left.Alike right) : left.elements = right.elements := by
  rw [Source.elements, Source.elements, ← alike.shape]
  refine Index.foldM_congr (fun elements index inside => ?_) #[]
  rw [alike.read index inside]

/-- A tensor is built from the values at the indices of its shape. -/
theorem tabulate [Stored T] {kind : StorageKind} {shape : Shape}
    {entry other : List Nat → Except Fault T}
    (same : ∀ index, Inside shape.sizes index → entry index = other index) :
    Tensor.tabulate kind shape entry = Tensor.tabulate kind shape other := by
  have alike : Source.Alike ⟨shape, entry⟩ ⟨shape, other⟩ := ⟨rfl, same⟩
  rw [Tensor.tabulate_eq, Tensor.tabulate_eq, alike.elements]

/-- Images of sources that are alike are the same. -/
theorem map [Stored T] (alike : left.Alike right) (change : T → T) :
    left.map change = right.map change := by
  rw [Source.map, Source.map, ← alike.shape]
  refine tabulate fun index inside => ?_
  rw [alike.read index inside]

/-- A contraction into a target does not tell operands that are alike. -/
theorem contractInto (leftAlike : left.Alike otherLeft) (rightAlike : right.Alike otherRight)
    (update : T → T → T → T) (leftAxes rightAxes : List Nat) :
    left.contractInto update leftAxes right rightAxes =
      otherLeft.contractInto update leftAxes otherRight rightAxes := by
  funext target
  rw [Source.contractInto, Source.contractInto, ← leftAlike.shape, ← rightAlike.shape]
  cases planned : Contraction.plan leftAxes left.shape.sizes rightAxes right.shape.sizes with
  | error fault => rfl
  | ok contraction =>
      have run := Contraction.run_congr leftAlike rightAlike planned update
      exact congrFun run target

/-- A contraction of adjacent axes into a target does not tell operands that are alike. -/
theorem contractAdjacentInto (leftAlike : left.Alike otherLeft)
    (rightAlike : right.Alike otherRight) (update : T → T → T → T) (count : Nat) :
    left.contractAdjacentInto update count right =
      otherLeft.contractAdjacentInto update count otherRight := by
  funext target
  rw [Source.contractAdjacentInto, Source.contractAdjacentInto, ← leftAlike.shape]
  refine bind_congr fun axes => ?_
  exact congrFun (leftAlike.contractInto rightAlike update axes.1 axes.2) target

theorem text [ElementText T] (alike : left.Alike right) : left.text = right.text := by
  by_cases low : left.shape.rank ≤ 3
  · rw [text_eq low, text_eq (alike.shape ▸ low), ← alike.shape]
    exact textFrom_congr alike.read
  · rw [Source.text, Source.text, ← alike.shape, if_pos (by omega), if_pos (by omega)]

/-- Combinations of sources that are alike are the same. -/
theorem zipWith [Stored T] (leftAlike : left.Alike otherLeft) (rightAlike : right.Alike otherRight)
    (combine : T → T → T) : left.zipWith combine right = otherLeft.zipWith combine otherRight := by
  rw [Source.zipWith, Source.zipWith, ← leftAlike.shape, ← rightAlike.shape]
  cases joined : left.shape.combine right.shape with
  | error fault => rfl
  | ok shape =>
      obtain ⟨same, sizes⟩ := Shape.sizes_of_combine joined
      refine tabulate fun index inside => ?_
      rw [leftAlike.read index (sizes ▸ inside), rightAlike.read index (same ▸ sizes ▸ inside)]

/-- Comparisons of sources that are alike have the same truth value. -/
theorem equals [BEq T] (leftAlike : left.Alike otherLeft) (rightAlike : right.Alike otherRight) :
    left.equals right = otherLeft.equals otherRight := by
  rw [Source.equals, Source.equals, ← leftAlike.shape, ← rightAlike.shape]
  split
  · next same =>
      have sizes := (left.shape.sameSizes_iff right.shape).mp same
      rw [sameElements, sameElements, ← leftAlike.shape]
      refine Index.foldM_congr (fun equal index inside => ?_) true
      rw [leftAlike.read index inside, rightAlike.read index (sizes ▸ inside)]
  · rfl

/-- A target is combined in the same way with sources that are alike. -/
theorem zip (alike : left.Alike right) (target : Target) (change : T → T → T) :
    target.zip change left = target.zip change right := by
  rw [Target.zip_eq, Target.zip_eq, ← alike.shape]
  split
  · next same =>
      have sizes := (target.shape.sameSizes_iff left.shape).mp same
      refine Index.foldM_congr (fun _ index inside => ?_) ()
      dsimp only
      rw [alike.read index (sizes ▸ inside)]
  · rfl

section Products

variable [Element T] (leftAlike : left.Alike otherLeft) (rightAlike : right.Alike otherRight)
include leftAlike rightAlike

/-- Contractions of sources that are alike are the same tensor. -/
theorem contract (leftAxes rightAxes : List Nat) (pattern : Pattern) :
    left.contract leftAxes right rightAxes pattern =
      otherLeft.contract leftAxes otherRight rightAxes pattern := by
  rw [Source.contract, Source.contract, ← leftAlike.shape, ← rightAlike.shape]
  cases planned : Contraction.plan leftAxes left.shape.sizes rightAxes right.shape.sizes with
  | error fault => rfl
  | ok contraction =>
      have run := Contraction.run_congr leftAlike rightAlike planned Update.add
      change (do
        let shape ← Shape.ofSizes pattern contraction.outputSizes
        let output ← Tensor.zeros .growable shape
        output.written (contraction.run Update.add left right)) = _
      rw [run]
      rfl

/-- Contractions of adjacent axes of sources that are alike are the same tensor. -/
theorem contractAdjacentWith (update : T → T → T → T) (count : Nat) :
    left.contractAdjacentWith update count right =
      otherLeft.contractAdjacentWith update count otherRight := by
  rw [Source.contractAdjacentWith, Source.contractAdjacentWith, ← leftAlike.shape,
    ← rightAlike.shape, leftAlike.contractAdjacentInto rightAlike]

/-- Contractions of sources that are alike down to one element have the same element. -/
theorem reduce (update : T → T → T → T) (leftAxes rightAxes : List Nat) :
    left.reduce update leftAxes right rightAxes =
      otherLeft.reduce update leftAxes otherRight rightAxes := by
  rw [Source.reduce, Source.reduce, leftAlike.contractInto rightAlike]

theorem inner : left.inner right = otherLeft.inner otherRight := by
  rw [Source.inner, Source.inner, ← leftAlike.shape]
  exact leftAlike.reduce rightAlike Update.conjAdd _ _

theorem contractLeading : left.contractLeading right = otherLeft.contractLeading otherRight := by
  rw [Source.contractLeading, Source.contractLeading, ← leftAlike.shape, ← rightAlike.shape]
  exact leftAlike.contract rightAlike [0] [0] _

/-- The products of a matrix and a vector that are alike leave the same buffer. -/
theorem matVec (form : MatrixForm) (accumulation : Accumulation T) :
    left.matVec form accumulation right = otherLeft.matVec form accumulation otherRight := by
  funext target
  have products : left.timesInto (accumulation.update form) form right target =
      otherLeft.timesInto (accumulation.update form) form otherRight target := by
    cases form with
    | plain => exact congrFun (leftAlike.contractInto rightAlike _ [1] [0]) target
    | transposed => exact congrFun (rightAlike.contractInto leftAlike _ [0] [0]) target
    | adjoint => exact congrFun (rightAlike.contractInto leftAlike _ [0] [0]) target
  simp only [Source.matVec, products]

/-- The bilinear form of a matrix and vectors that are alike is the same. -/
theorem bilinear {matrix otherMatrix : Source T} (matrixAlike : matrix.Alike otherMatrix) :
    matrix.bilinear left right = otherMatrix.bilinear otherLeft otherRight := by
  rw [Source.bilinear, Source.bilinear, ← matrixAlike.shape, matrixAlike.contractInto rightAlike]
  refine bind_congr fun rows => bind_congr fun zero => bind_congr fun image => ?_
  exact leftAlike.reduce (.refl image.source) Update.add [0] [0]

end Products

/-- Contractions of all axes with operands that are alike are the same tensor. -/
theorem multilinear [Element T] {operands others : List (Source T)} (alike : left.Alike right)
    (operandsAlike : List.Forall₂ Alike operands others) :
    left.multilinear operands = right.multilinear others := by
  induction operandsAlike generalizing left right with
  | nil =>
      rw [Source.multilinear, Source.multilinear, copy, copy, Tensor.ofSource, Tensor.ofSource,
        alike.elements, alike.shape]
  | @cons operand other operands others operandAlike rest ih =>
      have first := alike.contractLeading operandAlike
      cases rest with
      | nil => exact first
      | cons nextAlike rest =>
          rw [Source.multilinear, Source.multilinear, first]
          · exact bind_congr fun next => ih (.refl next.source)
          · simp
          · simp

/-- The product of a zero tensor does not tell operands that are alike. -/
theorem zeroContractAdjacent (alike : left.Alike right) (zero : ZeroTensor T) (count : Nat) :
    zero.contractAdjacent count left = zero.contractAdjacent count right := by
  rw [ZeroTensor.contractAdjacent, ZeroTensor.contractAdjacent, alike.shape]

/-- The inner product with a zero tensor does not tell operands that are alike. -/
theorem zeroInner [Element T] (alike : left.Alike right) (zero : ZeroTensor T) :
    zero.inner left = zero.inner right := by
  rw [ZeroTensor.inner, ZeroTensor.inner, alike.shape]

/-- The comparison with a zero tensor does not tell operands that are alike. -/
theorem zeroEquals [Element T] (alike : left.Alike right) (zero : ZeroTensor T) :
    zero.equals left = zero.equals right := by
  rw [ZeroTensor.equals, ZeroTensor.equals, ZeroTensor.allZero, ZeroTensor.allZero, ← alike.shape]
  refine ite_congr rfl (fun _ => Index.foldM_congr (fun equal index inside => ?_) true) fun _ => rfl
  rw [alike.read index inside]

section Norms

variable [RealElement R] [Magnitude T R]

theorem maxAbs (alike : left.Alike right) : left.maxAbs = right.maxAbs := by
  rw [Source.maxAbs, Source.maxAbs, maxAbsSq, maxAbsSq, ← alike.shape]
  refine congrArg (RealElement.sqrt <$> ·) (Index.foldM_congr (fun greatest index inside => ?_) 0)
  rw [alike.read index inside]

end Norms

end Source.Alike

end ShapedTensor

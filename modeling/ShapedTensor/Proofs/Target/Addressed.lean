import ShapedTensor.MatVec
import ShapedTensor.Proofs.Contraction.Flat

namespace ShapedTensor

open Index

variable {T : Type} {target : Target} {cell : List Nat → Nat} {cells : Array T}

namespace Target

/-- Cells become the images under the changes of their indices. -/
def Becomes (target : Target) (cell : List Nat → Nat) (change : List Nat → T → T)
    (cells after : Array T) : Prop :=
  after.size = cells.size ∧ ∀ index, Inside target.shape.sizes index →
    after[cell index]? = cells[cell index]?.map (change index)

variable (addressed : target.Addressed cells.size cell)
include addressed

/-- A map changes the cell of every index. -/
theorem map_becomes (change : T → T) :
    ∃ after, target.map change cells = .ok () after ∧
      target.Becomes cell (fun _ => change) cells after := by
  refine ⟨_, map_of_located addressed.located change, ?_, fun index inside => ?_⟩
  · exact size_foldl_modify cell (fun _ => change) _ cells
  · exact getElem?_modify_all addressed (fun _ => change) inside

/-- A combination with a readable source changes the cell of every index with its element. -/
theorem zip_becomes (change : T → T → T) {source : Source T} {element : List Nat → T}
    (same : source.shape.sizes = target.shape.sizes) (reads : source.Reads element) :
    ∃ after, target.zip change source cells = .ok () after ∧
      target.Becomes cell (fun index own => change own (element index)) cells after := by
  refine ⟨_, zip_of_located addressed.located change same reads, ?_, fun index inside => ?_⟩
  · exact size_foldl_modify cell (fun index own => change own (element index)) _ cells
  · exact getElem?_modify_all addressed (fun index own => change own (element index)) inside

/-- A contraction of readable sources changes the cell of every index to the entry there. -/
theorem contractInto_becomes (update : T → T → T → T) {left right : Source T}
    {leftAxes rightAxes : List Nat} {contraction : Contraction}
    {leftElement rightElement : List Nat → T} (inWords : contraction.InWords)
    (planned : Contraction.plan leftAxes left.shape.sizes rightAxes right.shape.sizes =
      .ok contraction)
    (leftReads : left.Reads leftElement) (rightReads : right.Reads rightElement)
    (outputs : target.shape.sizes = contraction.outputSizes) :
    ∃ after, left.contractInto update leftAxes right rightAxes target cells = .ok () after ∧
      target.Becomes cell (contraction.entry update leftElement rightElement) cells after := by
  rw [Source.contractInto_of_plan planned]
  refine ⟨_, Contraction.run_of_inWords update inWords planned leftReads rightReads outputs addressed,
    size_foldl_modify _ _ _ _, fun index inside => ?_⟩
  exact Contraction.getElem?_calls update leftElement rightElement outputs addressed inside

end Target

/-- The sizes of a matrix that keeps one axis of its product with a vector and sums over the other. -/
def MatrixForm.sizes (kept summed : Nat) : MatrixForm → List Nat
  | .plain => [kept, summed]
  | .transposed | .adjoint => [summed, kept]

/-- One product of a matrix-vector product, with the operands in the order in which they are given. -/
def MatrixForm.combine (update : T → T → T → T) (matrix vector : List Nat → T) (output summed : Nat)
    (own : T) : MatrixForm → T
  | .plain => update own (matrix [output, summed]) (vector [summed])
  | .transposed | .adjoint => update own (vector [summed]) (matrix [summed, output])

/-- An element of a matrix-vector product: one update for each summed coordinate, in order. -/
def MatrixForm.entry (form : MatrixForm) (update : T → T → T → T) (matrix vector : List Nat → T)
    (count output : Nat) (own : T) : T :=
  (List.range count).foldl (fun own summed => form.combine update matrix vector output summed own) own

/-- What an element is before the products are added to it. -/
def Accumulation.start [Zero T] (own : T) : Accumulation T → T
  | overwrite => 0
  | _ => own

namespace Source

/-- The entry of a contraction over one axis is a fold over its coordinates. -/
theorem entry_of_axis {outer last first rest : List Nat} {count : Nat}
    (firstInside : Inside outer first) (restInside : Inside last rest) (update : T → T → T → T)
    (left right : List Nat → T) (own : T) :
    (Contraction.adjacent outer [count] last).entry update left right (first ++ rest) own =
      (List.range count).foldl
        (fun own summed => update own (left (first ++ [summed])) (right (summed :: rest))) own := by
  rw [Contraction.entry, show (Contraction.adjacent outer [count] last).contractedSizes = [count] from
    rfl, all_singleton, List.foldl_map]
  refine List.foldl_ext _ _ _ fun own summed below => ?_
  have inside : Inside [count] [summed] := .cons (List.mem_range.mp below) .nil
  rw [Contraction.combine_adjacent update left right firstInside inside restInside]
  rfl

section Product

variable {matrix vector : Source T} {matrixElement vectorElement : List Nat → T} {kept summed : Nat}
  (keptWord : kept < Size.bound) (summedWord : summed < Size.bound)
  (vectorSizes : vector.shape.sizes = [summed]) (outputs : target.shape.sizes = [kept])
  (matrixReads : matrix.Reads matrixElement) (vectorReads : vector.Reads vectorElement)
  (addressed : target.Addressed cells.size cell)
include keptWord summedWord vectorSizes outputs matrixReads vectorReads addressed

/-- The products of a matrix with a vector change the cell of every row. -/
theorem timesInto_becomes (update : T → T → T → T) (form : MatrixForm)
    (matrixSizes : matrix.shape.sizes = form.sizes kept summed) :
    ∃ after, matrix.timesInto update form vector target cells = .ok () after ∧
      after.size = cells.size ∧ ∀ output < kept, after[cell [output]]? =
        cells[cell [output]]?.map (form.entry update matrixElement vectorElement summed output) := by
  have inWords (contraction : Contraction)
      (sizes : contraction.contractedSizes ++ contraction.outputSizes = [summed, kept]) :
      contraction.InWords := by
    intro _ size listed
    rw [sizes] at listed
    simp only [List.mem_cons, List.not_mem_nil, or_false] at listed
    omega
  have row {output : Nat} (below : output < kept) : Inside [kept] [output] := .cons below .nil
  -- A transposed matrix is the right operand, and an adjoint one differs in the update only.
  have columns (sizes : matrix.shape.sizes = [summed, kept]) :
      ∃ after, vector.contractInto update [0] matrix [0] target cells = .ok () after ∧
        after.size = cells.size ∧ ∀ output < kept, after[cell [output]]? =
          cells[cell [output]]?.map fun own => (List.range summed).foldl (fun own summed =>
            update own (vectorElement [summed]) (matrixElement [summed, output])) own := by
    have planned : Contraction.plan [0] vector.shape.sizes [0] matrix.shape.sizes =
        .ok (.adjacent [] [summed] [kept]) := by
      rw [sizes, vectorSizes]
      exact Contraction.plan_adjacent [] [summed] [kept]
    obtain ⟨after, run, size, becomes⟩ := target.contractInto_becomes addressed update
      (inWords _ rfl) planned vectorReads matrixReads outputs
    refine ⟨after, run, size, fun output below => ?_⟩
    rw [becomes [output] (outputs ▸ row below)]
    exact congrArg (Option.map · _) (funext (entry_of_axis .nil (row below) update _ _))
  cases form with
  | plain =>
      have planned : Contraction.plan [1] matrix.shape.sizes [0] vector.shape.sizes =
          .ok (.adjacent [kept] [summed] []) := by
        rw [matrixSizes, vectorSizes]
        exact Contraction.plan_adjacent [kept] [summed] []
      obtain ⟨after, run, size, becomes⟩ := target.contractInto_becomes addressed update
        (inWords _ rfl) planned matrixReads vectorReads outputs
      refine ⟨after, run, size, fun output below => ?_⟩
      rw [becomes [output] (outputs ▸ row below)]
      exact congrArg (Option.map · _) (funext (entry_of_axis (row below) .nil update _ _))
  | transposed => exact columns matrixSizes
  | adjoint => exact columns matrixSizes

/-- A matrix-vector product changes the cell of every row by its products, or replaces it by them. -/
theorem matVec_becomes [Element T] (form : MatrixForm) (accumulation : Accumulation T)
    (matrixSizes : matrix.shape.sizes = form.sizes kept summed) :
    ∃ after, matrix.matVec form accumulation vector target cells = .ok () after ∧
      after.size = cells.size ∧ ∀ output < kept, after[cell [output]]? =
        cells[cell [output]]?.map fun own => form.entry (accumulation.update form) matrixElement
          vectorElement summed output (accumulation.start own) := by
  have products {cells : Array T} (addressed : target.Addressed cells.size cell) :=
    timesInto_becomes keptWord summedWord vectorSizes outputs matrixReads vectorReads addressed
      (accumulation.update form) form matrixSizes
  cases accumulation with
  | overwrite =>
      obtain ⟨middle, cleared, size, zero⟩ := target.map_becomes addressed fun _ => (0 : T)
      obtain ⟨after, run, kept, becomes⟩ := products (size ▸ addressed)
      refine ⟨after, ?_, kept.trans size, fun output below => ?_⟩
      · exact Writing.bind_eq_ok.mpr ⟨(), middle, cleared, run⟩
      · rw [becomes output below, zero [output] (outputs ▸ .cons below .nil), Option.map_map]
        rfl
  | add => exact products addressed
  | subtract => exact products addressed
  | addMultiple factor => exact products addressed

end Product

end Source

/-- Writes of a target with readable operands succeed and change the cells of its indices, each as the
element of its own index asks for. -/
structure Target.WritesAt [Element T] (target : Target) (cell : List Nat → Nat) (cells : Array T) :
    Prop where
  write : ∀ index (change : T → T), Inside target.shape.sizes index →
    target.modifyAt index change cells = .ok () (cells.modify (cell index) change)
  map : ∀ change : T → T, ∃ after, target.map change cells = .ok () after ∧
    target.Becomes cell (fun _ => change) cells after
  zip : ∀ (change : T → T → T) (source : Source T) element,
    source.shape.sizes = target.shape.sizes → source.Reads element →
    ∃ after, target.zip change source cells = .ok () after ∧
      target.Becomes cell (fun index own => change own (element index)) cells after
  matVec : ∀ (form : MatrixForm) (accumulation : Accumulation T) (matrix vector : Source T)
    matrixElement vectorElement kept summed, kept < Size.bound → summed < Size.bound →
    matrix.shape.sizes = form.sizes kept summed → vector.shape.sizes = [summed] →
    target.shape.sizes = [kept] → matrix.Reads matrixElement → vector.Reads vectorElement →
    ∃ after, matrix.matVec form accumulation vector target cells = .ok () after ∧
      after.size = cells.size ∧ ∀ output < kept, after[cell [output]]? =
        cells[cell [output]]?.map fun own => form.entry (accumulation.update form) matrixElement
          vectorElement summed output (accumulation.start own)

/-- A target with a cell of its own for each index is written there. -/
theorem Target.Addressed.writesAt [Element T] (addressed : target.Addressed cells.size cell) :
    target.WritesAt cell cells where
  write index change inside := modifyAt_of_locate (addressed.located index inside) change
  map change := map_becomes addressed change
  zip change _ _ same reads := zip_becomes addressed change same reads
  matVec form accumulation _ _ _ _ _ _ keptWord summedWord matrixSizes vectorSizes outputs matrixReads
      vectorReads :=
    Source.matVec_becomes keptWord summedWord vectorSizes outputs matrixReads vectorReads addressed
      form accumulation matrixSizes

end ShapedTensor

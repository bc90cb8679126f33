import Mathlib.Data.List.ProdSigma
import ShapedTensor.Proofs.Contraction.Plan
import ShapedTensor.Proofs.Contraction.Run

namespace ShapedTensor

open Index

variable {T : Type}

namespace Index

/-- Cutting the indices of a joined box gives the pairs of indices of its parts. -/
theorem map_split_all (left right : List Nat) :
    (all (left ++ right)).map (fun position =>
      (position.take left.length, position.drop left.length)) = all left ×ˢ all right := by
  rw [all_append, List.map_flatMap]
  refine List.flatMap_congr fun first listed => ?_
  have length : first.length = left.length := (mem_all.mp listed).length_eq
  simp [List.map_map, Function.comp_def, ← length]

end Index

namespace Contraction

/-- The summed and the output coordinates of every update, in the order of the updates. -/
def calls (contraction : Contraction) : List (List Nat × List Nat) :=
  all contraction.contractedSizes ×ˢ all contraction.outputSizes

/-- Every pair of coordinates has its update. -/
theorem mem_calls {contraction : Contraction} {summed output : List Nat} :
    (summed, output) ∈ contraction.calls ↔
      Inside contraction.contractedSizes summed ∧ Inside contraction.outputSizes output := by
  rw [calls, List.mem_product, mem_all, mem_all]

theorem calls_nodup (contraction : Contraction) : contraction.calls.Nodup :=
  (all_nodup _).product (all_nodup _)

/-- The updates of one output element run over the summed coordinates. -/
theorem filter_calls {contraction : Contraction} {output : List Nat} {cell : List Nat → Nat}
    (inside : Inside contraction.outputSizes output)
    (apart : ∀ other, Inside contraction.outputSizes other → cell other = cell output →
      other = output) :
    contraction.calls.filter (fun call => cell call.2 = cell output) =
      (all contraction.contractedSizes).map (·, output) := by
  have each (summed : List Nat) :
      ((all contraction.outputSizes).map (summed, ·)).filter (fun call => cell call.2 = cell output) =
        [(summed, output)] := by
    rw [List.filter_map]
    change List.map _ ((all contraction.outputSizes).filter fun other => cell other = cell output) = _
    rw [filter_all inside apart]
    rfl
  change ((all contraction.contractedSizes).flatMap fun summed => _).filter _ = _
  rw [List.filter_flatMap]
  simp only [each]
  exact List.flatMap_pure_eq_map _ _

/-- The sizes at axes are words when all sizes are. -/
theorem words_map {sizes : List Nat} (words : ∀ size ∈ sizes, size < Size.bound) (axes : List Nat) :
    ∀ size ∈ axes.map (sizes.getD · 0), size < Size.bound := by
  intro size listed
  obtain ⟨axis, _, rfl⟩ := List.mem_map.mp listed
  rw [List.getD_eq_getElem?_getD]
  cases found : sizes[axis]? with
  | none => decide
  | some size => exact words size (List.mem_of_getElem? found)

/-- A planned contraction of words runs over words. -/
theorem words_of_plan {leftAxes leftSizes rightAxes rightSizes : List Nat}
    {contraction : Contraction} (leftWords : ∀ size ∈ leftSizes, size < Size.bound)
    (rightWords : ∀ size ∈ rightSizes, size < Size.bound)
    (planned : plan leftAxes leftSizes rightAxes rightSizes = .ok contraction) :
    ∀ size ∈ contraction.contractedSizes ++ contraction.outputSizes, size < Size.bound := by
  obtain ⟨_, _, _, _, rfl⟩ := plan_eq_ok.mp planned
  intro size listed
  simp only [List.mem_append, ofAxes] at listed
  rcases listed with listed | listed | listed
  · exact words_map leftWords _ size listed
  · exact words_map leftWords _ size listed
  · exact words_map rightWords _ size listed

/-- A planned contraction sums over one coordinate for each pair of axes. -/
theorem pairs_of_plan {leftAxes leftSizes rightAxes rightSizes : List Nat}
    {contraction : Contraction}
    (planned : plan leftAxes leftSizes rightAxes rightSizes = .ok contraction) :
    contraction.pairs.length = contraction.contractedSizes.length := by
  obtain ⟨paired, _, _, _, rfl⟩ := plan_eq_ok.mp planned
  simp [ofAxes, paired]

/-- A planned contraction into a target of the right sizes is the run of its updates. -/
theorem run_eq {contraction : Contraction} (update : T → T → T → T) (left right : Source T)
    {target : Target} (outputs : target.shape.sizes = contraction.outputSizes)
    (pairs : contraction.pairs.length = contraction.contractedSizes.length)
    (words : ∀ size ∈ contraction.contractedSizes ++ contraction.outputSizes, size < Size.bound) :
    contraction.run update left right target =
      contraction.calls.foldlM
        (fun _ call => contraction.step update left right target call.1 call.2) () := by
  rw [run, if_pos outputs, Odometer.foldM_eq words (fun _ => rfl), calls, ← map_split_all,
    List.foldlM_map, pairs]

/-- The elements at the summed and the output coordinates of a call, combined with its own one. -/
def combine (contraction : Contraction) (update : T → T → T → T) (left right : List Nat → T)
    (summed output : List Nat) (own : T) : T :=
  update own (left (contraction.leftIndex summed output))
    (right (contraction.rightIndex summed output))

/-- One update changes the cell of its output coordinates and no other. -/
theorem step_of_reads {contraction : Contraction} (update : T → T → T → T)
    {left right : Source T} {leftElement rightElement : List Nat → T} {target : Target}
    {cell : List Nat → Nat} {summed output : List Nat} {cells : Array T}
    (leftRead : left.read (contraction.leftIndex summed output) =
      .ok (leftElement (contraction.leftIndex summed output)))
    (rightRead : right.read (contraction.rightIndex summed output) =
      .ok (rightElement (contraction.rightIndex summed output)))
    (located : target.locate cells.size output = .ok (cell output)) :
    contraction.step update left right target summed output cells =
      .ok () (cells.modify (cell output)
        (contraction.combine update leftElement rightElement summed output)) :=
  step_eq_ok.mpr ⟨cell output, _, _, located, leftRead, rightRead, rfl⟩

/-- A contraction of readable sources changes the buffer update by update if it finds a cell for every
output index. -/
theorem run_of_located {contraction : Contraction} (update : T → T → T → T) {left right : Source T}
    {leftAxes rightAxes : List Nat} {leftElement rightElement : List Nat → T} {target : Target}
    {cell : List Nat → Nat} {cells : Array T}
    (words : ∀ size ∈ contraction.contractedSizes ++ contraction.outputSizes, size < Size.bound)
    (pairs : contraction.pairs.length = contraction.contractedSizes.length)
    (aligned : contraction.Aligned leftAxes left.shape.sizes rightAxes right.shape.sizes)
    (leftReads : left.Reads leftElement) (rightReads : right.Reads rightElement)
    (outputs : target.shape.sizes = contraction.outputSizes)
    (located : ∀ output, Inside contraction.outputSizes output →
      target.locate cells.size output = .ok (cell output)) :
    contraction.run update left right target cells =
      .ok () (contraction.calls.foldl (fun cells call => cells.modify (cell call.2)
        (contraction.combine update leftElement rightElement call.1 call.2)) cells) := by
  rw [run_eq update left right outputs pairs words]
  refine Writing.foldlM_of_ok (fun call listed middle size => ?_) (by simp) (Eq.refl cells.size)
  rcases call with ⟨summed, output⟩
  obtain ⟨summedInside, outputInside⟩ := mem_calls.mp listed
  apply step_of_reads update
  · exact leftReads _ (aligned.leftPlaced summed output summedInside outputInside).2
  · exact rightReads _ (aligned.rightPlaced summed output summedInside outputInside).2
  · exact size ▸ located output outputInside

/-- A contraction of readable sources changes the buffer update by update. -/
theorem run_of_reads {contraction : Contraction} (update : T → T → T → T) {left right : Source T}
    {leftAxes rightAxes : List Nat} {leftElement rightElement : List Nat → T} {target : Target}
    {cell : List Nat → Nat} {cells : Array T}
    (words : ∀ size ∈ contraction.contractedSizes ++ contraction.outputSizes, size < Size.bound)
    (pairs : contraction.pairs.length = contraction.contractedSizes.length)
    (aligned : contraction.Aligned leftAxes left.shape.sizes rightAxes right.shape.sizes)
    (leftReads : left.Reads leftElement) (rightReads : right.Reads rightElement)
    (outputs : target.shape.sizes = contraction.outputSizes)
    (addressed : target.Addressed cells.size cell) :
    contraction.run update left right target cells =
      .ok () (contraction.calls.foldl (fun cells call => cells.modify (cell call.2)
        (contraction.combine update leftElement rightElement call.1 call.2)) cells) :=
  run_of_located update words pairs aligned leftReads rightReads outputs
    fun output inside => addressed.located output (outputs ▸ inside)

/-- After all updates an output element is the fold over its summed coordinates. -/
theorem getElem?_calls {contraction : Contraction} (update : T → T → T → T)
    (left right : List Nat → T) {target : Target} {cell : List Nat → Nat} {cells : Array T}
    (outputs : target.shape.sizes = contraction.outputSizes)
    (addressed : target.Addressed cells.size cell) {output : List Nat}
    (inside : Inside target.shape.sizes output) :
    (contraction.calls.foldl (fun cells call => cells.modify (cell call.2)
        (contraction.combine update left right call.1 call.2)) cells)[cell output]? =
      cells[cell output]?.map fun own => (all contraction.contractedSizes).foldl
        (fun own summed => contraction.combine update left right summed output own) own := by
  have apart (other : List Nat) (otherInside : Inside contraction.outputSizes other)
      (same : cell other = cell output) : other = output :=
    addressed.apart other output (outputs ▸ otherInside) inside same
  rw [getElem?_foldl_modify, filter_calls (outputs ▸ inside) apart]
  simp only [List.foldl_map]

end Contraction

/-- A contraction whose axes are accepted runs its plan. -/
theorem Source.contractInto_of_plan {update : T → T → T → T} {left right : Source T}
    {leftAxes rightAxes : List Nat} {contraction : Contraction} {target : Target}
    (planned : Contraction.plan leftAxes left.shape.sizes rightAxes right.shape.sizes =
      .ok contraction) :
    left.contractInto update leftAxes right rightAxes target =
      contraction.run update left right target := by
  rw [contractInto, planned]
  rfl

end ShapedTensor

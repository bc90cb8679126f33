import ShapedTensor.Proofs.Contraction.Fold
import ShapedTensor.Proofs.Shape.Algebra
import ShapedTensor.Proofs.ZeroTensor.Dense

namespace ShapedTensor

open Index

variable {T : Type}

namespace Tensor

/-- A full tensor reads the cells at the numbers of its indices. -/
theorem Full.reads [Zero T] {tensor : Tensor T} (full : tensor.Full) :
    tensor.source.Reads fun index => tensor.cells.getD (ordinal 0 tensor.shape.sizes index) 0 := by
  intro index inside
  obtain ⟨element, found, read⟩ := full.read_eq inside
  change tensor.read index = _
  rw [read]
  dsimp only
  rw [Array.getD_eq_getD_getElem?, found, Option.getD_some]

/-- A full tensor has as many cells as the product of its sizes. -/
theorem Full.size_cells {tensor : Tensor T} (full : tensor.Full) :
    tensor.cells.size = tensor.shape.sizes.prod := by
  rw [(tensor.shape.prod_of_size full).1]

/-- The sizes of a full tensor without an empty axis are words. -/
theorem Full.words {tensor : Tensor T} (full : tensor.Full) (filled : 0 ∉ tensor.shape.sizes) :
    ∀ size ∈ tensor.shape.sizes, size < Size.bound := by
  obtain ⟨product, below⟩ := tensor.shape.prod_of_size full
  exact Size.words_of_prod filled (by omega)

end Tensor

namespace Contraction

variable {contraction : Contraction} {leftAxes rightAxes : List Nat}

/-- The entry at an output index: the updates over all summed coordinates, from its own element. -/
def entry (contraction : Contraction) (update : T → T → T → T) (left right : List Nat → T)
    (output : List Nat) (own : T) : T :=
  (all contraction.contractedSizes).foldl
    (fun own summed => contraction.combine update left right summed output own) own

/-- A contraction counts in words when the sizes that it runs over are words, if it runs at all. -/
def InWords (contraction : Contraction) : Prop :=
  0 ∉ contraction.contractedSizes ++ contraction.outputSizes →
    ∀ size ∈ contraction.contractedSizes ++ contraction.outputSizes, size < Size.bound

/-- The size of every axis is one of a contracted or of a free axis. -/
theorem mem_sizes {sizes axes : List Nat} (named : Names sizes.length axes) {size : Nat}
    (listed : size ∈ sizes) :
    size ∈ axes.map (sizes.getD · 0) ++ (freeAxes axes sizes.length).map (sizes.getD · 0) := by
  obtain ⟨axis, below, rfl⟩ := List.mem_iff_getElem.mp listed
  rw [← List.map_append, List.mem_map]
  exact ⟨axis, (perm_axes named).mem_iff.mpr (List.mem_range.mpr below), by simp [below]⟩

/-- A planned contraction of full tensors counts in words. -/
theorem inWords_of_full {left right : Tensor T} (leftFull : left.Full) (rightFull : right.Full)
    (planned : plan leftAxes left.shape.sizes rightAxes right.shape.sizes = .ok contraction) :
    contraction.InWords := by
  intro filled
  have accepted := plan_eq_ok.mp planned
  obtain ⟨paired, leftNamed, rightNamed, fit, rfl⟩ := accepted
  simp only [ofAxes, List.mem_append, not_or] at filled
  obtain ⟨contracted, leftFree, rightFree⟩ := filled
  have leftFilled : 0 ∉ left.shape.sizes := fun empty =>
    (List.mem_append.mp (mem_sizes leftNamed empty)).elim contracted leftFree
  have rightFilled : 0 ∉ right.shape.sizes := fun empty =>
    (List.mem_append.mp (mem_sizes rightNamed empty)).elim
      (map_contracted paired fit ▸ contracted) rightFree
  exact words_of_plan (leftFull.words leftFilled) (rightFull.words rightFilled) planned

/-- A contraction over an empty size has no updates. -/
theorem calls_eq_nil (empty : 0 ∈ contraction.contractedSizes ++ contraction.outputSizes) :
    contraction.calls = [] := by
  rw [List.eq_nil_iff_forall_not_mem]
  rintro ⟨summed, output⟩ listed
  obtain ⟨summedInside, outputInside⟩ := mem_calls.mp listed
  rcases List.mem_append.mp empty with empty | empty
  · exact summedInside.zero_notMem empty
  · exact outputInside.zero_notMem empty

/-- A planned contraction of readable sources that counts in words changes the buffer update by
update. -/
theorem run_of_inWords (update : T → T → T → T) {left right : Source T}
    {leftElement rightElement : List Nat → T} {target : Target} {cell : List Nat → Nat}
    {cells : Array T} (inWords : contraction.InWords)
    (planned : plan leftAxes left.shape.sizes rightAxes right.shape.sizes = .ok contraction)
    (leftReads : left.Reads leftElement) (rightReads : right.Reads rightElement)
    (outputs : target.shape.sizes = contraction.outputSizes)
    (addressed : target.Addressed cells.size cell) :
    contraction.run update left right target cells =
      .ok () (contraction.calls.foldl (fun cells call => cells.modify (cell call.2)
        (contraction.combine update leftElement rightElement call.1 call.2)) cells) := by
  by_cases filled : 0 ∉ contraction.contractedSizes ++ contraction.outputSizes
  · exact run_of_reads update (inWords filled) (pairs_of_plan planned) (aligned_of_plan planned)
      leftReads rightReads outputs addressed
  · have empty := not_not.mp filled
    rw [run, if_pos outputs, Odometer.foldM, sweepM, if_pos (by simpa using empty),
      calls_eq_nil empty]
    rfl

/-- A planned contraction of readable sources into a full tensor of its output sizes succeeds and
leaves the entry at every index. -/
theorem written_of_plan (update : T → T → T → T) {left right : Source T}
    {leftElement rightElement : List Nat → T} {output : Tensor T} (inWords : contraction.InWords)
    (planned : plan leftAxes left.shape.sizes rightAxes right.shape.sizes = .ok contraction)
    (leftReads : left.Reads leftElement) (rightReads : right.Reads rightElement)
    (full : output.Full) (outputs : output.shape.sizes = contraction.outputSizes) :
    ∃ cells, output.written (contraction.run update left right) = .ok (output.withCells cells) ∧
      (output.withCells cells).Full ∧ ∀ index own, Inside contraction.outputSizes index →
        output.read index = .ok own → (output.withCells cells).read index =
          .ok (contraction.entry update leftElement rightElement index own) := by
  have addressed := Tensor.addressed_of_reads fun index inside => by
    obtain ⟨element, _, read⟩ := full.read_eq inside
    exact ⟨element, read⟩
  have outputs : output.target.shape.sizes = contraction.outputSizes := outputs
  have run := run_of_inWords update inWords planned leftReads rightReads outputs addressed
  let cells := contraction.calls.foldl (fun cells call =>
    cells.modify (ordinal 0 output.shape.sizes call.2)
      (contraction.combine update leftElement rightElement call.1 call.2)) output.cells
  have kept : cells.size = output.cells.size := size_foldl_modify _ _ _ _
  refine ⟨cells, Tensor.written_eq_ok.mpr ⟨cells, run, rfl⟩, ?_, fun index own inside read => ?_⟩
  · change output.shape.size = .ok cells.size
    rw [kept]
    exact full
  · have before : Inside output.shape.sizes index := outputs.symm ▸ inside
    obtain ⟨word, found⟩ := (Tensor.read_eq_ok before).mp read
    have after : Inside (output.withCells cells).shape.sizes index := before
    refine (Tensor.read_eq_ok after).mpr ⟨word, ?_⟩
    refine (getElem?_calls update leftElement rightElement outputs addressed before).trans ?_
    rw [found, Option.map_some]
    rfl

/-- A planned contraction of readable sources into zeros of its output sizes succeeds and gives a
tensor of entries. -/
theorem written_zeros [Element T] (update : T → T → T → T) {left right : Source T}
    {leftElement rightElement : List Nat → T} {kind : StorageKind} {shape : Shape}
    {output : Tensor T} (inWords : contraction.InWords)
    (planned : plan leftAxes left.shape.sizes rightAxes right.shape.sizes = .ok contraction)
    (leftReads : left.Reads leftElement) (rightReads : right.Reads rightElement)
    (zeros : Tensor.zeros kind shape = .ok output) (outputs : shape.sizes = contraction.outputSizes) :
    ∃ cells, output.written (contraction.run update left right) = .ok ⟨shape, kind, cells⟩ ∧
      Tensor.Full ⟨shape, kind, cells⟩ ∧ Source.Reads (Tensor.source ⟨shape, kind, cells⟩)
        fun index => contraction.entry update leftElement rightElement index 0 := by
  have full := Tensor.filled_full zeros
  obtain ⟨count, _, _, rfl⟩ := Tensor.filled_eq_ok.mp zeros
  obtain ⟨cells, run, after, reads⟩ :=
    written_of_plan update inWords planned leftReads rightReads full outputs
  refine ⟨cells, run, after, fun index inside => ?_⟩
  exact reads index 0 (outputs ▸ inside) (Tensor.read_zeros zeros inside)

end Contraction

namespace Source

variable [Element T]

/-- A contraction of readable sources under accepted axes gives the tensor of entries if there are
zeros of its shape. -/
theorem contract_of_plan {left right : Source T} {leftAxes rightAxes : List Nat}
    {contraction : Contraction} {leftElement rightElement : List Nat → T} {pattern : Pattern}
    {shape : Shape} {output : Tensor T} (inWords : contraction.InWords)
    (planned : Contraction.plan leftAxes left.shape.sizes rightAxes right.shape.sizes =
      .ok contraction)
    (leftReads : left.Reads leftElement) (rightReads : right.Reads rightElement)
    (shaped : Shape.ofSizes pattern contraction.outputSizes = .ok shape)
    (zeros : Tensor.zeros .growable shape = .ok output) :
    ∃ tensor, left.contract leftAxes right rightAxes pattern = .ok tensor ∧ tensor.shape = shape ∧
      tensor.Full ∧ tensor.source.Reads
        fun index => contraction.entry Update.add leftElement rightElement index 0 := by
  obtain ⟨cells, run, full, reads⟩ := Contraction.written_zeros Update.add inWords planned leftReads
    rightReads zeros (Shape.sizes_of_ofSizes shaped)
  refine ⟨_, ?_, rfl, full, reads⟩
  exact Checked.bind_eq_ok.mpr ⟨contraction, planned, Checked.bind_eq_ok.mpr ⟨shape, shaped,
    Checked.bind_eq_ok.mpr ⟨output, zeros, run⟩⟩⟩

end Source

end ShapedTensor

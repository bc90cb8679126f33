import ShapedTensor.Proofs.Shape.Algebra
import ShapedTensor.Proofs.Target.Calls
import ShapedTensor.Proofs.Tensor.Cells

namespace ShapedTensor

open Index

variable {T : Type}

namespace Source

/-- The tensor of images reads the image of every element. -/
theorem map_eq_ok [Stored T] {change : T → T} {source : Source T} {tensor : Tensor T}
    (mapped : source.map change = .ok tensor) :
    tensor.shape = source.shape ∧ tensor.Full ∧ ∀ index, Inside source.shape.sizes index →
      ∃ element, source.read index = .ok element ∧ tensor.read index = .ok (change element) := by
  obtain ⟨shape, full, reads⟩ := Tensor.tabulate_eq_ok mapped
  refine ⟨shape, full, fun index inside => ?_⟩
  obtain ⟨image, changed, read⟩ := reads index inside
  obtain ⟨element, found, rfl⟩ := Checked.map_eq_ok.mp changed
  exact ⟨element, found, read⟩

/-- The tensor of combinations reads the combination of the elements at every index. -/
theorem zipWith_eq_ok [Stored T] {combine : T → T → T} {left right : Source T} {tensor : Tensor T}
    (combined : left.zipWith combine right = .ok tensor) :
    left.shape.sizes = right.shape.sizes ∧ tensor.shape.sizes = left.shape.sizes ∧ tensor.Full ∧
      ∀ index, Inside tensor.shape.sizes index → ∃ leftElement rightElement,
        left.read index = .ok leftElement ∧ right.read index = .ok rightElement ∧
        tensor.read index = .ok (combine leftElement rightElement) := by
  obtain ⟨shape, joined, built⟩ := Checked.bind_eq_ok.mp combined
  obtain ⟨same, sizes⟩ := Shape.sizes_of_combine joined
  obtain ⟨rfl, full, reads⟩ := Tensor.tabulate_eq_ok built
  refine ⟨same, sizes, full, fun index inside => ?_⟩
  obtain ⟨element, entry, read⟩ := reads index inside
  obtain ⟨leftElement, leftRead, entry⟩ := Checked.bind_eq_ok.mp entry
  obtain ⟨rightElement, rightRead, entry⟩ := Checked.bind_eq_ok.mp entry
  obtain rfl := Except.ok.inj entry
  exact ⟨leftElement, rightElement, leftRead, rightRead, read⟩

/-- Operands of the same shapes that combine to the same elements have the same combination. -/
theorem zipWith_imp [Stored T] {combine other : T → T → T}
    {leftLeader left rightLeader right : Source T} (leftShape : left.shape = leftLeader.shape)
    (rightShape : right.shape = rightLeader.shape)
    (follows : ∀ index leftElement rightElement, leftLeader.read index = .ok leftElement →
      rightLeader.read index = .ok rightElement → ∃ leftOther rightOther,
        left.read index = .ok leftOther ∧ right.read index = .ok rightOther ∧
        other leftOther rightOther = combine leftElement rightElement)
    {tensor : Tensor T} (combined : leftLeader.zipWith combine rightLeader = .ok tensor) :
    left.zipWith other right = .ok tensor := by
  obtain ⟨shape, joined, built⟩ := Checked.bind_eq_ok.mp combined
  rw [← leftShape, ← rightShape] at joined
  refine Checked.bind_eq_ok.mpr ⟨shape, joined, Tensor.tabulate_imp (fun index element entry => ?_) built⟩
  obtain ⟨leftElement, leftRead, entry⟩ := Checked.bind_eq_ok.mp entry
  obtain ⟨rightElement, rightRead, entry⟩ := Checked.bind_eq_ok.mp entry
  obtain rfl := Except.ok.inj entry
  obtain ⟨leftOther, rightOther, leftFound, rightFound, same⟩ :=
    follows index leftElement rightElement leftRead rightRead
  exact Checked.bind_eq_ok.mpr ⟨leftOther, leftFound,
    Checked.bind_eq_ok.mpr ⟨rightOther, rightFound, congrArg Except.ok same⟩⟩

end Source

namespace Target

section Located

variable {target : Target} {cell : List Nat → Nat} {cells : Array T}
  (located : ∀ index, Inside target.shape.sizes index →
    target.locate cells.size index = .ok (cell index))
include located

/-- A map over a target that locates its indices changes their cells in turn. -/
theorem map_of_located (change : T → T) :
    target.map change cells = .ok () ((all target.shape.sizes).foldl
      (fun cells index => cells.modify (cell index) change) cells) := by
  rw [map_eq, Index.forM, foldM_eq]
  refine Writing.foldlM_of_ok (fun index listed middle size => ?_) (by simp) (Eq.refl cells.size)
  exact modifyAt_of_locate (size ▸ located index (mem_all.mp listed)) change

/-- A combination with a source over a target that locates its indices changes their cells in turn. -/
theorem zip_of_located (change : T → T → T) {source : Source T} {element : List Nat → T}
    (same : source.shape.sizes = target.shape.sizes) (reads : source.Reads element) :
    target.zip change source cells = .ok () ((all target.shape.sizes).foldl
      (fun cells index => cells.modify (cell index) (change · (element index))) cells) := by
  rw [zip_eq, if_pos ((Shape.sameSizes_iff _ _).mpr same.symm), Index.forM, foldM_eq]
  refine Writing.foldlM_of_ok (fun index listed middle size => ?_) (by simp) (Eq.refl cells.size)
  have inside := mem_all.mp listed
  have found := Writing.lift_eq_ok.mpr ⟨reads index (same ▸ inside), Eq.refl middle⟩
  rw [Writing.bind_of_ok found]
  exact modifyAt_of_locate (size ▸ located index inside) _

end Located

/-- Only one index of a target changes the cell of an index. -/
theorem getElem?_modify_all {target : Target} {cell : List Nat → Nat} {cells : Array T}
    (addressed : target.Addressed cells.size cell) (change : List Nat → T → T) {index : List Nat}
    (inside : Inside target.shape.sizes index) :
    ((all target.shape.sizes).foldl (fun cells index => cells.modify (cell index) (change index))
      cells)[cell index]? = cells[cell index]?.map (change index) := by
  have apart (other : List Nat) (otherInside : Inside target.shape.sizes other)
      (same : cell other = cell index) : other = index :=
    addressed.apart other index otherInside inside same
  rw [getElem?_foldl_modify cell change, filter_all inside apart]
  rfl

end Target

namespace Tensor

/-- A tensor that reads every index of its shape has a cell of its own for each of them. -/
theorem addressed_of_reads {tensor : Tensor T}
    (reads : ∀ index, Inside tensor.shape.sizes index → ∃ element, tensor.read index = .ok element) :
    tensor.target.Addressed tensor.cells.size (ordinal 0 tensor.shape.sizes) := by
  constructor
  · intro index inside
    obtain ⟨element, read⟩ := reads index inside
    obtain ⟨word, found⟩ := (read_eq_ok inside).mp read
    have offset := (Mapping.horner_eq_ok inside).mpr ⟨rfl, word⟩
    have below := (Array.getElem?_eq_some_iff.mp found).1
    exact Checked.bind_eq_ok.mpr ⟨_, offset, Window.cell_eq_ok.mpr ⟨Nat.zero_add _, below⟩⟩
  · exact fun first second firstInside secondInside same => ordinal_inj firstInside secondInside same

/-- The images formed in the cells of a readable tensor are read in their place. -/
theorem map_of_reads {tensor : Tensor T}
    (reads : ∀ index, Inside tensor.shape.sizes index → ∃ element, tensor.read index = .ok element)
    (change : T → T) :
    ∃ after, tensor.map change = .ok after ∧ after.shape = tensor.shape ∧
      ∀ index element, Inside tensor.shape.sizes index → tensor.read index = .ok element →
        after.read index = .ok (change element) := by
  have addressed := addressed_of_reads reads
  let cells := (all tensor.shape.sizes).foldl
    (fun cells index => cells.modify (ordinal 0 tensor.shape.sizes index) change) tensor.cells
  have run : tensor.target.map change tensor.cells = .ok () cells :=
    Target.map_of_located addressed.located change
  refine ⟨tensor.withCells cells, written_eq_ok.mpr ⟨cells, run, rfl⟩, rfl, ?_⟩
  intro index element inside read
  obtain ⟨word, found⟩ := (read_eq_ok inside).mp read
  have insideAfter : Inside (tensor.withCells cells).shape.sizes index := inside
  refine (read_eq_ok insideAfter).mpr ⟨word, ?_⟩
  refine (Target.getElem?_modify_all addressed (fun _ => change) inside).trans ?_
  rw [found, Option.map_some]

end Tensor

end ShapedTensor

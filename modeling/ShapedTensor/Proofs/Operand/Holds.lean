import ShapedTensor.Operand
import ShapedTensor.Proofs.Contraction.Entry
import ShapedTensor.Proofs.View.Nested
import ShapedTensor.Proofs.View.Transpose

namespace ShapedTensor

open Index

variable {T : Type} [Element T]

/-- An operand with an element at every index of its sizes, which are words. -/
structure Operand.Holds (operand : Operand T) (sizes : List Nat) (element : List Nat → T) : Prop where
  words : ∀ size ∈ sizes, size < Size.bound
  sizes : operand.source.shape.sizes = sizes
  reads : operand.source.Reads element

/-- A full tensor as an operand holds its cells. -/
theorem Operand.holds_of_full {tensor : Tensor T} (full : tensor.Full)
    (words : ∀ size ∈ tensor.shape.sizes, size < Size.bound) :
    (ofTensor tensor).Holds tensor.shape.sizes fun index =>
      tensor.cells.getD (ordinal 0 tensor.shape.sizes index) 0 :=
  ⟨words, rfl, full.reads⟩

/-- The sizes of the source of an operand are words. -/
theorem Operand.Holds.source_words {operand : Operand T} {sizes : List Nat} {element : List Nat → T}
    (holds : operand.Holds sizes element) : ∀ size ∈ operand.source.shape.sizes, size < Size.bound := by
  rw [holds.sizes]
  exact holds.words

/-- The elements of a zero tensor are zero. -/
theorem Operand.Holds.eq_zero {zero : ZeroTensor T} {sizes : List Nat} {element : List Nat → T}
    (holds : (Operand.ofZero zero).Holds sizes element)
    {index : List Nat} (inside : Inside sizes index) : element index = 0 :=
  (Except.ok.inj (holds.reads index (holds.sizes ▸ inside))).symm

theorem Operand.source_asView (operand : Operand T) : operand.asView.source = operand.source := by
  cases operand with
  | ofTensor tensor => exact tensor.source_view
  | ofView view => rfl
  | ofZero zero => rfl

namespace Operand

/-- An operand is concrete when it is a tensor or a view, so that its elements come from cells. -/
def Concrete : Operand T → Prop
  | ofZero _ => False
  | _ => True

variable {left right operand : Operand T}

omit [Element T] in
theorem concrete_of_plain (plain : operand.asView.accessor = .plain) : operand.Concrete := by
  cases operand with
  | ofZero zero => cases plain
  | _ => trivial

theorem Concrete.inner_eq (concrete : operand.Concrete) : operand.inner = operand.source.inner := by
  cases operand with
  | ofZero zero => exact concrete.elim
  | _ => rfl

/-- The matrix-vector products of a concrete operand are those of its source. -/
theorem Concrete.matVec_eq (concrete : operand.Concrete) (form : MatrixForm)
    (accumulation : Accumulation T) :
    operand.matVec form accumulation = operand.source.matVec form accumulation := by
  cases operand with
  | ofZero zero => exact concrete.elim
  | _ => rfl

/-- The greatest length of a concrete operand is that of its source. -/
theorem Concrete.maxAbs_eq {R : Type} [RealElement R] [Magnitude T R] (concrete : operand.Concrete) :
    operand.maxAbs = (operand.source.maxAbs : Except Fault R) := by
  cases operand with
  | ofZero zero => exact concrete.elim
  | _ => rfl

/-- Concrete operands are compared by their sources. -/
theorem Concrete.equals_eq (leftConcrete : left.Concrete) (rightConcrete : right.Concrete) :
    left.equals right = left.source.equals right.source := by
  cases right with
  | ofZero zero => exact rightConcrete.elim
  | _ => cases left with
    | ofZero zero => exact leftConcrete.elim
    | _ => rfl

end Operand

/-- The plain accessor reads the element that its cell holds. -/
theorem Accessor.plain_read {handle : Handle T} {position : Nat} {element : T}
    (found : handle.cells[handle.window.start + position]? = some element) :
    plain.read handle position = .ok element := by
  rw [read, found]

namespace Writable

section Cells

omit [Element T]

variable (writable : Writable T) (cells : Array T)

@[simp]
theorem target_withCells : (writable.withCells cells).target = writable.target := by
  cases writable <;> rfl

@[simp]
theorem cells_withCells : (writable.withCells cells).cells = cells := by
  cases writable <;> rfl

/-- A writable vector of some size with a cell of its own for each element. -/
structure Offers (size : Nat) (cell : List Nat → Nat) : Prop where
  sizes : writable.target.shape.sizes = [size]
  addressed : writable.target.Addressed writable.cells.size cell

/-- An action leaves given elements in the rows of a writable vector. -/
def FilledBy (count : Nat) (cell : List Nat → Nat) (value : Nat → T)
    (action : Target → Writing T Unit) : Prop :=
  ∃ after, action writable.target writable.cells = .ok () after ∧
    after.size = writable.cells.size ∧ ∀ row < count, after[cell [row]]? = some (value row)

end Cells

variable {writable : Writable T}

theorem shape_operand : writable.operand.source.shape = writable.target.shape := by
  cases writable <;> rfl

/-- A writable value reads at an index what is in its cell. -/
theorem read_of_locate {index : List Nat} {cell : Nat} {element : T}
    (located : writable.target.locate writable.cells.size index = .ok cell)
    (found : writable.cells[cell]? = some element) :
    writable.operand.source.read index = .ok element := by
  obtain ⟨place, placed, rfl, _⟩ := Target.locate_eq_ok.mp located
  cases writable with
  | ofTensor tensor =>
      refine Checked.bind_eq_ok.mpr ⟨place, placed, Tensor.cellAt_eq_ok.mpr ?_⟩
      rwa [show (ofTensor tensor).target.window.start + place = place from Nat.zero_add _] at found
  | ofBuffer target cells =>
      exact Checked.bind_eq_ok.mpr ⟨place, placed, Accessor.plain_read found⟩

/-- A writable vector whose rows are filled holds the elements afterwards. -/
theorem FilledBy.holds {count : Nat} {cell : List Nat → Nat} {value : Nat → T}
    {action : Target → Writing T Unit} (offers : writable.Offers count cell)
    (word : count < Size.bound) (filled : writable.FilledBy count cell value action) :
    ∃ image, writing action writable = .ok () image ∧
      image.operand.Holds [count] fun index => value (index.headD 0) := by
  obtain ⟨after, run, size, rows⟩ := filled
  refine ⟨writable.withCells after, by rw [writing, run], ?_⟩
  have sizes : (writable.withCells after).operand.source.shape.sizes = [count] := by
    rw [shape_operand, target_withCells, offers.sizes]
  refine ⟨by simpa using word, sizes, fun index inside => ?_⟩
  rw [sizes] at inside
  obtain ⟨row, below, rfl⟩ := inside_single.mp inside
  apply read_of_locate
  · rw [target_withCells, cells_withCells, size]
    exact offers.addressed.located [row] (offers.sizes ▸ inside)
  · rw [cells_withCells]
    exact rows row below

end Writable

end ShapedTensor

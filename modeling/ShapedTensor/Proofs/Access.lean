import ShapedTensor.Proofs.Index.Walk
import ShapedTensor.Proofs.Run.Checked
import ShapedTensor.Proofs.Run.Writing

namespace ShapedTensor

open Index

variable {T : Type}

/-- A source reads a function when it has its value at every index of the shape. -/
def Source.Reads (source : Source T) (element : List Nat → T) : Prop :=
  ∀ index, Inside source.shape.sizes index → source.read index = .ok (element index)

/-- The source that refuses every index outside of its shape. -/
def Source.guarded (source : Source T) : Source T := ⟨source.shape, source.get⟩

/-- A guarded source still reads what its shape contains. -/
theorem Source.Reads.guarded {source : Source T} {element : List Nat → T}
    (reads : source.Reads element) : source.guarded.Reads element := by
  intro index inside
  have contained : source.shape.contains index = true := Shape.contains_iff.mpr inside
  change source.get index = _
  rw [Source.get, if_pos contained]
  exact reads index inside

/-- A source follows another of the same shape when it reads all that this one reads. -/
structure Source.Follows (leader source : Source T) : Prop where
  shape : source.shape = leader.shape
  read : ∀ index element, leader.read index = .ok element → source.read index = .ok element

theorem Source.Follows.refl (source : Source T) : source.Follows source :=
  ⟨rfl, fun _ _ read => read⟩

/-- A position of a window is the cell that many cells after its start, if the buffer has it. -/
theorem Window.cell_eq_ok {window : Window} {size position cell : Nat} :
    window.cell size position = .ok cell ↔ window.start + position = cell ∧ cell < size := by
  rw [Window.cell, Checked.ite_eq_ok, Except.ok.injEq]
  constructor
  · rintro ⟨below, rfl⟩
    exact ⟨rfl, below⟩
  · rintro ⟨rfl, below⟩
    exact ⟨below, rfl⟩

namespace Target

/-- The cell of an index in a buffer of `size` cells. -/
def locate (target : Target) (size : Nat) (index : List Nat) : Except Fault Nat := do
  let place ← target.mapping.offset index
  target.window.cell size place

/-- A target locates an index without changing the buffer. -/
theorem cell_eq (target : Target) (index : List Nat) (cells : Array T) :
    target.cell index cells = (liftM (target.locate cells.size index) : Writing T Nat) cells := by
  rw [Target.cell, locate]
  cases target.mapping.offset index <;> rfl

/-- A target has a cell of its own in the buffer for every index of its shape. -/
structure Addressed (target : Target) (size : Nat) (cell : List Nat → Nat) : Prop where
  located : ∀ index, Inside target.shape.sizes index → target.locate size index = .ok (cell index)
  apart : ∀ first second, Inside target.shape.sizes first → Inside target.shape.sizes second →
    cell first = cell second → first = second

/-- A located cell lies in the buffer. -/
theorem Addressed.cell_lt {target : Target} {size : Nat} {cell : List Nat → Nat}
    (addressed : target.Addressed size cell) {index : List Nat}
    (inside : Inside target.shape.sizes index) : cell index < size := by
  obtain ⟨place, _, found⟩ := Checked.bind_eq_ok.mp (addressed.located index inside)
  exact (Window.cell_eq_ok.mp found).2

/-- Whether a target has a cell of its own for every index can be checked on the list of all indices. -/
theorem addressed_of_all {target : Target} {size : Nat} {cell : List Nat → Nat}
    (located : ∀ index ∈ all target.shape.sizes, target.locate size index = .ok (cell index))
    (apart : ∀ first ∈ all target.shape.sizes, ∀ second ∈ all target.shape.sizes,
      cell first = cell second → first = second) : target.Addressed size cell where
  located index inside := located index (mem_all.mpr inside)
  apart first second firstInside secondInside :=
    apart first (mem_all.mpr firstInside) second (mem_all.mpr secondInside)

end Target

end ShapedTensor

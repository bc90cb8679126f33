import ShapedTensor.Proofs.Element.Integer
import ShapedTensor.Proofs.Layout.Bound
import ShapedTensor.Target

namespace ShapedTensor

open Index

variable {T : Type} [Element T]

namespace View

/-- A view answers each index of its shape with the cell at the place of the index and refuses every
other one. -/
structure SafeOver (view : View T) (cells : Array T) : Prop where
  answers : ∀ index, view.shape.contains index = true → ∃ place element,
    view.mapping.offset index = .ok place ∧ cells[place]? = some element ∧
      view.source.at? index = .ok element
  refuses : ∀ index, view.shape.contains index = false →
    view.source.at? index = .error (.outsideIndexSpace index view.shape.sizes)

/-- A plainly read view of whole cells is safe when all indices of its shape have a place there. -/
theorem safeOver_iff {mapping : Mapping} {cells : Array T} :
    (⟨mapping, .plain, .ofCells cells⟩ : View T).SafeOver cells ↔
      ∀ index, Inside mapping.shape.sizes index →
        ∃ place, mapping.offset index = .ok place ∧ place < cells.size := by
  constructor
  · intro safe index inside
    obtain ⟨place, element, offset, found, _⟩ := safe.answers index (Shape.contains_iff.mpr inside)
    exact ⟨place, offset, (Array.getElem?_eq_some_iff.mp found).1⟩
  · intro placed
    constructor
    · intro index contained
      obtain ⟨place, offset, below⟩ := placed index (Shape.contains_iff.mp contained)
      have found := Array.getElem?_eq_getElem below
      have read : (⟨mapping, .plain, .ofCells cells⟩ : View T).read index = .ok cells[place] := by
        refine Checked.bind_eq_ok.mpr ⟨place, offset, ?_⟩
        simp only [Accessor.read, Handle.ofCells, Window.whole, Nat.zero_add, found]
      exact ⟨place, _, offset, found, (if_pos contained).trans read⟩
    · intro index outside
      exact if_neg (Bool.eq_false_iff.mp outside)

end View

/-- Every index of a shape has a place among enough cells, unless it is one of a broadcast over none. -/
theorem Mapping.placed_iff {mapping : Mapping} {span length : Nat} (spanned : mapping.span = .ok span)
    (enough : span ≤ length) :
    (∀ index, Inside mapping.shape.sizes index →
        ∃ place, mapping.offset index = .ok place ∧ place < length) ↔
      ¬(mapping.layout = .broadcast ∧ 0 ∉ mapping.shape.sizes ∧ length = 0) := by
  constructor
  · rintro placed ⟨layout, full, empty⟩
    have inside : Inside mapping.shape.sizes (mapping.shape.sizes.map fun _ => 0) :=
      inside_first full
    obtain ⟨place, _, below⟩ := placed _ inside
    omega
  · intro covered index inside
    by_cases broadcast : mapping.layout = .broadcast
    · have offset : mapping.offset index = .ok 0 := by
        rw [Mapping.offset, broadcast]
      refine ⟨0, offset, Nat.pos_of_ne_zero fun empty => ?_⟩
      exact covered ⟨broadcast, Inside.zero_notMem inside, empty⟩
    · obtain ⟨place, offset, below⟩ := Mapping.offset_of_span spanned broadcast inside
      exact ⟨place, offset, lt_of_lt_of_le below enough⟩

/-- A checked view and a checked target answer every index, unless they are a broadcast with elements
over no cells. -/
theorem View.safeOver_of_checked (mapping : Mapping) (cells : Array T) :
    (∀ view, View.ofCells mapping cells = .ok view →
      (view.SafeOver cells ↔
        ¬(mapping.layout = .broadcast ∧ 0 ∉ mapping.shape.sizes ∧ cells.size = 0))) ∧
    (∀ target, Target.ofLength mapping cells.size = .ok target →
      ((target.view cells).SafeOver cells ↔
        ¬(mapping.layout = .broadcast ∧ 0 ∉ mapping.shape.sizes ∧ cells.size = 0))) := by
  constructor
  · intro view checked
    obtain ⟨passed, built⟩ := Checked.check_eq_ok.mp checked
    obtain ⟨span, spanned, enough⟩ := checkSpan_eq_ok.mp passed
    obtain rfl := Except.ok.inj built
    rw [safeOver_iff, Mapping.placed_iff spanned enough]
  · intro target checked
    obtain ⟨passed, built⟩ := Checked.check_eq_ok.mp checked
    obtain ⟨span, spanned, enough⟩ := checkSpan_eq_ok.mp passed
    obtain rfl := Except.ok.inj built
    change (⟨mapping, .plain, .ofCells cells⟩ : View T).SafeOver cells ↔ _
    rw [safeOver_iff, Mapping.placed_iff spanned enough]

open scoped Integer in
/-- A column-major view and a column-major target of six cells answer their last index and refuse the
one after it. -/
theorem View.safeOver_of_checked_columnMajor :
    let columns : Mapping := ⟨.ofFree [2, 3], .columnMajor⟩
    let cells : Array Int := #[1, 2, 3, 4, 5, 6]
    (∃ view, View.ofCells columns cells = .ok view ∧ view.SafeOver cells) ∧
      ∃ target, Target.ofLength columns cells.size = .ok target ∧ (target.view cells).SafeOver cells := by
  intro columns cells
  have packed : ¬(columns.layout = .broadcast ∧ 0 ∉ columns.shape.sizes ∧ cells.size = 0) := by decide
  constructor
  · have checked : View.ofCells columns cells = .ok ⟨columns, .plain, .ofCells cells⟩ := rfl
    exact ⟨_, checked, ((View.safeOver_of_checked columns cells).1 _ checked).mpr packed⟩
  · have checked : Target.ofLength columns cells.size = .ok (.whole columns) := rfl
    exact ⟨_, checked, ((View.safeOver_of_checked columns cells).2 _ checked).mpr packed⟩

open scoped Integer in
/-- A broadcast over no cells passes the check, and then its first index finds no cell. -/
theorem View.broadcast_over_nothing_unsafe :
    ∃ view : View Int, View.ofCells ⟨.ofFree [3], .broadcast⟩ #[] = .ok view ∧
      view.shape.contains [0] = true ∧ view.source.at? [0] = .error (.positionPastEnd 0 0) :=
  ⟨_, rfl, rfl, rfl⟩

end ShapedTensor

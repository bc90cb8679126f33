import ShapedTensor.Shape.Algebra
import ShapedTensor.Proofs.Run.Checked

namespace ShapedTensor

namespace Axis

/-- An axis of a size under an entry has this size and this entry. -/
theorem ofSize_eq_ok {entry : Option Nat} {size : Nat} {axis : Axis} :
    ofSize entry size = .ok axis ↔ axis.size = size ∧ axis.fixedSize? = entry := by
  cases entry with
  | none => cases axis <;> simp [ofSize, Axis.size, fixedSize?, eq_comm]
  | some fixedSize =>
      rw [ofSize, Checked.ite_eq_ok, Except.ok.injEq]
      cases axis with
      | free own => simp [fixedSize?]
      | fixed own =>
          simp only [Axis.size, fixedSize?, fixed.injEq, Option.some.injEq]
          omega

/-- Axes of one size join to an axis of that size. -/
theorem size_join {left right : Axis} (same : left.size = right.size) :
    (left.join right).size = left.size := by
  cases left with
  | fixed size => rfl
  | free size => exact same.symm

end Axis

namespace Shape

/-- Axes are built from their sizes under the entries of their pattern. -/
theorem axesOfSizes_eq_ok {pattern : Pattern} {sizes : List Nat} {axes : List Axis}
    (lengths : sizes.length = pattern.length) :
    axesOfSizes pattern sizes = .ok axes ↔
      axes.map Axis.size = sizes ∧ axes.map Axis.fixedSize? = pattern := by
  induction pattern generalizing sizes axes with
  | nil =>
      obtain rfl := List.length_eq_zero_iff.mp lengths
      cases axes <;> simp [axesOfSizes]
  | cons entry pattern ih =>
      cases sizes with
      | nil => simp at lengths
      | cons size sizes =>
          have rest (axes : List Axis) : axesOfSizes pattern sizes = .ok axes ↔
              axes.map Axis.size = sizes ∧ axes.map Axis.fixedSize? = pattern :=
            ih (by simpa using lengths)
          rw [axesOfSizes, Checked.bind_eq_ok]
          simp only [Checked.bind_eq_ok, Axis.ofSize_eq_ok, rest]
          constructor
          · rintro ⟨axis, ⟨rfl, rfl⟩, others, ⟨rfl, rfl⟩, built⟩
            obtain rfl := Except.ok.inj built
            exact ⟨rfl, rfl⟩
          · rintro ⟨sized, patterned⟩
            cases axes with
            | nil => cases sized
            | cons axis axes =>
                obtain ⟨rfl, rfl⟩ := List.cons.inj sized
                obtain ⟨rfl, rfl⟩ := List.cons.inj patterned
                exact ⟨axis, ⟨rfl, rfl⟩, axes, ⟨rfl, rfl⟩, rfl⟩

/-- The shape of given sizes under a pattern is the one that has these sizes and this pattern. -/
theorem ofSizes_eq_ok {pattern : Pattern} {sizes : List Nat} {shape : Shape} :
    ofSizes pattern sizes = .ok shape ↔ shape.sizes = sizes ∧ shape.pattern = pattern := by
  rw [ofSizes, Checked.ite_eq_ok, Checked.map_eq_ok]
  constructor
  · rintro ⟨lengths, axes, built, rfl⟩
    exact (axesOfSizes_eq_ok lengths).mp built
  · rintro ⟨rfl, rfl⟩
    have lengths : shape.sizes.length = shape.pattern.length := by simp
    exact ⟨lengths, shape.axes, (axesOfSizes_eq_ok lengths).mpr ⟨rfl, rfl⟩, rfl⟩

/-- A shape of given sizes has these sizes. -/
theorem sizes_of_ofSizes {pattern : Pattern} {sizes : List Nat} {shape : Shape}
    (shaped : ofSizes pattern sizes = .ok shape) : shape.sizes = sizes :=
  (ofSizes_eq_ok.mp shaped).1

/-- A shape has as many axes as the parts into which its sizes are cut. -/
theorem rank_of_append {shape : Shape} {first rest : List Nat} (cut : shape.sizes = first ++ rest) :
    shape.rank = first.length + rest.length := by
  rw [← sizes_length, cut, List.length_append]

theorem convert_pattern (shape : Shape) : shape.convert shape.pattern = .ok shape :=
  ofSizes_eq_ok.mpr ⟨rfl, rfl⟩

/-- Giving free axes their sizes keeps the pattern. -/
theorem pattern_fillFree (pattern : Pattern) (sizes : List Nat) :
    (⟨fillFree pattern sizes⟩ : Shape).pattern = pattern := by
  rw [Shape.pattern]
  induction pattern generalizing sizes with
  | nil => rfl
  | cons entry pattern ih =>
      cases entry with
      | some size => exact congrArg (some size :: ·) (ih sizes)
      | none => exact congrArg (none :: ·) (ih sizes.tail)

/-- An axis that the pattern fixes has this size. -/
theorem sizes_of_pattern {shape : Shape} {axis size : Nat}
    (fixed : shape.pattern[axis]? = some (some size)) : shape.sizes[axis]? = some size := by
  rw [Shape.pattern, List.getElem?_map, Option.map_eq_some_iff] at fixed
  obtain ⟨own, listed, entry⟩ := fixed
  rw [Shape.sizes, List.getElem?_map, listed]
  cases own with
  | fixed own => exact entry
  | free own => cases entry

/-- Sizes make a shape under a pattern of as many axes exactly when they are the fixed sizes where there are
some. -/
theorem exists_ofSizes_iff {pattern : Pattern} {sizes : List Nat}
    (lengths : sizes.length = pattern.length) :
    (∃ shape, ofSizes pattern sizes = .ok shape) ↔
      ∀ axis size : Nat, pattern[axis]? = some (some size) → sizes[axis]? = some size := by
  simp only [ofSizes_eq_ok]
  constructor
  · rintro ⟨shape, rfl, rfl⟩ axis size
    exact sizes_of_pattern
  · intro fits
    induction pattern generalizing sizes with
    | nil => exact ⟨⟨[]⟩, (List.eq_nil_of_length_eq_zero lengths).symm, rfl⟩
    | cons entry pattern ih =>
        cases sizes with
        | nil => cases lengths
        | cons size sizes =>
            obtain ⟨⟨axes⟩, rfl, rfl⟩ :=
              ih (Nat.succ.inj lengths) fun axis => fits (axis + 1)
            refine ⟨⟨entry.elim (.free size) .fixed :: axes⟩, ?_, ?_⟩
            all_goals cases entry with
              | none => rfl
              | some fixed =>
                  obtain rfl := Option.some.inj (fits 0 fixed rfl)
                  rfl

/-- Two shapes combine when their sizes are the same, and to a shape of these sizes. -/
theorem sizes_of_combine {left right shape : Shape} (combined : left.combine right = .ok shape) :
    left.sizes = right.sizes ∧ shape.sizes = left.sizes := by
  obtain ⟨same, built⟩ := Checked.ite_eq_ok.mp combined
  have sizes := (left.sameSizes_iff right).mp same
  refine ⟨sizes, ?_⟩
  obtain rfl := Except.ok.inj built
  clear same combined built
  rcases left with ⟨left⟩
  rcases right with ⟨right⟩
  simp only [Shape.sizes] at sizes ⊢
  induction left generalizing right with
  | nil => rfl
  | cons axis left ih =>
      cases right with
      | nil => simp at sizes
      | cons other right =>
          obtain ⟨first, rest⟩ := List.cons.inj sizes
          rw [List.zipWith_cons_cons, List.map_cons, List.map_cons, Axis.size_join first, ih right rest]

/-- Shapes of the same sizes combine. -/
theorem exists_combine {left right : Shape} (same : left.sizes = right.sizes) :
    ∃ shape, left.combine right = .ok shape := by
  rw [combine, if_pos ((sameSizes_iff _ _).mpr same)]
  exact ⟨_, rfl⟩

theorem combine_self (shape : Shape) : shape.combine shape = .ok shape := by
  have join (axis : Axis) : axis.join axis = axis := by cases axis <;> rfl
  rw [combine, if_pos ((sameSizes_iff _ _).mpr rfl), List.zipWith_self]
  simp [join]

theorem sizes_tail (shape : Shape) : shape.tail.sizes = shape.sizes.tail := by
  simp [tail, splitFirst, sizes]

theorem sizes_transpose (shape : Shape) : shape.transpose.sizes = shape.sizes.reverse := by
  rw [transpose, sizes, sizes, List.map_reverse]

end Shape

end ShapedTensor

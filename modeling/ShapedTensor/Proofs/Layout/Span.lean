import ShapedTensor.Proofs.Layout.Offset
import ShapedTensor.Proofs.View.Transpose

namespace ShapedTensor

open Index

namespace Index

/-- The largest coordinates of a box without an empty side lie inside it. -/
theorem inside_last {sizes : List Nat} (full : 0 ∉ sizes) : Inside sizes (sizes.map (· - 1)) := by
  induction sizes with
  | nil => exact .nil
  | cons size sizes ih =>
      simp only [List.mem_cons, not_or] at full
      rw [List.map_cons]
      apply List.Forall₂.cons
      · omega
      · exact ih full.2

end Index

/-- Two words have a product when one of them is zero. -/
theorem Size.product_pair_of_zero {rows columns : Nat} (word : rows < bound)
    (empty : 0 ∈ [rows, columns]) : product [rows, columns] = .ok 0 := by
  have first : mul 1 rows = .ok rows := mul_eq_ok.mpr ⟨Nat.one_mul rows, word⟩
  have none : rows * columns = 0 := by
    rw [Nat.mul_eq_zero]
    simpa [eq_comm] using empty
  have second : mul rows columns = .ok 0 := mul_eq_ok.mpr ⟨none, by decide⟩
  exact Checked.bind_eq_ok.mpr ⟨rows, first, Checked.bind_eq_ok.mpr ⟨0, second, rfl⟩⟩

namespace Mapping

variable {mapping : Mapping} {length : Nat}

/-- A length is exact for a mapping when it is one more than the place of the last index and no index has
a larger place. -/
structure ExactSpan (mapping : Mapping) (length : Nat) : Prop where
  last : Inside mapping.shape.sizes (mapping.shape.sizes.map (· - 1))
  attained : ∃ place, mapping.offset (mapping.shape.sizes.map (· - 1)) = .ok place ∧ place + 1 = length
  placed : ∀ index, Inside mapping.shape.sizes index →
    ∃ place, mapping.offset index = .ok place ∧ place < length

/-- The span of a box without an empty side is exact in every layout but a broadcast. -/
theorem exactSpan_of_span (spread : mapping.layout ≠ .broadcast) (full : 0 ∉ mapping.shape.sizes)
    (spanned : mapping.span = .ok length) : mapping.ExactSpan length := by
  have last := inside_last full
  obtain ⟨same, word⟩ := (span_eq_ok spread full).mp spanned
  constructor
  case last => exact last
  case attained =>
    refine ⟨Strides.total ((mapping.shape.sizes.map (· - 1)).zip mapping.strides), ?_, ?_⟩
    · rw [offset_eq_ok last]
      omega
    · omega
  case placed =>
    intro index inside
    exact offset_of_span spanned spread inside

/-- The span of strides on a box without an empty side is formed when the largest place and one is a
word. -/
theorem span_exists_iff (spread : mapping.layout ≠ .broadcast) (full : 0 ∉ mapping.shape.sizes) :
    (∃ length, mapping.span = .ok length) ↔
      1 + Strides.total ((mapping.shape.sizes.map (· - 1)).zip mapping.strides) < Size.bound := by
  simp only [span_eq_ok spread full]
  constructor
  · rintro ⟨_, rfl, word⟩
    exact word
  · exact fun word => ⟨_, rfl, word⟩

/-- Each slice of a box without an empty side has a span, which ends within the span of the whole. -/
theorem exists_slice_span (regular : mapping.Regular) (full : 0 ∉ mapping.shape.sizes)
    (spanned : mapping.span = .ok length) {size position : Nat}
    (sized : mapping.shape.sizeAt 0 = .ok size) (below : position < size) :
    ∃ rest distance inner, mapping.Cut position length rest distance ∧ rest.span = .ok inner ∧
      distance + inner ≤ length := by
  have fits : mapping.Fits length := ⟨regular.length_strides, length, spanned, Nat.le_refl length⟩
  obtain ⟨rest, distance, cut⟩ := (fits.exists_cut_iff sized below).mpr (Or.inl full)
  obtain ⟨inner, innerSpanned, enough⟩ := (fits.cut cut).spanned
  have among := cut.among
  exact ⟨rest, distance, inner, cut, innerSpanned, by omega⟩

section Pair

variable {rows columns : Nat} (sizes : mapping.shape.sizes = [rows, columns])
  (rowsWord : rows < Size.bound)
include sizes rowsWord

/-- The span of a matrix without rows or columns is zero. -/
theorem span_pair_of_empty (empty : 0 ∈ mapping.shape.sizes) : mapping.span = .ok 0 := by
  rcases mapping with ⟨shape, layout⟩
  change shape.sizes = _ at sizes
  change 0 ∈ shape.sizes at empty
  have counted : shape.size = .ok 0 := by
    rw [Shape.size, sizes]
    exact Size.product_pair_of_zero rowsWord (sizes ▸ empty)
  cases layout with
  | rowMajor => exact counted
  | columnMajor => exact counted
  | strided strides => exact Strides.span_of_empty empty strides
  | broadcast => rfl

/-- A matrix in a strided layout has a transposed mapping, of the same span. -/
theorem exists_transpose_span (columnsWord : columns < Size.bound) (regular : mapping.Regular)
    (strided : mapping.isStrided = true) :
    ∃ turned, mapping.transpose = .ok turned ∧ turned.shape = mapping.shape.transpose ∧
      ∀ length, turned.span = .ok length ↔ mapping.span = .ok length := by
  obtain ⟨turned, transposed, shape, _⟩ := transpose_pair sizes rowsWord columnsWord regular strided
  have rank : mapping.shape.rank = 2 := by
    rw [← Shape.sizes_length, sizes]
    rfl
  refine ⟨turned, transposed, shape, fun length => ?_⟩
  by_cases empty : 0 ∈ mapping.shape.sizes
  · rw [span_of_transpose_empty rank regular.length_strides transposed empty,
      span_pair_of_empty sizes rowsWord empty]
  · exact span_of_transpose rank regular.length_strides transposed empty

end Pair

/-- The span of strides is zero if a side is empty, and otherwise one more than the largest place. -/
theorem strided_span_exact {shape : Shape} {strides : List Nat}
    (regular : strides.length = shape.rank) (words : ∀ size ∈ shape.sizes, size < Size.bound) :
    let mapping : Mapping := ⟨shape, .strided strides⟩
    (0 ∈ shape.sizes → mapping.span = .ok 0) ∧
    (0 ∉ shape.sizes →
      ((∃ length, mapping.span = .ok length) ↔
        1 + Strides.total ((shape.sizes.map (· - 1)).zip strides) < Size.bound) ∧
      ∀ length, mapping.span = .ok length →
        mapping.ExactSpan length ∧
        ∀ size position, shape.sizeAt 0 = .ok size → position < size →
          ∃ rest distance inner, mapping.Cut position length rest distance ∧
            rest.span = .ok inner ∧ distance + inner ≤ length) ∧
    ∀ layout, let matrix : Mapping := ⟨shape, layout⟩
      shape.rank = 2 → matrix.Regular → matrix.isStrided = true →
        ∃ turned, matrix.transpose = .ok turned ∧ turned.shape = shape.transpose ∧
          ∀ length, turned.span = .ok length ↔ matrix.span = .ok length := by
  intro mapping
  have spread : mapping.layout ≠ .broadcast := by simp [mapping]
  have ownRegular : mapping.Regular := regular
  refine ⟨fun empty => Strides.span_of_empty empty strides, fun full => ⟨?_, ?_⟩, ?_⟩
  · exact span_exists_iff spread full
  · intro length spanned
    refine ⟨exactSpan_of_span spread full spanned, ?_⟩
    intro size position sized below
    exact exists_slice_span ownRegular full spanned sized below
  · intro layout matrix rank matrixRegular strided
    have two : shape.sizes.length = 2 := by rw [Shape.sizes_length, rank]
    obtain ⟨rows, columns, sizes⟩ := List.length_eq_two.mp two
    rw [sizes] at words
    simp only [List.mem_cons, List.not_mem_nil, or_false, forall_eq_or_imp, forall_eq] at words
    exact exists_transpose_span sizes words.1 words.2 matrixRegular strided

/-- Two rows of three columns that begin four cells apart span seven cells, and so do the transposed
ones. -/
theorem strided_span_exact_padded :
    let shape : Shape := ⟨[.free 2, .fixed 3]⟩
    let mapping : Mapping := ⟨shape, .strided [4, 1]⟩
    mapping.span = .ok 7 ∧ mapping.ExactSpan 7 ∧
      (∃ rest distance inner, mapping.Cut 1 7 rest distance ∧ rest.span = .ok inner ∧
        distance + inner ≤ 7) ∧
      ∃ turned, mapping.transpose = .ok turned ∧ turned.shape = shape.transpose ∧
        turned.span = .ok 7 := by
  intro shape mapping
  obtain ⟨_, exact, turns⟩ := @strided_span_exact shape [4, 1] rfl (by decide)
  have spanned : mapping.span = .ok 7 := rfl
  obtain ⟨whole, slices⟩ := (exact (by decide)).2 7 spanned
  obtain ⟨turned, transposed, turnedShape, same⟩ := turns (.strided [4, 1]) rfl rfl rfl
  exact ⟨spanned, whole, slices 2 1 rfl (by decide), turned, transposed, turnedShape,
    (same 7).mpr spanned⟩

end Mapping

end ShapedTensor

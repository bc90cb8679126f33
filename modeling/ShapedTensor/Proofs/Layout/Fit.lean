import ShapedTensor.Proofs.Layout.Stride
import ShapedTensor.Proofs.Shape.Algebra

namespace ShapedTensor

namespace Shape

/-- The size of the first axis is the first of the sizes. -/
theorem sizeAt_first_eq_ok {shape : Shape} {size : Nat} :
    shape.sizeAt 0 = .ok size ↔ ∃ sizes, shape.sizes = size :: sizes := by
  rw [sizeAt]
  cases shape.sizes with
  | nil => simp
  | cons first sizes => simp

/-- The sizes of a first axis and of the others count the axes. -/
theorem rank_of_sizes {shape : Shape} {size : Nat} {sizes : List Nat}
    (listed : shape.sizes = size :: sizes) : shape.rank = sizes.length + 1 := by
  rw [← sizes_length, listed, List.length_cons]

/-- A shape with a slice has an empty side only behind its first one. -/
theorem zero_mem_iff_of_sizes {shape : Shape} {size position : Nat} {sizes : List Nat}
    (listed : shape.sizes = size :: sizes) (below : position < size) :
    0 ∈ shape.sizes ↔ 0 ∈ sizes := by
  rw [listed, List.mem_cons, or_iff_right]
  omega

end Shape

namespace Mapping

/-- A mapping fits into `room` cells when it has a stride for each axis and its span is no longer. -/
structure Fits (mapping : Mapping) (room : Nat) : Prop where
  regular : mapping.strides.length = mapping.shape.rank
  spanned : ∃ span, mapping.span = .ok span ∧ span ≤ room

/-- A slice starts at this position of `room` cells when its distance is a word and lies among them. -/
def Starts (mapping : Mapping) (position room : Nat) : Prop :=
  ∃ stride, mapping.stride 0 = .ok stride ∧ stride * position < Size.bound ∧
    stride * position ≤ room

/-- A mapping is cut at a position of its first axis when the slice starts at this distance among
`room` cells and goes on without the axis. -/
structure Cut (mapping : Mapping) (position room : Nat) (rest : Mapping) (distance : Nat) : Prop where
  inside : ∃ size, mapping.shape.sizeAt 0 = .ok size ∧ position < size
  apart : ∃ stride, mapping.stride 0 = .ok stride ∧ Size.mul stride position = .ok distance
  among : distance ≤ room
  tail : mapping.tail = .ok rest

variable {mapping rest : Mapping} {room size position stride : Nat} {sizes : List Nat}

/-- A mapping that fits has a distance between the slices of a first axis that is not empty. -/
theorem Fits.stride_first (fits : mapping.Fits room) (listed : mapping.shape.sizes = size :: sizes)
    (filled : 0 < size) : ∃ stride, mapping.stride 0 = .ok stride := by
  rcases fits.spanned with ⟨span, spanned, _⟩
  have regular := fits.regular
  rcases mapping with ⟨shape, layout⟩
  change shape.sizes = size :: sizes at listed
  have rank := Shape.rank_of_sizes listed
  cases layout with
  | rowMajor =>
      change Size.product shape.sizes = .ok span at spanned
      rw [listed] at spanned
      obtain ⟨stride, formed, _⟩ := Size.product_of_cons filled spanned
      refine ⟨stride, Checked.bind_eq_ok.mpr ⟨1, rfl, Checked.ite_eq_ok.mpr ⟨?_, ?_⟩⟩⟩
      · change 1 ≤ shape.rank
        omega
      · change Size.product (shape.sizes.drop 1) = .ok stride
        rw [listed]
        exact formed
  | columnMajor =>
      refine ⟨1, ?_⟩
      rw [Mapping.stride, Shape.sizeBefore, if_pos (Nat.zero_le _)]
      rfl
  | strided strides =>
      change strides.length = shape.rank at regular
      cases strides with
      | nil => simp_all
      | cons stride strides => exact ⟨stride, rfl⟩
  | broadcast => exact ⟨0, rfl⟩

/-- The span is one more than the last distance of a slice and the last place in a slice. -/
theorem span_of_first {span : Nat} (spread : mapping.layout ≠ .broadcast)
    (full : 0 ∉ mapping.shape.sizes) (listed : mapping.shape.sizes = size :: sizes)
    (found : mapping.stride 0 = .ok stride) (spanned : mapping.span = .ok span) :
    1 + ((size - 1) * stride + Strides.total ((sizes.map (· - 1)).zip mapping.strides.tail)) = span ∧
      span < Size.bound := by
  have rank := Shape.rank_of_sizes listed
  have first := strides_of_stride (by omega) found
  have total := (span_eq_ok spread full).mp spanned
  rw [listed] at total
  cases strides : mapping.strides with
  | nil => simp [strides] at first
  | cons own others =>
      obtain rfl : own = stride := by simpa [strides] using first
      rw [strides] at total
      exact total

theorem distance_le (below : position < size) : stride * position ≤ (size - 1) * stride := by
  rw [Nat.mul_comm]
  exact Nat.mul_le_mul_right stride (by omega)

/-- In a mapping that fits, each slice of a box without an empty side starts among the cells. -/
theorem Fits.starts (fits : mapping.Fits room) (listed : mapping.shape.sizes = size :: sizes)
    (below : position < size) (full : 0 ∉ mapping.shape.sizes) : mapping.Starts position room := by
  obtain ⟨stride, found⟩ := fits.stride_first listed (Nat.zero_lt_of_lt below)
  rcases fits.spanned with ⟨span, spanned, enough⟩
  refine ⟨stride, found, ?_⟩
  by_cases broadcast : mapping.layout = .broadcast
  · rw [Mapping.stride, broadcast] at found
    obtain rfl := Except.ok.inj found
    rw [Nat.zero_mul]
    exact ⟨by decide, Nat.zero_le room⟩
  · obtain ⟨total, word⟩ := span_of_first broadcast full listed found spanned
    have furthest : stride * position ≤ (size - 1) * stride := distance_le below
    constructor <;> omega

/-- Without its first axis a mapping keeps the other sizes. -/
theorem sizes_of_tail (listed : mapping.shape.sizes = size :: sizes)
    (cut : mapping.tail = .ok rest) : rest.shape.sizes = sizes := by
  rw [(tail_eq_ok cut).1, Shape.sizes_tail, listed, List.tail_cons]

/-- The slice of a mapping that fits has no span when one of its sides is empty. -/
theorem Fits.span_tail_of_empty (fits : mapping.Fits room)
    (listed : mapping.shape.sizes = size :: sizes) (filled : 0 < size) (empty : 0 ∈ sizes)
    (cut : mapping.tail = .ok rest) : rest.span = .ok 0 := by
  rcases fits.spanned with ⟨span, spanned, _⟩
  have others := sizes_of_tail listed cut
  rcases mapping with ⟨shape, layout⟩
  cases layout with
  | rowMajor =>
      obtain rfl := Except.ok.inj cut
      change Size.product shape.sizes = .ok span at spanned
      rw [listed] at spanned
      obtain ⟨product, formed, _⟩ := Size.product_of_cons filled spanned
      have counted := (Size.prod_of_product (by decide) formed).1
      rw [List.prod_eq_zero_iff_exists_zero_nat.mpr ⟨0, empty, rfl⟩, Nat.mul_zero] at counted
      change Size.product shape.tail.sizes = .ok 0
      rw [others, formed, counted]
  | columnMajor =>
      obtain ⟨strides, _, built⟩ := Checked.bind_eq_ok.mp cut
      obtain rfl := Except.ok.inj built
      exact Strides.span_of_empty (others ▸ empty) _
  | strided strides =>
      obtain rfl := Except.ok.inj cut
      exact Strides.span_of_empty (others ▸ empty) _
  | broadcast =>
      obtain rfl := Except.ok.inj cut
      rfl

/-- The mapping of a slice fits into the cells from the start of the slice on. -/
theorem Fits.tail (fits : mapping.Fits room) (listed : mapping.shape.sizes = size :: sizes)
    (below : position < size) (found : mapping.stride 0 = .ok stride)
    (cut : mapping.tail = .ok rest) : rest.Fits (room - stride * position) := by
  obtain ⟨_, strides, layout⟩ := tail_eq_ok cut
  have others := sizes_of_tail listed cut
  constructor
  · rw [strides, List.length_tail, fits.regular, ← Shape.sizes_length, ← Shape.sizes_length, others,
      listed, List.length_cons, Nat.add_sub_cancel]
  · -- The span of an empty box says nothing about the strides, so that case goes by the layout.
    by_cases empty : 0 ∈ sizes
    · have filled : 0 < size := Nat.zero_lt_of_lt below
      exact ⟨0, fits.span_tail_of_empty listed filled empty cut, Nat.zero_le _⟩
    · by_cases broadcast : mapping.layout = .broadcast
      · refine ⟨0, ?_, Nat.zero_le _⟩
        rw [span, layout.mpr broadcast]
      · rcases fits.spanned with ⟨span, spanned, enough⟩
        have full : 0 ∉ mapping.shape.sizes := by
          rwa [Shape.zero_mem_iff_of_sizes listed below]
        obtain ⟨total, word⟩ := span_of_first broadcast full listed found spanned
        have furthest : stride * position ≤ (size - 1) * stride := distance_le below
        have spread : rest.layout ≠ .broadcast := fun same => broadcast (layout.mp same)
        have counted := (span_eq_ok spread (others ▸ empty)).mpr ⟨rfl, ?_⟩
        · rw [others, strides] at counted
          exact ⟨_, counted, by omega⟩
        · rw [others, strides]
          omega

/-- Cutting a mapping that fits leaves one that fits into the cells from the start of the slice on. -/
theorem Fits.cut {distance : Nat} (fits : mapping.Fits room)
    (cut : mapping.Cut position room rest distance) : rest.Fits (room - distance) := by
  rcases cut.inside with ⟨size, sized, below⟩
  rcases cut.apart with ⟨stride, found, product⟩
  obtain ⟨rfl, _⟩ := Size.mul_eq_ok.mp product
  obtain ⟨sizes, listed⟩ := Shape.sizeAt_first_eq_ok.mp sized
  exact fits.tail listed below found cut.tail

/-- A mapping that fits can be cut wherever no side is empty or the slice starts among the cells. -/
theorem Fits.exists_cut_iff (fits : mapping.Fits room) (sized : mapping.shape.sizeAt 0 = .ok size)
    (below : position < size) :
    (∃ rest distance, mapping.Cut position room rest distance) ↔
      0 ∉ mapping.shape.sizes ∨ mapping.Starts position room := by
  constructor
  · rintro ⟨rest, distance, cut⟩
    rcases cut.apart with ⟨stride, found, product⟩
    obtain ⟨rfl, word⟩ := Size.mul_eq_ok.mp product
    exact Or.inr ⟨stride, found, word, cut.among⟩
  · intro either
    obtain ⟨sizes, listed⟩ := Shape.sizeAt_first_eq_ok.mp sized
    have starts : mapping.Starts position room := either.elim (fits.starts listed below) id
    rcases starts with ⟨stride, found, word, among⟩
    rcases fits.spanned with ⟨span, spanned, _⟩
    obtain ⟨rest, tail⟩ := tail_of_span spanned
    have product : Size.mul stride position = .ok (stride * position) :=
      Size.mul_eq_ok.mpr ⟨rfl, word⟩
    exact ⟨rest, stride * position, ⟨size, sized, below⟩, ⟨stride, found, product⟩, among, tail⟩

/-- An exchange of two axes reverses the sizes and the strides. -/
theorem transpose_reverses {other : Mapping} (rank : mapping.shape.rank = 2)
    (regular : mapping.strides.length = mapping.shape.rank)
    (exchanged : mapping.transpose = .ok other) :
    other.shape.sizes = mapping.shape.sizes.reverse ∧ other.strides = mapping.strides.reverse := by
  obtain ⟨_, shape, layout⟩ := transpose_eq_ok rank regular exchanged
  rw [shape, Shape.sizes_transpose, strides, layout]
  exact ⟨rfl, rfl⟩

/-- An exchange of two axes keeps the span of a box without an empty side. -/
theorem span_of_transpose {other : Mapping} {length : Nat} (rank : mapping.shape.rank = 2)
    (regular : mapping.strides.length = mapping.shape.rank)
    (exchanged : mapping.transpose = .ok other) (full : 0 ∉ mapping.shape.sizes) :
    other.span = .ok length ↔ mapping.span = .ok length := by
  obtain ⟨spread, _, layout⟩ := transpose_eq_ok rank regular exchanged
  obtain ⟨sizes, strides⟩ := transpose_reverses rank regular exchanged
  have kept : other.layout ≠ .broadcast := by simp [layout]
  have otherFull : 0 ∉ other.shape.sizes := by rwa [sizes, List.mem_reverse]
  have paired : (mapping.shape.sizes.map (· - 1)).length = mapping.strides.length := by
    rw [List.length_map, Shape.sizes_length, regular]
  rw [span_eq_ok kept otherFull, span_eq_ok spread full, sizes, strides, List.map_reverse,
    Strides.total_reverse paired]

/-- An exchange of two axes leaves the span of a box with an empty side at zero. -/
theorem span_of_transpose_empty {other : Mapping} (rank : mapping.shape.rank = 2)
    (regular : mapping.strides.length = mapping.shape.rank)
    (exchanged : mapping.transpose = .ok other) (empty : 0 ∈ mapping.shape.sizes) :
    other.span = .ok 0 := by
  obtain ⟨_, _, layout⟩ := transpose_eq_ok rank regular exchanged
  have remains : 0 ∈ other.shape.sizes := by
    rwa [(transpose_reverses rank regular exchanged).1, List.mem_reverse]
  rw [span, layout]
  exact Strides.span_of_empty remains _

/-- A transposed mapping fits into the same cells. -/
theorem Fits.transpose {other : Mapping} (fits : mapping.Fits room) (rank : mapping.shape.rank = 2)
    (exchanged : mapping.transpose = .ok other) : other.Fits room := by
  obtain ⟨sizes, strides⟩ := transpose_reverses rank fits.regular exchanged
  have regular : other.strides.length = other.shape.rank := by
    rw [strides, List.length_reverse, fits.regular, ← Shape.sizes_length, ← Shape.sizes_length, sizes,
      List.length_reverse]
  rcases fits.spanned with ⟨span, spanned, enough⟩
  refine ⟨regular, ?_⟩
  by_cases empty : 0 ∈ mapping.shape.sizes
  · exact ⟨0, span_of_transpose_empty rank fits.regular exchanged empty, Nat.zero_le room⟩
  · exact ⟨span, (span_of_transpose rank fits.regular exchanged empty).mpr spanned, enough⟩

end Mapping

end ShapedTensor

import ShapedTensor.Proofs.Layout.Conversion
import ShapedTensor.Proofs.Layout.Packed

namespace ShapedTensor

open Index

namespace Size

variable {α β : Type} {parts : List Nat → Prop} {computed : Except Fault α} {result : α} {sizes : List Nat}

/-- A computation is exact when it is refused as an overflow just where one of its parts has a product
that is no word. -/
structure Exact (parts : List Nat → Prop) (computed : Except Fault α) (result : α) : Prop where
  refused : computed = .error .productOverflow ↔ ∃ part, parts part ∧ bound ≤ part.prod
  formed : computed = .ok result ↔ ∀ part, parts part → part.prod < bound

/-- A computation is exact when it has its result where all parts are words and is refused elsewhere. -/
theorem exact_of_cases
    (words : (∀ part, parts part → part.prod < bound) → computed = .ok result)
    (overflow : (∃ part, parts part ∧ bound ≤ part.prod) → computed = .error .productOverflow) :
    Exact parts computed result := by
  by_cases all : ∀ part, parts part → part.prod < bound
  · have none : ¬∃ part, parts part ∧ bound ≤ part.prod := fun ⟨part, met, large⟩ =>
      absurd (all part met) (Nat.not_lt.mpr large)
    have formed := words all
    exact ⟨⟨by simp [formed], fun some => absurd some none⟩, ⟨fun _ => all, fun _ => formed⟩⟩
  · have some : ∃ part, parts part ∧ bound ≤ part.prod := by
      simpa only [not_forall, Nat.not_lt, exists_prop] using all
    have refused := overflow some
    exact ⟨⟨fun _ => some, fun _ => refused⟩, ⟨by simp [refused], fun words => absurd words all⟩⟩

/-- What is made of the result of an exact computation is exact over the same parts. -/
theorem Exact.map (exact : Exact parts computed result) (image : α → β) :
    Exact parts (image <$> computed) (image result) := by
  refine exact_of_cases (fun words => ?_) fun overflow => ?_
  · rw [exact.formed.mpr words]
    rfl
  · rw [exact.refused.mpr overflow]
    rfl

/-- What is exact over the first parts of the reversed sizes is exact over the last parts of the sizes. -/
theorem Exact.of_reverse (exact : Exact (· <+: sizes.reverse) computed result) :
    Exact (· <:+ sizes) computed result := by
  constructor
  · rw [exact.refused, List.reverse_surjective.exists]
    simp only [List.reverse_prefix, List.prod_reverse]
  · rw [exact.formed, List.reverse_surjective.forall]
    simp only [List.reverse_prefix, List.prod_reverse]

/-- A product is refused as soon as the product of one first part is no word. -/
theorem overflow_of_prefix {start : Nat} (below : start < bound)
    (overflow : ∃ part, part <+: sizes ∧ bound ≤ start * part.prod) :
    sizes.foldlM mul start = .error .productOverflow := by
  obtain ⟨part, met, large⟩ := overflow
  induction sizes generalizing start part with
  | nil =>
      obtain rfl := List.prefix_nil.mp met
      rw [List.prod_nil] at large
      omega
  | cons size sizes ih =>
      rw [List.foldlM_cons, mul]
      split
      case isTrue small =>
        -- The first product is a word, so the part that overflows goes on behind it.
        rcases List.prefix_cons_iff.mp met with rfl | ⟨rest, rfl, rested⟩
        · rw [List.prod_nil] at large
          omega
        · rw [List.prod_cons, ← Nat.mul_assoc] at large
          exact ih small rest rested large
      case isFalse => rfl

theorem product_exact (sizes : List Nat) : Exact (· <+: sizes) (product sizes) sizes.prod := by
  refine exact_of_cases (fun words => ?_) fun overflow => ?_
  · have formed := @product_of_prefixes sizes 1 (by simpa only [Nat.one_mul] using words)
    rwa [Nat.one_mul] at formed
  · exact overflow_of_prefix (by decide) (by simpa only [Nat.one_mul] using overflow)

end Size

namespace Strides

/-- The products of the sizes after each axis, one axis at a time. -/
theorem after_eq_map (sizes : List Nat) :
    after sizes = (List.range sizes.length).map fun axis => (sizes.drop (axis + 1)).prod := by
  apply List.ext_getElem?
  intro axis
  by_cases below : axis < sizes.length
  · rw [getElem?_after below, List.getElem?_map, List.getElem?_range below, Option.map_some]
  · rw [List.getElem?_eq_none (by simpa using below), List.getElem?_eq_none (by simpa using below)]

/-- The products of the sizes before each axis, one axis at a time. -/
theorem before_one_eq_map (sizes : List Nat) :
    before 1 sizes = (List.range sizes.length).map fun axis => (sizes.take axis).prod := by
  apply List.ext_getElem?
  intro axis
  by_cases below : axis < sizes.length
  · rw [getElem?_before 1 below, List.getElem?_map, List.getElem?_range below, Option.map_some,
      Nat.one_mul]
  · rw [List.getElem?_eq_none (by simpa using below), List.getElem?_eq_none (by simpa using below)]

/-- The column-major strides are exact over the first parts of the sizes. -/
theorem columnMajor_exact (sizes : List Nat) :
    Size.Exact (· <+: sizes) (columnMajor sizes)
      ((List.range sizes.length).map fun axis => (sizes.take axis).prod) := by
  rw [columnMajor, columnMajorFrom_eq, ← before_one_eq_map]
  exact (Size.product_exact sizes).map fun _ => before 1 sizes

/-- The row-major strides are exact over the last parts of the sizes. -/
theorem rowMajor_exact (sizes : List Nat) :
    Size.Exact (· <:+ sizes) (rowMajor sizes)
      ((List.range sizes.length).map fun axis => (sizes.drop (axis + 1)).prod) := by
  rw [rowMajor, rowMajorFrom_eq, Functor.map_map, ← after_eq_map]
  exact ((Size.product_exact sizes.reverse).map fun _ => after sizes).of_reverse

end Strides

/-- A mapping that places like another one in the same span is onto it when the other one is. -/
theorem Mapping.OntoSpan.of_placesAlike {mapping other : Mapping} {span : Nat}
    (onto : mapping.OntoSpan span) (alike : mapping.PlacesAlike other) (spanned : other.span = .ok span) :
    other.OntoSpan span := by
  have inside (index : List Nat) :
      Inside other.shape.sizes index ↔ Inside mapping.shape.sizes index := by
    rw [alike.shape]
  constructor
  case spanned => exact spanned
  case placed =>
    intro index otherInside
    have ownInside := (inside index).mp otherInside
    obtain ⟨place, found, below⟩ := onto.placed index ownInside
    exact ⟨place, (alike.offset index ownInside place).mp found, below⟩
  case reached =>
    intro place below
    have same (index : List Nat) : Inside other.shape.sizes index ∧ other.offset index = .ok place ↔
        Inside mapping.shape.sizes index ∧ mapping.offset index = .ok place := by
      rw [inside]
      exact and_congr_right fun ownInside => (alike.offset index ownInside place).symm
    simp only [same]
    exact onto.reached place below

namespace Shape

/-- A shape is measured when its sizes and strides are formed and its packed mappings leave no gaps. -/
structure Measured (shape : Shape) : Prop where
  size : shape.size = .ok shape.sizes.prod
  strides : ∀ packing : Mapping.Packing, ∃ strides, packing.strides shape.sizes = .ok strides
  around : shape.rank < Size.bound → ∀ axis < shape.rank, ∃ before size after,
    shape.sizeBefore axis = .ok before ∧ shape.sizeAt axis = .ok size ∧
      shape.sizeAfter axis = .ok after ∧ before * size * after = shape.sizes.prod
  packed : ∀ packing : Mapping.Packing, (packing.mapping shape).OntoSpan shape.sizes.prod
  strided : ∀ packing : Mapping.Packing, ∃ strided, packing.toStrided shape = .ok strided ∧
    strided.OntoSpan shape.sizes.prod

/-- The sizes around an axis make the size of the shape. -/
theorem prod_around (shape : Shape) {axis : Nat} (below : axis < shape.sizes.length) :
    (shape.sizes.take axis).prod * shape.sizes[axis] * (shape.sizes.drop (axis + 1)).prod =
      shape.sizes.prod := by
  rw [← List.prod_take_succ, List.prod_take_mul_prod_drop]

/-- A shape without an empty axis is measured as soon as the product of its sizes is a word. -/
theorem measured_of_prod {shape : Shape} (filled : 0 ∉ shape.sizes)
    (word : shape.sizes.prod < Size.bound) : shape.Measured := by
  have size := Mapping.size_of_prod filled word
  have ordered (packing : Mapping.Packing) :
      ∃ count, Size.product (packing.order shape.sizes) = .ok count := by
    have sub : (packing.order shape.sizes).Perm shape.sizes := by
      cases packing with
      | rowMajor => exact List.reverse_perm shape.sizes
      | columnMajor => exact List.Perm.refl shape.sizes
    have orderedWord : 1 * (packing.order shape.sizes).prod < Size.bound := by
      rwa [Nat.one_mul, sub.prod_eq]
    exact ⟨_, Size.product_of_prod (by rwa [sub.mem_iff]) orderedWord⟩
  have packed (packing : Mapping.Packing) :
      (packing.mapping shape).OntoSpan shape.sizes.prod := by
    cases packing with
    | rowMajor => exact Mapping.rowMajor_ontoSpan filled word
    | columnMajor => exact Mapping.columnMajor_ontoSpan filled word
  constructor
  case size => exact size
  case strides =>
    intro packing
    exact ⟨_, Mapping.Packing.strides_eq_ok.mpr ⟨ordered packing, rfl⟩⟩
  case around =>
    intro rank axis below
    have listed : axis < shape.sizes.length := by rwa [sizes_length]
    refine ⟨_, shape.sizes[axis], _, sizeBefore_of_size filled size below, ?_,
      sizeAfter_of_size filled size below rank, shape.prod_around listed⟩
    rw [sizeAt, List.getElem?_eq_getElem listed]
  case packed => exact packed
  case strided =>
    intro packing
    have faithful := Mapping.Packing.faithful packing shape
    obtain ⟨strided, formed⟩ := faithful.formed.mpr (ordered packing)
    have spanned := (faithful.returned strided _ formed (packed packing).spanned).1
    exact ⟨strided, formed, (packed packing).of_placesAlike (faithful.spread strided formed) spanned⟩

/-- The size and the strides of a shape are refused exactly when a product of sizes on the way is no
word. -/
theorem arithmetic_exact (shape : Shape) :
    Size.Exact (· <+: shape.sizes) shape.size shape.sizes.prod ∧
    Size.Exact (· <+: shape.sizes) (Strides.columnMajor shape.sizes)
      ((List.range shape.sizes.length).map fun axis => (shape.sizes.take axis).prod) ∧
    Size.Exact (· <:+ shape.sizes) (Strides.rowMajor shape.sizes)
      ((List.range shape.sizes.length).map fun axis => (shape.sizes.drop (axis + 1)).prod) ∧
    (0 ∉ shape.sizes → shape.sizes.prod < Size.bound → shape.Measured) :=
  ⟨Size.product_exact shape.sizes, Strides.columnMajor_exact shape.sizes,
    Strides.rowMajor_exact shape.sizes, measured_of_prod⟩

/-- A box of no blocks of `2 ^ 32` rows and columns has the size 0, but its row-major strides are
refused. -/
theorem arithmetic_exact_wide :
    (⟨[.fixed 0, .free 4294967296, .free 4294967296]⟩ : Shape).size = .ok 0 ∧
    Strides.rowMajor [0, 4294967296, 4294967296] = .error .productOverflow ∧
    ∃ strided, Mapping.stridedRowMajor ⟨[.fixed 2147483648, .free 4294967296]⟩ = .ok strided ∧
      strided.OntoSpan 9223372036854775808 := by
  obtain ⟨_, _, rows, _⟩ := arithmetic_exact ⟨[.fixed 0, .free 4294967296, .free 4294967296]⟩
  obtain ⟨_, _, _, measured⟩ := arithmetic_exact ⟨[.fixed 2147483648, .free 4294967296]⟩
  refine ⟨rfl, ?_, ?_⟩
  · exact rows.refused.mpr ⟨[4294967296, 4294967296], ⟨[0], rfl⟩, by decide⟩
  · exact (measured (by decide) (by decide)).strided .rowMajor

end Shape

end ShapedTensor

import ShapedTensor.Layout.Conversion
import ShapedTensor.Proofs.Layout.Offset

namespace ShapedTensor

open Index

/-- Some of the sizes of a box without an empty side have a product if all of them do. -/
theorem Size.product_of_sublist {sizes part : List Nat} (full : 0 ∉ sizes)
    (word : sizes.prod < bound) (sub : part.Sublist sizes) : product part = .ok part.prod := by
  have partFull : 0 ∉ part := fun empty => full (sub.subset empty)
  have less : part.prod ≤ sizes.prod := Nat.le_of_dvd (prod_pos full) sub.prod_dvd_prod
  have formed := product_of_prod partFull (show 1 * part.prod < bound by omega)
  rwa [Nat.one_mul] at formed

namespace Shape

variable {shape : Shape} {count axis : Nat}

theorem zero_mem_iff_of_size (size : shape.size = .ok count) : 0 ∈ shape.sizes ↔ count = 0 := by
  rw [← (shape.prod_of_size size).1, List.prod_eq_zero_iff_exists_zero_nat]
  simp

/-- The sizes after an axis have a product if no side is empty and all of them do. -/
theorem sizeAfter_of_size (full : 0 ∉ shape.sizes) (size : shape.size = .ok count)
    (below : axis < shape.rank) (rank : shape.rank < Size.bound) :
    shape.sizeAfter axis = .ok (shape.sizes.drop (axis + 1)).prod := by
  obtain ⟨product, word⟩ := shape.prod_of_size size
  have next : Size.add axis 1 = .ok (axis + 1) := Size.add_eq_ok.mpr ⟨rfl, by omega⟩
  rw [sizeAfter, Checked.bind_eq_ok]
  refine ⟨axis + 1, next, ?_⟩
  rw [if_pos (by omega)]
  exact Size.product_of_sublist full (product ▸ word) (List.drop_sublist _ _)

/-- The sizes before an axis have a product if no side is empty and all of them do. -/
theorem sizeBefore_of_size (full : 0 ∉ shape.sizes) (size : shape.size = .ok count)
    (below : axis < shape.rank) : shape.sizeBefore axis = .ok (shape.sizes.take axis).prod := by
  obtain ⟨product, word⟩ := shape.prod_of_size size
  rw [sizeBefore, if_pos (by omega)]
  exact Size.product_of_sublist full (product ▸ word) (List.take_sublist _ _)

end Shape

namespace Strides

/-- The row-major strides are the products of the sizes after each axis, refused with the product of all sizes
from the last one on. -/
theorem rowMajorFrom_eq (sizes : List Nat) :
    rowMajorFrom sizes = (fun count => (count, after sizes)) <$> Size.product sizes.reverse := by
  induction sizes with
  | nil => rfl
  | cons size sizes ih =>
      have grown : Size.product (size :: sizes).reverse =
          Size.product sizes.reverse >>= fun stride => Size.mul stride size := by
        rw [Size.product, List.reverse_cons, List.foldlM_append]
        exact bind_congr fun stride => bind_pure (Size.mul stride size)
      rw [rowMajorFrom, ih, grown, after]
      cases formed : Size.product sizes.reverse with
      | error fault => rfl
      | ok stride =>
          have counted := (Size.prod_of_product (by decide) formed).1
          rw [Nat.one_mul, List.prod_reverse] at counted
          rw [counted]
          change (Size.mul stride size >>= _) = _ <$> Size.mul stride size
          cases Size.mul stride size <;> rfl

/-- The row-major strides are the products of the sizes after each axis. -/
theorem rowMajor_eq_ok {sizes strides : List Nat} :
    rowMajor sizes = .ok strides ↔
      (∃ count, Size.product sizes.reverse = .ok count) ∧ after sizes = strides := by
  rw [rowMajor, rowMajorFrom_eq, Functor.map_map, Checked.map_eq_ok]
  simp only [exists_and_right]

end Strides

namespace Mapping

section Steps

variable {mapping left right : Mapping}

/-- A list holds the steps of a mapping when it has the stride of each axis in turn. -/
structure Steps (mapping : Mapping) (steps : List Nat) : Prop where
  length : steps.length = mapping.shape.rank
  stride : ∀ axis step, steps[axis]? = some step → mapping.stride axis = .ok step

/-- The steps of a regular mapping are its strides. -/
theorem Steps.eq_strides {steps : List Nat} (held : mapping.Steps steps) (regular : mapping.Regular) :
    steps = mapping.strides := by
  apply List.ext_getElem?
  intro axis
  by_cases below : axis < steps.length
  · have own := List.getElem?_eq_getElem below
    rw [own]
    exact (strides_of_stride (held.length ▸ below) (held.stride axis _ own)).symm
  · have listed := held.length
    have own := regular.length_strides
    rw [List.getElem?_eq_none (by omega), List.getElem?_eq_none (by omega)]

/-- A mapping of a box without an empty side has a stride for each axis as soon as it has a span. -/
theorem steps_of_span {length : Nat} (regular : mapping.Regular) (full : 0 ∉ mapping.shape.sizes)
    (rank : mapping.shape.rank < Size.bound) (spanned : mapping.span = .ok length) :
    mapping.Steps mapping.strides := by
  have listed := regular.length_strides
  refine ⟨listed, fun axis step found => ?_⟩
  have below : axis < mapping.shape.rank := by
    rw [← listed]
    exact (List.getElem?_eq_some_iff.mp found).1
  rcases mapping with ⟨shape, layout⟩
  have inside : axis < shape.sizes.length := by simpa using below
  cases layout with
  | rowMajor =>
      obtain rfl := Option.some.inj ((Strides.getElem?_after inside).symm.trans found)
      exact Shape.sizeAfter_of_size full spanned below rank
  | columnMajor =>
      obtain rfl := Option.some.inj ((Strides.getElem?_before 1 inside).symm.trans found)
      rw [Nat.one_mul]
      exact Shape.sizeBefore_of_size full spanned below
  | strided strides =>
      change strides[axis]? = some step at found
      simp only [Mapping.stride, found]
  | broadcast =>
      obtain rfl := Option.some.inj ((List.getElem?_replicate_of_lt below).symm.trans found)
      rfl

/-- Two mappings place alike when they have one shape and find the same places inside it. -/
structure PlacesAlike (left right : Mapping) : Prop where
  shape : left.shape = right.shape
  offset : ∀ index, Inside left.shape.sizes index →
    ∀ place, left.offset index = .ok place ↔ right.offset index = .ok place

/-- Mappings of the same sizes and the same strides find the same places. -/
theorem offset_iff_of_strides (sizes : left.shape.sizes = right.shape.sizes)
    (strides : left.strides = right.strides) {index : List Nat} (inside : Inside left.shape.sizes index)
    {place : Nat} : left.offset index = .ok place ↔ right.offset index = .ok place := by
  have rightInside : Inside right.shape.sizes index := sizes ▸ inside
  rw [offset_eq_ok inside, offset_eq_ok rightInside, strides]

/-- Mappings of one shape place alike when they have the same strides. -/
theorem placesAlike_of_strides (shape : left.shape = right.shape)
    (strides : left.strides = right.strides) : left.PlacesAlike right :=
  ⟨shape, fun _ inside _ => offset_iff_of_strides (congrArg Shape.sizes shape) strides inside⟩

/-- Mappings of a shape with an empty side place alike, since there is nothing to place. -/
theorem placesAlike_of_empty (shape : left.shape = right.shape) (empty : 0 ∈ left.shape.sizes) :
    left.PlacesAlike right :=
  ⟨shape, fun _ inside => absurd empty inside.zero_notMem⟩

end Steps

/-- Strides are packed when the shape has no axes or no elements or these are its packed strides. -/
theorem isPacked_iff {packed : List Nat → Except Fault (List Nat)} {shape : Shape}
    {strides : List Nat} :
    isPacked packed shape strides = .ok true ↔ shape.rank = 0 ∨
      ∃ size, shape.size = .ok size ∧ (size = 0 ∨ packed shape.sizes = .ok strides) := by
  by_cases none : shape.rank = 0
  · simp [isPacked, none]
  · rw [isPacked, if_neg none, Checked.bind_eq_ok, or_iff_right none]
    refine exists_congr fun size => and_congr_right fun _ => ?_
    by_cases zero : size = 0
    · rw [if_pos zero]
      simp [zero, pure, Except.pure]
    · rw [if_neg zero, Checked.bind_eq_ok, or_iff_right zero]
      constructor
      · rintro ⟨expected, formed, same⟩
        have equal : strides = expected := by simpa [pure, Except.pure] using same
        rw [formed, equal]
      · exact fun formed => ⟨strides, formed, by simp [pure, Except.pure]⟩

/-- The two packed layouts, by the direction in which the axes run. -/
inductive Packing where
  | rowMajor
  | columnMajor
  deriving DecidableEq

namespace Packing

/-- The packed mapping of a shape. -/
def mapping : Packing → Shape → Mapping
  | rowMajor, shape => ⟨shape, .rowMajor⟩
  | columnMajor, shape => ⟨shape, .columnMajor⟩

/-- The packed layout in which the axes run the other way. -/
def other : Packing → Packing
  | rowMajor => columnMajor
  | columnMajor => rowMajor

/-- The sizes from the axis on that runs fastest. -/
def order : Packing → List Nat → List Nat
  | rowMajor, sizes => sizes.reverse
  | columnMajor, sizes => sizes

/-- All strides of the layout, formed in one pass. -/
def strides : Packing → List Nat → Except Fault (List Nat)
  | rowMajor => Strides.rowMajor
  | columnMajor => Strides.columnMajor

/-- The strided mapping of a packed buffer. -/
def toStrided : Packing → Shape → Except Fault Mapping
  | rowMajor => stridedRowMajor
  | columnMajor => stridedColumnMajor

/-- The packed mapping of a shape and its strides. -/
def ofStrides : Packing → Shape → List Nat → Except Fault Mapping
  | rowMajor => rowMajorOfStrides
  | columnMajor => columnMajorOfStrides

/-- The packed mapping that takes the place of the other one. -/
def ofOther : Packing → Shape → Except Fault Mapping
  | rowMajor => rowMajorOfColumnMajor
  | columnMajor => columnMajorOfRowMajor

variable {packing : Packing} {shape : Shape} {result : Mapping} {strides : List Nat}

@[simp] theorem shape_mapping : (packing.mapping shape).shape = shape := by
  cases packing <;> rfl

@[simp] theorem span_mapping : (packing.mapping shape).span = shape.size := by
  cases packing <;> rfl

theorem spread_mapping : (packing.mapping shape).layout ≠ .broadcast := by
  cases packing <;> simp [mapping]

theorem regular_mapping : (packing.mapping shape).Regular := by
  cases packing <;> exact trivial

/-- The strides formed in one pass are those of the packed mapping. -/
theorem strides_eq_ok :
    packing.strides shape.sizes = .ok strides ↔
      (∃ count, Size.product (packing.order shape.sizes) = .ok count) ∧
        (packing.mapping shape).strides = strides := by
  cases packing with
  | rowMajor => exact Strides.rowMajor_eq_ok
  | columnMajor => exact Strides.columnMajorFrom_eq_ok

/-- The strided mapping of a packed buffer has the strides formed in one pass. -/
theorem toStrided_eq_ok :
    packing.toStrided shape = .ok result ↔
      ∃ strides, packing.strides shape.sizes = .ok strides ∧ ⟨shape, .strided strides⟩ = result := by
  cases packing <;>
    simp only [toStrided, Packing.strides, stridedRowMajor, stridedColumnMajor, Checked.bind_eq_ok,
      pure, Except.pure, Except.ok.injEq]

/-- Strides are taken back into the packed layout when they are packed. -/
theorem ofStrides_eq_ok :
    packing.ofStrides shape strides = .ok result ↔
      isPacked packing.strides shape strides = .ok true ∧ packing.mapping shape = result := by
  cases packing <;>
  · simp only [ofStrides, mapping, rowMajorOfStrides, columnMajorOfStrides]
    rw [Checked.bind_eq_ok, Bool.exists_bool]
    simp [Packing.strides, pure, Except.pure, throw, throwThe, MonadExceptOf.throw]

/-- A packed mapping takes the place of the other one up to rank 1. -/
theorem ofOther_eq_ok :
    packing.ofOther shape = .ok result ↔ shape.rank ≤ 1 ∧ packing.mapping shape = result := by
  cases packing <;>
    simp only [ofOther, mapping, rowMajorOfColumnMajor, columnMajorOfRowMajor, Checked.ite_eq_ok,
      Except.ok.injEq]

/-- With at most one axis both directions find the same place, or are refused with the same fault. -/
theorem offset_other {index : List Nat} (few : shape.rank ≤ 1) (length : index.length = shape.rank) :
    (packing.mapping shape).offset index = (packing.other.mapping shape).offset index := by
  have turned {list : List Nat} (short : list.length ≤ 1) : list.reverse = list := by
    match list, short with
    | [], _ => rfl
    | [_], _ => rfl
  have same : horner index.reverse shape.sizes.reverse = horner index shape.sizes := by
    rw [turned (by omega), turned (by rw [Shape.sizes_length]; omega)]
  cases packing with
  | rowMajor => exact same.symm
  | columnMajor => exact same

/-- The strides of a packed mapping span its elements. -/
theorem span_strided {size : Nat} (formed : shape.size = .ok size)
    (same : (packing.mapping shape).strides = strides) :
    (⟨shape, .strided strides⟩ : Mapping).span = .ok size := by
  by_cases empty : 0 ∈ shape.sizes
  · rw [(Shape.zero_mem_iff_of_size formed).mp empty]
    exact Strides.span_of_empty empty strides
  · have own : (packing.mapping shape).span = .ok size := by rw [span_mapping, formed]
    rw [span_eq_ok spread_mapping (by simpa using empty), shape_mapping, same] at own
    exact (Strides.span_eq_ok empty).mpr own

/-- Strides that are taken back give the places and the span of the packed mapping. -/
theorem placesAlike_of_isPacked (packed : isPacked packing.strides shape strides = .ok true) :
    (⟨shape, .strided strides⟩ : Mapping).PlacesAlike (packing.mapping shape) ∧
      (⟨shape, .strided strides⟩ : Mapping).span = (packing.mapping shape).span := by
  have own : (⟨shape, .strided strides⟩ : Mapping).shape = (packing.mapping shape).shape := by simp
  rw [span_mapping]
  rcases isPacked_iff.mp packed with none | ⟨size, formed, rfl | listed⟩
  · -- Without axes the only index lies in the first place, whatever the strides.
    have sizes : shape.sizes = [] := by
      rw [← List.length_eq_zero_iff, Shape.sizes_length, none]
    constructor
    · refine ⟨own, fun index inside place => ?_⟩
      have ownInside : Inside (packing.mapping shape).shape.sizes index := by simpa using inside
      obtain rfl : index = [] := by simpa [sizes, Inside] using inside
      rw [offset_eq_ok inside, offset_eq_ok ownInside]
      simp
    · rw [Shape.size, Mapping.span, sizes]
      rfl
  · have empty : 0 ∈ shape.sizes := (Shape.zero_mem_iff_of_size formed).mpr rfl
    exact ⟨placesAlike_of_empty own empty, (Strides.span_of_empty empty strides).trans formed.symm⟩
  · have same := (strides_eq_ok.mp listed).2
    exact ⟨placesAlike_of_strides own same.symm, (span_strided formed same).trans formed.symm⟩

/-- A packed layout converts faithfully on a shape when its strides give its places and its span and are
taken back. -/
structure Faithful (packing : Packing) (shape : Shape) : Prop where
  agree : ∀ steps, packing.strides shape.sizes = .ok steps → steps.length = shape.rank ∧
    ∀ axis stride, axis < shape.rank → (packing.mapping shape).stride axis = .ok stride →
      steps[axis]? = some stride
  formed : (∃ strided, packing.toStrided shape = .ok strided) ↔
    ∃ count, Size.product (packing.order shape.sizes) = .ok count
  spread : ∀ strided, packing.toStrided shape = .ok strided →
    (packing.mapping shape).PlacesAlike strided
  returned : ∀ strided length, packing.toStrided shape = .ok strided →
    (packing.mapping shape).span = .ok length → strided.span = .ok length ∧
      ∃ steps, strided = ⟨shape, .strided steps⟩ ∧
        packing.ofStrides shape steps = .ok (packing.mapping shape)
  accepted : ∀ steps result, packing.ofStrides shape steps = .ok result →
    (⟨shape, .strided steps⟩ : Mapping).PlacesAlike result ∧
      result.span = (⟨shape, .strided steps⟩ : Mapping).span
  turned : ∀ result, packing.ofOther shape = .ok result ↔
    shape.rank ≤ 1 ∧ packing.mapping shape = result
  kept : ∀ result, packing.ofOther shape = .ok result → ∀ index, index.length = shape.rank →
    result.offset index = (packing.other.mapping shape).offset index

/-- Both packed layouts convert faithfully on every shape. -/
theorem faithful (packing : Packing) (shape : Shape) : packing.Faithful shape := by
  have regular : (packing.mapping shape).Regular := regular_mapping
  constructor
  case agree =>
    intro steps listed
    obtain rfl := (strides_eq_ok.mp listed).2
    constructor
    · rw [regular.length_strides, shape_mapping]
    · intro axis stride below found
      exact strides_of_stride (by simpa using below) found
  case formed =>
    simp [toStrided_eq_ok, strides_eq_ok]
  case spread =>
    intro strided converted
    obtain ⟨steps, listed, rfl⟩ := toStrided_eq_ok.mp converted
    exact placesAlike_of_strides shape_mapping (strides_eq_ok.mp listed).2
  case returned =>
    intro strided length converted spanned
    obtain ⟨steps, listed, rfl⟩ := toStrided_eq_ok.mp converted
    rw [span_mapping] at spanned
    refine ⟨span_strided spanned (strides_eq_ok.mp listed).2, steps, rfl, ?_⟩
    rw [ofStrides_eq_ok, isPacked_iff]
    exact ⟨.inr ⟨length, spanned, .inr listed⟩, rfl⟩
  case accepted =>
    intro steps result taken
    obtain ⟨packed, rfl⟩ := ofStrides_eq_ok.mp taken
    obtain ⟨places, spans⟩ := placesAlike_of_isPacked packed
    exact ⟨places, spans.symm⟩
  case turned =>
    intro result
    exact ofOther_eq_ok
  case kept =>
    intro result taken index length
    obtain ⟨few, rfl⟩ := ofOther_eq_ok.mp taken
    exact offset_other few length

end Packing

/-- In every layout the place of an index is the sum of its strides, and packed layouts convert
faithfully. -/
theorem layouts_are_strides :
    (∀ (mapping : Mapping) steps index, mapping.Regular → mapping.Steps steps →
      Inside mapping.shape.sizes index → ∀ place, mapping.offset index = .ok place ↔
        Strides.total (index.zip steps) = place ∧ place < Size.bound) ∧
    (∀ (mapping : Mapping) length, mapping.Regular → 0 ∉ mapping.shape.sizes →
      mapping.shape.rank < Size.bound → mapping.span = .ok length → ∃ steps, mapping.Steps steps) ∧
    ∀ (packing : Packing) shape, packing.Faithful shape := by
  refine ⟨?_, ?_, Packing.faithful⟩
  · intro mapping steps index regular held inside place
    rw [held.eq_strides regular]
    exact offset_eq_ok inside
  · intro mapping length regular full rank spanned
    exact ⟨mapping.strides, steps_of_span regular full rank spanned⟩

/-- Two rows and three columns in column-major order, and strides over no columns that are taken for
row-major ones. -/
theorem layouts_are_strides_pair :
    (∃ steps, (⟨⟨[.fixed 2, .free 3]⟩, .columnMajor⟩ : Mapping).Steps steps ∧
      Strides.total ([1, 2].zip steps) = 5) ∧
    (⟨⟨[.fixed 2, .free 0]⟩, .rowMajor⟩ : Mapping).span =
      (⟨⟨[.fixed 2, .free 0]⟩, .strided [7, 9]⟩ : Mapping).span := by
  obtain ⟨placed, stepped, faithful⟩ := layouts_are_strides
  constructor
  · obtain ⟨steps, held⟩ := stepped ⟨⟨[.fixed 2, .free 3]⟩, .columnMajor⟩ 6 trivial (by decide)
      (by decide) rfl
    have inside : Inside [2, 3] [1, 2] := inside_pair.mpr ⟨1, by decide, 2, by decide, rfl⟩
    exact ⟨steps, held, ((placed ⟨_, .columnMajor⟩ steps [1, 2] trivial held inside 5).mp rfl).1⟩
  · exact ((faithful .rowMajor ⟨[.fixed 2, .free 0]⟩).accepted [7, 9] _ rfl).2

end Mapping

end ShapedTensor

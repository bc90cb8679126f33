import ShapedTensor.Proofs.Layout.Conversion

namespace ShapedTensor.Mapping

open Index

variable {mapping left right : Mapping} {index : List Nat}

/-- A mapping is formed when the strides that it keeps are one for each axis, and neither the stride of an
axis nor the span overflows. -/
structure Formed (mapping : Mapping) : Prop where
  regular : mapping.Regular
  stride : ∀ axis < mapping.shape.rank, ∃ stride, mapping.stride axis = .ok stride
  span : ∃ length, mapping.span = .ok length

/-- Without an empty axis a regular mapping is formed as soon as it has a span. -/
theorem formed_of_span {length : Nat} (regular : mapping.Regular) (filled : 0 ∉ mapping.shape.sizes)
    (rank : mapping.shape.rank < Size.bound) (spanned : mapping.span = .ok length) : mapping.Formed where
  regular := regular
  stride axis below := by
    have steps := steps_of_span regular filled rank spanned
    have listed : axis < mapping.strides.length := by rwa [steps.length]
    exact ⟨_, steps.stride axis _ (List.getElem?_eq_getElem listed)⟩
  span := ⟨length, spanned⟩

/-- The span of a box with an empty side is zero if it does not overflow. -/
theorem span_of_empty {length : Nat} (empty : 0 ∈ mapping.shape.sizes)
    (spanned : mapping.span = .ok length) : length = 0 := by
  rcases mapping with ⟨shape, layout⟩
  cases layout with
  | rowMajor => exact (Shape.zero_mem_iff_of_size spanned).mp empty
  | columnMajor => exact (Shape.zero_mem_iff_of_size spanned).mp empty
  | strided strides => exact (Except.ok.inj ((Strides.span_of_empty empty strides).symm.trans spanned)).symm
  | broadcast => exact (Except.ok.inj spanned).symm

/-- A formed mapping finds a place for each of its indices. -/
theorem Formed.placed (formed : mapping.Formed) (inside : Inside mapping.shape.sizes index) :
    ∃ place, mapping.offset index = .ok place := by
  obtain ⟨length, spanned⟩ := formed.span
  by_cases broadcast : mapping.layout = .broadcast
  · exact ⟨0, by rw [offset, broadcast]⟩
  · obtain ⟨place, found, _⟩ := offset_of_span spanned broadcast inside
    exact ⟨place, found⟩

/-- Formed mappings of the same sizes and strides have the same span, unless one of them is a broadcast. -/
theorem Formed.span_of_strides (leftFormed : left.Formed) (rightFormed : right.Formed)
    (leftSpread : left.layout ≠ .broadcast) (rightSpread : right.layout ≠ .broadcast)
    (sizes : left.shape.sizes = right.shape.sizes) (strides : left.strides = right.strides) :
    ∃ length, left.span = .ok length ∧ right.span = .ok length := by
  obtain ⟨length, spanned⟩ := leftFormed.span
  refine ⟨length, spanned, ?_⟩
  by_cases empty : 0 ∈ left.shape.sizes
  · obtain ⟨other, otherSpanned⟩ := rightFormed.span
    obtain rfl := span_of_empty empty spanned
    rwa [span_of_empty (sizes ▸ empty) otherSpanned] at otherSpanned
  · rw [span_eq_ok leftSpread empty, sizes, strides] at spanned
    exact (span_eq_ok rightSpread (sizes ▸ empty)).mpr spanned

/-- Comparing the strides of some axes of formed mappings compares the entries of two lists. -/
theorem sameStrides_eq (leftFormed : left.Formed) (rightFormed : right.Formed) {axes : List Nat}
    (leftBelow : ∀ axis ∈ axes, axis < left.shape.rank)
    (rightBelow : ∀ axis ∈ axes, axis < right.shape.rank) :
    left.sameStrides right axes =
      .ok (decide (∀ axis ∈ axes, left.strides[axis]? = right.strides[axis]?)) := by
  induction axes with
  | nil => rfl
  | cons axis axes ih =>
      obtain ⟨leftHere, leftRest⟩ := List.forall_mem_cons.mp leftBelow
      obtain ⟨rightHere, rightRest⟩ := List.forall_mem_cons.mp rightBelow
      obtain ⟨leftStride, leftFound⟩ := leftFormed.stride axis leftHere
      obtain ⟨rightStride, rightFound⟩ := rightFormed.stride axis rightHere
      have leftListed := strides_of_stride leftHere leftFound
      have rightListed := strides_of_stride rightHere rightFound
      rw [sameStrides, leftFound, rightFound]
      change (if leftStride = rightStride then sameStrides left right axes else .ok false) = _
      simp only [List.forall_mem_cons, leftListed, rightListed, Option.some.injEq]
      by_cases same : leftStride = rightStride
      · rw [if_pos same, ih leftRest rightRest]
        simp [same]
      · rw [if_neg same]
        simp [same]

/-- Formed mappings are the same when they have the same sizes and the same strides. -/
theorem Formed.sameAs_eq (leftFormed : left.Formed) (rightFormed : right.Formed) :
    left.sameAs right =
      .ok (decide (left.shape.sizes = right.shape.sizes ∧ left.strides = right.strides)) := by
  have leftLength := leftFormed.regular.length_strides
  have rightLength := rightFormed.regular.length_strides
  rw [sameAs]
  by_cases sizes : left.shape.sizes = right.shape.sizes
  · have rank : left.shape.rank = right.shape.rank := by
      rw [← Shape.sizes_length, sizes, Shape.sizes_length]
    have below : ∀ axis ∈ List.range left.shape.rank, axis < left.shape.rank := fun _ =>
      List.mem_range.mp
    have strides : (∀ axis ∈ List.range left.shape.rank, left.strides[axis]? = right.strides[axis]?) ↔
        left.strides = right.strides := by
      refine ⟨fun same => List.ext_getElem? fun axis => ?_, fun same _ _ => by rw [same]⟩
      by_cases inside : axis < left.shape.rank
      · exact same axis (List.mem_range.mpr inside)
      · rw [List.getElem?_eq_none (by omega), List.getElem?_eq_none (by omega)]
    rw [if_pos ((left.shape.sameSizes_iff right.shape).mpr sizes),
      sameStrides_eq leftFormed rightFormed below (rank ▸ below)]
    simp only [sizes, strides, true_and]
  · rw [if_neg (mt (left.shape.sameSizes_iff right.shape).mp sizes)]
    simp [sizes]

/-- The answer of a comparison of formed mappings is yes when they have the same sizes and strides. -/
theorem Formed.sameAs_iff (leftFormed : left.Formed) (rightFormed : right.Formed) :
    left.sameAs right = .ok true ↔
      left.shape.sizes = right.shape.sizes ∧ left.strides = right.strides := by
  rw [leftFormed.sameAs_eq rightFormed, Except.ok.injEq, decide_eq_true_iff]

/-- A comparison of formed mappings has an answer, whichever of them comes first. -/
theorem Formed.exists_sameAs (leftFormed : left.Formed) (rightFormed : right.Formed) :
    ∃ answer, left.sameAs right = .ok answer ∧ right.sameAs left = .ok answer := by
  refine ⟨_, leftFormed.sameAs_eq rightFormed, ?_⟩
  rw [rightFormed.sameAs_eq leftFormed]
  simp only [eq_comm]

/-- Formed mappings that are the same find the same place for each index. -/
theorem Formed.placed_of_sameAs (leftFormed : left.Formed) (rightFormed : right.Formed)
    (same : left.sameAs right = .ok true) (inside : Inside left.shape.sizes index) :
    ∃ place, left.offset index = .ok place ∧ right.offset index = .ok place := by
  obtain ⟨sizes, strides⟩ := (leftFormed.sameAs_iff rightFormed).mp same
  obtain ⟨place, found⟩ := leftFormed.placed inside
  exact ⟨place, found, (offset_iff_of_strides sizes strides inside).mp found⟩

/-- In a packed layout the sizes determine the strides. -/
theorem Packing.strides_mapping (packing : Packing) {left right : Shape} (sizes : left.sizes = right.sizes) :
    (packing.mapping left).strides = (packing.mapping right).strides := by
  cases packing with
  | rowMajor => exact congrArg Strides.after sizes
  | columnMajor => exact congrArg (Strides.before 1) sizes

/-- Among mappings that do not overflow the comparison is an equivalence that respects places and
spans. -/
theorem sameAs_equivalence :
    Equivalence (fun left right : {mapping : Mapping // mapping.Formed} =>
      left.1.sameAs right.1 = .ok true) ∧
    (∀ left right : Mapping, left.Formed → right.Formed →
      ∃ answer, left.sameAs right = .ok answer ∧ right.sameAs left = .ok answer) ∧
    (∀ left right : Mapping, left.Formed → right.Formed → left.sameAs right = .ok true →
      (∀ index, Inside left.shape.sizes index →
        ∃ place, left.offset index = .ok place ∧ right.offset index = .ok place) ∧
      (left.layout ≠ .broadcast → right.layout ≠ .broadcast →
        ∃ length, left.span = .ok length ∧ right.span = .ok length)) ∧
    ∀ (packing : Packing) (left right : Shape),
      (packing.mapping left).Formed → (packing.mapping right).Formed →
        ((packing.mapping left).sameAs (packing.mapping right) = .ok true ↔ left.sizes = right.sizes) := by
  refine ⟨⟨?_, ?_, ?_⟩, fun _ _ => Formed.exists_sameAs, ?_, ?_⟩
  · rintro ⟨mapping, formed⟩
    exact (formed.sameAs_iff formed).mpr ⟨rfl, rfl⟩
  · rintro ⟨left, leftFormed⟩ ⟨right, rightFormed⟩ same
    obtain ⟨sizes, strides⟩ := (leftFormed.sameAs_iff rightFormed).mp same
    exact (rightFormed.sameAs_iff leftFormed).mpr ⟨sizes.symm, strides.symm⟩
  · rintro ⟨first, firstFormed⟩ ⟨second, secondFormed⟩ ⟨third, thirdFormed⟩ before after
    obtain ⟨sizes, strides⟩ := (firstFormed.sameAs_iff secondFormed).mp before
    obtain ⟨others, rest⟩ := (secondFormed.sameAs_iff thirdFormed).mp after
    exact (firstFormed.sameAs_iff thirdFormed).mpr ⟨sizes.trans others, strides.trans rest⟩
  · intro left right leftFormed rightFormed same
    obtain ⟨sizes, strides⟩ := (leftFormed.sameAs_iff rightFormed).mp same
    exact ⟨fun _ => leftFormed.placed_of_sameAs rightFormed same, fun leftSpread rightSpread =>
      leftFormed.span_of_strides rightFormed leftSpread rightSpread sizes strides⟩
  · intro packing left right leftFormed rightFormed
    rw [leftFormed.sameAs_iff rightFormed, Packing.shape_mapping, Packing.shape_mapping]
    exact and_iff_left_of_imp packing.strides_mapping

/-- Two rows of three columns in row-major order are the same as in the strides 3 and 1, so both have the
span 6. -/
theorem sameAs_equivalence_pair :
    let rows : Mapping := ⟨⟨[.fixed 2, .free 3]⟩, .rowMajor⟩
    let spread : Mapping := ⟨⟨[.free 2, .free 3]⟩, .strided [3, 1]⟩
    (∀ index, Inside [2, 3] index →
      ∃ place, rows.offset index = .ok place ∧ spread.offset index = .ok place) ∧
    spread.sameAs rows = .ok true := by
  intro rows spread
  have rowsFormed : rows.Formed := @formed_of_span rows 6 trivial (by decide) (by decide) rfl
  have spreadFormed : spread.Formed := @formed_of_span spread 6 rfl (by decide) (by decide) rfl
  have same : rows.sameAs spread = .ok true := rfl
  obtain ⟨equivalence, _, sound, _⟩ := sameAs_equivalence
  exact ⟨(sound rows spread rowsFormed spreadFormed same).1,
    @Equivalence.symm _ _ equivalence ⟨rows, rowsFormed⟩ ⟨spread, spreadFormed⟩ same⟩

end ShapedTensor.Mapping

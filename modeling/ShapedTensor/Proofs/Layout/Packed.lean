import ShapedTensor.Proofs.Index.Odometer
import ShapedTensor.Proofs.Layout.Bound
import ShapedTensor.Proofs.Shape.Algebra

namespace ShapedTensor

open Index

namespace Index

/-- The index that stands in a place of the list has this place as its number. -/
theorem ordinal_of_getElem? {sizes index : List Nat} {position : Nat}
    (found : (all sizes)[position]? = some index) : ordinal 0 sizes index = position := by
  have inside := mem_all.mp (List.mem_of_getElem? found)
  have below : position < (all sizes).length := (List.getElem?_eq_some_iff.mp found).1
  have same := found.trans (getElem?_all inside).symm
  exact ((List.getElem?_inj below (all_nodup sizes)).mp same).symm

/-- Indices inside a box are numbered in lexicographic order. -/
theorem ordinal_lt_ordinal {sizes first second : List Nat} (firstInside : Inside sizes first)
    (secondInside : Inside sizes second) :
    ordinal 0 sizes first < ordinal 0 sizes second ↔ first < second := by
  have ordered {index other : List Nat} (inside : Inside sizes index) (otherInside : Inside sizes other)
      (less : ordinal 0 sizes index < ordinal 0 sizes other) : index < other := by
    obtain ⟨below, found⟩ := List.getElem?_eq_some_iff.mp (getElem?_all inside)
    obtain ⟨otherBelow, otherFound⟩ := List.getElem?_eq_some_iff.mp (getElem?_all otherInside)
    have increasing := List.pairwise_iff_getElem.mp (all_increasing sizes) _ _ below otherBelow less
    rwa [found, otherFound] at increasing
  refine ⟨ordered firstInside secondInside, fun less => ?_⟩
  rcases Nat.lt_trichotomy (ordinal 0 sizes first) (ordinal 0 sizes second) with
    before | same | behind
  · exact before
  · obtain rfl := ordinal_inj firstInside secondInside same
    exact absurd less (List.lt_irrefl first)
  · exact absurd less (List.lt_asymm (ordered secondInside firstInside behind))

/-- The beginning of an index has a number below the number of indices. -/
theorem ordinal_take_lt {sizes index : List Nat} (inside : Inside sizes index) (count : Nat) :
    ordinal 0 (sizes.take count) (index.take count) < sizes.prod := by
  have positive : 0 < (sizes.drop count).prod :=
    Size.prod_pos fun empty => inside.zero_notMem (List.mem_of_mem_drop empty)
  calc ordinal 0 (sizes.take count) (index.take count)
      < (sizes.take count).prod := ordinal_lt (List.forall₂_take count inside)
    _ ≤ (sizes.take count).prod * (sizes.drop count).prod := Nat.le_mul_of_pos_right _ positive
    _ = sizes.prod := by rw [← List.prod_append, List.take_append_drop]

end Index

namespace Mapping

/-- A mapping is one to one onto its span when every index has a place below the span and every place
below the span belongs to one index. -/
structure OntoSpan (mapping : Mapping) (span : Nat) : Prop where
  spanned : mapping.span = .ok span
  placed : ∀ index, Inside mapping.shape.sizes index →
    ∃ place, mapping.offset index = .ok place ∧ place < span
  reached : ∀ place < span,
    ∃! index, Inside mapping.shape.sizes index ∧ mapping.offset index = .ok place

/-- The beginning of an index has a place as far as it goes. -/
theorem horner_take {sizes index : List Nat} (word : sizes.prod < Size.bound)
    (inside : Inside sizes index) (count : Nat) :
    ∃ place, horner (index.take count) (sizes.take count) = .ok place := by
  have below := (ordinal_take_lt inside count).trans word
  exact ⟨_, (horner_eq_ok (List.forall₂_take count inside)).mpr ⟨rfl, below⟩⟩

/-- The column-major place of an index is the row-major place of the reversed index. -/
theorem columnMajor_offset (shape : Shape) (index : List Nat) :
    (⟨shape, .columnMajor⟩ : Mapping).offset index =
      (⟨shape.transpose, .rowMajor⟩ : Mapping).offset index.reverse := by
  rw [offset, offset, Shape.sizes_transpose]

section Packed

variable {shape : Shape} (filled : 0 ∉ shape.sizes) (word : shape.sizes.prod < Size.bound)

include filled word in
theorem size_of_prod : shape.size = .ok shape.sizes.prod := by
  have product := Size.product_of_prod filled (show 1 * shape.sizes.prod < _ by rwa [Nat.one_mul])
  rwa [Nat.one_mul] at product

include word in
/-- The row-major place of an index is its number. -/
theorem rowMajor_offset {index : List Nat} (inside : Inside shape.sizes index) :
    (⟨shape, .rowMajor⟩ : Mapping).offset index = .ok (ordinal 0 shape.sizes index) :=
  (horner_eq_ok inside).mpr ⟨rfl, (ordinal_lt inside).trans word⟩

include filled word in
/-- The row-major layout is one to one onto its span. -/
theorem rowMajor_ontoSpan : (⟨shape, .rowMajor⟩ : Mapping).OntoSpan shape.sizes.prod where
  spanned := size_of_prod filled word
  placed _ inside := ⟨_, rowMajor_offset word inside, ordinal_lt inside⟩
  reached place below := by
    obtain ⟨index, inside, numbered⟩ := exists_ordinal below
    refine ⟨index, ⟨inside, numbered ▸ rowMajor_offset word inside⟩, ?_⟩
    rintro other ⟨otherInside, found⟩
    have same := Except.ok.inj ((rowMajor_offset word otherInside).symm.trans found)
    exact ordinal_inj otherInside inside (same.trans numbered.symm)

include filled word in
/-- The column-major layout is one to one onto its span. -/
theorem columnMajor_ontoSpan : (⟨shape, .columnMajor⟩ : Mapping).OntoSpan shape.sizes.prod := by
  have sizes := shape.sizes_transpose
  have rows : (⟨shape.transpose, .rowMajor⟩ : Mapping).OntoSpan shape.transpose.sizes.prod :=
    rowMajor_ontoSpan (by simpa [sizes] using filled) (by simpa [sizes, List.prod_reverse] using word)
  have turned {index : List Nat} :
      Inside shape.transpose.sizes index.reverse ↔ Inside shape.sizes index := by
    rw [sizes]
    exact List.forall₂_reverse_iff
  have reversed (index : List Nat) :
      Inside shape.transpose.sizes index ↔ Inside shape.sizes index.reverse := by
    rw [← turned, List.reverse_reverse]
  rw [sizes, List.prod_reverse] at rows
  constructor
  case spanned => exact size_of_prod filled word
  case placed =>
    intro index inside
    rw [columnMajor_offset]
    exact rows.placed index.reverse (turned.mpr inside)
  case reached =>
    intro place below
    obtain ⟨index, ⟨inside, found⟩, unique⟩ := rows.reached place below
    refine ⟨index.reverse, ⟨(reversed index).mp inside, ?_⟩, ?_⟩
    · rw [columnMajor_offset, List.reverse_reverse]
      exact found
    · rintro other ⟨otherInside, otherFound⟩
      rw [columnMajor_offset] at otherFound
      rw [← unique other.reverse ⟨turned.mpr otherInside, otherFound⟩, List.reverse_reverse]

end Packed

/-- The walk over a box without an empty side numbers its indices by their row-major places, which fill
the span. -/
theorem packed_numbered {shape : Shape} (filled : 0 ∉ shape.sizes)
    (word : shape.sizes.prod < Size.bound) :
    let rows : Mapping := ⟨shape, .rowMajor⟩
    let columns : Mapping := ⟨shape, .columnMajor⟩
    Odometer.visited shape.sizes = .ok (visited shape.sizes) ∧
    shape.size = .ok (visited shape.sizes).length ∧
    (∀ (position : Nat) index, (visited shape.sizes)[position]? = some index →
      Inside shape.sizes index ∧ rows.offset index = .ok position) ∧
    (∀ first second place other, Inside shape.sizes first → Inside shape.sizes second →
      rows.offset first = .ok place → rows.offset second = .ok other →
      (place < other ↔ first < second)) ∧
    rows.OntoSpan shape.sizes.prod ∧
    (∀ index, columns.offset index =
      (⟨shape.transpose, .rowMajor⟩ : Mapping).offset index.reverse) ∧
    columns.OntoSpan shape.sizes.prod ∧
    ∀ index, Inside shape.sizes index → ∀ count,
      (∃ place, horner (index.take count) (shape.sizes.take count) = .ok place) ∧
      ∃ place, horner (index.reverse.take count) (shape.sizes.reverse.take count) = .ok place := by
  refine ⟨Odometer.visited_eq (Size.words_of_prod filled word), ?_, ?_, ?_,
    rowMajor_ontoSpan filled word, columnMajor_offset shape, columnMajor_ontoSpan filled word, ?_⟩
  · rw [visited_eq, length_all]
    exact size_of_prod filled word
  · intro position index found
    rw [visited_eq] at found
    have inside := mem_all.mp (List.mem_of_getElem? found)
    refine ⟨inside, ?_⟩
    rw [rowMajor_offset word inside, ordinal_of_getElem? found]
  · intro first second place other firstInside secondInside firstPlace secondPlace
    obtain rfl := Except.ok.inj ((rowMajor_offset word firstInside).symm.trans firstPlace)
    obtain rfl := Except.ok.inj ((rowMajor_offset word secondInside).symm.trans secondPlace)
    exact ordinal_lt_ordinal firstInside secondInside
  · intro index inside count
    have reversed : shape.sizes.reverse.prod < Size.bound := by rwa [List.prod_reverse]
    exact ⟨horner_take word inside count, horner_take reversed (List.rel_reverse inside) count⟩

/-- In a box of two rows and three columns the fifth index is the second of the second row. -/
theorem packed_numbered_pair :
    let shape : Shape := ⟨[.fixed 2, .free 3]⟩
    (visited shape.sizes)[4]? = some [1, 1] ∧
      (⟨shape, .rowMajor⟩ : Mapping).offset [1, 1] = .ok 4 ∧
      ∃! index, Inside shape.sizes index ∧ (⟨shape, .columnMajor⟩ : Mapping).offset index = .ok 4 := by
  intro shape
  obtain ⟨_, _, numbered, _, _, _, columns, _⟩ := @packed_numbered shape (by decide) (by decide)
  have fifth : (visited shape.sizes)[4]? = some [1, 1] := rfl
  exact ⟨fifth, (numbered 4 [1, 1] fifth).2, columns.reached 4 (by decide)⟩

end Mapping

end ShapedTensor

import Mathlib.Algebra.GroupWithZero.Nat
import Mathlib.Data.List.Forall2
import Mathlib.Data.List.Flatten
import Mathlib.Data.List.Nodup
import Mathlib.Data.List.Range
import ShapedTensor.Index.Walk
import ShapedTensor.Shape.Basic

namespace ShapedTensor

namespace Index

/-- An index is inside a box when it has one coordinate below each size. -/
abbrev Inside (sizes index : List Nat) : Prop := List.Forall₂ (· < ·) index sizes

theorem mem_all {sizes index : List Nat} : index ∈ all sizes ↔ Inside sizes index := by
  induction sizes generalizing index with
  | nil => simp [all, Inside]
  | cons size sizes ih =>
      cases index with
      | nil => simp [all, Inside]
      | cons first rest => simp [all, Inside, ih]

/-- The list runs through the box in lexicographic order. -/
theorem all_increasing (sizes : List Nat) : (all sizes).Pairwise (· < ·) := by
  induction sizes with
  | nil => simp [all]
  | cons size sizes ih =>
      rw [all, List.pairwise_flatMap]
      constructor
      · intro first _
        rw [List.pairwise_map]
        exact ih.imp fun less => List.Lex.cons less
      · refine List.pairwise_lt_range.imp fun {first second} less => ?_
        simp only [List.mem_map]
        rintro _ ⟨rest, _, rfl⟩ _ ⟨other, _, rfl⟩
        exact List.Lex.rel less

theorem all_nodup (sizes : List Nat) : (all sizes).Nodup := by
  refine (all_increasing sizes).imp ?_
  rintro index _ less rfl
  exact List.lt_irrefl index less

/-- An item whose key no other item has is the only one that a search for this key finds. -/
theorem filter_eq_singleton {ι : Type} [DecidableEq ι] {items : List ι} {item : ι}
    {key : ι → Nat} (distinct : items.Nodup) (listed : item ∈ items)
    (apart : ∀ other ∈ items, key other = key item → other = item) :
    items.filter (fun other => key other = key item) = [item] := by
  have same : items.filter (fun other => key other = key item) = items.filter (· == item) := by
    apply List.filter_congr
    intro other among
    by_cases equal : other = item
    · simp [equal]
    · have differs : key other ≠ key item := fun same => equal (apart other among same)
      simp [equal, differs]
  rw [same, List.filter_beq, List.count_eq_one_of_mem distinct listed]
  rfl

/-- An index whose cell no other index has is the only one that a search for this cell finds. -/
theorem filter_all {sizes index : List Nat} {cell : List Nat → Nat} (inside : Inside sizes index)
    (apart : ∀ other, Inside sizes other → cell other = cell index → other = index) :
    (all sizes).filter (fun other => cell other = cell index) = [index] := by
  apply filter_eq_singleton (all_nodup sizes) (mem_all.mpr inside)
  exact fun other listed => apart other (mem_all.mp listed)

theorem length_all (sizes : List Nat) : (all sizes).length = sizes.prod := by
  induction sizes with
  | nil => rfl
  | cons size sizes ih => simp [all, List.length_flatMap, ih]

theorem Inside.zero_notMem {sizes index : List Nat} (inside : Inside sizes index) : 0 ∉ sizes := by
  induction inside with
  | nil => simp
  | cons less _ ih => simp [ih, Nat.ne_of_lt (Nat.zero_lt_of_lt less)]

/-- The index of zeros is inside every box without an empty side. -/
theorem inside_first {sizes : List Nat} (filled : 0 ∉ sizes) :
    Inside sizes (sizes.map fun _ => 0) := by
  induction sizes with
  | nil => exact .nil
  | cons size sizes ih =>
      obtain ⟨positive, rest⟩ : 0 ≠ size ∧ 0 ∉ sizes := by simpa using filled
      exact .cons (Nat.pos_of_ne_zero positive.symm) (ih rest)

/-- An index of one size is a number below it. -/
theorem inside_single {size : Nat} {index : List Nat} :
    Inside [size] index ↔ ∃ position < size, index = [position] := by
  constructor
  · rintro (_ | ⟨below, _ | _⟩)
    exact ⟨_, below, rfl⟩
  · rintro ⟨position, below, rfl⟩
    exact .cons below .nil

/-- An index of two sizes is a row and a column. -/
theorem inside_pair {rows columns : Nat} {index : List Nat} :
    Inside [rows, columns] index ↔ ∃ row < rows, ∃ column < columns, index = [row, column] := by
  constructor
  · rintro (_ | ⟨rowBelow, _ | ⟨columnBelow, _ | _⟩⟩)
    exact ⟨_, rowBelow, _, columnBelow, rfl⟩
  · rintro ⟨row, rowBelow, column, columnBelow, rfl⟩
    exact .cons rowBelow (.cons columnBelow .nil)

theorem all_eq_nil {sizes : List Nat} (empty : 0 ∈ sizes) : all sizes = [] := by
  rw [List.eq_nil_iff_forall_not_mem]
  intro index listed
  exact (mem_all.mp listed).zero_notMem empty

theorem all_singleton (size : Nat) : all [size] = (List.range size).map ([·]) :=
  List.flatMap_pure_eq_map _ _

/-- The joined box lists the second coordinates anew for each index of the first. -/
theorem all_append (left right : List Nat) :
    all (left ++ right) = (all left).flatMap fun first => (all right).map (first ++ ·) := by
  induction left with
  | nil => simp [all]
  | cons size left ih =>
      simp only [List.cons_append, all, ih, List.map_flatMap, List.flatMap_assoc, List.map_map,
        List.flatMap_map, Function.comp_def]

end Index

/-- A shape contains the indices inside the box of its sizes. -/
theorem Shape.contains_iff {shape : Shape} {index : List Nat} :
    shape.contains index = true ↔ Index.Inside shape.sizes index := by
  rw [Shape.contains, Index.Inside, List.forall₂_iff_zip, ← shape.sizes_length]
  simp

end ShapedTensor

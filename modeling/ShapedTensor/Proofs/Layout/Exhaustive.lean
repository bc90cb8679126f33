import Mathlib.Data.List.Range
import Mathlib.Data.List.Perm.Subperm
import ShapedTensor.Proofs.Layout.Offset

namespace ShapedTensor

open Index

/-- Places below a length that do not repeat fill it exactly when there are as many of them. -/
theorem length_eq_iff_fills {places : List Nat} {length : Nat} (distinct : places.Nodup)
    (below : ∀ place ∈ places, place < length) :
    places.length = length ↔ ∀ place < length, place ∈ places := by
  have among : List.Subperm places (List.range length) :=
    List.subperm_of_subset distinct fun place listed => List.mem_range.mpr (below place listed)
  constructor
  · intro same place less
    have all : List.Perm places (List.range length) :=
      among.perm_of_length_le (by rw [List.length_range, same])
    exact all.mem_iff.mpr (List.mem_range.mpr less)
  · intro fills
    -- Two lists without repetition that contain each other are equally long.
    have back : List.Subperm (List.range length) places :=
      List.subperm_of_subset List.nodup_range fun place less => fills place (List.mem_range.mp less)
    rw [(among.antisymm back).length_eq, List.length_range]

namespace Mapping

/-- A mapping is unique when no two indices of its shape lie at the same place. -/
def Unique (mapping : Mapping) : Prop :=
  ∀ first second place, Inside mapping.shape.sizes first → Inside mapping.shape.sizes second →
    mapping.offset first = .ok place → mapping.offset second = .ok place → first = second

/-- The places of a mapping are gapless when each one below the length belongs to an index. -/
def Gapless (mapping : Mapping) (length : Nat) : Prop :=
  ∀ place < length, ∃ index, Inside mapping.shape.sizes index ∧ mapping.offset index = .ok place

variable {mapping : Mapping} {length : Nat}

/-- The places of all indices, in the order of the walk. -/
def places (mapping : Mapping) : List Nat :=
  (all mapping.shape.sizes).map fun index => Strides.total (index.zip mapping.strides)

/-- Where the span is known, every index lies at the sum of its coordinates times their strides, below
the span. -/
theorem offset_eq_total (spanned : mapping.span = .ok length) (spread : mapping.layout ≠ .broadcast)
    {index : List Nat} (inside : Inside mapping.shape.sizes index) :
    mapping.offset index = .ok (Strides.total (index.zip mapping.strides)) ∧
      Strides.total (index.zip mapping.strides) < length := by
  obtain ⟨place, found, less⟩ := offset_of_span spanned spread inside
  obtain ⟨rfl, _⟩ := (offset_eq_ok inside).mp found
  exact ⟨found, less⟩

/-- The places of the indices are those at which one lies. -/
theorem mem_places (spanned : mapping.span = .ok length) (spread : mapping.layout ≠ .broadcast)
    {place : Nat} : place ∈ mapping.places ↔
      ∃ index, Inside mapping.shape.sizes index ∧ mapping.offset index = .ok place := by
  rw [places, List.mem_map]
  refine exists_congr fun index => ?_
  rw [mem_all]
  refine and_congr_right fun inside => ?_
  rw [(offset_eq_total spanned spread inside).1, Except.ok.injEq]

/-- A mapping is unique exactly when its places do not repeat. -/
theorem unique_iff_places_nodup (spanned : mapping.span = .ok length)
    (spread : mapping.layout ≠ .broadcast) : mapping.Unique ↔ mapping.places.Nodup := by
  constructor
  · intro unique
    refine List.Nodup.map_on ?_ (all_nodup _)
    intro first firstListed second secondListed same
    have firstInside := mem_all.mp firstListed
    have secondInside := mem_all.mp secondListed
    have found := (offset_eq_total spanned spread firstInside).1
    rw [same] at found
    exact unique first second _ firstInside secondInside found
      (offset_eq_total spanned spread secondInside).1
  · intro distinct first second place firstInside secondInside found otherFound
    have same := ((offset_eq_ok firstInside).mp found).1.trans
      ((offset_eq_ok secondInside).mp otherFound).1.symm
    exact List.inj_on_of_nodup_map distinct (mem_all.mpr firstInside) (mem_all.mpr secondInside) same

/-- A unique mapping is gapless exactly when its span is the number of its indices. -/
theorem Unique.gapless_iff (unique : mapping.Unique) (spanned : mapping.span = .ok length)
    (spread : mapping.layout ≠ .broadcast) :
    mapping.Gapless length ↔ mapping.shape.sizes.prod = length := by
  have below (place : Nat) (listed : place ∈ mapping.places) : place < length := by
    obtain ⟨index, inside, found⟩ := (mem_places spanned spread).mp listed
    obtain ⟨own, less⟩ := offset_eq_total spanned spread inside
    rwa [← Except.ok.inj (own.symm.trans found)]
  have counted : mapping.places.length = mapping.shape.sizes.prod := by
    rw [places, List.length_map, length_all]
  rw [← counted, length_eq_iff_fills ((unique_iff_places_nodup spanned spread).mp unique) below]
  exact forall₂_congr fun place _ => (mem_places spanned spread).symm

/-- A strided mapping calls itself exhaustive when its span is its size, which without axes it does at
once. -/
theorem isExhaustive_strided {shape : Shape} {strides : List Nat} {count : Nat}
    (spanned : (⟨shape, .strided strides⟩ : Mapping).span = .ok length)
    (sized : shape.size = .ok count) :
    (⟨shape, .strided strides⟩ : Mapping).isExhaustive = .ok (length == count) := by
  by_cases scalar : shape.rank = 0
  · have axes : shape.sizes = [] :=
      List.eq_nil_of_length_eq_zero (by rw [Shape.sizes_length, scalar])
    obtain rfl : 1 = count := by
      rw [Shape.size, axes] at sized
      exact Except.ok.inj sized
    obtain rfl : 1 = length := by
      rw [span, axes] at spanned
      exact Except.ok.inj spanned
    exact if_pos scalar
  · rw [isExhaustive, if_neg scalar, spanned, sized]
    rfl

/-- A unique strided mapping calls itself exhaustive exactly when each place below its span belongs to an
index. -/
theorem isExhaustive_iff_gapless {shape : Shape} {strides : List Nat} {length count : Nat}
    (spanned : (⟨shape, .strided strides⟩ : Mapping).span = .ok length)
    (sized : shape.size = .ok count) (unique : (⟨shape, .strided strides⟩ : Mapping).Unique) :
    ∃ answer, (⟨shape, .strided strides⟩ : Mapping).isExhaustive = .ok answer ∧
      (answer = true ↔ (⟨shape, .strided strides⟩ : Mapping).Gapless length) := by
  refine ⟨_, isExhaustive_strided spanned sized, ?_⟩
  rw [unique.gapless_iff spanned (by simp), (shape.prod_of_size sized).1, beq_iff_eq]
  exact eq_comm

/-- A shape of three axes whose strides are in neither packed order and leave no gap. -/
theorem isExhaustive_iff_gapless_mixed :
    (⟨.ofFree [2, 3, 2], .strided [1, 4, 2]⟩ : Mapping).span = .ok 12 ∧
      (Shape.ofFree [2, 3, 2]).size = .ok 12 ∧
      (⟨.ofFree [2, 3, 2], .strided [1, 4, 2]⟩ : Mapping).Unique ∧
      ∃ answer, (⟨.ofFree [2, 3, 2], .strided [1, 4, 2]⟩ : Mapping).isExhaustive = .ok answer ∧
        (answer = true ↔ (⟨.ofFree [2, 3, 2], .strided [1, 4, 2]⟩ : Mapping).Gapless 12) := by
  have spanned : (⟨.ofFree [2, 3, 2], .strided [1, 4, 2]⟩ : Mapping).span = .ok 12 := rfl
  have unique := (unique_iff_places_nodup spanned (by simp)).mpr (by decide)
  exact ⟨spanned, rfl, unique, isExhaustive_iff_gapless spanned rfl unique⟩

/-- Strides that send two indices to one place can have the span of their size and gaps besides. -/
example : (⟨.ofFree [2, 2], .strided [3, 0]⟩ : Mapping).isExhaustive = .ok true ∧
    (⟨.ofFree [2, 2], .strided [3, 0]⟩ : Mapping).places = [0, 0, 3, 3] :=
  ⟨rfl, rfl⟩

end Mapping

end ShapedTensor

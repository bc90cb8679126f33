import ShapedTensor.Proofs.Layout.Fit

namespace ShapedTensor

open Index

namespace Strides

/-- The number of an index is its place in row-major strides. -/
theorem ordinal_eq_total {sizes index : List Nat} (inside : Inside sizes index) :
    ordinal 0 sizes index = total (index.zip (after sizes)) := by
  induction inside with
  | nil => rfl
  | @cons first size rest sizes _ restInside ih =>
      rw [ordinal, after, List.zip_cons_cons, total_cons, ← ih, Nat.zero_mul, Nat.zero_add]
      exact ordinal_eq restInside first

/-- The number of a reversed index is its place in column-major strides, in units of the first. -/
theorem ordinal_reverse_eq_total {sizes index : List Nat} (inside : Inside sizes index)
    (unit : Nat) :
    unit * ordinal 0 sizes.reverse index.reverse = total (index.zip (before unit sizes)) := by
  induction inside generalizing unit with
  | nil => simp [ordinal]
  | @cons first size rest sizes less restInside ih =>
      have last : ordinal 0 (sizes.reverse ++ [size]) (rest.reverse ++ [first]) =
          ordinal 0 sizes.reverse rest.reverse * [size].prod + ordinal 0 [size] [first] :=
        ordinal_append (List.rel_reverse restInside) (.cons less .nil)
      have own : ordinal 0 [size] [first] = first := by simp [ordinal]
      rw [List.reverse_cons, List.reverse_cons, last, own, before, List.zip_cons_cons, total_cons,
        ← ih (unit * size), List.prod_singleton]
      ring

/-- In strides of zero every place is zero. -/
theorem total_replicate_zero (index : List Nat) (rank : Nat) :
    total (index.zip (List.replicate rank 0)) = 0 := by
  induction index generalizing rank with
  | nil => rfl
  | cons first rest ih =>
      cases rank with
      | zero => rfl
      | succ rank => rw [List.replicate_succ, List.zip_cons_cons, total_cons, ih, Nat.mul_zero]

end Strides

namespace Mapping

variable {mapping rest : Mapping} {index : List Nat} {position stride place : Nat}

/-- The place of an index is the sum of its coordinates times their strides, if that is a word. -/
theorem offset_eq_ok (inside : Inside mapping.shape.sizes index) :
    mapping.offset index = .ok place ↔
      Strides.total (index.zip mapping.strides) = place ∧ place < Size.bound := by
  rcases mapping with ⟨shape, layout⟩
  cases layout with
  | rowMajor =>
      rw [strides, ← Strides.ordinal_eq_total inside]
      exact horner_eq_ok inside
  | columnMajor =>
      rw [strides, ← Strides.ordinal_reverse_eq_total inside, Nat.one_mul]
      exact horner_eq_ok (List.rel_reverse inside)
  | strided strides =>
      change Strides.accumulate 0 (index.zip strides) = .ok place ↔
        Strides.total (index.zip strides) = place ∧ place < Size.bound
      rw [Strides.accumulate_eq_ok (by decide), Nat.zero_add]
  | broadcast =>
      rw [offset, strides, Strides.total_replicate_zero, Except.ok.injEq]
      constructor
      · rintro rfl
        exact ⟨rfl, by decide⟩
      · exact fun same => same.1

/-- The strides of a mapping are that of its first axis and those without it. -/
theorem strides_eq_cons (some : 0 < mapping.shape.rank) (found : mapping.stride 0 = .ok stride)
    (cut : mapping.tail = .ok rest) : mapping.strides = stride :: rest.strides := by
  have first := strides_of_stride some found
  rw [(tail_eq_ok cut).2.1]
  cases listed : mapping.strides with
  | nil => simp [listed] at first
  | cons own others =>
      obtain rfl : own = stride := by simpa [listed] using first
      rfl

/-- The place of an index is the distance to the slice of its first coordinate and the place of the
others in the slice, if that is a word. -/
theorem offset_cons_eq_ok (found : mapping.stride 0 = .ok stride) (cut : mapping.tail = .ok rest)
    (inside : Inside mapping.shape.sizes (position :: index)) :
    mapping.offset (position :: index) = .ok place ↔
      ∃ inner, rest.offset index = .ok inner ∧ stride * position + inner = place ∧
        place < Size.bound := by
  have restInside : Inside rest.shape.sizes index := by
    rw [(tail_eq_ok cut).1, Shape.sizes_tail]
    generalize mapping.shape.sizes = sizes at inside ⊢
    cases inside with
    | cons _ restInside => exact restInside
  have some : 0 < mapping.shape.rank := by
    rw [← Shape.sizes_length, ← inside.length_eq]
    exact Nat.succ_pos _
  rw [offset_eq_ok inside, strides_eq_cons some found cut, List.zip_cons_cons, Strides.total_cons,
    Nat.mul_comm]
  simp only [offset_eq_ok restInside]
  constructor
  · rintro ⟨rfl, word⟩
    exact ⟨_, ⟨rfl, by omega⟩, rfl, word⟩
  · rintro ⟨_, ⟨rfl, _⟩, same, word⟩
    exact ⟨same, word⟩

/-- An index inside the mapping of a slice goes on from a position of the first axis to an index
inside the whole mapping. -/
theorem inside_cons {size : Nat} (sized : mapping.shape.sizeAt 0 = .ok size) (below : position < size)
    (cut : mapping.tail = .ok rest) :
    Inside mapping.shape.sizes (position :: index) ↔ Inside rest.shape.sizes index := by
  obtain ⟨sizes, listed⟩ := Shape.sizeAt_first_eq_ok.mp sized
  rw [sizes_of_tail listed cut, listed, Inside, List.forall₂_cons]
  exact and_iff_right below

end Mapping

end ShapedTensor

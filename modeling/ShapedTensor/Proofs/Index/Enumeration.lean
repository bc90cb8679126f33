import ShapedTensor.Proofs.Index.Odometer

namespace ShapedTensor

open Index

/-- A list enumerates a shape when it rises through the indices that the shape contains, each of them
once. -/
structure Shape.Enumerates (shape : Shape) (indices : List (List Nat)) : Prop where
  rising : indices.Pairwise (· < ·)
  once : indices.Nodup
  contained : ∀ index, index ∈ indices ↔ shape.contains index = true

theorem Shape.enumerates_visited (shape : Shape) : shape.Enumerates (visited shape.sizes) := by
  rw [visited_eq]
  exact ⟨all_increasing shape.sizes, all_nodup shape.sizes, fun _ => mem_all.trans contains_iff.symm⟩

namespace Index

theorem visited_nil : visited [] = [[]] := by rw [visited_eq, all]

theorem visited_of_empty {sizes : List Nat} (empty : 0 ∈ sizes) : visited sizes = [] := by
  rw [visited_eq, all_eq_nil empty]

/-- A loop that starts at the first index and advances as the box does passes through all visits. -/
theorem passes_visited {m : Type → Type} [Monad m] {advance : List Nat → m (Option (List Nat))}
    {sizes : List Nat} (filled : 0 ∉ sizes)
    (advances : ∀ index, Inside sizes index → advance index = pure (next sizes index)) :
    Passes advance (sizes.map fun _ => 0) (visited sizes) := by
  rw [visited_eq, ← remaining_first filled]
  exact passes_remaining advances (inside_first filled)

end Index

/-- Both loops over the sizes of a shape make the same visits, which enumerate the shape in order, and
then they end. -/
theorem Shape.walks_enumerate {shape : Shape} (words : ∀ size ∈ shape.sizes, size < Size.bound) :
    shape.Enumerates (visited shape.sizes) ∧
      Odometer.visited shape.sizes = .ok (visited shape.sizes) ∧
      (shape.rank = 0 → visited shape.sizes = [[]]) ∧
      (0 ∈ shape.sizes → visited shape.sizes = []) ∧
      (∀ index, shape.contains index = true →
        Odometer.advance shape.sizes index = .ok (next shape.sizes index)) ∧
      (0 ∉ shape.sizes →
        Passes (m := Id) (fun index => pure (next shape.sizes index))
            (shape.sizes.map fun _ => 0) (visited shape.sizes) ∧
          Passes (Odometer.advance shape.sizes)
            (shape.sizes.map fun _ => 0) (visited shape.sizes)) ∧
      ∀ {σ : Type} (step : σ → List Nat → Except Fault σ) (state : σ),
        Index.foldM shape.sizes step state = (visited shape.sizes).foldlM step state ∧
          Odometer.foldM shape.sizes step state = (visited shape.sizes).foldlM step state := by
  have advances (index : List Nat) (inside : Inside shape.sizes index) :=
    Odometer.advance_eq words inside
  refine ⟨shape.enumerates_visited, Odometer.visited_eq words, ?_, visited_of_empty, ?_, ?_, ?_⟩
  · intro scalar
    have axes : shape.sizes = [] := List.eq_nil_of_length_eq_zero (by rw [sizes_length, scalar])
    rw [axes, visited_nil]
  · exact fun index contained => advances index (contains_iff.mp contained)
  · exact fun filled => ⟨passes_visited filled fun _ _ => rfl, passes_visited filled advances⟩
  · intro σ step state
    rw [visited_eq]
    exact ⟨Index.foldM_eq _ step state, Odometer.foldM_eq words (fun _ => rfl) step state⟩

/-- The odometer gets through two rows of the largest size of a word. -/
theorem Shape.walks_enumerate_largest :
    let shape : Shape := ⟨[.fixed 2, .free (Size.bound - 1)]⟩
    shape.Enumerates (visited shape.sizes) ∧
      Odometer.advance shape.sizes [0, Size.bound - 2] = .ok (some [1, 0]) ∧
      Passes (Odometer.advance shape.sizes) [0, 0] (visited shape.sizes) := by
  intro shape
  obtain ⟨enumerates, _, _, _, advances, passes, _⟩ := @walks_enumerate shape (by decide)
  exact ⟨enumerates, advances [0, Size.bound - 2] (by decide), (passes (by decide)).2⟩

end ShapedTensor

import ShapedTensor.Proofs.Layout.Place
import ShapedTensor.View.Basic

namespace ShapedTensor

open Index

namespace Strides

/-- The sum of the products of all pairs. -/
def total (pairs : List (Nat × Nat)) : Nat := (pairs.map fun pair => pair.1 * pair.2).sum

@[simp] theorem total_nil : total [] = 0 := rfl

@[simp] theorem total_cons (pair : Nat × Nat) (pairs : List (Nat × Nat)) :
    total (pair :: pairs) = pair.1 * pair.2 + total pairs := rfl

/-- Adding up succeeds when the result fits into a word, since no part exceeds it. -/
theorem accumulate_eq_ok {start result : Nat} {pairs : List (Nat × Nat)}
    (below : start < Size.bound) :
    accumulate start pairs = .ok result ↔ start + total pairs = result ∧ result < Size.bound := by
  induction pairs generalizing start with
  | nil =>
      change Except.ok start = _ ↔ start + 0 = result ∧ _
      rw [Except.ok.injEq, Nat.add_zero]
      exact ⟨fun same => ⟨same, same ▸ below⟩, fun same => same.1⟩
  | cons pair pairs ih =>
      rw [accumulate, List.foldlM_cons, Checked.bind_eq_ok, total_cons, ← Nat.add_assoc]
      constructor
      · rintro ⟨next, step, rest⟩
        obtain ⟨distance, product, sum⟩ := Checked.bind_eq_ok.mp step
        obtain ⟨rfl, _⟩ := Size.mul_eq_ok.mp product
        obtain ⟨rfl, nextBelow⟩ := Size.add_eq_ok.mp sum
        exact (ih nextBelow).mp rest
      · rintro ⟨same, resultBelow⟩
        have nextBelow : start + pair.1 * pair.2 < Size.bound := by omega
        refine ⟨start + pair.1 * pair.2, Checked.bind_eq_ok.mpr ⟨pair.1 * pair.2, ?_, ?_⟩, ?_⟩
        · exact Size.mul_eq_ok.mpr ⟨rfl, by omega⟩
        · exact Size.add_eq_ok.mpr ⟨rfl, nextBelow⟩
        · exact (ih nextBelow).mpr ⟨same, resultBelow⟩

/-- The span of a box without an empty side is one more than the place of its last index. -/
theorem span_eq_ok {sizes strides : List Nat} (full : 0 ∉ sizes) {length : Nat} :
    span sizes strides = .ok length ↔
      1 + total ((sizes.map (· - 1)).zip strides) = length ∧ length < Size.bound := by
  have last (place : Nat) : accumulate 0 ((sizes.map (· - 1)).zip strides) = .ok place ↔
      total ((sizes.map (· - 1)).zip strides) = place ∧ place < Size.bound := by
    rw [accumulate_eq_ok (by decide), Nat.zero_add]
  rw [span, if_neg (by simpa using full), Checked.bind_eq_ok]
  simp only [last, Size.add_eq_ok]
  constructor
  · rintro ⟨place, ⟨rfl, _⟩, sum⟩
    exact sum
  · rintro ⟨same, below⟩
    exact ⟨_, ⟨rfl, by omega⟩, same, below⟩

/-- The span of a box with an empty side is zero. -/
theorem span_of_empty {sizes : List Nat} (empty : 0 ∈ sizes) (strides : List Nat) :
    span sizes strides = .ok 0 := by
  rw [span, if_pos (by simpa using empty)]

/-- No index inside a box lies beyond its last one. -/
theorem total_le_last {sizes index : List Nat} (inside : Inside sizes index) (strides : List Nat) :
    total (index.zip strides) ≤ total ((sizes.map (· - 1)).zip strides) := by
  induction inside generalizing strides with
  | nil => simp
  | @cons first size rest sizes less _ ih =>
      cases strides with
      | nil => simp
      | cons stride strides =>
          have step : first * stride ≤ (size - 1) * stride :=
            Nat.mul_le_mul_right stride (by omega)
          have others := ih strides
          simp only [List.map_cons, List.zip_cons_cons, total_cons]
          omega

/-- A strided place lies below the span. -/
theorem offset_of_span {sizes strides : List Nat} {length : Nat}
    (spanned : span sizes strides = .ok length) {index : List Nat} (inside : Inside sizes index) :
    ∃ place, offset index strides = .ok place ∧ place < length := by
  obtain ⟨same, below⟩ := (span_eq_ok (Inside.zero_notMem inside)).mp spanned
  have bounded := total_le_last inside strides
  refine ⟨total (index.zip strides), ?_, by omega⟩
  rw [offset, accumulate_eq_ok (by decide)]
  omega

end Strides

namespace Mapping

/-- Every index of a shape has a place below the span, except in a broadcast. -/
theorem offset_of_span {mapping : Mapping} {length : Nat} (spanned : mapping.span = .ok length)
    (spread : mapping.layout ≠ .broadcast) {index : List Nat}
    (inside : Inside mapping.shape.sizes index) :
    ∃ place, mapping.offset index = .ok place ∧ place < length := by
  rcases mapping with ⟨shape, layout⟩
  cases layout with
  | rowMajor =>
      obtain ⟨place, below⟩ := Shape.horner_of_size spanned inside
      exact ⟨_, place, below⟩
  | columnMajor =>
      have reversed : Inside shape.sizes.reverse index.reverse := List.rel_reverse inside
      obtain ⟨product, word⟩ := Size.prod_of_product (by decide) spanned
      have below : ordinal 0 shape.sizes.reverse index.reverse < length := by
        rw [← product, Nat.one_mul, ← List.prod_reverse]
        exact ordinal_lt reversed
      exact ⟨_, (horner_eq_ok reversed).mpr ⟨rfl, below.trans word⟩, below⟩
  | strided strides => exact Strides.offset_of_span spanned inside
  | broadcast => exact absurd rfl spread

end Mapping

namespace View

/-- The check of a length accepts the lengths from the span on. -/
theorem checkSpan_eq_ok {mapping : Mapping} {length : Nat} :
    checkSpan mapping length = .ok () ↔ ∃ span, mapping.span = .ok span ∧ span ≤ length := by
  rw [checkSpan, Checked.bind_eq_ok]
  refine exists_congr fun span => and_congr_right fun _ => ?_
  by_cases short : length < span
  · rw [if_pos short]
    simp [short, throw, throwThe, MonadExceptOf.throw]
  · rw [if_neg short]
    simp [pure, Except.pure]
    omega

end View

end ShapedTensor

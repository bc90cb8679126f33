import Mathlib.Algebra.BigOperators.Group.List.Lemmas
import Mathlib.Data.List.Forall2
import Mathlib.Tactic.Ring
import ShapedTensor.Layout.Mapping
import ShapedTensor.Proofs.Index.Box
import ShapedTensor.Proofs.Run.Checked

namespace ShapedTensor

open Index

namespace Size

/-- A product that does not overflow is the product of the numbers. -/
theorem prod_of_product {sizes : List Nat} {start count : Nat} (below : start < bound)
    (product : sizes.foldlM mul start = .ok count) : start * sizes.prod = count ∧ count < bound := by
  induction sizes generalizing start with
  | nil =>
      obtain rfl := Except.ok.inj product
      exact ⟨by simp, below⟩
  | cons size sizes ih =>
      rw [List.foldlM_cons] at product
      obtain ⟨next, first, rest⟩ := Checked.bind_eq_ok.mp product
      obtain ⟨rfl, below⟩ := mul_eq_ok.mp first
      rw [List.prod_cons, ← Nat.mul_assoc]
      exact ih below rest

theorem foldlM_mul_zero (sizes : List Nat) : sizes.foldlM mul 0 = .ok 0 := by
  induction sizes with
  | nil => rfl
  | cons size sizes ih =>
      have first : mul 0 size = .ok 0 := mul_eq_ok.mpr ⟨Nat.zero_mul size, by decide⟩
      rw [List.foldlM_cons]
      exact Checked.bind_eq_ok.mpr ⟨0, first, ih⟩

theorem prod_pos {sizes : List Nat} (full : 0 ∉ sizes) : 0 < sizes.prod :=
  List.prod_pos_iff_forall_pos_nat.mpr fun _ listed =>
    Nat.pos_of_ne_zero fun zero => full (zero ▸ listed)

/-- Sizes without an empty one are words as soon as their product is. -/
theorem words_of_prod {sizes : List Nat} (full : 0 ∉ sizes) (word : sizes.prod < bound) :
    ∀ size ∈ sizes, size < bound := fun _ listed =>
  (Nat.le_of_dvd (prod_pos full) (List.dvd_prod listed)).trans_lt word

/-- A product is formed as soon as the products of all first parts are words. -/
theorem product_of_prefixes {sizes : List Nat} {start : Nat}
    (words : ∀ part, part <+: sizes → start * part.prod < bound) :
    sizes.foldlM mul start = .ok (start * sizes.prod) := by
  induction sizes generalizing start with
  | nil => simp [pure, Except.pure]
  | cons size sizes ih =>
      have first : start * size < bound := by
        simpa using words [size] (List.cons_prefix_cons.mpr ⟨rfl, sizes.nil_prefix⟩)
      have step : mul start size = .ok (start * size) := mul_eq_ok.mpr ⟨rfl, first⟩
      rw [List.foldlM_cons, List.prod_cons, ← Nat.mul_assoc]
      refine Checked.bind_eq_ok.mpr ⟨_, step, ih fun part met => ?_⟩
      have longer := words (size :: part) (List.cons_prefix_cons.mpr ⟨rfl, met⟩)
      rwa [List.prod_cons, ← Nat.mul_assoc] at longer

/-- Sizes without an empty one have a product as soon as it fits into a word. -/
theorem product_of_prod {sizes : List Nat} (full : 0 ∉ sizes) {start : Nat}
    (below : start * sizes.prod < bound) :
    sizes.foldlM mul start = .ok (start * sizes.prod) := by
  refine product_of_prefixes fun part met => ?_
  have less : part.prod ≤ sizes.prod := Nat.le_of_dvd (prod_pos full) met.sublist.prod_dvd_prod
  exact (Nat.mul_le_mul_left start less).trans_lt below

end Size

namespace Index

/-- The number that an index reaches from a total when each coordinate counts below its size. -/
def ordinal (total : Nat) : (sizes index : List Nat) → Nat
  | size :: sizes, first :: rest => ordinal (total * size + first) sizes rest
  | _, _ => total

/-- Counting on does not fall below the total. -/
theorem le_ordinal {sizes index : List Nat} (inside : Inside sizes index) (total : Nat) :
    total ≤ ordinal total sizes index := by
  induction inside generalizing total with
  | nil => exact Nat.le_refl total
  | @cons first size rest sizes less _ ih =>
      have grows : total ≤ total * size := Nat.le_mul_of_pos_right _ (Nat.zero_lt_of_lt less)
      exact (grows.trans (Nat.le_add_right _ first)).trans (ih _)

/-- Blocks of equal length one after the other are one block. -/
theorem flatMap_range' (start count length : Nat) :
    (List.range count).flatMap (fun first => List.range' (start + first * length) length) =
      List.range' start (count * length) := by
  induction count with
  | zero => simp
  | succ count ih =>
      rw [List.range_succ, List.flatMap_append, ih, List.flatMap_singleton, Nat.succ_mul,
        ← List.range'_append_1]

/-- The indices of a box count through a block as long as their number. -/
theorem map_ordinal_all (total : Nat) (sizes : List Nat) :
    (all sizes).map (ordinal total sizes) = List.range' (total * sizes.prod) sizes.prod := by
  induction sizes generalizing total with
  | nil => simp [all, ordinal]
  | cons size sizes ih =>
      have blocks (first : Nat) : ((all sizes).map (first :: ·)).map (ordinal total (size :: sizes)) =
          List.range' (total * size * sizes.prod + first * sizes.prod) sizes.prod := by
        rw [List.map_map, ← Nat.add_mul]
        exact ih (total * size + first)
      rw [all, List.map_flatMap]
      simp only [blocks]
      rw [flatMap_range', List.prod_cons, Nat.mul_assoc]

/-- An index stands at its own number in the list of all indices. -/
theorem getElem?_all {sizes index : List Nat} (inside : Inside sizes index) :
    (all sizes)[ordinal 0 sizes index]? = some index := by
  obtain ⟨position, found⟩ := List.mem_iff_getElem?.mp (mem_all.mpr inside)
  have counted := congrArg (·[position]?) (map_ordinal_all 0 sizes)
  have below : position < sizes.prod := by
    rw [← length_all]
    exact (List.getElem?_eq_some_iff.mp found).1
  simp only [List.getElem?_map, found, Option.map_some, Nat.zero_mul,
    List.getElem?_range' below, Nat.one_mul, Nat.zero_add, Option.some.injEq] at counted
  rw [counted, found]

/-- The number of an index lies below the number of indices. -/
theorem ordinal_lt {sizes index : List Nat} (inside : Inside sizes index) :
    ordinal 0 sizes index < sizes.prod := by
  rw [← length_all]
  exact (List.getElem?_eq_some_iff.mp (getElem?_all inside)).1

/-- Indices with one number are the same. -/
theorem ordinal_inj {sizes first second : List Nat} (firstInside : Inside sizes first)
    (secondInside : Inside sizes second)
    (same : ordinal 0 sizes first = ordinal 0 sizes second) : first = second := by
  have found := getElem?_all firstInside
  rw [same, getElem?_all secondInside] at found
  exact (Option.some.inj found).symm

/-- Counting on from a total adds one block for each step that it took. -/
theorem ordinal_eq {sizes index : List Nat} (inside : Inside sizes index) (total : Nat) :
    ordinal total sizes index = total * sizes.prod + ordinal 0 sizes index := by
  induction inside generalizing total with
  | nil => simp [ordinal]
  | @cons first size rest sizes _ _ ih =>
      rw [ordinal, ordinal, ih (total * size + first), ih (0 * size + first), List.prod_cons]
      ring

/-- The number of a joined index counts a block of the second box for each index before the first
part. -/
theorem ordinal_append {left right first rest : List Nat} (firstInside : Inside left first)
    (restInside : Inside right rest) :
    ordinal 0 (left ++ right) (first ++ rest) =
      ordinal 0 left first * right.prod + ordinal 0 right rest := by
  rw [← ordinal_eq restInside]
  generalize 0 = total
  induction firstInside generalizing total with
  | nil => rfl
  | cons _ _ ih => exact ih _

/-- Every number below the number of indices is the number of one. -/
theorem exists_ordinal {sizes : List Nat} {position : Nat} (below : position < sizes.prod) :
    ∃ index, Inside sizes index ∧ ordinal 0 sizes index = position := by
  have numbered : position ∈ (all sizes).map (ordinal 0 sizes) := by
    rw [map_ordinal_all, List.mem_range'_1]
    omega
  obtain ⟨index, listed, same⟩ := List.mem_map.mp numbered
  exact ⟨index, mem_all.mp listed, same⟩

end Index

namespace Mapping

/-- A place reached from the first coordinate on is the number of the index, if it is a word. -/
theorem horner_eq_ok {sizes index : List Nat} (inside : Inside sizes index) {place : Nat} :
    horner index sizes = .ok place ↔ ordinal 0 sizes index = place ∧ place < Size.bound := by
  have counted (total : Nat) (below : total < Size.bound) :
      (index.zip sizes).foldlM (fun place pair => do
          let scaled ← Size.mul place pair.2
          Size.add scaled pair.1) total = .ok place ↔
        ordinal total sizes index = place ∧ place < Size.bound := by
    induction inside generalizing total with
    | nil =>
        change Except.ok total = _ ↔ total = place ∧ _
        rw [Except.ok.injEq]
        exact ⟨fun same => ⟨same, same ▸ below⟩, fun same => same.1⟩
    | @cons first size rest sizes less inside ih =>
        rw [List.zip_cons_cons, List.foldlM_cons, Checked.bind_eq_ok]
        constructor
        · rintro ⟨next, step, run⟩
          obtain ⟨scaled, product, sum⟩ := Checked.bind_eq_ok.mp step
          obtain ⟨rfl, _⟩ := Size.mul_eq_ok.mp product
          obtain ⟨rfl, nextBelow⟩ := Size.add_eq_ok.mp sum
          exact (ih _ nextBelow).mp run
        · rintro ⟨same, placeBelow⟩
          have nextBelow : total * size + first < Size.bound :=
            lt_of_le_of_lt (same ▸ le_ordinal inside (total * size + first)) placeBelow
          refine ⟨total * size + first, Checked.bind_eq_ok.mpr ⟨total * size, ?_, ?_⟩, ?_⟩
          · exact Size.mul_eq_ok.mpr ⟨rfl, by omega⟩
          · exact Size.add_eq_ok.mpr ⟨rfl, nextBelow⟩
          · exact (ih _ nextBelow).mpr ⟨same, placeBelow⟩
  exact counted 0 (by decide)

end Mapping

/-- The size of a shape is the number of its indices, which is a word. -/
theorem Shape.prod_of_size {shape : Shape} {count : Nat} (size : shape.size = .ok count) :
    shape.sizes.prod = count ∧ count < Size.bound := by
  have product := Size.prod_of_product (by decide) size
  rwa [Nat.one_mul] at product

/-- In a packed row-major buffer an index of a shape lies at its number, below the size. -/
theorem Shape.horner_of_size {shape : Shape} {count : Nat} (size : shape.size = .ok count)
    {index : List Nat} (inside : Inside shape.sizes index) :
    Mapping.horner index shape.sizes = .ok (ordinal 0 shape.sizes index) ∧
      ordinal 0 shape.sizes index < count := by
  obtain ⟨product, below⟩ := shape.prod_of_size size
  have less : ordinal 0 shape.sizes index < count := product ▸ ordinal_lt inside
  exact ⟨(Mapping.horner_eq_ok inside).mpr ⟨rfl, less.trans below⟩, less⟩

end ShapedTensor

import ShapedTensor.Proofs.Layout.Bound

namespace ShapedTensor

open Index

/-- Sizes have a product from a smaller start if they have one from a larger start. -/
theorem Size.product_of_le {sizes : List Nat} {start smaller count : Nat} (less : smaller ≤ start)
    (product : sizes.foldlM mul start = .ok count) :
    ∃ other, sizes.foldlM mul smaller = .ok other := by
  induction sizes generalizing start smaller with
  | nil => exact ⟨smaller, rfl⟩
  | cons size sizes ih =>
      rw [List.foldlM_cons] at product
      obtain ⟨next, first, rest⟩ := Checked.bind_eq_ok.mp product
      obtain ⟨rfl, below⟩ := mul_eq_ok.mp first
      have nextLess : smaller * size ≤ start * size := Nat.mul_le_mul_right size less
      obtain ⟨other, others⟩ := ih nextLess rest
      have step : mul smaller size = .ok (smaller * size) :=
        mul_eq_ok.mpr ⟨rfl, lt_of_le_of_lt nextLess below⟩
      rw [List.foldlM_cons]
      exact ⟨other, Checked.bind_eq_ok.mpr ⟨_, step, others⟩⟩

/-- Behind a size that is not zero the product of the other sizes is formed as well. -/
theorem Size.product_of_cons {size count : Nat} {sizes : List Nat} (filled : 0 < size)
    (product : Size.product (size :: sizes) = .ok count) :
    ∃ rest, Size.product sizes = .ok rest ∧ size * rest = count := by
  have whole := (prod_of_product (by decide) product).1
  rw [Size.product, List.foldlM_cons] at product
  obtain ⟨first, start, formed⟩ := Checked.bind_eq_ok.mp product
  obtain ⟨rfl, _⟩ := mul_eq_ok.mp start
  have less : 1 ≤ 1 * size := by omega
  obtain ⟨rest, others⟩ := product_of_le less formed
  obtain ⟨rfl, _⟩ := prod_of_product (by decide) others
  rw [Nat.one_mul, List.prod_cons] at whole
  exact ⟨_, others, by rw [Nat.one_mul, whole]⟩

namespace Strides

/-- The products of the sizes after each axis. -/
def after : (sizes : List Nat) → List Nat
  | [] => []
  | _ :: sizes => sizes.prod :: after sizes

/-- The products of the sizes before each axis, times the first stride. -/
def before (first : Nat) : (sizes : List Nat) → List Nat
  | [] => []
  | size :: sizes => first :: before (first * size) sizes

@[simp] theorem length_after (sizes : List Nat) : (after sizes).length = sizes.length := by
  induction sizes with
  | nil => rfl
  | cons size sizes ih => rw [after, List.length_cons, ih, List.length_cons]

@[simp] theorem length_before (first : Nat) (sizes : List Nat) :
    (before first sizes).length = sizes.length := by
  induction sizes generalizing first with
  | nil => rfl
  | cons size sizes ih => rw [before, List.length_cons, ih, List.length_cons]

/-- The stride of an axis in `after` is the product of the sizes after it. -/
theorem getElem?_after {sizes : List Nat} {axis : Nat} (below : axis < sizes.length) :
    (after sizes)[axis]? = some (sizes.drop (axis + 1)).prod := by
  induction sizes generalizing axis with
  | nil => cases below
  | cons size sizes ih =>
      cases axis with
      | zero => rfl
      | succ axis => exact ih (by simpa using below)

/-- The stride of an axis in `before` is the product of the sizes before it. -/
theorem getElem?_before {sizes : List Nat} {axis : Nat} (first : Nat) (below : axis < sizes.length) :
    (before first sizes)[axis]? = some (first * (sizes.take axis).prod) := by
  induction sizes generalizing axis first with
  | nil => cases below
  | cons size sizes ih =>
      cases axis with
      | zero => simp [before]
      | succ axis =>
          have rest : axis < sizes.length := by simpa using below
          have found := ih (first * size) rest
          rw [before, List.getElem?_cons_succ, found, List.take_succ_cons, List.prod_cons,
            Nat.mul_assoc]

/-- A sum of products does not depend on the direction in which the pairs are taken. -/
theorem total_reverse {factors strides : List Nat} (paired : factors.length = strides.length) :
    total (factors.reverse.zip strides.reverse) = total (factors.zip strides) := by
  have reversed : factors.reverse.zip strides.reverse = (factors.zip strides).reverse := by
    rw [List.zip_eq_zipWith, List.zip_eq_zipWith, List.reverse_zipWith paired]
  rw [reversed, total, total, List.map_reverse, List.sum_reverse_nat]

/-- The last place of a box in row-major strides is one less than its number of elements. -/
theorem total_after {sizes : List Nat} (full : 0 ∉ sizes) :
    1 + total ((sizes.map (· - 1)).zip (after sizes)) = sizes.prod := by
  induction sizes with
  | nil => rfl
  | cons size sizes ih =>
      obtain ⟨filled, rest⟩ := List.ne_and_not_mem_of_not_mem_cons full
      have others := ih rest
      have grows : (size - 1) * sizes.prod + sizes.prod = size * sizes.prod := by
        rw [← Nat.succ_mul]
        congr 1
        omega
      simp only [List.map_cons, after, List.zip_cons_cons, total_cons, List.prod_cons]
      omega

/-- The last place of a box in column-major strides is one less than its number of elements. -/
theorem total_before {sizes : List Nat} (full : 0 ∉ sizes) (first : Nat) :
    first + total ((sizes.map (· - 1)).zip (before first sizes)) = first * sizes.prod := by
  induction sizes generalizing first with
  | nil => simp [before]
  | cons size sizes ih =>
      obtain ⟨filled, rest⟩ := List.ne_and_not_mem_of_not_mem_cons full
      have others := ih rest (first * size)
      have grows : first + (size - 1) * first = first * size := by
        rw [Nat.mul_comm first size, Nat.add_comm, ← Nat.succ_mul]
        congr 1
        omega
      simp only [List.map_cons, before, List.zip_cons_cons, total_cons, List.prod_cons,
        ← Nat.mul_assoc]
      omega

/-- The column-major strides are the products of the sizes before each axis, refused with the product of all
sizes. -/
theorem columnMajorFrom_eq (first : Nat) (sizes : List Nat) :
    columnMajorFrom first sizes = (fun _ => before first sizes) <$> sizes.foldlM Size.mul first := by
  induction sizes generalizing first with
  | nil => rfl
  | cons size sizes ih =>
      rw [columnMajorFrom, List.foldlM_cons, before]
      cases step : Size.mul first size with
      | error fault => rfl
      | ok next =>
          obtain ⟨rfl, _⟩ := Size.mul_eq_ok.mp step
          change columnMajorFrom (first * size) sizes >>= _ = _ <$> sizes.foldlM Size.mul (first * size)
          rw [ih]
          cases sizes.foldlM Size.mul (first * size) <;> rfl

/-- The column-major strides are formed as soon as the number of elements is. -/
theorem columnMajorFrom_eq_ok {sizes strides : List Nat} {first : Nat} :
    columnMajorFrom first sizes = .ok strides ↔
      (∃ count, sizes.foldlM Size.mul first = .ok count) ∧ before first sizes = strides := by
  rw [columnMajorFrom_eq, Checked.map_eq_ok, exists_and_right]

end Strides

namespace Mapping

/-- The strides of the axes as numbers of any length. -/
def strides (mapping : Mapping) : List Nat :=
  match mapping.layout with
  | .rowMajor => Strides.after mapping.shape.sizes
  | .columnMajor => Strides.before 1 mapping.shape.sizes
  | .strided strides => strides
  | .broadcast => List.replicate mapping.shape.rank 0

/-- A mapping is regular when strides that it keeps are one for each axis. -/
def Regular (mapping : Mapping) : Prop :=
  match mapping.layout with
  | .strided strides => strides.length = mapping.shape.rank
  | _ => True

/-- A regular mapping has a stride for each axis. -/
theorem Regular.length_strides {mapping : Mapping} (regular : mapping.Regular) :
    mapping.strides.length = mapping.shape.rank := by
  rcases mapping with ⟨shape, layout⟩
  rw [← Shape.sizes_length]
  cases layout with
  | rowMajor => exact Strides.length_after shape.sizes
  | columnMajor => exact Strides.length_before 1 shape.sizes
  | strided strides =>
      rw [Shape.sizes_length]
      exact regular
  | broadcast => simp [strides]

/-- A stride that is computed is the one of the list. -/
theorem strides_of_stride {mapping : Mapping} {axis stride : Nat} (below : axis < mapping.shape.rank)
    (found : mapping.stride axis = .ok stride) : mapping.strides[axis]? = some stride := by
  rcases mapping with ⟨shape, layout⟩
  have inside : axis < shape.sizes.length := by simpa using below
  cases layout with
  | rowMajor =>
      obtain ⟨start, sum, found⟩ := Checked.bind_eq_ok.mp found
      obtain ⟨rfl, _⟩ := Size.add_eq_ok.mp sum
      obtain ⟨_, product⟩ := Checked.ite_eq_ok.mp found
      obtain ⟨rfl, _⟩ := Size.prod_of_product (by decide) product
      rw [Nat.one_mul]
      exact Strides.getElem?_after inside
  | columnMajor =>
      obtain ⟨_, product⟩ := Checked.ite_eq_ok.mp found
      obtain ⟨rfl, _⟩ := Size.prod_of_product (by decide) product
      exact Strides.getElem?_before 1 inside
  | strided strides =>
      change strides[axis]? = some stride
      cases listed : strides[axis]? with
      | none => simp [Mapping.stride, listed] at found
      | some own => simpa [Mapping.stride, listed] using found
  | broadcast =>
      obtain rfl := Except.ok.inj found
      exact List.getElem?_replicate_of_lt below

/-- The span of a box without an empty side, in any layout but a broadcast. -/
theorem span_eq_ok {mapping : Mapping} (spread : mapping.layout ≠ .broadcast)
    (full : 0 ∉ mapping.shape.sizes) {length : Nat} :
    mapping.span = .ok length ↔
      1 + Strides.total ((mapping.shape.sizes.map (· - 1)).zip mapping.strides) = length ∧
        length < Size.bound := by
  rcases mapping with ⟨shape, layout⟩
  have counted : shape.size = .ok length ↔ shape.sizes.prod = length ∧ length < Size.bound := by
    constructor
    · exact shape.prod_of_size
    · rintro ⟨rfl, below⟩
      have word : 1 * shape.sizes.prod < Size.bound := by rwa [Nat.one_mul]
      have product := Size.product_of_prod full word
      rwa [Nat.one_mul] at product
  cases layout with
  | rowMajor => exact counted.trans (by rw [strides, Strides.total_after full])
  | columnMajor => exact counted.trans (by rw [strides, Strides.total_before full, Nat.one_mul])
  | strided strides => exact Strides.span_eq_ok full
  | broadcast => exact absurd rfl spread

/-- A span that is computed lets the mapping go on without its first axis. -/
theorem tail_of_span {mapping : Mapping} {length : Nat} (spanned : mapping.span = .ok length) :
    ∃ rest, mapping.tail = .ok rest := by
  rcases mapping with ⟨shape, layout⟩
  cases layout with
  | rowMajor => exact ⟨_, rfl⟩
  | columnMajor =>
      have formed : Strides.columnMajor shape.sizes = .ok (Strides.before 1 shape.sizes) :=
        Strides.columnMajorFrom_eq_ok.mpr ⟨⟨length, spanned⟩, rfl⟩
      exact ⟨_, Checked.bind_eq_ok.mpr ⟨_, formed, rfl⟩⟩
  | strided strides => exact ⟨_, rfl⟩
  | broadcast => exact ⟨_, rfl⟩

/-- Without its first axis a mapping keeps the other sizes, their strides and whether it broadcasts. -/
theorem tail_eq_ok {mapping rest : Mapping} (cut : mapping.tail = .ok rest) :
    rest.shape = mapping.shape.tail ∧ rest.strides = mapping.strides.tail ∧
      (rest.layout = .broadcast ↔ mapping.layout = .broadcast) := by
  rcases mapping with ⟨⟨axes⟩, layout⟩
  cases layout with
  | rowMajor =>
      obtain rfl := Except.ok.inj cut
      refine ⟨rfl, ?_, Iff.rfl⟩
      cases axes <;> rfl
  | columnMajor =>
      obtain ⟨strides, formed, built⟩ := Checked.bind_eq_ok.mp cut
      obtain ⟨_, rfl⟩ := Strides.columnMajorFrom_eq_ok.mp formed
      obtain rfl := Except.ok.inj built
      exact ⟨rfl, rfl, by simp⟩
  | strided strides =>
      obtain rfl := Except.ok.inj cut
      exact ⟨rfl, rfl, by simp⟩
  | broadcast =>
      obtain rfl := Except.ok.inj cut
      refine ⟨rfl, ?_, Iff.rfl⟩
      cases axes <;> rfl

/-- Exchanging the two axes of a mapping keeps its sizes and strides, in the opposite order. -/
theorem transpose_eq_ok {mapping other : Mapping} (rank : mapping.shape.rank = 2)
    (regular : mapping.strides.length = mapping.shape.rank)
    (exchanged : mapping.transpose = .ok other) :
    mapping.layout ≠ .broadcast ∧ other.shape = mapping.shape.transpose ∧
      other.layout = .strided mapping.strides.reverse := by
  obtain ⟨strided, exchanged⟩ := Checked.ite_eq_ok.mp exchanged
  obtain ⟨second, secondFound, exchanged⟩ := Checked.bind_eq_ok.mp exchanged
  obtain ⟨first, firstFound, built⟩ := Checked.bind_eq_ok.mp exchanged
  obtain rfl := Except.ok.inj built
  have firstListed := strides_of_stride (by omega) firstFound
  have secondListed := strides_of_stride (by omega) secondFound
  have listed : mapping.strides = [first, second] := by
    apply List.ext_getElem?
    intro axis
    match axis with
    | 0 => exact firstListed
    | 1 => exact secondListed
    | axis + 2 =>
        rw [List.getElem?_eq_none (by omega)]
        rfl
  refine ⟨?_, rfl, ?_⟩
  · intro broadcast
    rw [isStrided, alwaysStrided, broadcast] at strided
    cases strided
  · rw [listed]
    rfl

end Mapping

end ShapedTensor

import Mathlib
import ShapedTensor.Proofs.Contraction.Flat
import ShapedTensor.Proofs.View.Transpose

namespace ShapedTensor

open Index

variable {T : Type}

namespace Contraction

variable {leftAxes leftSizes rightAxes rightSizes : List Nat}

/-- The sizes of the axes that are not contracted, in order. -/
def freeSizes (axes sizes : List Nat) : List Nat :=
  (freeAxes axes sizes.length).map (sizes.getD · 0)

/-- An accepted plan is accepted with its operands exchanged. -/
theorem plan_swap {contraction : Contraction}
    (planned : plan leftAxes leftSizes rightAxes rightSizes = .ok contraction) :
    plan rightAxes rightSizes leftAxes leftSizes =
      .ok (ofAxes rightAxes rightSizes leftAxes leftSizes) := by
  obtain ⟨paired, leftNamed, rightNamed, fit, _⟩ := plan_eq_ok.mp planned
  refine plan_eq_ok.mpr ⟨paired.symm, rightNamed, leftNamed, ?_, rfl⟩
  intro pair listed
  have other : pair.swap ∈ leftAxes.zip rightAxes := by
    rw [← List.zip_swap]
    exact List.mem_map_of_mem listed
  exact (fit pair.swap other).symm

/-- The exchanged output has as many elements. -/
theorem prod_outputSizes_swap {contraction : Contraction}
    (planned : plan leftAxes leftSizes rightAxes rightSizes = .ok contraction) :
    (ofAxes rightAxes rightSizes leftAxes leftSizes).outputSizes.prod =
      contraction.outputSizes.prod := by
  obtain ⟨_, _, _, _, rfl⟩ := plan_eq_ok.mp planned
  rw [ofAxes, ofAxes, List.prod_append, List.prod_append, Nat.mul_comm]

/-- When multiplication commutes, the exchanged contraction has the same entry at the exchanged
coordinates. -/
theorem entry_swap [Element T] (commutes : ∀ first second : T, first * second = second * first)
    (paired : leftAxes.length = rightAxes.length)
    (fit : ∀ pair ∈ leftAxes.zip rightAxes, leftSizes.getD pair.1 0 = rightSizes.getD pair.2 0)
    (left right : List Nat → T) {first second : List Nat}
    (firstInside : Inside (freeSizes leftAxes leftSizes) first)
    (secondInside : Inside (freeSizes rightAxes rightSizes) second) (own : T) :
    (ofAxes leftAxes leftSizes rightAxes rightSizes).entry Update.add left right (first ++ second)
        own =
      (ofAxes rightAxes rightSizes leftAxes leftSizes).entry Update.add right left (second ++ first)
        own := by
  have firstLength : first.length = (freeAxes leftAxes leftSizes.length).length := by
    simpa [freeSizes] using firstInside.length_eq
  have secondLength : second.length = (freeAxes rightAxes rightSizes.length).length := by
    simpa [freeSizes] using secondInside.length_eq
  have sizes : (ofAxes rightAxes rightSizes leftAxes leftSizes).contractedSizes =
      (ofAxes leftAxes leftSizes rightAxes rightSizes).contractedSizes :=
    (map_contracted paired fit).symm
  rw [entry, entry, sizes]
  refine List.foldl_ext _ _ _ fun own summed _ => ?_
  simp only [combine, leftIndex, rightIndex, ofAxes, ← firstLength, ← secondLength, List.take_left,
    List.drop_left, List.map_fst_zip paired.le, List.map_snd_zip paired.ge,
    List.map_fst_zip paired.ge, List.map_snd_zip paired.le, Update.add]
  rw [commutes]

end Contraction

/-- Two tensors whose axes are two groups in opposite orders, with the same element at every pair of
coordinates of the groups. -/
structure Tensor.Exchanged (firstSizes secondSizes : List Nat) (product swapped : Tensor T) : Prop where
  sizes : product.shape.sizes = firstSizes ++ secondSizes
  swappedSizes : swapped.shape.sizes = secondSizes ++ firstSizes
  read : ∀ first second, Inside firstSizes first → Inside secondSizes second →
    ∃ element, product.read (first ++ second) = .ok element ∧
      swapped.read (second ++ first) = .ok element

/-- The transposed product of two matrices has the elements of the product of their transposes in the
opposite order, which succeeds like it. -/
def Tensor.ReversedBy [Element T] (left right product : Tensor T) : Prop :=
  ∃ leftView rightView productView other, left.view.transpose = .ok leftView ∧
    right.view.transpose = .ok rightView ∧ product.view.transpose = .ok productView ∧
    rightView.source.mul leftView.source = .ok other ∧
    other.shape.sizes = productView.shape.sizes ∧
    ∀ index, Inside productView.shape.sizes index →
      ∃ element, productView.read index = .ok element ∧ other.read index = .ok element

namespace Source

variable [Element T] {left right : Source T} {leftAxes rightAxes : List Nat} {pattern : Pattern}

/-- A pattern receives a contraction when it fits the output sizes of its plan, if the plan is
accepted, and their product is a word. -/
def Receives (pattern : Pattern) (left : Source T) (leftAxes : List Nat) (right : Source T)
    (rightAxes : List Nat) : Prop :=
  ∀ contraction, Contraction.plan leftAxes left.shape.sizes rightAxes right.shape.sizes =
    .ok contraction → ∃ shape count, Shape.ofSizes pattern contraction.outputSizes = .ok shape ∧
      shape.size = .ok count

section Readable

variable {leftElement rightElement : List Nat → T}
  (leftWords : ∀ size ∈ left.shape.sizes, size < Size.bound)
  (rightWords : ∀ size ∈ right.shape.sizes, size < Size.bound)
  (leftReads : left.Reads leftElement) (rightReads : right.Reads rightElement)
include leftWords rightWords leftReads rightReads

/-- A contraction of readable sources into a pattern that receives it succeeds when its plan is
accepted and a buffer has room for its output. -/
theorem contract_exists_iff (receives : Receives pattern left leftAxes right rightAxes) :
    (∃ product, left.contract leftAxes right rightAxes pattern = .ok product) ↔
      ∃ contraction, Contraction.plan leftAxes left.shape.sizes rightAxes right.shape.sizes =
        .ok contraction ∧ Buffer.reserve T contraction.outputSizes.prod = .ok () := by
  constructor
  · rintro ⟨product, contracted⟩
    obtain ⟨contraction, planned, contracted⟩ := Checked.bind_eq_ok.mp contracted
    obtain ⟨shape, shaped, contracted⟩ := Checked.bind_eq_ok.mp contracted
    obtain ⟨output, zeros, _⟩ := Checked.bind_eq_ok.mp contracted
    obtain ⟨count, size, reserved, _⟩ := Tensor.filled_eq_ok.mp zeros
    obtain ⟨rfl, _⟩ := Shape.prod_of_size size
    rw [Shape.sizes_of_ofSizes shaped] at reserved
    exact ⟨contraction, planned, reserved⟩
  · rintro ⟨contraction, planned, reserved⟩
    obtain ⟨shape, count, shaped, size⟩ := receives contraction planned
    obtain ⟨rfl, _⟩ := Shape.prod_of_size size
    rw [← Shape.sizes_of_ofSizes shaped] at reserved
    have inWords : contraction.InWords :=
      fun _ => Contraction.words_of_plan leftWords rightWords planned
    obtain ⟨product, contracted, _⟩ := contract_of_plan inWords planned leftReads rightReads shaped
      (Tensor.filled_eq_ok.mpr ⟨_, size, reserved, rfl⟩)
    exact ⟨product, contracted⟩

/-- The tensor of a contraction of readable sources reads the entries of its plan. -/
theorem contract_reads {product : Tensor T}
    (contracted : left.contract leftAxes right rightAxes pattern = .ok product) :
    ∃ contraction, Contraction.plan leftAxes left.shape.sizes rightAxes right.shape.sizes =
        .ok contraction ∧ product.shape.sizes = contraction.outputSizes ∧
      product.source.Reads
        fun index => contraction.entry Update.add leftElement rightElement index 0 := by
  have started := contracted
  obtain ⟨contraction, planned, started⟩ := Checked.bind_eq_ok.mp started
  obtain ⟨shape, shaped, started⟩ := Checked.bind_eq_ok.mp started
  obtain ⟨output, zeros, _⟩ := Checked.bind_eq_ok.mp started
  have inWords : contraction.InWords :=
    fun _ => Contraction.words_of_plan leftWords rightWords planned
  obtain ⟨tensor, result, rfl, _, reads⟩ :=
    contract_of_plan inWords planned leftReads rightReads shaped zeros
  obtain rfl := Except.ok.inj (result.symm.trans contracted)
  exact ⟨contraction, planned, Shape.sizes_of_ofSizes shaped, reads⟩

variable {swappedPattern : Pattern}

/-- A contraction and the one with its operands exchanged succeed together if patterns receive both:
their outputs have as many elements. -/
theorem contract_exists_swap (receives : Receives pattern left leftAxes right rightAxes)
    (swappedReceives : Receives swappedPattern right rightAxes left leftAxes) :
    (∃ product, left.contract leftAxes right rightAxes pattern = .ok product) ↔
      ∃ swapped, right.contract rightAxes left leftAxes swappedPattern = .ok swapped := by
  rw [contract_exists_iff leftWords rightWords leftReads rightReads receives,
    contract_exists_iff rightWords leftWords rightReads leftReads swappedReceives]
  constructor
  · rintro ⟨contraction, planned, reserved⟩
    refine ⟨_, Contraction.plan_swap planned, ?_⟩
    rw [Contraction.prod_outputSizes_swap planned]
    exact reserved
  · rintro ⟨contraction, planned, reserved⟩
    refine ⟨_, Contraction.plan_swap planned, ?_⟩
    rw [Contraction.prod_outputSizes_swap planned]
    exact reserved

/-- When multiplication commutes, exchanged operands give the same elements at exchanged output
coordinates. -/
theorem contract_read_swap (commutes : ∀ first second : T, first * second = second * first)
    {product swapped : Tensor T}
    (contracted : left.contract leftAxes right rightAxes pattern = .ok product)
    (exchanged : right.contract rightAxes left leftAxes swappedPattern = .ok swapped) :
    Tensor.Exchanged (Contraction.freeSizes leftAxes left.shape.sizes)
      (Contraction.freeSizes rightAxes right.shape.sizes) product swapped := by
  obtain ⟨contraction, planned, sizes, reads⟩ :=
    contract_reads leftWords rightWords leftReads rightReads contracted
  obtain ⟨other, otherPlanned, otherSizes, otherReads⟩ :=
    contract_reads rightWords leftWords rightReads leftReads exchanged
  obtain ⟨paired, _, _, fit, rfl⟩ := Contraction.plan_eq_ok.mp planned
  obtain ⟨_, _, _, _, rfl⟩ := Contraction.plan_eq_ok.mp otherPlanned
  refine ⟨sizes, otherSizes, fun first second firstInside secondInside => ?_⟩
  have inside : Inside product.shape.sizes (first ++ second) := by
    rw [sizes]
    exact List.rel_append firstInside secondInside
  have otherInside : Inside swapped.shape.sizes (second ++ first) := by
    rw [otherSizes]
    exact List.rel_append secondInside firstInside
  have read : product.read (first ++ second) = .ok _ := reads _ inside
  have otherRead : swapped.read (second ++ first) = .ok _ := otherReads _ otherInside
  have same := Contraction.entry_swap commutes paired fit leftElement rightElement firstInside
    secondInside 0
  exact ⟨_, read, otherRead.trans (congrArg Except.ok same.symm)⟩

end Readable

end Source

/-- Two sizes have a product when the first and the result are words. -/
theorem Size.product_pair {first second : Nat} (word : first < bound)
    (below : first * second < bound) : product [first, second] = .ok (first * second) := by
  refine Checked.bind_eq_ok.mpr ⟨first, mul_eq_ok.mpr ⟨Nat.one_mul first, word⟩, ?_⟩
  exact Checked.bind_eq_ok.mpr ⟨first * second, mul_eq_ok.mpr ⟨rfl, below⟩, rfl⟩

/-- When multiplication commutes, an entry of the product of two matrices is that of the product of
their transposes in the opposite order. -/
theorem Contraction.entry_transpose [Element T]
    (commutes : ∀ first second : T, first * second = second * first)
    {rows inner columns row column : Nat} (rowBelow : row < rows) (columnBelow : column < columns)
    (left right : List Nat → T) (own : T) :
    (adjacent [rows] [inner] [columns]).entry Update.add left right [row, column] own =
      (adjacent [columns] [inner] [rows]).entry Update.add (fun index => right index.reverse)
        (fun index => left index.reverse) [column, row] own := by
  have rowInside : Inside [rows] [row] := .cons rowBelow .nil
  have columnInside : Inside [columns] [column] := .cons columnBelow .nil
  refine List.foldl_ext _ _ _ fun own summed listed => ?_
  have inside : Inside [inner] summed := mem_all.mp listed
  have single : summed.reverse = summed := by
    obtain ⟨position, rfl⟩ := List.length_eq_one_iff.mp inside.length_eq
    rfl
  change Update.add own (left ((adjacent _ _ _).leftIndex summed ([row] ++ [column])))
      (right ((adjacent _ _ _).rightIndex summed ([row] ++ [column]))) =
    Update.add own (right ((adjacent _ _ _).leftIndex summed ([column] ++ [row])).reverse)
      (left ((adjacent _ _ _).rightIndex summed ([column] ++ [row])).reverse)
  rw [leftIndex_adjacent rowInside inside columnInside,
    rightIndex_adjacent rowInside inside columnInside,
    leftIndex_adjacent columnInside inside rowInside,
    rightIndex_adjacent columnInside inside rowInside, List.reverse_append, List.reverse_append,
    single, Update.add, Update.add, commutes]
  rfl

namespace Tensor

variable [Element T] {left right product : Tensor T}

/-- Matrices that are multiplied meet in one size. -/
theorem sizes_of_mul (leftRank : left.shape.rank = 2) (rightRank : right.shape.rank = 2)
    (multiplied : left.source.mul right.source = .ok product) :
    ∃ rows inner columns, left.shape.sizes = [rows, inner] ∧
      right.shape.sizes = [inner, columns] := by
  obtain ⟨outer, summed, last, leftSizes, rightSizes, one⟩ :=
    Source.sizes_of_contractAdjacentWith multiplied
  change left.shape.sizes = _ at leftSizes
  change right.shape.sizes = _ at rightSizes
  have leftLength := congrArg List.length leftSizes
  have rightLength := congrArg List.length rightSizes
  simp only [Shape.sizes_length, List.length_append, one] at leftLength rightLength
  obtain ⟨inner, rfl⟩ := List.length_eq_one_iff.mp one
  obtain ⟨rows, rfl⟩ := List.length_eq_one_iff.mp (show outer.length = 1 by omega)
  obtain ⟨columns, rfl⟩ := List.length_eq_one_iff.mp (show last.length = 1 by omega)
  exact ⟨rows, inner, columns, leftSizes, rightSizes⟩

variable (commutes : ∀ first second : T, first * second = second * first)
include commutes

/-- When multiplication commutes, a transposed product of matrices is that of their transposes in the
opposite order. -/
theorem transpose_mul_of_sizes {rows inner columns : Nat} (rowsWord : rows < Size.bound)
    (innerWord : inner < Size.bound) (columnsWord : columns < Size.bound)
    (leftSizes : left.shape.sizes = [rows, inner]) (rightSizes : right.shape.sizes = [inner, columns])
    {leftElement rightElement : List Nat → T} (leftReads : left.source.Reads leftElement)
    (rightReads : right.source.Reads rightElement)
    (multiplied : left.source.mul right.source = .ok product) : ReversedBy left right product := by
  have inWords : (Contraction.adjacent [rows] [inner] [columns]).InWords := fun _ => by
    simp [Contraction.adjacent, rowsWord, innerWord, columnsWord]
  have swappedInWords : (Contraction.adjacent [columns] [inner] [rows]).InWords := fun _ => by
    simp [Contraction.adjacent, rowsWord, innerWord, columnsWord]
  have leftCut : left.source.shape.sizes = [rows] ++ [inner] := leftSizes
  have rightCut : right.source.shape.sizes = [inner] ++ [columns] := rightSizes
  obtain ⟨cells, built, _, reads⟩ := Source.contractAdjacentWith_reads inWords leftCut rightCut
    leftReads rightReads multiplied
  have sizes : product.shape.sizes = [rows, columns] := by
    rw [built]
    exact Shape.sizes_kept leftCut rightCut
  obtain ⟨leftView, leftTransposed, leftShape, leftViewReads⟩ :=
    transpose_reads leftSizes rowsWord innerWord leftReads
  obtain ⟨rightView, rightTransposed, rightShape, rightViewReads⟩ :=
    transpose_reads rightSizes innerWord columnsWord rightReads
  obtain ⟨productView, productTransposed, productShape, productReads⟩ :=
    transpose_reads sizes rowsWord columnsWord reads
  have leftViewSizes : leftView.source.shape.sizes = [inner] ++ [rows] := by
    rw [leftShape, Shape.sizes_transpose, leftSizes]
    rfl
  have rightViewSizes : rightView.source.shape.sizes = [columns] ++ [inner] := by
    rw [rightShape, Shape.sizes_transpose, rightSizes]
    rfl
  have productViewSizes : productView.source.shape.sizes = [columns, rows] := by
    rw [productShape, Shape.sizes_transpose, sizes]
    rfl
  -- The transposed operands meet in the same size, and their product takes the same room.
  obtain ⟨below, reserved⟩ := Source.room_of_contractAdjacentWith multiplied
  have count : product.shape.sizes.prod = columns * rows := by
    rw [sizes, List.prod_cons, List.prod_singleton, Nat.mul_comm]
  rw [count] at below reserved
  have otherSizes := Shape.sizes_kept rightViewSizes leftViewSizes
  have size : Shape.size _ = .ok (columns * rows) :=
    (congrArg Size.product otherSizes).trans (Size.product_pair columnsWord below)
  obtain ⟨otherCells, otherMultiplied, _, otherReads⟩ :=
    Source.contractAdjacentWith_of_zeros swappedInWords rightViewSizes leftViewSizes rightViewReads
      leftViewReads (filled_eq_ok.mpr ⟨columns * rows, size, reserved, rfl⟩)
  refine ⟨leftView, rightView, productView, _, leftTransposed, rightTransposed, productTransposed,
    otherMultiplied, otherSizes.trans productViewSizes.symm, fun index inside => ?_⟩
  refine ⟨_, productReads index inside, ?_⟩
  change Inside productView.source.shape.sizes index at inside
  rw [productViewSizes] at inside
  obtain ⟨column, columnBelow, row, rowBelow, rfl⟩ := inside_pair.mp inside
  refine (otherReads [column, row] (otherSizes ▸ inside)).trans (congrArg Except.ok ?_)
  exact (Contraction.entry_transpose commutes rowBelow columnBelow leftElement rightElement 0).symm

/-- When multiplication commutes, the transposed product of two matrices has the elements of the
product of their transposes in the opposite order. -/
theorem transpose_mul (leftFull : left.Full) (rightFull : right.Full)
    (leftRank : left.shape.rank = 2) (rightRank : right.shape.rank = 2)
    (leftWords : ∀ size ∈ left.shape.sizes, size < Size.bound)
    (rightWords : ∀ size ∈ right.shape.sizes, size < Size.bound)
    (multiplied : left.source.mul right.source = .ok product) : ReversedBy left right product := by
  obtain ⟨rows, inner, columns, leftSizes, rightSizes⟩ := sizes_of_mul leftRank rightRank multiplied
  rw [leftSizes] at leftWords
  rw [rightSizes] at rightWords
  exact transpose_mul_of_sizes commutes (leftWords rows (by simp)) (leftWords inner (by simp))
    (rightWords columns (by simp)) leftSizes rightSizes leftFull.reads rightFull.reads multiplied

end Tensor

/-- When multiplication commutes, exchanging the operands of a contraction transposes its result. -/
theorem Source.contract_swap_transposes [Element T]
    (commutes : ∀ first second : T, first * second = second * first) :
    (∀ (left right : Source T) (leftAxes rightAxes : List Nat) (pattern swappedPattern : Pattern)
      (leftElement rightElement : List Nat → T),
      (∀ size ∈ left.shape.sizes, size < Size.bound) →
      (∀ size ∈ right.shape.sizes, size < Size.bound) →
      left.Reads leftElement → right.Reads rightElement →
      Receives pattern left leftAxes right rightAxes →
      Receives swappedPattern right rightAxes left leftAxes →
      ((∃ product, left.contract leftAxes right rightAxes pattern = .ok product) ↔
        ∃ swapped, right.contract rightAxes left leftAxes swappedPattern = .ok swapped) ∧
      ∀ product swapped, left.contract leftAxes right rightAxes pattern = .ok product →
        right.contract rightAxes left leftAxes swappedPattern = .ok swapped →
          Tensor.Exchanged (Contraction.freeSizes leftAxes left.shape.sizes)
            (Contraction.freeSizes rightAxes right.shape.sizes) product swapped) ∧
    ∀ left right product : Tensor T, left.Full → right.Full → left.shape.rank = 2 →
      right.shape.rank = 2 → (∀ size ∈ left.shape.sizes, size < Size.bound) →
      (∀ size ∈ right.shape.sizes, size < Size.bound) →
      left.source.mul right.source = .ok product → Tensor.ReversedBy left right product := by
  constructor
  · intro left right leftAxes rightAxes pattern swappedPattern leftElement rightElement leftWords
      rightWords leftReads rightReads receives swappedReceives
    refine ⟨contract_exists_swap leftWords rightWords leftReads rightReads receives swappedReceives,
      fun product swapped contracted exchanged => ?_⟩
    exact contract_read_swap leftWords rightWords leftReads rightReads commutes contracted exchanged
  · intro left right product leftFull rightFull leftRank rightRank leftWords rightWords multiplied
    exact Tensor.transpose_mul commutes leftFull rightFull leftRank rightRank leftWords rightWords
      multiplied

open scoped Integer in
/-- Two crossed pairs of axes are contracted in both orders, and a product of a row with a matrix is
transposed. -/
theorem Source.contract_swap_transposes_crossed :
    let left : Tensor Int := .ofLiteral [2, 3, 2] #[1, 2, 3, 4, 5, 6, 7, 8, 9, 10, 11, 12]
    let right : Tensor Int := .ofLiteral [2, 3, 2] #[1, 0, 10, 1, 100, 0, 1, 2, 3, 4, 5, 6]
    let row : Tensor Int := .ofLiteral [1, 2] #[3, 5]
    let matrix : Tensor Int := .ofLiteral [2, 2] #[1, 2, 3, 4]
    (∃ product swapped, left.source.contract [2, 1] right.source [0, 1] [none, none] = .ok product ∧
      right.source.contract [0, 1] left.source [2, 1] [none, none] = .ok swapped ∧
      product.read [1, 0] = .ok 1295 ∧ swapped.read [0, 1] = .ok 1295) ∧
    ∃ rowView matrixView other, row.view.transpose = .ok rowView ∧
      matrix.view.transpose = .ok matrixView ∧ matrixView.source.mul rowView.source = .ok other ∧
      other.shape.sizes = [2, 1] := by
  intro left right row matrix
  have commutes : ∀ first second : Int, first * second = second * first := Int.mul_comm
  obtain ⟨swaps, transposes⟩ := contract_swap_transposes commutes
  have leftFull : left.Full := rfl
  have rightFull : right.Full := rfl
  have rowFull : row.Full := rfl
  have matrixFull : matrix.Full := rfl
  constructor
  · have receives : Receives [none, none] left.source [2, 1] right.source [0, 1] := by
      intro contraction planned
      obtain rfl := Except.ok.inj planned
      exact ⟨.ofFree [2, 2], 4, rfl, rfl⟩
    have swappedReceives : Receives [none, none] right.source [0, 1] left.source [2, 1] := by
      intro contraction planned
      obtain rfl := Except.ok.inj planned
      exact ⟨.ofFree [2, 2], 4, rfl, rfl⟩
    let product : Tensor Int := ⟨.ofFree [2, 2], .growable, #[575, 59, 1295, 137]⟩
    have contracted : left.source.contract [2, 1] right.source [0, 1] [none, none] =
      .ok product := by cbv
    obtain ⟨together, reads⟩ := swaps left.source right.source [2, 1] [0, 1] [none, none]
      [none, none] _ _ (by decide) (by decide) leftFull.reads rightFull.reads receives
      swappedReceives
    obtain ⟨swapped, exchanged⟩ := together.mp ⟨product, contracted⟩
    have same := reads product swapped contracted exchanged
    obtain ⟨element, read, swappedRead⟩ := same.read [1] [0] (by decide) (by decide)
    obtain rfl : 1295 = element := Except.ok.inj read
    exact ⟨product, swapped, contracted, exchanged, read, swappedRead⟩
  · let product : Tensor Int := ⟨⟨[.fixed 1, .fixed 2]⟩, .growable, #[18, 26]⟩
    have multiplied : row.source.mul matrix.source = .ok product := by cbv
    obtain ⟨rowView, matrixView, productView, other, rowTransposed, matrixTransposed,
      productTransposed, otherMultiplied, sizes, _⟩ := transposes row matrix product rowFull
        matrixFull rfl rfl (by decide) (by decide) multiplied
    obtain rfl := Except.ok.inj productTransposed
    exact ⟨rowView, matrixView, other, rowTransposed, matrixTransposed, otherMultiplied, sizes⟩

end ShapedTensor

import ShapedTensor.Proofs.Contraction.Leading
import ShapedTensor.Proofs.Contraction.Matrices
import ShapedTensor.Proofs.Operand.Holds
import ShapedTensor.Proofs.Source.Alike

namespace ShapedTensor

open Index

variable {T : Type} [Element T]

/-- A result is a value where a buffer holds so many elements, and is refused at most for want of room. -/
def Buffer.Affords (T : Type) [Stored T] {α : Type} (count : Nat) (result : Except Fault α)
    (value : α) : Prop :=
  (bytes T count < bound → result = .ok value) ∧
    (result = .ok value ∨ result = .error .capacityOverflow)

omit [Element T] in
/-- A value that is had after room has been found for a buffer is afforded. -/
theorem Buffer.affords_reserve [Stored T] {α : Type} (count : Nat) (value : α) :
    Affords T count (reserve T count >>= fun _ => .ok value) value := by
  by_cases fits : bytes T count < bound
  · rw [reserve, if_pos fits]
    exact ⟨fun _ => rfl, .inl rfl⟩
  · rw [reserve, if_neg fits]
    exact ⟨fun below => absurd below fits, .inr rfl⟩

/-- The axes of a product of three matrices, the left one transposed, are those of the contractions of
first axes. -/
theorem Shape.kept_transpose {matrix left : Shape} (right : Shape) (matrixRank : matrix.rank = 2)
    (leftRank : left.rank = 2) :
    (left.transpose.kept matrix 1).kept right 1 =
      (matrix.tail.concat left.tail).tail.concat right.tail := by
  rcases matrix with ⟨matrix⟩
  rcases left with ⟨left⟩
  obtain ⟨row, column, rfl⟩ := List.length_eq_two.mp matrixRank
  obtain ⟨leftRow, leftColumn, rfl⟩ := List.length_eq_two.mp leftRank
  rfl

namespace Operand

variable {matrix left right : Operand T} {matrixElement leftElement rightElement : List Nat → T}
  {rows columns outer inner last : Nat}

/-- An operand that holds elements of some sizes has as many axes. -/
theorem Holds.rank {operand : Operand T} {sizes : List Nat} {element : List Nat → T}
    (holds : operand.Holds sizes element) : operand.source.shape.rank = sizes.length := by
  rw [← Shape.sizes_length, holds.sizes]

/-- The transposed view of a matrix holds the elements at the opposite indices. -/
theorem Holds.transpose {turned : View T} (holds : left.Holds [rows, outer] leftElement)
    (transposed : left.asView.transpose = .ok turned) :
    turned.shape = left.source.shape.transpose ∧
      (ofView turned).Holds [outer, rows] fun index => leftElement index.reverse := by
  have same : left.asView.shape = left.source.shape := congrArg Source.shape left.source_asView
  have viewSizes : left.asView.shape.sizes = [rows, outer] := by rw [same, holds.sizes]
  have viewReads : left.asView.source.Reads leftElement := by
    rw [source_asView]
    exact holds.reads
  obtain ⟨shape, reads⟩ := View.reads_of_transpose viewSizes transposed viewReads
  refine ⟨shape.trans (congrArg Shape.transpose same), ?_, ?_, reads⟩
  · have words := holds.words
    simp only [List.mem_cons, List.not_mem_nil, or_false, forall_eq_or_imp, forall_eq] at words ⊢
    exact words.symm
  · change turned.shape.sizes = _
    rw [shape, Shape.sizes_transpose, viewSizes]
    rfl

/-- Two operands have a product, which has the axes that they keep and holds the rows of the one times
the columns of the other. -/
def Multiplies (outer inner last : Nat) (left right : Operand T)
    (leftElement rightElement : List Nat → T) : Prop :=
  ∃ product, left.mul right = .ok product ∧
    product.source.shape = left.source.shape.kept right.source.shape 1 ∧
    product.Holds [outer, last] (Source.rowByColumn inner leftElement rightElement)

section Product

variable (leftHolds : left.Holds [outer, inner] leftElement)
  (rightHolds : right.Holds [inner, last] rightElement)
include leftHolds rightHolds

/-- A product that is formed from the sources holds what it should, if its elements are as many as a
word and a buffer hold. -/
theorem multiplies_of_dense (laws : SemiringLaws T) (below : outer * last < Size.bound)
    (reserved : Buffer.reserve T (outer * last) = .ok ())
    (made : left.mul right = ofTensor <$> left.source.mul right.source) :
    Multiplies outer inner last left right leftElement rightElement := by
  have outerWord := leftHolds.words outer (by simp)
  have lastWord := rightHolds.words last (by simp)
  obtain ⟨product, multiplied, shape, reads⟩ := Source.mul_matrices laws outerWord
    (leftHolds.words inner (by simp)) lastWord leftHolds.sizes rightHolds.sizes leftHolds.reads
    rightHolds.reads below reserved
  refine ⟨ofTensor product, made.trans (Checked.map_eq_ok.mpr ⟨product, multiplied, rfl⟩), shape,
    by simp [outerWord, lastWord], ?_, reads⟩
  change product.shape.sizes = [outer] ++ [last]
  rw [shape]
  exact Shape.sizes_kept (show left.source.shape.sizes = [outer] ++ [inner] from leftHolds.sizes)
    (show right.source.shape.sizes = [inner] ++ [last] from rightHolds.sizes)

/-- A zero tensor as a product holds what it should when every term of its elements is zero. -/
theorem multiplies_of_zero (laws : SemiringLaws T)
    (vanishes : ∀ row < outer, ∀ summed < inner, ∀ column < last,
      leftElement [row, summed] * rightElement [summed, column] = 0)
    (made : left.mul right = ofZero <$> (ZeroTensor.mk <$>
      left.source.shape.contract right.source.shape 1)) :
    Multiplies outer inner last left right leftElement rightElement := by
  let ring := laws.toSemiring
  have leftCut : left.source.shape.sizes = [outer] ++ [inner] := leftHolds.sizes
  have rightCut : right.source.shape.sizes = [inner] ++ [last] := rightHolds.sizes
  have joined := Shape.contract_adjacent leftCut rightCut
  have sizes := Shape.sizes_kept leftCut rightCut
  have words : ∀ size ∈ [outer, last], size < Size.bound := by
    simp [leftHolds.words outer (by simp), rightHolds.words last (by simp)]
  have formed : left.mul right = .ok (ofZero ⟨left.source.shape.kept right.source.shape 1⟩) :=
    made.trans (Checked.map_eq_ok.mpr ⟨_, Checked.map_eq_ok.mpr ⟨_, joined, rfl⟩, rfl⟩)
  refine ⟨_, formed, rfl, words, sizes, fun index inside => ?_⟩
  have inside : Inside ([outer] ++ [last]) index := sizes ▸ inside
  obtain ⟨row, rowBelow, column, columnBelow, rfl⟩ := inside_pair.mp inside
  refine congrArg Except.ok (List.sum_eq_zero fun term listed => ?_).symm
  obtain ⟨summed, inRange, rfl⟩ := List.mem_map.mp listed
  exact vanishes row rowBelow summed (List.mem_range.mp inRange) column columnBelow

/-- Operands that hold matrices have a product if its elements are as many as a word and a buffer
hold. -/
theorem multiplies_of_holds (laws : SemiringLaws T) (below : outer * last < Size.bound)
    (reserved : Buffer.reserve T (outer * last) = .ok ()) :
    Multiplies outer inner last left right leftElement rightElement := by
  let ring := laws.toSemiring
  have dense := multiplies_of_dense leftHolds rightHolds laws below reserved
  cases left with
  | ofTensor tensor =>
      cases right with
      | ofTensor _ => exact dense rfl
      | ofView _ => exact dense rfl
      | ofZero zeros =>
          refine multiplies_of_zero leftHolds rightHolds laws ?_ rfl
          intro row _ summed summedBelow column columnBelow
          have zero := rightHolds.eq_zero
            (inside_pair.mpr ⟨summed, summedBelow, column, columnBelow, rfl⟩)
          exact (congrArg (_ * ·) zero).trans (mul_zero _)
  | ofView view => cases right <;> exact dense rfl
  | ofZero zeros =>
      refine multiplies_of_zero leftHolds rightHolds laws ?_ rfl
      intro row rowBelow summed summedBelow column _
      have zero := leftHolds.eq_zero (inside_pair.mpr ⟨row, rowBelow, summed, summedBelow, rfl⟩)
      exact (congrArg (· * _) zero).trans (zero_mul _)

end Product

/-- An element of a contraction of the first axes of matrices: a column of the left by one of the
right. -/
def columnByColumn (rows : Nat) (left right : List Nat → T) (index : List Nat) : T :=
  Source.leadingSum rows left right [index.headD 0] index.tail

/-- The contraction of the first axes of matrices holds columns times columns, in room for them. -/
theorem Holds.contractLeading (laws : SemiringLaws T) {product : Tensor T}
    (leftHolds : left.Holds [rows, inner] leftElement)
    (rightHolds : right.Holds [rows, last] rightElement)
    (contracted : left.source.contractLeading right.source = .ok product) :
    (ofTensor product).Holds [inner, last] (columnByColumn rows leftElement rightElement) ∧
      product.shape = left.source.shape.tail.concat right.source.shape.tail ∧
      inner * last < Size.bound ∧ Buffer.reserve T (inner * last) = .ok () := by
  obtain ⟨sizes, reads⟩ := Source.contractLeading_reads laws leftHolds.source_words
    rightHolds.source_words leftHolds.sizes rightHolds.sizes leftHolds.reads rightHolds.reads contracted
  have shape := Source.shape_of_contractLeading (leftHolds.rank ▸ Nat.succ_pos 1)
    (rightHolds.rank ▸ Nat.succ_pos 1) contracted
  have room := Source.room_of_contract contracted
  rw [sizes, List.prod_append, List.prod_singleton, List.prod_singleton] at room
  refine ⟨⟨?_, sizes, fun index inside => (reads index inside).trans ?_⟩, shape, room⟩
  · simp [leftHolds.words inner (by simp), rightHolds.words last (by simp)]
  · have inside : Inside ([inner] ++ [last]) index := sizes ▸ inside
    obtain ⟨row, _, column, _, rfl⟩ := inside_pair.mp inside
    rfl

/-- The multilinear contraction of a matrix with two matrices is the product of the three, with the
left one transposed. -/
theorem multilinear_matrices (laws : CommSemiringLaws T) {turned : View T} {product : Tensor T}
    (matrixHolds : matrix.Holds [rows, inner] matrixElement)
    (leftHolds : left.Holds [rows, outer] leftElement)
    (rightHolds : right.Holds [inner, last] rightElement)
    (transposed : left.asView.transpose = .ok turned)
    (contracted : matrix.source.multilinear [left.source, right.source] = .ok product) :
    ∃ middle other, (ofView turned).mul matrix = .ok middle ∧ middle.mul right = .ok other ∧
      other.source.Alike product.source := by
  obtain ⟨next, start, rest⟩ := Checked.bind_eq_ok.mp contracted
  obtain ⟨nextHolds, nextShape, nextBelow, nextRoom⟩ :=
    matrixHolds.contractLeading laws.toSemiringLaws leftHolds start
  obtain ⟨productHolds, productShape, below, room⟩ :=
    Holds.contractLeading laws.toSemiringLaws nextHolds rightHolds rest
  obtain ⟨turnedShape, turnedHolds⟩ := leftHolds.transpose transposed
  -- The transposed matrix gives the elements of the first contraction at the opposite indices.
  rw [Nat.mul_comm] at nextBelow nextRoom
  obtain ⟨middle, multiplied, middleShape, middleHolds⟩ :=
    multiplies_of_holds turnedHolds matrixHolds laws.toSemiringLaws nextBelow nextRoom
  obtain ⟨other, otherMultiplied, otherShape, otherHolds⟩ :=
    multiplies_of_holds middleHolds rightHolds laws.toSemiringLaws below room
  refine ⟨middle, other, multiplied, otherMultiplied, ?_, fun index inside => ?_⟩
  · rw [otherShape, middleShape]
    change (turned.shape.kept matrix.source.shape 1).kept right.source.shape 1 = product.shape
    rw [turnedShape, productShape, Shape.kept_transpose _ matrixHolds.rank leftHolds.rank, ← nextShape]
    rfl
  · have same : Source.rowByColumn inner (Source.rowByColumn rows (leftElement ·.reverse) matrixElement)
        rightElement index =
      columnByColumn inner (columnByColumn rows matrixElement leftElement) rightElement index := by
      refine congrArg List.sum (List.map_congr_left fun summed _ => ?_)
      refine congrArg (· * _) (congrArg List.sum (List.map_congr_left fun row _ => ?_))
      exact laws.mul_comm _ _
    have otherInside : Inside product.shape.sizes index := by
      rw [otherHolds.sizes] at inside
      exact productHolds.sizes ▸ inside
    rw [otherHolds.reads index inside, same]
    exact (productHolds.reads index otherInside).symm

/-- The multilinear contraction of a matrix with two vectors has the value of the bilinear form, which
sums in the other order. -/
theorem value_of_multilinear (laws : CommSemiringLaws T) {product : Tensor T}
    (matrixHolds : matrix.Holds [rows, inner] matrixElement) (leftHolds : left.Holds [rows] leftElement)
    (rightHolds : right.Holds [inner] rightElement)
    (contracted : matrix.source.multilinear [left.source, right.source] = .ok product) :
    product.value = .ok (Source.bilinearSum rows inner matrixElement leftElement rightElement) := by
  obtain ⟨next, start, rest⟩ := Checked.bind_eq_ok.mp contracted
  obtain ⟨nextSizes, nextReads⟩ := Source.contractLeading_reads laws.toSemiringLaws
    matrixHolds.source_words leftHolds.source_words matrixHolds.sizes leftHolds.sizes matrixHolds.reads
    leftHolds.reads start
  have nextWords : ∀ size ∈ next.source.shape.sizes, size < Size.bound := by
    change ∀ size ∈ next.shape.sizes, _
    rw [nextSizes]
    simpa using matrixHolds.words inner (by simp)
  obtain ⟨sizes, reads⟩ := Source.contractLeading_reads laws.toSemiringLaws nextWords
    rightHolds.source_words nextSizes rightHolds.sizes nextReads rightHolds.reads rest
  have read := reads [] (by rw [show product.source.shape.sizes = [] from sizes]; exact .nil)
  refine Tensor.value_of_read sizes (read.trans (congrArg Except.ok ?_))
  exact @sum_bilinear T Nat Nat laws.toCommSemiring (List.range rows) (List.range inner)
    (fun row column => matrixElement [row, column]) (leftElement [·]) (rightElement [·])

/-- The bilinear form of an operand has its value if a buffer holds as many elements as there are rows,
and is refused at most for want of room. -/
theorem bilinear_of_holds (laws : SemiringLaws T) (matrixHolds : matrix.Holds [rows, inner] matrixElement)
    (leftHolds : left.Holds [rows] leftElement) (rightHolds : right.Holds [inner] rightElement) :
    Buffer.Affords T rows (matrix.bilinear left.source right.source)
      (Source.bilinearSum rows inner matrixElement leftElement rightElement) := by
  let ring := laws.toSemiring
  have dense (same : matrix.bilinear left.source right.source =
      matrix.source.bilinear left.source right.source) :
      Buffer.Affords T rows (matrix.bilinear left.source right.source)
        (Source.bilinearSum rows inner matrixElement leftElement rightElement) := by
    rw [same, Source.bilinear_eq laws (matrixHolds.words rows (by simp))
      (matrixHolds.words inner (by simp)) matrixHolds.sizes leftHolds.sizes rightHolds.sizes
      matrixHolds.reads leftHolds.reads rightHolds.reads]
    exact Buffer.affords_reserve rows _
  cases matrix with
  | ofTensor _ => exact dense rfl
  | ofView _ => exact dense rfl
  | ofZero zeros =>
      have vanishes : Source.bilinearSum rows inner matrixElement leftElement rightElement = 0 := by
        refine List.sum_eq_zero fun term listed => ?_
        obtain ⟨row, rowInRange, rfl⟩ := List.mem_map.mp listed
        refine (congrArg (leftElement [row] * ·) (List.sum_eq_zero fun product terms => ?_)).trans
          (mul_zero _)
        obtain ⟨column, inRange, rfl⟩ := List.mem_map.mp terms
        have zero := matrixHolds.eq_zero (inside_pair.mpr
          ⟨row, List.mem_range.mp rowInRange, column, List.mem_range.mp inRange, rfl⟩)
        exact (congrArg (· * _) zero).trans (zero_mul _)
      rw [vanishes]
      exact ⟨fun _ => rfl, .inl rfl⟩

end Operand

end ShapedTensor

import ShapedTensor.Proofs.Contraction.Shape
import ShapedTensor.Proofs.Contraction.Swap
import ShapedTensor.Proofs.Element.Laws
import ShapedTensor.Proofs.Target.Addressed

namespace ShapedTensor

open Index

variable {T : Type} {size : Nat} {outer last first rest : List Nat}

namespace Contraction

/-- The left operand is read at the summed coordinate followed by its output ones. -/
theorem leftIndex_leading {summed : Nat} (below : summed < size) (firstInside : Inside outer first)
    (last rest : List Nat) :
    (leading size outer last).leftIndex [summed] (first ++ rest) = summed :: first := by
  have summedInside : Inside [size] [summed] := .cons below .nil
  have index := rightIndex_adjacent .nil summedInside firstInside
  have cut : (first ++ rest).take (leading size outer last).freeLeft.length = first := by
    rw [leading, List.length_range', ← firstInside.length_eq, List.take_left]
  rw [leftIndex, cut]
  exact index

/-- The right operand is read at the summed coordinate followed by its output ones. -/
theorem rightIndex_leading {summed : Nat} (below : summed < size) (firstInside : Inside outer first)
    (restInside : Inside last rest) :
    (leading size outer last).rightIndex [summed] (first ++ rest) = summed :: rest := by
  have summedInside : Inside [size] [summed] := .cons below .nil
  have index := rightIndex_adjacent .nil summedInside restInside
  have cut : (first ++ rest).drop (leading size outer last).freeLeft.length = rest := by
    rw [leading, List.length_range', ← firstInside.length_eq, List.drop_left]
  rw [rightIndex, cut]
  exact index

end Contraction

namespace Source

variable [Element T] {left right : Source T} {leftElement rightElement : List Nat → T}
  {product : Tensor T}

/-- The sum over the first axes of two sources, each read with its own other coordinates. -/
def leadingSum (size : Nat) (left right : List Nat → T) (first rest : List Nat) : T :=
  ((List.range size).map fun summed => left (summed :: first) * right (summed :: rest)).sum

/-- The contraction of the first axes of readable sources has the axes behind them and reads the sums
over them. -/
theorem contractLeading_reads (laws : SemiringLaws T)
    (leftWords : ∀ size ∈ left.shape.sizes, size < Size.bound)
    (rightWords : ∀ size ∈ right.shape.sizes, size < Size.bound)
    (leftSizes : left.shape.sizes = size :: outer) (rightSizes : right.shape.sizes = size :: last)
    (leftReads : left.Reads leftElement) (rightReads : right.Reads rightElement)
    (contracted : left.contractLeading right = .ok product) :
    product.shape.sizes = outer ++ last ∧ product.source.Reads fun index =>
      leadingSum size leftElement rightElement (index.take outer.length)
        (index.drop outer.length) := by
  let ring := laws.toSemiring
  obtain ⟨contraction, planned, sizes, reads⟩ :=
    contract_reads leftWords rightWords leftReads rightReads contracted
  rw [leftSizes, rightSizes, Contraction.plan_leading] at planned
  obtain rfl := Except.ok.inj planned
  refine ⟨sizes, fun index inside => (reads index inside).trans (congrArg Except.ok ?_)⟩
  change Inside product.shape.sizes index at inside
  rw [sizes] at inside
  have firstInside : Inside outer (index.take outer.length) := List.forall₂_take_append _ _ _ inside
  have restInside : Inside last (index.drop outer.length) := List.forall₂_drop_append _ _ _ inside
  change (all [size]).foldl _ 0 = _
  rw [all_singleton, List.foldl_map]
  refine Eq.trans ?_ (foldl_add_sum_zero _ _)
  refine List.foldl_ext _ _ _ fun own summed listed => ?_
  have below := List.mem_range.mp listed
  have leftIndex := Contraction.leftIndex_leading below firstInside last (index.drop outer.length)
  have rightIndex := Contraction.rightIndex_leading below firstInside restInside
  rw [List.take_append_drop] at leftIndex rightIndex
  rw [Contraction.combine, leftIndex, rightIndex]
  rfl

/-- A contraction that succeeds has as many elements as a word and a buffer hold. -/
theorem room_of_contract {leftAxes rightAxes : List Nat} {pattern : Pattern}
    (contracted : left.contract leftAxes right rightAxes pattern = .ok product) :
    product.shape.sizes.prod < Size.bound ∧
      Buffer.reserve T product.shape.sizes.prod = .ok () := by
  obtain ⟨contraction, _, contracted⟩ := Checked.bind_eq_ok.mp contracted
  obtain ⟨shape, _, contracted⟩ := Checked.bind_eq_ok.mp contracted
  obtain ⟨output, zeros, contracted⟩ := Checked.bind_eq_ok.mp contracted
  obtain ⟨cells, _, rfl⟩ := Tensor.written_eq_ok.mp contracted
  obtain ⟨count, size, reserved, rfl⟩ := Tensor.filled_eq_ok.mp zeros
  obtain ⟨rfl, below⟩ := Shape.prod_of_size size
  exact ⟨below, reserved⟩

end Source

end ShapedTensor

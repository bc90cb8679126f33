import ShapedTensor.Product
import ShapedTensor.Proofs.Contraction.Flat

namespace ShapedTensor

open Index

variable {T : Type}

/-- The element of a tensor without axes is what it reads at the empty index. -/
theorem Tensor.value_of_read {tensor : Tensor T} {element : T} (sizes : tensor.shape.sizes = [])
    (read : tensor.read [] = .ok element) : tensor.value = .ok element := by
  have inside : Inside tensor.shape.sizes [] := by
    rw [sizes]
    exact .nil
  obtain ⟨_, found⟩ := (read_eq_ok inside).mp read
  rw [sizes] at found
  exact cellAt_eq_ok.mpr found

/-- The contraction over all axes of readable sources of the same sizes updates one element for every
index. -/
theorem Source.reduce_of_reads [Element T] (update : T → T → T → T) {left right : Source T}
    {leftElement rightElement : List Nat → T} {sizes : List Nat}
    (words : ∀ size ∈ sizes, size < Size.bound) (leftSizes : left.shape.sizes = sizes)
    (rightSizes : right.shape.sizes = sizes) (leftReads : left.Reads leftElement)
    (rightReads : right.Reads rightElement) :
    left.reduce update (List.range sizes.length) right (List.range sizes.length) =
      .ok ((all sizes).foldl
        (fun own index => update own (leftElement index) (rightElement index)) 0) := by
  have planned : Contraction.plan (List.range sizes.length) left.shape.sizes
      (List.range sizes.length) right.shape.sizes = .ok (.adjacent [] sizes []) := by
    have accepted := Contraction.plan_adjacent [] sizes []
    rw [leftSizes, rightSizes]
    rwa [List.length_nil, ← List.range_eq_range', List.nil_append, List.append_nil] at accepted
  have inWords : (Contraction.adjacent [] sizes []).InWords := by
    intro _ size listed
    exact words size (by simpa [Contraction.adjacent] using listed)
  have full : (Tensor.scalar (0 : T)).Full := rfl
  obtain ⟨cells, run, _, reads⟩ := Contraction.written_of_plan update inWords planned leftReads
    rightReads full rfl
  have whole : left.contractInto update (List.range sizes.length) right (List.range sizes.length) =
      (Contraction.adjacent [] sizes []).run update left right :=
    funext fun _ => contractInto_of_plan planned
  rw [← whole] at run
  refine Checked.bind_eq_ok.mpr ⟨_, run, Tensor.value_of_read rfl ?_⟩
  rw [reads [] 0 .nil rfl]
  refine congrArg Except.ok (List.foldl_ext _ _ _ fun own index listed => ?_)
  have combined := Contraction.combine_adjacent update leftElement rightElement .nil
    (mem_all.mp listed) .nil own
  rwa [List.nil_append, List.append_nil] at combined

end ShapedTensor

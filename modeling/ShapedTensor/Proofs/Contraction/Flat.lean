import ShapedTensor.Proofs.Contraction.Adjacent
import ShapedTensor.Proofs.Contraction.Entry
import ShapedTensor.Proofs.Element.Integer

namespace ShapedTensor

open Index

variable {T : Type} {outer inner last : List Nat}

namespace Shape

/-- The axes that two shapes keep where the last of one meet the first of the other. -/
def kept (left right : Shape) (count : Nat) : Shape :=
  (left.splitLast count).1.concat (right.splitFirst count).2

variable {left right : Shape} (leftSizes : left.sizes = outer ++ inner)
  (rightSizes : right.sizes = inner ++ last)
include leftSizes rightSizes

theorem contract_adjacent : left.contract right inner.length = .ok (left.kept right inner.length) := by
  have rank : left.rank - inner.length = outer.length := by
    rw [rank_of_append leftSizes, Nat.add_sub_cancel]
  have summed : (left.splitLast inner.length).2.sizes = inner := by
    rw [splitLast, rank, splitFirst, sizes, List.map_drop, ← sizes, leftSizes, List.drop_left]
  have same : (right.splitFirst inner.length).1.sizes = inner := by
    rw [splitFirst, sizes, List.map_take, ← sizes, rightSizes, List.take_left]
  exact if_pos ((sameSizes_iff _ _).mpr (summed.trans same.symm))

theorem sizes_kept : (left.kept right inner.length).sizes = outer ++ last := by
  have rank : left.rank - inner.length = outer.length := by
    rw [rank_of_append leftSizes, Nat.add_sub_cancel]
  rw [kept, splitLast, rank, splitFirst, splitFirst, concat, sizes, List.map_append, List.map_take,
    List.map_drop, ← sizes, ← sizes, leftSizes, rightSizes, List.take_left, List.drop_left]

end Shape

/-- Shapes are cut where the last sizes of one are the first of the other. -/
theorem Shape.sizes_of_met {left right : Shape} {count : Nat} (enough : count ≤ left.rank)
    (met : left.sizes.drop (left.rank - count) = right.sizes.take count) :
    ∃ outer inner last, left.sizes = outer ++ inner ∧ right.sizes = inner ++ last ∧
      inner.length = count := by
  refine ⟨left.sizes.take (left.rank - count), right.sizes.take count, right.sizes.drop count, ?_, ?_,
    ?_⟩
  · rw [← met, List.take_append_drop]
  · rw [List.take_append_drop]
  · rw [← met, List.length_drop, sizes_length]
    omega

/-- Shapes that can meet are cut where they do. -/
theorem Shape.sizes_of_contract {left right shape : Shape} {count : Nat} (enough : count ≤ left.rank)
    (joined : left.contract right count = .ok shape) :
    ∃ outer inner last, left.sizes = outer ++ inner ∧ right.sizes = inner ++ last ∧
      inner.length = count := by
  obtain ⟨same, _⟩ := Checked.ite_eq_ok.mp joined
  apply sizes_of_met enough
  rw [Shape.sizes, Shape.sizes, ← List.map_drop, ← List.map_take]
  exact (sameSizes_iff _ _).mp same

namespace Source

/-- A contraction of adjacent axes into a target runs the plan of these axes. -/
theorem contractAdjacentInto_eq {left right : Source T} (leftSizes : left.shape.sizes = outer ++ inner)
    (rightSizes : right.shape.sizes = inner ++ last) (update : T → T → T → T) :
    left.contractAdjacentInto update inner.length right =
      (Contraction.adjacent outer inner last).run update left right := by
  funext target
  have rank : left.shape.rank = outer.length + inner.length := Shape.rank_of_append leftSizes
  have axes : Contraction.adjacentAxes left.shape.rank inner.length =
      .ok (List.range' outer.length inner.length, List.range inner.length) := by
    rw [Contraction.adjacentAxes, rank, if_pos (Nat.le_add_left _ _), Nat.add_sub_cancel]
  have planned := Contraction.plan_adjacent outer inner last
  rw [← leftSizes, ← rightSizes] at planned
  rw [contractAdjacentInto, axes]
  exact contractInto_of_plan planned

variable [Element T]

/-- A contraction of adjacent axes runs their plan into zeros. -/
theorem contractAdjacentWith_eq {left right : Source T} (leftSizes : left.shape.sizes = outer ++ inner)
    (rightSizes : right.shape.sizes = inner ++ last) (update : T → T → T → T) :
    left.contractAdjacentWith update inner.length right =
      (Tensor.zeros .growable (left.shape.kept right.shape inner.length) >>= fun output =>
        output.written ((Contraction.adjacent outer inner last).run update left right)) := by
  rw [contractAdjacentWith, Shape.contract_adjacent leftSizes rightSizes,
    contractAdjacentInto_eq leftSizes rightSizes]
  rfl

/-- A contraction of adjacent axes that succeeds cuts the sizes of its operands where they meet. -/
theorem sizes_of_contractAdjacentWith {update : T → T → T → T} {left right : Source T} {count : Nat}
    {product : Tensor T} (contracted : left.contractAdjacentWith update count right = .ok product) :
    ∃ outer inner last, left.shape.sizes = outer ++ inner ∧ right.shape.sizes = inner ++ last ∧
      inner.length = count := by
  obtain ⟨shape, joined, contracted⟩ := Checked.bind_eq_ok.mp contracted
  obtain ⟨output, _, contracted⟩ := Checked.bind_eq_ok.mp contracted
  obtain ⟨cells, run, _⟩ := Tensor.written_eq_ok.mp contracted
  obtain ⟨axes, _, found, _⟩ := Writing.bind_eq_ok.mp run
  obtain ⟨accepted, _⟩ := Writing.lift_eq_ok.mp found
  exact Shape.sizes_of_contract (Checked.ite_eq_ok.mp accepted).1 joined

/-- A contraction of adjacent axes that succeeds has as many elements as a word and a buffer hold. -/
theorem room_of_contractAdjacentWith {update : T → T → T → T} {left right : Source T} {count : Nat}
    {product : Tensor T} (contracted : left.contractAdjacentWith update count right = .ok product) :
    product.shape.sizes.prod < Size.bound ∧
      Buffer.reserve T product.shape.sizes.prod = .ok () := by
  obtain ⟨shape, _, contracted⟩ := Checked.bind_eq_ok.mp contracted
  obtain ⟨output, zeros, contracted⟩ := Checked.bind_eq_ok.mp contracted
  obtain ⟨cells, _, rfl⟩ := Tensor.written_eq_ok.mp contracted
  obtain ⟨count, size, reserved, rfl⟩ := Tensor.filled_eq_ok.mp zeros
  obtain ⟨rfl, below⟩ := Shape.prod_of_size size
  exact ⟨below, reserved⟩

section Readable

variable {update : T → T → T → T} {left right : Source T} {leftElement rightElement : List Nat → T}
  (inWords : (Contraction.adjacent outer inner last).InWords)
  (leftSizes : left.shape.sizes = outer ++ inner) (rightSizes : right.shape.sizes = inner ++ last)
  (leftReads : left.Reads leftElement) (rightReads : right.Reads rightElement)
include inWords leftSizes rightSizes leftReads rightReads

/-- A contraction of adjacent axes of readable sources gives the tensor of its entries if there are
zeros of its shape. -/
theorem contractAdjacentWith_of_zeros {output : Tensor T}
    (zeros : Tensor.zeros .growable (left.shape.kept right.shape inner.length) = .ok output) :
    ∃ cells, let product : Tensor T := ⟨left.shape.kept right.shape inner.length, .growable, cells⟩
      left.contractAdjacentWith update inner.length right = .ok product ∧ product.Full ∧
        product.source.Reads fun index =>
          (Contraction.adjacent outer inner last).entry update leftElement rightElement index 0 := by
  have planned := Contraction.plan_adjacent outer inner last
  rw [← leftSizes, ← rightSizes] at planned
  obtain ⟨cells, run, full, reads⟩ := Contraction.written_zeros update inWords planned leftReads
    rightReads zeros (Shape.sizes_kept leftSizes rightSizes)
  rw [contractAdjacentWith_eq leftSizes rightSizes, zeros]
  exact ⟨cells, run, full, reads⟩

/-- The tensor of a contraction of adjacent axes of readable sources reads its entries. -/
theorem contractAdjacentWith_reads {product : Tensor T}
    (contracted : left.contractAdjacentWith update inner.length right = .ok product) :
    ∃ cells, product = ⟨left.shape.kept right.shape inner.length, .growable, cells⟩ ∧
      product.Full ∧ product.source.Reads fun index =>
        (Contraction.adjacent outer inner last).entry update leftElement rightElement index 0 := by
  have started := contracted
  rw [contractAdjacentWith_eq leftSizes rightSizes] at started
  obtain ⟨output, zeros, _⟩ := Checked.bind_eq_ok.mp started
  obtain ⟨cells, result, full, reads⟩ :=
    contractAdjacentWith_of_zeros inWords leftSizes rightSizes leftReads rightReads zeros
  obtain rfl := Except.ok.inj (result.symm.trans contracted)
  exact ⟨cells, rfl, full, reads⟩

end Readable

end Source

/-- Adjacent axes combine the output coordinates of either operand with the summed ones between. -/
theorem Contraction.combine_adjacent (update : T → T → T → T) (left right : List Nat → T)
    {first summed rest : List Nat} (firstInside : Inside outer first)
    (summedInside : Inside inner summed) (restInside : Inside last rest) (own : T) :
    (adjacent outer inner last).combine update left right summed (first ++ rest) own =
      update own (left (first ++ summed)) (right (summed ++ rest)) := by
  rw [combine, leftIndex_adjacent firstInside summedInside restInside,
    rightIndex_adjacent firstInside summedInside restInside]

/-- An entry of a contraction of adjacent axes is a row of the left matrix by a column of the right
one. -/
theorem Contraction.entry_adjacent [Zero T] (update : T → T → T → T) (left right : Array T)
    {first rest : List Nat} (firstInside : Inside outer first) (restInside : Inside last rest)
    (own : T) :
    (adjacent outer inner last).entry update
        (fun index => left.getD (ordinal 0 (outer ++ inner) index) 0)
        (fun index => right.getD (ordinal 0 (inner ++ last) index) 0) (first ++ rest) own =
      (List.range inner.prod).foldl (fun own middle =>
        update own (left.getD (ordinal 0 outer first * inner.prod + middle) 0)
          (right.getD (middle * last.prod + ordinal 0 last rest) 0)) own := by
  have counted : List.range inner.prod = (all inner).map (ordinal 0 inner) := by
    rw [map_ordinal_all, Nat.zero_mul, List.range_eq_range']
  rw [entry, counted, List.foldl_map]
  refine List.foldl_ext _ _ _ fun own summed listed => ?_
  have inside : Inside inner summed := mem_all.mp listed
  rw [combine_adjacent update _ _ firstInside inside restInside, ordinal_append firstInside inside,
    ordinal_append inside restInside]

namespace Tensor

variable [Element T]

/-- A full tensor whose cells are the products of the rows of one matrix of cells with the columns of
another, each from zero in the order of the cells. -/
structure MatrixProduct (update : T → T → T → T) (outer inner last : List Nat)
    (left right product : Tensor T) : Prop where
  shape : product.shape = left.shape.kept right.shape inner.length
  sizes : product.shape.sizes = outer ++ last
  kind : product.storage.kind = .growable
  full : product.Full
  cell : ∀ row < outer.prod, ∀ column < last.prod, product.cells[row * last.prod + column]? =
    some ((List.range inner.prod).foldl (fun own middle =>
      update own (left.cells.getD (row * inner.prod + middle) 0)
        (right.cells.getD (middle * last.prod + column) 0)) 0)

/-- A contraction of adjacent axes of full tensors is the product of two matrices. -/
theorem matrixProduct_of_contracted {update : T → T → T → T} {left right product : Tensor T}
    (leftFull : left.Full) (rightFull : right.Full) (leftSizes : left.shape.sizes = outer ++ inner)
    (rightSizes : right.shape.sizes = inner ++ last)
    (contracted : left.source.contractAdjacentWith update inner.length right.source = .ok product) :
    MatrixProduct update outer inner last left right product := by
  have planned := Contraction.plan_adjacent outer inner last
  rw [← leftSizes, ← rightSizes] at planned
  have inWords := Contraction.inWords_of_full leftFull rightFull planned
  have leftReads := leftFull.reads
  have rightReads := rightFull.reads
  rw [leftSizes] at leftReads
  rw [rightSizes] at rightReads
  obtain ⟨cells, rfl, full, reads⟩ := Source.contractAdjacentWith_reads inWords leftSizes rightSizes
    leftReads rightReads contracted
  have sizes := Shape.sizes_kept leftSizes rightSizes
  refine ⟨rfl, sizes, rfl, full, fun row rowBelow column columnBelow => ?_⟩
  obtain ⟨first, firstInside, rfl⟩ := exists_ordinal rowBelow
  obtain ⟨rest, restInside, rfl⟩ := exists_ordinal columnBelow
  have inside : Inside (left.shape.kept right.shape inner.length).sizes (first ++ rest) := by
    rw [sizes]
    exact List.rel_append firstInside restInside
  have found := ((read_eq_ok inside).mp (reads _ inside)).2
  change cells[ordinal 0 (left.shape.kept right.shape inner.length).sizes (first ++ rest)]? =
    some (Contraction.entry _ _ _ _ (first ++ rest) 0) at found
  rw [Contraction.entry_adjacent update left.cells right.cells firstInside restInside, sizes,
    ordinal_append firstInside restInside] at found
  exact found

/-- A contraction of adjacent axes of full tensors is the product of the matrices that their cells
are. -/
theorem contractAdjacent_eq_matrixProduct {left right product : Tensor T} (leftFull : left.Full)
    (rightFull : right.Full) (leftSizes : left.shape.sizes = outer ++ inner)
    (rightSizes : right.shape.sizes = inner ++ last)
    (contracted : left.source.contractAdjacent inner.length right.source = .ok product) :
    product.shape.sizes = outer ++ last ∧ product.cells.size = outer.prod * last.prod ∧
      left.cells.size = outer.prod * inner.prod ∧ right.cells.size = inner.prod * last.prod ∧
      ∀ row < outer.prod, ∀ column < last.prod, product.cells[row * last.prod + column]? =
        some ((List.range inner.prod).foldl (fun total middle =>
          total + left.cells.getD (row * inner.prod + middle) 0 *
            right.cells.getD (middle * last.prod + column) 0) 0) := by
  have result := matrixProduct_of_contracted leftFull rightFull leftSizes rightSizes contracted
  refine ⟨result.sizes, ?_, ?_, ?_, result.cell⟩
  · rw [result.full.size_cells, result.sizes, List.prod_append]
  · rw [leftFull.size_cells, leftSizes, List.prod_append]
  · rw [rightFull.size_cells, rightSizes, List.prod_append]

open scoped Integer in
/-- Two pairs of axes are contracted like one of as many elements. -/
theorem contractAdjacent_eq_matrixProduct_pairs :
    let left : Tensor Int := .ofLiteral [2, 2, 2] #[1, 2, 3, 4, 5, 6, 7, 8]
    let right : Tensor Int := .ofLiteral [2, 2, 3] #[1, 0, 2, 0, 1, 3, 1, 1, 5, 0, 2, 7]
    ∃ product, left.source.contractAdjacent 2 right.source = .ok product ∧
      product.shape.sizes = [2, 3] ∧ product.cells[3 + 2]? = some (5 * 2 + 6 * 3 + 7 * 5 + 8 * 7) := by
  intro left right
  have leftSizes : left.shape.sizes = [2] ++ [2, 2] := rfl
  have rightSizes : right.shape.sizes = [2, 2] ++ [3] := rfl
  have inWords : (Contraction.adjacent [2] [2, 2] [3]).InWords := fun _ => by decide
  have leftFull : left.Full := rfl
  have rightFull : right.Full := rfl
  obtain ⟨cells, contracted, _⟩ := Source.contractAdjacentWith_of_zeros inWords leftSizes rightSizes
    leftFull.reads rightFull.reads (show Tensor.zeros .growable ⟨[.fixed 2, .fixed 3]⟩ = .ok _ from rfl)
  obtain ⟨sizes, _, _, _, entries⟩ := contractAdjacent_eq_matrixProduct leftFull rightFull leftSizes
    rightSizes contracted
  exact ⟨_, contracted, sizes, entries 1 (by decide) 2 (by decide)⟩

end Tensor

end ShapedTensor

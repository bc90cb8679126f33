import ShapedTensor.Proofs.Operand.Matrices

namespace ShapedTensor

open Index

variable {T : Type} [Element T]

/-- An operand of several contractions with the size of its first axis, the sizes of the others, and
the elements that it holds. -/
structure Factor (T : Type) [Element T] where
  operand : Operand T
  size : Nat
  rest : List Nat
  element : List Nat → T
  holds : operand.Holds (size :: rest) element

namespace Factor

def source (factor : Factor T) : Source T := factor.operand.source

/-- An element times one element of each factor, at the coordinate of its axis before its own ones. -/
def times : List (Factor T) → (position : List Nat) → (tails : List (List Nat)) → T → T
  | factor :: factors, coordinate :: position, tail :: tails, own =>
      times factors position tails (own * factor.element (coordinate :: tail))
  | _, _, _, own => own

/-- The coordinates that belong to the axes which each factor leaves. -/
abbrev Tails (factors : List (Factor T)) (tails : List (List Nat)) : Prop :=
  List.Forall₂ (fun factor tail => Inside factor.rest tail) factors tails

/-- Factors multiply a sum term by term. -/
theorem times_sum (laws : SemiringLaws T) {ι : Type} (factors : List (Factor T))
    (position : List Nat) (tails : List (List Nat)) (items : List ι) (term : ι → T) :
    times factors position tails (items.map term).sum =
      (items.map fun item => times factors position tails (term item)).sum := by
  let ring := laws.toSemiring
  induction factors generalizing position tails term with
  | nil => simp only [times]
  | cons factor factors ih =>
      match position, tails with
      | [], _ => simp only [times]
      | _ :: _, [] => simp only [times]
      | coordinate :: position, tail :: tails =>
          have product := List.sum_map_mul_right items term (factor.element (coordinate :: tail))
          exact (congrArg (times factors position tails) product.symm).trans (ih position tails _)

/-- A sum over all indices runs through the first coordinate and, for each, through the others. -/
theorem sum_all_cons (laws : SemiringLaws T) (size : Nat) (sizes : List Nat) (term : List Nat → T) :
    ((all (size :: sizes)).map term).sum = ((List.range size).map fun first =>
      ((all sizes).map fun rest => term (first :: rest)).sum).sum := by
  let ring := laws.toSemiring
  refine (sum_map_flatMap (List.range size) (fun first => (all sizes).map (first :: ·)) term).trans ?_
  simp only [List.map_map, Function.comp_def]

/-- A source has the axes `done` and those that factors leave, and reads sums of products over the axes
before them. -/
structure Sums (factors : List (Factor T)) (done : List Nat) (element : List Nat → T)
    (product : Source T) : Prop where
  sizes : product.shape.sizes = done ++ factors.flatMap rest
  read : ∀ before tails, Inside done before → Tails factors tails →
    product.read (before ++ tails.flatten) = .ok ((all (factors.map size)).map fun position =>
      times factors position tails (element (position ++ before))).sum

/-- Without factors a source reads its own elements. -/
theorem Sums.nil (laws : SemiringLaws T) {done : List Nat} {element : List Nat → T}
    {product : Source T} (sizes : product.shape.sizes = done) (reads : product.Reads element) :
    Sums [] done element product := by
  let ring := laws.toSemiring
  refine ⟨sizes.trans (List.append_nil done).symm, fun before tails inside fit => ?_⟩
  cases fit
  rw [List.flatten_nil, List.append_nil]
  refine (reads before (sizes ▸ inside)).trans (congrArg Except.ok ?_)
  exact (List.sum_singleton).symm

/-- The sums for all factors are those for the later ones, of the sums for the first one. -/
theorem Sums.cons (laws : SemiringLaws T) {factor : Factor T} {factors : List (Factor T)}
    {done : List Nat} {element : List Nat → T} {product : Source T}
    (sums : Sums factors (done ++ factor.rest) (fun index =>
      Source.leadingSum factor.size element factor.element
        (index.take (factors.map size ++ done).length)
        (index.drop (factors.map size ++ done).length)) product) :
    Sums (factor :: factors) done element product := by
  let ring := laws.toSemiring
  refine ⟨by rw [sums.sizes, List.flatMap_cons, List.append_assoc], fun before tails inside fit => ?_⟩
  cases fit with
  | @cons _ tail _ tails own fit =>
      rw [List.flatten_cons, ← List.append_assoc, sums.read (before ++ tail) tails
        (List.rel_append inside own) fit]
      refine congrArg Except.ok ?_
      have each (position : List Nat) (listed : position ∈ all (factors.map size)) :
          times factors position tails (Source.leadingSum factor.size element factor.element
            ((position ++ (before ++ tail)).take (factors.map size ++ done).length)
            ((position ++ (before ++ tail)).drop (factors.map size ++ done).length)) =
          ((List.range factor.size).map fun first => times (factor :: factors) (first :: position)
            (tail :: tails) (element (first :: (position ++ before)))).sum := by
        have length : (factors.map size ++ done).length = (position ++ before).length := by
          rw [List.length_append, List.length_append, inside.length_eq,
            (mem_all.mp listed).length_eq]
        rw [length, ← List.append_assoc, List.take_left, List.drop_left, Source.leadingSum,
          times_sum laws]
        rfl
      rw [List.map_congr_left each, List.map_cons, sum_all_cons laws]
      exact sum_exchange _ _ _

section Run

variable (laws : SemiringLaws T) {factor : Factor T} {factors : List (Factor T)} {source : Source T}
  {done : List Nat} {element : List Nat → T} {product : Tensor T}
  (words : ∀ size ∈ done, size < Size.bound)
  (sizes : source.shape.sizes = (factor :: factors).map size ++ done) (reads : source.Reads element)
include laws words sizes reads

/-- One contraction moves the axes that a factor leaves behind those that are done. -/
theorem contractLeading_step (contracted : source.contractLeading factor.source = .ok product) :
    product.source.shape.sizes = factors.map size ++ (done ++ factor.rest) ∧
      product.source.Reads fun index => Source.leadingSum factor.size element factor.element
        (index.take (factors.map size ++ done).length)
        (index.drop (factors.map size ++ done).length) := by
  have sourceWords : ∀ size ∈ source.shape.sizes, size < Size.bound := by
    intro size listed
    rw [sizes, List.mem_append, List.mem_map] at listed
    rcases listed with ⟨other, _, rfl⟩ | listed
    · exact other.holds.words other.size (by simp)
    · exact words size listed
  have factorWords : ∀ size ∈ factor.source.shape.sizes, size < Size.bound := by
    rw [Factor.source, factor.holds.sizes]
    exact factor.holds.words
  obtain ⟨left, sums⟩ := Source.contractLeading_reads laws sourceWords factorWords sizes
    factor.holds.sizes reads factor.holds.reads contracted
  exact ⟨left.trans (List.append_assoc _ _ _), sums⟩

/-- Several contractions one after the other give the sums for all their factors. -/
theorem sums_multilinear
    (contracted : source.multilinear ((factor :: factors).map Factor.source) = .ok product) :
    Sums (factor :: factors) done element product.source := by
  induction factors generalizing factor source done element with
  | nil =>
      obtain ⟨left, sums⟩ := contractLeading_step laws words sizes reads contracted
      exact .cons laws (.nil laws left sums)
  | cons next factors ih =>
      obtain ⟨middle, start, rest⟩ := Checked.bind_eq_ok.mp contracted
      obtain ⟨left, sums⟩ := contractLeading_step laws words sizes reads start
      refine .cons laws (ih ?_ left sums rest)
      intro size listed
      rcases List.mem_append.mp listed with listed | listed
      · exact words size listed
      · exact factor.holds.words size (by simp [listed])

end Run

end Factor

omit [Element T] in
/-- Contractions that meet every axis of a shape leave the axes of the operands behind the first. -/
theorem Shape.axes_foldl_tail (operands : List (Source T)) (shape : Shape)
    (enough : operands.length ≤ shape.axes.length) :
    (operands.foldl (fun shape operand => shape.tail.concat operand.shape.tail) shape).axes =
      shape.axes.drop operands.length ++ operands.flatMap fun operand => operand.shape.tail.axes := by
  induction operands generalizing shape with
  | nil => simp
  | cons operand operands ih =>
      rw [List.length_cons] at enough
      have axes : (shape.tail.concat operand.shape.tail).axes =
          shape.axes.drop 1 ++ operand.shape.tail.axes := rfl
      have length : operands.length ≤ (shape.axes.drop 1).length := by
        rw [List.length_drop]
        omega
      rw [List.foldl_cons, ih _ (by rw [axes, List.length_append]; omega), axes,
        List.drop_append_of_le_length length, List.drop_drop, List.flatMap_cons, List.append_assoc,
        List.length_cons, Nat.add_comm]

namespace Operand

/-- A multilinear contraction by one factor for each axis has the axes that the factors leave, and
reads the sums of products. -/
theorem multilinear_sums (laws : SemiringLaws T) {tensor : Operand T} {factors : List (Factor T)}
    {element : List Nat → T} {product : Tensor T} (some : factors ≠ [])
    (holds : tensor.Holds (factors.map Factor.size) element)
    (contracted : tensor.source.multilinear (factors.map Factor.source) = .ok product) :
    (product.shape.axes = factors.flatMap fun factor => factor.source.shape.tail.axes) ∧
      Factor.Sums factors [] element product.source := by
  obtain ⟨factor, others, rfl⟩ := List.exists_cons_of_ne_nil some
  constructor
  · have rank : tensor.source.shape.axes.length = (factor :: others).length := by
      have length := congrArg List.length holds.sizes
      rwa [Shape.sizes_length, List.length_map] at length
    have ranks : ∀ operand ∈ (factor :: others).map Factor.source, 1 ≤ operand.shape.rank := by
      intro operand listed
      obtain ⟨other, _, rfl⟩ := List.mem_map.mp listed
      rw [← Shape.sizes_length, Factor.source, other.holds.sizes]
      exact Nat.succ_pos _
    have enough : ((factor :: others).map Factor.source).length ≤ tensor.source.shape.axes.length := by
      rw [List.length_map, rank]
    rw [Source.shape_of_multilinear enough ranks contracted, Shape.axes_foldl_tail _ _ enough,
      List.length_map, ← rank, List.drop_length, List.nil_append, List.flatMap_map]
  · exact Factor.sums_multilinear laws (by simp) (holds.sizes.trans (List.append_nil _).symm) holds.reads
      contracted

/-- Over a commutative semiring each element of a multilinear contraction is a sum of products with one
element of each operand. -/
theorem multilinear_contracts (laws : CommSemiringLaws T) :
    (∀ (tensor : Operand T) (factors : List (Factor T)) (element : List Nat → T) (product : Tensor T),
      factors ≠ [] → tensor.Holds (factors.map Factor.size) element →
      tensor.source.multilinear (factors.map Factor.source) = .ok product →
      (product.shape.axes = factors.flatMap fun factor => factor.source.shape.tail.axes) ∧
      product.shape.sizes = factors.flatMap Factor.rest ∧
      ∀ tails, Factor.Tails factors tails → product.read tails.flatten =
        .ok ((all (factors.map Factor.size)).map fun position =>
          Factor.times factors position tails (element position)).sum) ∧
    (∀ (matrix left right : Operand T) (rows inner outer last : Nat)
      (matrixElement leftElement rightElement : List Nat → T) (turned : View T) (product : Tensor T),
      matrix.Holds [rows, inner] matrixElement → left.Holds [rows, outer] leftElement →
      right.Holds [inner, last] rightElement → left.asView.transpose = .ok turned →
      matrix.source.multilinear [left.source, right.source] = .ok product →
      ∃ middle other, (ofView turned).mul matrix = .ok middle ∧ middle.mul right = .ok other ∧
        other.source.Alike product.source) ∧
    ∀ (matrix left right : Operand T) (rows inner : Nat)
      (matrixElement leftElement rightElement : List Nat → T) (product : Tensor T),
      matrix.Holds [rows, inner] matrixElement → left.Holds [rows] leftElement →
      right.Holds [inner] rightElement →
      matrix.source.multilinear [left.source, right.source] = .ok product →
      ∃ value, product.value = .ok value ∧
        Buffer.Affords T rows (matrix.bilinear left.source right.source) value := by
  refine ⟨?_, ?_, ?_⟩
  · intro tensor factors element product some holds contracted
    obtain ⟨axes, sums⟩ := multilinear_sums laws.toSemiringLaws some holds contracted
    refine ⟨axes, sums.sizes, fun tails fit => ?_⟩
    have read := sums.read [] tails .nil fit
    simp only [List.append_nil] at read
    exact read
  · intro matrix left right rows inner outer last matrixElement leftElement rightElement turned product
      matrixHolds leftHolds rightHolds transposed contracted
    exact multilinear_matrices laws matrixHolds leftHolds rightHolds transposed contracted
  · intro matrix left right rows inner matrixElement leftElement rightElement product matrixHolds
      leftHolds rightHolds contracted
    exact ⟨_, value_of_multilinear laws matrixHolds leftHolds rightHolds contracted,
      bilinear_of_holds laws.toSemiringLaws matrixHolds leftHolds rightHolds⟩

open scoped Integer in
/-- A tensor of rank 3 meets a matrix, a vector and a tensor of rank 3; a matrix meets two others, and
two vectors. -/
theorem multilinear_contracts_mixed :
    let tensor : Tensor Int := .ofLiteral [2, 1, 2] #[1, 2, 3, 4]
    let square : Tensor Int := .ofLiteral [2, 2] #[1, 0, 2, -1]
    let vector : Tensor Int := .ofLiteral [1] #[3]
    let third : Tensor Int := .ofLiteral [2, 1, 2] #[1, 5, 0, 2]
    let column : Tensor Int := .ofLiteral [2, 1] #[1, -1]
    let left : Tensor Int := .ofLiteral [2] #[1, 2]
    let right : Tensor Int := .ofLiteral [2] #[3, -1]
    (∃ product, tensor.source.multilinear [square.source, vector.source, third.source] = .ok product ∧
      product.shape.sizes = [2, 1, 2] ∧ product.read [0, 0, 1] = .ok 165) ∧
    (∃ product turned middle other,
      square.source.multilinear [column.source, square.source] = .ok product ∧
      column.view.transpose = .ok turned ∧ (ofView turned).mul (ofTensor square) = .ok middle ∧
      middle.mul (ofTensor square) = .ok other ∧ other.source.Alike product.source) ∧
    ∃ product, square.source.multilinear [left.source, right.source] = .ok product ∧
      product.value = .ok 17 ∧ (ofTensor square).bilinear left.source right.source = .ok 17 := by
  intro tensor square vector third column left right
  have words {tensor : Tensor Int} (small : tensor.shape.sizes.all (· < 3) = true) :
      ∀ size ∈ tensor.shape.sizes, size < Size.bound := by
    intro size listed
    have below := of_decide_eq_true (List.all_eq_true.mp small size listed)
    exact Nat.lt_trans below (by decide)
  have tensorHolds := holds_of_full (show tensor.Full from rfl) (words rfl)
  have squareHolds := holds_of_full (show square.Full from rfl) (words rfl)
  have vectorHolds := holds_of_full (show vector.Full from rfl) (words rfl)
  have thirdHolds := holds_of_full (show third.Full from rfl) (words rfl)
  have columnHolds := holds_of_full (show column.Full from rfl) (words rfl)
  have leftHolds := holds_of_full (show left.Full from rfl) (words rfl)
  have rightHolds := holds_of_full (show right.Full from rfl) (words rfl)
  obtain ⟨contracts, matrices, vectors⟩ :=
    multilinear_contracts Integer.ringLaws.toCommSemiringLaws
  refine ⟨?_, ?_, ?_⟩
  · let factors : List (Factor Int) := [⟨ofTensor square, 2, [2], _, squareHolds⟩,
      ⟨ofTensor vector, 1, [], _, vectorHolds⟩, ⟨ofTensor third, 2, [1, 2], _, thirdHolds⟩]
    have contracted : tensor.source.multilinear (factors.map Factor.source) =
        .ok ⟨⟨[.fixed 2, .fixed 1, .fixed 2]⟩, .growable, #[21, 165, -9, -69]⟩ := by cbv
    obtain ⟨_, sizes, read⟩ := contracts (ofTensor tensor) factors _ _ (by simp [factors]) tensorHolds
      contracted
    have fit : Factor.Tails factors [[0], [], [0, 1]] :=
      .cons (show Inside [2] [0] by decide) (.cons .nil (.cons (show Inside [1, 2] [0, 1] by decide) .nil))
    exact ⟨_, contracted, sizes, (read _ fit).trans rfl⟩
  · have contracted : square.source.multilinear [column.source, square.source] =
        .ok ⟨⟨[.fixed 1, .fixed 2]⟩, .growable, #[1, -1]⟩ := by cbv
    have transposed : column.view.transpose = .ok _ := rfl
    obtain ⟨middle, other, first, second, alike⟩ := matrices (ofTensor square) (ofTensor column)
      (ofTensor square) 2 2 1 2 _ _ _ _ _ squareHolds columnHolds squareHolds transposed contracted
    exact ⟨_, _, middle, other, contracted, transposed, first, second, alike⟩
  · have contracted : square.source.multilinear [left.source, right.source] =
        .ok ⟨⟨[]⟩, .growable, #[17]⟩ := by cbv
    obtain ⟨value, found, affords⟩ := vectors (ofTensor square) (ofTensor left) (ofTensor right) 2 2 _ _
      _ _ squareHolds leftHolds rightHolds contracted
    obtain rfl : 17 = value := Except.ok.inj found
    exact ⟨_, contracted, found, affords.1 (by decide)⟩

open scoped Integer in
/-- For a matrix of many rows and no columns the bilinear form asks for a buffer of its rows, which is
too large. -/
theorem bilinear_refused_without_columns :
    ∃ matrix left right : View Int,
      View.ofCells ⟨.ofFree [1152921504606846976, 0], .rowMajor⟩ #[] = .ok matrix ∧
      View.ofCells ⟨.ofFree [1152921504606846976], .broadcast⟩ #[1] = .ok left ∧
      View.ofCells ⟨.ofFree [0], .rowMajor⟩ #[] = .ok right ∧
      ∃ product, matrix.source.multilinear [left.source, right.source] = .ok product ∧
        product.value = .ok 0 ∧
        (ofView matrix).bilinear left.source right.source = .error .capacityOverflow := by
  let matrix : View Int := ⟨⟨.ofFree [1152921504606846976, 0], .rowMajor⟩, .plain, .ofCells #[]⟩
  let left : View Int := ⟨⟨.ofFree [1152921504606846976], .broadcast⟩, .plain, .ofCells #[1]⟩
  let right : View Int := ⟨⟨.ofFree [0], .rowMajor⟩, .plain, .ofCells #[]⟩
  have contracted : matrix.source.multilinear [left.source, right.source] =
      .ok ⟨⟨[]⟩, .growable, #[0]⟩ := by cbv
  exact ⟨matrix, left, right, rfl, rfl, rfl, _, contracted, rfl, rfl⟩

end Operand

end ShapedTensor

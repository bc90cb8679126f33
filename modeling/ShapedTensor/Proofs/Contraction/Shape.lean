import Mathlib.Tactic.TFAE
import ShapedTensor.Product
import ShapedTensor.Proofs.Contraction.Flat
import ShapedTensor.Proofs.Shape.Algebra

namespace ShapedTensor

open Index

variable {T : Type} {outer inner last : List Nat}

/-- A shape is that of the output of a contraction when its axes are the free ones of the operands. -/
structure Contraction.Shapes (contraction : Contraction) (left right shape : Shape) : Prop where
  sizes : shape.sizes = contraction.outputSizes
  pattern : shape.pattern = contraction.freeLeft.map (left.pattern.getD · none) ++
    contraction.freeRight.map (right.pattern.getD · none)

/-- The kept axes have their entries in the patterns. -/
theorem Shape.pattern_kept (left right : Shape) (count : Nat) :
    (left.kept right count).pattern =
      left.pattern.take (left.rank - count) ++ right.pattern.drop count := by
  simp only [kept, splitLast, splitFirst, concat, pattern, List.map_append, List.map_take,
    List.map_drop]

namespace Contraction

variable {left right : Shape}

/-- The plan of adjacent axes of two shapes. -/
theorem plan_of_sizes (leftSizes : left.sizes = outer ++ inner)
    (rightSizes : right.sizes = inner ++ last) :
    plan (List.range' (left.rank - inner.length) inner.length) left.sizes (List.range inner.length)
      right.sizes = .ok (adjacent outer inner last) := by
  have rank : left.rank - inner.length = outer.length := by
    rw [Shape.rank_of_append leftSizes, Nat.add_sub_cancel]
  rw [rank, leftSizes, rightSizes]
  exact plan_adjacent outer inner last

/-- The kept axes are those of the output. -/
theorem shapes_kept (leftSizes : left.sizes = outer ++ inner)
    (rightSizes : right.sizes = inner ++ last) :
    (adjacent outer inner last).Shapes left right (left.kept right inner.length) := by
  have leftRank : left.rank = outer.length + inner.length := Shape.rank_of_append leftSizes
  have rightRank : right.rank = inner.length + last.length := Shape.rank_of_append rightSizes
  have first : outer.length ≤ left.pattern.length := by
    rw [left.pattern_length]
    omega
  have rest : inner.length ≤ right.pattern.length := by
    rw [right.pattern_length]
    omega
  have count : last.length = right.pattern.length - inner.length := by
    rw [right.pattern_length]
    omega
  refine ⟨Shape.sizes_kept leftSizes rightSizes, ?_⟩
  rw [adjacent, count, map_getD_take none left.pattern first, map_getD_drop none right.pattern rest,
    Shape.pattern_kept, leftRank, Nat.add_sub_cancel]

/-- The contraction of the first axes of two operands, of one size. -/
def leading (size : Nat) (outer last : List Nat) : Contraction where
  pairs := [(0, 0)]
  freeLeft := List.range' 1 outer.length
  freeRight := List.range' 1 last.length
  contractedSizes := [size]
  outputSizes := outer ++ last

/-- First axes of one size are accepted. -/
theorem plan_leading (size : Nat) (outer last : List Nat) :
    plan [0] (size :: outer) [0] (size :: last) = .ok (leading size outer last) := by
  have named (sizes : List Nat) : Names (size :: sizes).length [0] := by simp [Names]
  have free (sizes : List Nat) : freeAxes [0] (size :: sizes).length = List.range' 1 sizes.length := by
    rw [List.length_cons, Nat.add_comm]
    exact freeAxes_range 1 sizes.length
  have kept (sizes : List Nat) :
      (List.range' 1 sizes.length).map ((size :: sizes).getD · 0) = sizes :=
    map_getD_range' 0 [size] sizes
  refine plan_eq_ok.mpr ⟨rfl, named outer, named last, by simp, ?_⟩
  rw [ofAxes, free, free, kept, kept]
  rfl

/-- The axes behind the first ones are those of the output. -/
theorem shapes_leading {size : Nat} (leftSizes : left.sizes = size :: outer)
    (rightSizes : right.sizes = size :: last) :
    (leading size outer last).Shapes left right (left.tail.concat right.tail) := by
  have rest (shape : Shape) (sizes : List Nat) (sized : shape.sizes = size :: sizes) :
      (List.range' 1 sizes.length).map (shape.pattern.getD · none) = shape.tail.pattern := by
    have rank : shape.pattern.length = sizes.length + 1 := by
      rw [shape.pattern_length, ← shape.sizes_length, sized, List.length_cons]
    have count : sizes.length = shape.pattern.length - 1 := by omega
    rw [count, map_getD_drop none shape.pattern (by omega)]
    exact List.map_drop.symm
  constructor
  case sizes =>
    have parts : (left.tail.concat right.tail).sizes = left.tail.sizes ++ right.tail.sizes :=
      List.map_append
    rw [parts, Shape.sizes_tail, Shape.sizes_tail, leftSizes, rightSizes]
    rfl
  case pattern =>
    rw [leading, rest left outer leftSizes, rest right last rightSizes]
    exact List.map_append

end Contraction

namespace Shape

variable {left right : Shape}

/-- Shapes are cut where their sizes agree pair by pair. -/
theorem sizes_of_pairs {count : Nat} (enough : count ≤ left.rank)
    (agree : ∀ place < count, left.sizes[left.rank - count + place]? = right.sizes[place]?) :
    ∃ outer inner last, left.sizes = outer ++ inner ∧ right.sizes = inner ++ last ∧
      inner.length = count := by
  refine sizes_of_met enough (List.ext_getElem? fun place => ?_)
  rw [List.getElem?_drop, List.getElem?_take]
  by_cases below : place < count
  · rw [if_pos below, agree place below]
  · rw [if_neg below, List.getElem?_eq_none]
    rw [sizes_length]
    omega

/-- Adjacent axes of two shapes leave a shape exactly when they have a plan, and they have one exactly
when their sizes agree pair by pair. -/
theorem contract_tfae (right : Shape) {count : Nat} (enough : count ≤ left.rank) :
    [∃ shape, left.contract right count = .ok shape,
      ∃ contraction, Contraction.plan (List.range' (left.rank - count) count) left.sizes
        (List.range count) right.sizes = .ok contraction,
      ∀ place < count, left.sizes[left.rank - count + place]? = right.sizes[place]?].TFAE := by
  tfae_have 1 → 2 := by
    rintro ⟨shape, joined⟩
    obtain ⟨outer, inner, last, leftSizes, rightSizes, rfl⟩ := sizes_of_contract enough joined
    exact ⟨_, Contraction.plan_of_sizes leftSizes rightSizes⟩
  tfae_have 2 → 3 := by
    rintro ⟨contraction, planned⟩ place below
    obtain ⟨_, leftNamed, rightNamed, fit, _⟩ := Contraction.plan_eq_ok.mp planned
    have listed : (left.rank - count + place, place) ∈
        (List.range' (left.rank - count) count).zip (List.range count) := by
      rw [List.mem_iff_getElem]
      exact ⟨place, by simpa using below, by simp⟩
    obtain ⟨leftListed, rightListed⟩ := List.of_mem_zip listed
    have inLeft := leftNamed.2 _ leftListed
    have inRight := rightNamed.2 _ rightListed
    have same := fit _ listed
    rw [List.getD_eq_getElem?_getD, List.getD_eq_getElem?_getD] at same
    rw [List.getElem?_eq_getElem inLeft, List.getElem?_eq_getElem inRight] at same ⊢
    exact congrArg some same
  tfae_have 3 → 1 := by
    intro agree
    obtain ⟨outer, inner, last, leftSizes, rightSizes, rfl⟩ := sizes_of_pairs enough agree
    exact ⟨_, contract_adjacent leftSizes rightSizes⟩
  tfae_finish

/-- The axes behind the first ones have the joined pattern. -/
theorem pattern_leading (left right : Shape) :
    (left.tail.concat right.tail).pattern = contractLeading left.pattern right.pattern := by
  simp [tail, splitFirst, concat, pattern, contractLeading]

/-- The rule for the shape that first axes leave agrees with the plan. -/
structure LeadingRule (left right : Shape) : Prop where
  accepted : (∃ contraction, Contraction.plan [0] left.sizes [0] right.sizes = .ok contraction) ↔
    left.sizes[0]? = right.sizes[0]?
  shaped : ∀ contraction, Contraction.plan [0] left.sizes [0] right.sizes = .ok contraction →
    ofSizes (contractLeading left.pattern right.pattern) contraction.outputSizes =
      .ok (left.tail.concat right.tail) ∧
    contraction.Shapes left right (left.tail.concat right.tail)

/-- Shapes with a first axis follow the rule. -/
theorem leadingRule (leftRank : 1 ≤ left.rank) (rightRank : 1 ≤ right.rank) :
    left.LeadingRule right := by
  rw [← sizes_length] at leftRank rightRank
  obtain ⟨leftSize, outer, leftSizes⟩ := List.exists_cons_of_length_pos leftRank
  obtain ⟨rightSize, last, rightSizes⟩ := List.exists_cons_of_length_pos rightRank
  have agreed {contraction : Contraction}
      (planned : Contraction.plan [0] left.sizes [0] right.sizes = .ok contraction) :
      leftSize = rightSize := by
    obtain ⟨_, _, _, fit, _⟩ := Contraction.plan_eq_ok.mp planned
    simpa [leftSizes, rightSizes] using fit (0, 0) (by simp)
  constructor
  case accepted =>
    constructor
    · rintro ⟨contraction, planned⟩
      rw [leftSizes, rightSizes, agreed planned]
      rfl
    · intro same
      rw [leftSizes, rightSizes] at same
      obtain rfl : leftSize = rightSize := Option.some.inj same
      rw [leftSizes, rightSizes]
      exact ⟨_, Contraction.plan_leading leftSize outer last⟩
  case shaped =>
    intro contraction planned
    obtain rfl := agreed planned
    have shapes := Contraction.shapes_leading leftSizes rightSizes
    rw [leftSizes, rightSizes, Contraction.plan_leading] at planned
    obtain rfl := Except.ok.inj planned
    exact ⟨ofSizes_eq_ok.mpr ⟨shapes.sizes, pattern_leading left right⟩, shapes⟩

end Shape

namespace Source

variable [Element T]

/-- What holds of the shapes at every step of several contractions, each of which goes on from the
tensor of the one before. -/
def AtEachStep (rule : Shape → Shape → Prop) : Source T → (operands : List (Source T)) → Prop
  | _, [] => True
  | source, operand :: operands => rule source.shape operand.shape ∧
      ∀ next, source.contractLeading operand = .ok next → AtEachStep rule next.source operands

/-- The contraction of first axes has the other axes of its operands. -/
theorem shape_of_contractLeading {left right : Source T} {tensor : Tensor T}
    (leftRank : 1 ≤ left.shape.rank) (rightRank : 1 ≤ right.shape.rank)
    (contracted : left.contractLeading right = .ok tensor) :
    tensor.shape = left.shape.tail.concat right.shape.tail := by
  obtain ⟨contraction, planned, contracted⟩ := Checked.bind_eq_ok.mp contracted
  obtain ⟨shape, shaped, contracted⟩ := Checked.bind_eq_ok.mp contracted
  obtain ⟨output, started, contracted⟩ := Checked.bind_eq_ok.mp contracted
  obtain ⟨cells, _, rfl⟩ := Tensor.written_eq_ok.mp contracted
  obtain ⟨count, _, _, rfl⟩ := Tensor.filled_eq_ok.mp started
  have ruled := ((Shape.leadingRule leftRank rightRank).shaped contraction planned).1
  exact Except.ok.inj (shaped.symm.trans ruled)

/-- A contraction of first axes leaves axes enough for the operands behind it. -/
theorem rank_of_contractLeading {left right : Source T} {operands : List (Source T)} {tensor : Tensor T}
    (enough : (right :: operands).length ≤ left.shape.rank) (rightRank : 1 ≤ right.shape.rank)
    (contracted : left.contractLeading right = .ok tensor) :
    operands.length ≤ tensor.source.shape.rank := by
  rw [List.length_cons] at enough
  change operands.length ≤ tensor.shape.rank
  rw [shape_of_contractLeading (by omega) rightRank contracted]
  simp only [Shape.tail, Shape.splitFirst, Shape.concat, Shape.rank, List.length_append,
    List.length_drop] at enough ⊢
  omega

/-- What holds of all shapes with a first axis holds at every step of several contractions of a source
that has an axis for each operand. -/
theorem atEachStep_of_ranks {rule : Shape → Shape → Prop}
    (holds : ∀ left right : Shape, 1 ≤ left.rank → 1 ≤ right.rank → rule left right)
    {source : Source T} {operands : List (Source T)} (enough : operands.length ≤ source.shape.rank)
    (ranks : ∀ operand ∈ operands, 1 ≤ operand.shape.rank) : source.AtEachStep rule operands := by
  induction operands generalizing source with
  | nil => trivial
  | cons operand operands ih =>
      have rank : 1 ≤ operand.shape.rank := ranks operand (by simp)
      have first : 1 ≤ source.shape.rank := le_trans (by simp) enough
      refine ⟨holds _ _ first rank, fun next contracted => ?_⟩
      exact ih (rank_of_contractLeading enough rank contracted)
        fun other listed => ranks other (by simp [listed])

/-- Several contractions leave the axes that they do not contract, those of later operands last. -/
theorem shape_of_multilinear {source : Source T} {operands : List (Source T)} {tensor : Tensor T}
    (enough : operands.length ≤ source.shape.rank)
    (ranks : ∀ operand ∈ operands, 1 ≤ operand.shape.rank)
    (contracted : source.multilinear operands = .ok tensor) :
    tensor.shape =
      operands.foldl (fun shape operand => shape.tail.concat operand.shape.tail) source.shape := by
  induction operands generalizing source with
  | nil =>
      obtain ⟨_, _, _, converted, _, _, _, _, rfl⟩ := Tensor.ofSource_eq_ok_convert.mp contracted
      exact Except.ok.inj (converted.symm.trans source.shape.convert_pattern)
  | cons operand operands ih =>
      have rank : 1 ≤ operand.shape.rank := ranks operand (by simp)
      have first : 1 ≤ source.shape.rank := le_trans (by simp) enough
      have rest : ∀ other ∈ operands, 1 ≤ other.shape.rank :=
        fun other listed => ranks other (by simp [listed])
      rw [List.foldl_cons]
      cases operands with
      | nil => exact shape_of_contractLeading first rank contracted
      | cons other operands =>
          obtain ⟨next, start, contracted⟩ := Checked.bind_eq_ok.mp contracted
          rw [← shape_of_contractLeading first rank start]
          exact ih (rank_of_contractLeading enough rank start) rest contracted

end Source

end ShapedTensor

import ShapedTensor.Proofs.Contraction.Fold
import ShapedTensor.Proofs.Element.Laws

namespace ShapedTensor

open Index

variable {T : Type}

/-- A target is within buffers of a size when every index of its shape has a cell there. -/
def Target.Within (target : Target) (size : Nat) : Prop :=
  ∀ index, Inside target.shape.sizes index → ∃ cell, target.locate size index = .ok cell

/-- Cells to which terms are added one by one end with the sums of their terms. -/
theorem foldl_modify_add [AddMonoid T] {ι : Type} (cell : ι → Nat) (term : ι → T) (items : List ι)
    (cells : Array T) :
    items.foldl (fun cells item => cells.modify (cell item) (· + term item)) cells =
      cells.mapIdx fun position own =>
        own + ((items.filter fun item => cell item = position).map term).sum := by
  apply Array.ext_getElem?
  intro position
  rw [getElem?_foldl_modify cell fun item own => own + term item, Array.getElem?_mapIdx]
  simp only [foldl_add_sum]

variable [Element T]

namespace Contraction

/-- What a contraction adds at a position of the buffer: a product for each of its updates there. -/
def added (contraction : Contraction) (left right : List Nat → T) (cell : List Nat → Nat)
    (product : T → T → T) (position : Nat) : T :=
  ((contraction.calls.filter fun call => cell call.2 = position).map fun call =>
    product (left (contraction.leftIndex call.1 call.2))
      (right (contraction.rightIndex call.1 call.2))).sum

variable (contraction : Contraction) (left right : List Nat → T) (cell : List Nat → Nat)
  (product : T → T → T) (position : Nat)

/-- Of multiples of the products a multiple is added. -/
theorem added_mul (laws : RingLaws T) (factor : T) :
    contraction.added left right cell (fun first second => factor * product first second) position =
      factor * contraction.added left right cell product position := by
  let ring := laws.toCommRing
  exact List.sum_map_mul_left _ _ factor

/-- Of conjugates of the products the conjugate is added. -/
theorem added_conj (laws : ConjLaws T) :
    contraction.added left right cell (fun first second => Element.conj (product first second))
        position =
      Element.conj (contraction.added left right cell product position) := by
  let ring := laws.toCommRing
  let starRing := laws.toStarRing
  have sums := map_list_sum (starAddEquiv : T ≃+ T)
    ((contraction.calls.filter fun call => cell call.2 = position).map fun call =>
      product (left (contraction.leftIndex call.1 call.2))
        (right (contraction.rightIndex call.1 call.2)))
  rw [List.map_map] at sums
  exact sums.symm

end Contraction

namespace Update

/-- The updates of a run agree: subtraction undoes addition, multiples are multiples, and conjugates are
conjugates. -/
structure Agree (size : Nat) (run : (T → T → T → T) → Writing T Unit) : Prop where
  undone : ∀ cells, cells.size = size → ∃ after, run add cells = .ok () after ∧
    run sub after = .ok () cells
  conjUndone : ∀ cells, cells.size = size → ∃ after, run addConj cells = .ok () after ∧
    run subConj after = .ok () cells
  multiple : ∃ added : Nat → T, ∀ cells, cells.size = size →
    run add cells = .ok () (cells.mapIdx fun position own => own + added position) ∧
    ∀ factor, run (scaled factor) cells =
      .ok () (cells.mapIdx fun position own => own + factor * added position)
  conjMultiple : ∃ added : Nat → T, ∀ cells, cells.size = size →
    run addConj cells = .ok () (cells.mapIdx fun position own => own + added position) ∧
    ∀ factor, run (scaledConj factor) cells =
      .ok () (cells.mapIdx fun position own => own + factor * added position)
  conjugates : ∀ cells, cells.size = size → ∃ after, run addConj cells = .ok () after ∧
    run conjAdd (cells.map Element.conj) = .ok () (after.map Element.conj)

section Adds

variable {size : Nat} {run : (T → T → T → T) → Writing T Unit}
  (added : (T → T → T) → Nat → T)
  (runs : ∀ product update, (∀ own first second, update own first second = own + product first second) →
    ∀ cells, cells.size = size →
      run update cells = .ok () (cells.mapIdx fun position own => own + added product position))
  (times : ∀ factor product position,
    added (fun first second => factor * product first second) position =
      factor * added product position)
include runs times

/-- A multiple of the products adds the multiple of what the products add. -/
theorem run_multiple (product : T → T → T) {update : T → T → T → T} (factor : T)
    (multiplies : ∀ own first second, update own first second = own + factor * product first second)
    {cells : Array T} (fits : cells.size = size) :
    run update cells =
      .ok () (cells.mapIdx fun position own => own + factor * added product position) := by
  rw [runs _ update multiplies cells fits]
  simp only [times]

variable (laws : ConjLaws T)
include laws

/-- What adds products is undone by what subtracts them. -/
theorem run_undone (product : T → T → T) {adding subtracting : T → T → T → T}
    (adds : ∀ own first second, adding own first second = own + product first second)
    (subtracts : ∀ own first second, subtracting own first second = own - product first second)
    (cells : Array T) (fits : cells.size = size) :
    ∃ after, run adding cells = .ok () after ∧ run subtracting after = .ok () cells := by
  let ring := laws.toCommRing
  have opposite (own first second : T) :
      subtracting own first second = own + -1 * product first second := by
    rw [subtracts, neg_one_mul]
    exact laws.sub_eq_add_neg _ _
  refine ⟨_, runs product adding adds cells fits, ?_⟩
  rw [run_multiple added runs times product (-1) opposite (by simpa using fits)]
  congr 1
  apply Array.ext_getElem?
  intro position
  simp

/-- The updates of a run agree when each adds what belongs to its product. -/
theorem agree_of_adds
    (conjugates : ∀ product position,
      added (fun first second => Element.conj (product first second)) position =
        Element.conj (added product position)) : Agree size run := by
  let ring := laws.toCommRing
  constructor
  case undone =>
    exact run_undone added runs times laws (· * ·) (fun _ _ _ => rfl) (fun _ _ _ => rfl)
  case conjUndone =>
    exact run_undone added runs times laws (fun first second => first * Element.conj second)
      (fun _ _ _ => rfl) (fun _ _ _ => rfl)
  case multiple =>
    refine ⟨added (· * ·), fun cells fits => ⟨?_, fun factor => ?_⟩⟩
    · exact runs (· * ·) add (fun _ _ _ => rfl) cells fits
    · exact run_multiple added runs times (· * ·) factor
        (fun own _ _ => congrArg (own + ·) (laws.mul_assoc _ _ _)) fits
  case conjMultiple =>
    let product (first second : T) := first * Element.conj second
    refine ⟨added product, fun cells fits => ⟨?_, fun factor => ?_⟩⟩
    · exact runs product addConj (fun _ _ _ => rfl) cells fits
    · exact run_multiple added runs times product factor
        (fun own _ _ => congrArg (own + ·) (laws.mul_assoc _ _ _)) fits
  case conjugates =>
    intro cells fits
    have left (own first second : T) : conjAdd own first second =
        own + Element.conj (first * Element.conj second) := by
      rw [laws.conj_mul, laws.conj_conj]
      rfl
    refine ⟨_, runs _ addConj (fun _ _ _ => rfl) cells fits, ?_⟩
    rw [runs _ conjAdd left _ (by simpa using fits)]
    congr 1
    apply Array.ext_getElem?
    intro position
    simp [conjugates, laws.conj_add, Function.comp_def]

end Adds

end Update

namespace Source

variable {left right : Source T} {leftAxes rightAxes : List Nat} {contraction : Contraction}
  {leftElement rightElement : List Nat → T}

/-- Over a commutative ring with a conjugation the updates of a contraction of readable sources
agree. -/
theorem contractInto_agree (laws : ConjLaws T)
    (leftWords : ∀ size ∈ left.shape.sizes, size < Size.bound)
    (rightWords : ∀ size ∈ right.shape.sizes, size < Size.bound)
    (leftReads : left.Reads leftElement) (rightReads : right.Reads rightElement)
    (planned : Contraction.plan leftAxes left.shape.sizes rightAxes right.shape.sizes =
      .ok contraction) {target : Target} {size : Nat}
    (outputs : target.shape.sizes = contraction.outputSizes) (within : target.Within size) :
    Update.Agree size fun update => left.contractInto update leftAxes right rightAxes target := by
  let ring := laws.toCommRing
  let cell (index : List Nat) := (target.locate size index).toOption.getD 0
  have located (output : List Nat) (inside : Inside contraction.outputSizes output) :
      target.locate size output = .ok (cell output) := by
    obtain ⟨found, locate⟩ := within output (outputs ▸ inside)
    simp only [cell, locate]
    rfl
  apply Update.agree_of_adds (contraction.added leftElement rightElement cell)
  case runs =>
    rintro product update adds cells rfl
    have updates (call : List Nat × List Nat) :
        contraction.combine update leftElement rightElement call.1 call.2 =
          (· + product (leftElement (contraction.leftIndex call.1 call.2))
            (rightElement (contraction.rightIndex call.1 call.2))) :=
      funext fun own => adds own _ _
    change left.contractInto update leftAxes right rightAxes target cells = _
    rw [contractInto_of_plan planned, Contraction.run_of_located update
      (Contraction.words_of_plan leftWords rightWords planned) (Contraction.pairs_of_plan planned)
      (Contraction.aligned_of_plan planned) leftReads rightReads outputs located]
    simp only [updates]
    exact congrArg (EStateM.Result.ok ()) (foldl_modify_add _ _ _ _)
  case times =>
    exact fun factor product position => contraction.added_mul _ _ cell product position
      laws.toRingLaws factor
  case laws => exact laws
  case conjugates =>
    exact fun product position => contraction.added_conj _ _ cell product position laws

end Source

end ShapedTensor

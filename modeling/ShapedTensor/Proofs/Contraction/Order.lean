import Mathlib.Data.Multiset.MapFold
import ShapedTensor.Proofs.Contraction.Fold

/-! The order of the axis pairs decides the order of the visits, and not which indices are visited. -/

namespace ShapedTensor

open Index

variable {T ι : Type}

namespace Writing

/-- What follows an action that follows another follows this one. -/
theorem Follows.trans {first second third : Writing T Unit} (middle : Follows first second)
    (last : Follows second third) : Follows first third :=
  fun cells after result run => last cells after result (middle cells after result run)

/-- A run in another order follows a run whose steps may be exchanged. -/
theorem Follows.foldlM_perm {step : ι → Writing T Unit}
    (exchanges : ∀ first second, Follows (do step first; step second) (do step second; step first))
    {items others : List ι} (reordered : items.Perm others) :
    Follows (items.foldlM (fun _ => step) ()) (others.foldlM (fun _ => step) ()) := by
  induction reordered with
  | nil => exact .refl _
  | cons item _ ih =>
      rw [List.foldlM_cons, List.foldlM_cons]
      exact (Follows.refl _).bind fun _ => ih
  | swap first second items =>
      simp only [List.foldlM_cons]
      rw [← bind_assoc, ← bind_assoc]
      exact (exchanges second first).bind fun _ => .refl _
  | trans _ _ middle last => exact middle.trans last

end Writing

/-- Changes of two cells may be exchanged when they may be at one cell. -/
theorem modify_comm (cells : Array T) (first second : Nat) {change other : T → T}
    (exchanges : ∀ own, other (change own) = change (other own)) :
    (cells.modify first change).modify second other =
      (cells.modify second other).modify first change := by
  apply Array.ext_getElem?
  intro position
  simp only [Array.getElem?_modify]
  cases cells[position]? with
  | none => simp
  | some own => split <;> split <;> simp [exchanges]

namespace Contraction

/-- An update may be exchanged with itself when the order of two pairs of elements does not matter. -/
def Exchanges (update : T → T → T → T) : Prop :=
  ∀ own left right otherLeft otherRight,
    update (update own left right) otherLeft otherRight =
      update (update own otherLeft otherRight) left right

/-- Two visits may be exchanged when the update may be with itself. -/
theorem Visit.follows_exchanged {update : T → T → T → T} (exchanges : Exchanges update)
    (left right : Source T) (target : Target) (first second : Visit) :
    Writing.Follows
      (do first.run update left right target; second.run update left right target)
      (do second.run update left right target; first.run update left right target) := by
  intro cells after result run
  obtain ⟨_, middle, firstRun, secondRun⟩ := Writing.bind_eq_ok.mp run
  obtain ⟨firstCell, firstLeft, firstRight, firstLocated, firstLeftRead, firstRightRead, rfl⟩ :=
    first.run_eq_ok.mp firstRun
  obtain ⟨secondCell, secondLeft, secondRight, secondLocated, secondLeftRead, secondRightRead, rfl⟩ :=
    second.run_eq_ok.mp secondRun
  rw [Array.size_modify] at secondLocated
  rw [modify_comm cells firstCell secondCell fun own => exchanges own _ _ _ _]
  apply Writing.bind_eq_ok.mpr
  refine ⟨(), _, second.run_eq_ok.mpr ⟨secondCell, _, _, secondLocated, secondLeftRead,
    secondRightRead, rfl⟩, ?_⟩
  apply first.run_eq_ok.mpr
  rw [Array.size_modify]
  exact ⟨firstCell, _, _, firstLocated, firstLeftRead, firstRightRead, rfl⟩

section Coordinates

variable {axes coordinates index : List Nat}

/-- The coordinates that an index has at axes are those that it was given there. -/
theorem Places.map_getD (placed : Places axes coordinates index)
    (paired : axes.length = coordinates.length) : axes.map (index.getD · 0) = coordinates := by
  apply List.ext_getElem (by simpa using paired)
  intro place inside below
  have found := placed.2 place (by simpa using inside)
  simp [found, below]

/-- Coordinates for two groups of axes are found at each of them. -/
theorem Places.map_getD_append {free rest : List Nat}
    (placed : Places (axes ++ free) (coordinates ++ rest) index)
    (paired : axes.length = coordinates.length) (others : free.length = rest.length) :
    axes.map (index.getD · 0) = coordinates ∧ free.map (index.getD · 0) = rest := by
  have all := placed.map_getD (by simp [paired, others])
  rw [List.map_append] at all
  exact List.append_inj all (by simpa using paired)

/-- An index is assembled from the coordinates that it has at all its axes. -/
theorem assemble_map (all : axes.Perm (List.range index.length)) :
    assemble axes (axes.map (index.getD · 0)) = index := by
  have placed : Places axes (axes.map (index.getD · 0)) index := by
    constructor
    · simpa using all.length_eq.symm
    · intro place inside
      have below := List.mem_range.mp (all.mem_iff.mp (List.getElem_mem inside))
      simp [inside, below]
  exact Places.unique all (places_assemble all (by simp)) placed

/-- The coordinates of an index at axes are below the sizes of these axes. -/
theorem inside_map {sizes : List Nat} (inside : Inside sizes index)
    (below : ∀ axis ∈ axes, axis < sizes.length) :
    Inside (axes.map (sizes.getD · 0)) (axes.map (index.getD · 0)) := by
  obtain ⟨length, less⟩ := List.forall₂_iff_get.mp inside
  rw [Inside, List.forall₂_map_left_iff, List.forall₂_map_right_iff, List.forall₂_same]
  intro axis listed
  have inSizes := below axis listed
  have inIndex : axis < index.length := by omega
  simpa [inSizes, inIndex] using less axis inIndex inSizes

/-- The coordinates of an index at the axes that are left are below the sizes of these. -/
theorem inside_free {sizes : List Nat} (inside : Inside sizes index) (axes : List Nat) :
    Inside ((freeAxes axes sizes.length).map (sizes.getD · 0))
      ((freeAxes axes sizes.length).map (index.getD · 0)) := by
  apply inside_map inside
  intro axis listed
  exact List.mem_range.mp (List.mem_filter.mp listed).1

/-- An index is assembled from its coordinates at the contracted axes and at those that are left. -/
theorem assemble_split {sizes : List Nat} (named : Names sizes.length axes)
    (inside : Inside sizes index) :
    assemble (axes ++ freeAxes axes sizes.length)
      (axes.map (index.getD · 0) ++ (freeAxes axes sizes.length).map (index.getD · 0)) = index := by
  have all := perm_axes named
  rw [← inside.length_eq] at all ⊢
  rw [← List.map_append]
  exact assemble_map all

end Coordinates

/-- The visits of a contraction in their order. -/
def visits (contraction : Contraction) : List Visit :=
  contraction.calls.map fun call => contraction.visit call.1 call.2

/-- The elements, or the faults, that an output element meets, in the order of its updates. -/
def received (contraction : Contraction) (left right : Source T) (output : List Nat) :
    List (Except Fault T × Except Fault T) :=
  (contraction.visits.filter fun visit => visit.output = output).map fun visit =>
    (left.read visit.left, right.read visit.right)

/-- A visit fits pairs of axes when both indices are in range and agree at each pair, and the output
index has the coordinates of the other axes. -/
structure Visit.Fits (leftSizes rightSizes : List Nat) (pairs : List (Nat × Nat)) (visit : Visit) :
    Prop where
  left : Inside leftSizes visit.left
  right : Inside rightSizes visit.right
  meet : ∀ pair ∈ pairs, visit.left.getD pair.1 0 = visit.right.getD pair.2 0
  output : visit.output =
    (freeAxes (pairs.map Prod.fst) leftSizes.length).map (visit.left.getD · 0) ++
      (freeAxes (pairs.map Prod.snd) rightSizes.length).map (visit.right.getD · 0)

section Pairs

variable {leftSizes rightSizes : List Nat} {pairs otherPairs : List (Nat × Nat)}

/-- The axes that are left do not depend on the order of the contracted ones. -/
theorem freeAxes_perm {axes others : List Nat} (reordered : axes.Perm others) (rank : Nat) :
    freeAxes axes rank = freeAxes others rank := by
  simp only [freeAxes, reordered.mem_iff]

/-- The order of the pairs does not matter to a visit. -/
theorem Visit.Fits.perm {visit : Visit} (fits : visit.Fits leftSizes rightSizes pairs)
    (reordered : pairs.Perm otherPairs) : visit.Fits leftSizes rightSizes otherPairs where
  left := fits.left
  right := fits.right
  meet pair listed := fits.meet pair (reordered.mem_iff.mpr listed)
  output := by
    rw [fits.output, freeAxes_perm (reordered.map Prod.fst), freeAxes_perm (reordered.map Prod.snd)]

variable {contraction : Contraction}
  (planned : plan (pairs.map Prod.fst) leftSizes (pairs.map Prod.snd) rightSizes = .ok contraction)
include planned

/-- The visit at summed and output coordinates fits the pairs, and shows the summed ones at them. -/
theorem visit_fits {summed output : List Nat}
    (summedInside : Inside contraction.contractedSizes summed)
    (outputInside : Inside contraction.outputSizes output) :
    (contraction.visit summed output).Fits leftSizes rightSizes pairs ∧
      pairs.map ((contraction.leftIndex summed output).getD ·.1 0) = summed := by
  have aligned := aligned_of_plan planned
  obtain ⟨leftPlaced, leftInside⟩ := aligned.leftPlaced summed output summedInside outputInside
  obtain ⟨rightPlaced, rightInside⟩ := aligned.rightPlaced summed output summedInside outputInside
  obtain ⟨_, _, _, _, rfl⟩ := plan_eq_ok.mp planned
  have count : pairs.length = summed.length := by
    simpa [ofAxes] using summedInside.length_eq.symm
  have free : (freeAxes (pairs.map Prod.fst) leftSizes.length).length +
      (freeAxes (pairs.map Prod.snd) rightSizes.length).length = output.length := by
    simpa [ofAxes] using outputInside.length_eq.symm
  obtain ⟨leftSummed, leftFree⟩ := leftPlaced.map_getD_append (by simpa using count)
    (by simp only [ofAxes, List.length_take]; omega)
  obtain ⟨rightSummed, rightFree⟩ := rightPlaced.map_getD_append (by simpa using count)
    (by simp only [ofAxes, List.length_drop]; omega)
  rw [List.map_map] at leftSummed rightSummed
  refine ⟨⟨leftInside, rightInside, ?_, ?_⟩, leftSummed⟩
  · exact List.map_inj_left.mp (leftSummed.trans rightSummed.symm)
  · have joined := congrArg₂ (· ++ ·) leftFree rightFree
    rw [List.take_append_drop] at joined
    exact joined.symm

/-- What fits the pairs is the visit at the coordinates that it shows at them. -/
theorem visit_of_fits {visit : Visit} (fits : visit.Fits leftSizes rightSizes pairs) :
    let summed := pairs.map (visit.left.getD ·.1 0)
    Inside contraction.contractedSizes summed ∧ Inside contraction.outputSizes visit.output ∧
      contraction.visit summed visit.output = visit := by
  intro summed
  obtain ⟨paired, leftNamed, rightNamed, _, rfl⟩ := plan_eq_ok.mp planned
  have leftSummed : summed = (pairs.map Prod.fst).map (visit.left.getD · 0) := by
    rw [List.map_map]
    rfl
  have rightSummed : summed = (pairs.map Prod.snd).map (visit.right.getD · 0) := by
    rw [List.map_map]
    exact List.map_inj_left.mpr fits.meet
  refine ⟨?_, ?_, ?_⟩
  · rw [leftSummed]
    exact inside_map fits.left leftNamed.2
  · rw [fits.output]
    exact List.rel_append (inside_free fits.left _) (inside_free fits.right _)
  · have leftIndex := assemble_split leftNamed fits.left
    have rightIndex := assemble_split rightNamed fits.right
    rw [← leftSummed] at leftIndex
    rw [← rightSummed] at rightIndex
    simp only [Contraction.visit, Contraction.leftIndex, Contraction.rightIndex, ofAxes,
      List.map_fst_zip paired.le, List.map_snd_zip paired.ge]
    rw [fits.output, List.take_left' (by simp), List.drop_left' (by simp), leftIndex, rightIndex,
      ← fits.output]

/-- A contraction visits what fits its pairs of axes. -/
theorem mem_visits {visit : Visit} :
    visit ∈ contraction.visits ↔ visit.Fits leftSizes rightSizes pairs := by
  constructor
  · intro listed
    obtain ⟨⟨summed, output⟩, called, rfl⟩ := List.mem_map.mp listed
    obtain ⟨summedInside, outputInside⟩ := mem_calls.mp called
    exact (visit_fits planned summedInside outputInside).1
  · intro fits
    obtain ⟨summedInside, outputInside, same⟩ := visit_of_fits planned fits
    exact List.mem_map.mpr ⟨(_, visit.output), mem_calls.mpr ⟨summedInside, outputInside⟩, same⟩

/-- A contraction visits nothing twice. -/
theorem visits_nodup : contraction.visits.Nodup := by
  apply contraction.calls_nodup.map_on
  rintro ⟨summed, output⟩ called ⟨otherSummed, otherOutput⟩ otherCalled same
  obtain ⟨summedInside, outputInside⟩ := mem_calls.mp called
  obtain ⟨otherSummedInside, otherOutputInside⟩ := mem_calls.mp otherCalled
  obtain rfl : output = otherOutput := congrArg Visit.output same
  have shown := (visit_fits planned summedInside outputInside).2
  have otherShown := (visit_fits planned otherSummedInside otherOutputInside).2
  have leftSame : contraction.leftIndex summed output = contraction.leftIndex otherSummed output :=
    congrArg Visit.left same
  rw [← shown, ← otherShown, leftSame]

/-- The plan of pairs of axes is accepted in every order of the pairs, for the same output. -/
theorem plan_perm (reordered : pairs.Perm otherPairs) :
    ∃ other, plan (otherPairs.map Prod.fst) leftSizes (otherPairs.map Prod.snd) rightSizes =
      .ok other ∧ other.outputSizes = contraction.outputSizes := by
  obtain ⟨_, leftNamed, rightNamed, fit, rfl⟩ := plan_eq_ok.mp planned
  have left := reordered.map Prod.fst
  have right := reordered.map Prod.snd
  refine ⟨_, plan_eq_ok.mpr ⟨by simp, ?_, ?_, ?_, rfl⟩, ?_⟩
  · exact ⟨left.nodup_iff.mp leftNamed.1, fun axis listed => leftNamed.2 axis (left.mem_iff.mpr listed)⟩
  · exact ⟨right.nodup_iff.mp rightNamed.1,
      fun axis listed => rightNamed.2 axis (right.mem_iff.mpr listed)⟩
  · intro pair listed
    rw [List.zip_map', List.map_id''] at listed
    · exact fit pair (by rwa [List.zip_map', List.map_id'' fun _ => rfl, reordered.mem_iff])
    · exact fun _ => rfl
  · rw [ofAxes, ofAxes, freeAxes_perm left, freeAxes_perm right]

/-- In another order of the pairs a contraction has the same visits in another order. -/
theorem visits_perm (reordered : pairs.Perm otherPairs) {other : Contraction}
    (otherPlanned : plan (otherPairs.map Prod.fst) leftSizes (otherPairs.map Prod.snd) rightSizes =
      .ok other) : contraction.visits.Perm other.visits := by
  apply (List.perm_ext_iff_of_nodup (visits_nodup planned) (visits_nodup otherPlanned)).mpr
  intro visit
  rw [mem_visits planned, mem_visits otherPlanned]
  exact ⟨fun fits => fits.perm reordered, fun fits => fits.perm reordered.symm⟩

end Pairs

/-- A planned contraction into a target of the right sizes is the run of its visits. -/
theorem run_eq_visits {leftAxes leftSizes rightAxes rightSizes : List Nat} {contraction : Contraction}
    (planned : plan leftAxes leftSizes rightAxes rightSizes = .ok contraction)
    (leftWords : ∀ size ∈ leftSizes, size < Size.bound)
    (rightWords : ∀ size ∈ rightSizes, size < Size.bound) (update : T → T → T → T)
    (left right : Source T) {target : Target}
    (outputs : target.shape.sizes = contraction.outputSizes) :
    contraction.run update left right target =
      contraction.visits.foldlM (fun _ visit => visit.run update left right target) () := by
  rw [run_eq update left right outputs (pairs_of_plan planned)
    (words_of_plan leftWords rightWords planned), visits, List.foldlM_map]
  rfl

/-- The visit of an update whose coordinates are put over the indices of the one before. -/
def nextVisit (contraction : Contraction) (before : Visit) (call : List Nat × List Nat) : Visit where
  output := call.2
  left := scatter contraction.freeLeft (call.2.take contraction.freeLeft.length)
    (scatter (contraction.pairs.map Prod.fst) call.1 before.left)
  right := scatter contraction.freeRight (call.2.drop contraction.freeLeft.length)
    (scatter (contraction.pairs.map Prod.snd) call.1 before.right)

section Scatter

variable {leftAxes leftSizes rightAxes rightSizes : List Nat} {contraction : Contraction}
  (planned : plan leftAxes leftSizes rightAxes rightSizes = .ok contraction)
include planned

/-- Nothing of the visit before is left in the next one. -/
theorem nextVisit_eq {before : Visit} {call : List Nat × List Nat}
    (listed : call ∈ contraction.calls) (leftLength : before.left.length = leftSizes.length)
    (rightLength : before.right.length = rightSizes.length) :
    contraction.nextVisit before call = contraction.visit call.1 call.2 := by
  obtain ⟨summedInside, outputInside⟩ := mem_calls.mp listed
  have put := scatter_of_plan planned summedInside outputInside leftLength rightLength
  obtain ⟨paired, _, _, _, rfl⟩ := plan_eq_ok.mp planned
  have leftPairs : (leftAxes.zip rightAxes).map Prod.fst = leftAxes := List.map_fst_zip paired.le
  have rightPairs : (leftAxes.zip rightAxes).map Prod.snd = rightAxes := List.map_snd_zip paired.ge
  rw [nextVisit, visit, ← put.1, ← put.2]
  simp only [ofAxes, leftPairs, rightPairs]

/-- Updates that put their coordinates over the indices of the one before make their own visits. -/
theorem map_visit_eq_scanl {calls : List (List Nat × List Nat)}
    (listed : ∀ call ∈ calls, call ∈ contraction.calls) (before : Visit)
    (leftLength : before.left.length = leftSizes.length)
    (rightLength : before.right.length = rightSizes.length) :
    calls.map (fun call => contraction.visit call.1 call.2) =
      (calls.scanl contraction.nextVisit before).tail := by
  have aligned := aligned_of_plan planned
  induction calls generalizing before with
  | nil => rfl
  | cons call calls ih =>
      obtain ⟨own, others⟩ := List.forall_mem_cons.mp listed
      obtain ⟨summedInside, outputInside⟩ := mem_calls.mp own
      -- Of the visit before only the lengths matter, and the step keeps them.
      have step := nextVisit_eq planned own leftLength rightLength
      have rest := ih others (contraction.nextVisit before call)
        (by rw [step]; exact (aligned.leftPlaced _ _ summedInside outputInside).2.length_eq)
        (by rw [step]; exact (aligned.rightPlaced _ _ summedInside outputInside).2.length_eq)
      rw [List.map_cons, rest, List.scanl_cons, List.tail_cons, ← step]
      cases calls <;> simp [List.scanl_cons]

/-- A run that reuses the indices of one update for the next makes the visits of its contraction. -/
theorem visits_eq_scanl {first : Visit} (leftLength : first.left.length = leftSizes.length)
    (rightLength : first.right.length = rightSizes.length) :
    contraction.visits = (contraction.calls.scanl contraction.nextVisit first).tail :=
  map_visit_eq_scanl planned (fun _ => id) first leftLength rightLength

end Scatter

end Contraction

namespace Source

variable {left right : Source T} {pairs otherPairs : List (Nat × Nat)}
  (leftWords : ∀ size ∈ left.shape.sizes, size < Size.bound)
  (rightWords : ∀ size ∈ right.shape.sizes, size < Size.bound)
  (reordered : pairs.Perm otherPairs)
include leftWords rightWords reordered

/-- When updates may be exchanged, the contraction over reordered pairs follows the one over pairs. -/
theorem follows_reordered {update : T → T → T → T} (exchanges : Contraction.Exchanges update)
    (target : Target) :
    Writing.Follows
      (left.contractInto update (pairs.map Prod.fst) right (pairs.map Prod.snd) target)
      (left.contractInto update (otherPairs.map Prod.fst) right (otherPairs.map Prod.snd) target) := by
  intro cells after _ run
  obtain ⟨contraction, planned, run⟩ := contractInto_eq_ok.mp run
  obtain ⟨other, otherPlanned, sizes⟩ := Contraction.plan_perm planned reordered
  have outputs := Contraction.outputs_of_run run
  rw [Contraction.run_eq_visits planned leftWords rightWords update left right outputs] at run
  apply contractInto_eq_ok.mpr
  refine ⟨other, otherPlanned, ?_⟩
  rw [Contraction.run_eq_visits otherPlanned leftWords rightWords update left right
    (outputs.trans sizes.symm)]
  have follows := Writing.Follows.foldlM_perm
    (Contraction.Visit.follows_exchanged exchanges left right target)
    (Contraction.visits_perm planned reordered otherPlanned)
  exact follows cells after () run

/-- In every order of the pairs each output element meets the same elements, so updates that may be
exchanged end alike. -/
theorem contractInto_reordered :
    (∀ update, Contraction.Exchanges update → ∀ target cells after,
      left.contractInto update (pairs.map Prod.fst) right (pairs.map Prod.snd) target cells =
          .ok () after ↔
        left.contractInto update (otherPairs.map Prod.fst) right (otherPairs.map Prod.snd) target
          cells = .ok () after) ∧
    ∀ contraction, Contraction.plan (pairs.map Prod.fst) left.shape.sizes (pairs.map Prod.snd)
        right.shape.sizes = .ok contraction →
      ∃ other, Contraction.plan (otherPairs.map Prod.fst) left.shape.sizes
          (otherPairs.map Prod.snd) right.shape.sizes = .ok other ∧
        other.outputSizes = contraction.outputSizes ∧
        (∀ output, Multiset.ofList (contraction.received left right output) =
          Multiset.ofList (other.received left right output)) ∧
        ∀ update target, target.shape.sizes = contraction.outputSizes →
          left.contractInto update (pairs.map Prod.fst) right (pairs.map Prod.snd) target =
            contraction.visits.foldlM (fun _ visit => visit.run update left right target) () ∧
          left.contractInto update (otherPairs.map Prod.fst) right (otherPairs.map Prod.snd)
              target =
            other.visits.foldlM (fun _ visit => visit.run update left right target) () := by
  constructor
  · intro update exchanges target cells after
    constructor
    · exact follows_reordered leftWords rightWords reordered exchanges target cells after ()
    · exact follows_reordered leftWords rightWords reordered.symm exchanges target cells after ()
  · intro contraction planned
    obtain ⟨other, otherPlanned, sizes⟩ := Contraction.plan_perm planned reordered
    refine ⟨other, otherPlanned, sizes, fun output => ?_, fun update target outputs => ⟨?_, ?_⟩⟩
    · have visited := Contraction.visits_perm planned reordered otherPlanned
      exact Multiset.coe_eq_coe.mpr ((visited.filter _).map _)
    · rw [contractInto_of_plan planned]
      exact Contraction.run_eq_visits planned leftWords rightWords update left right outputs
    · rw [contractInto_of_plan otherPlanned]
      exact Contraction.run_eq_visits otherPlanned leftWords rightWords update left right
        (outputs.trans sizes.symm)

end Source

/-- Two crossed pairs of axes are contracted in both orders. -/
theorem Source.contractInto_reordered_crossed :
    let left : Tensor Nat := .ofLiteral [2, 3, 2] #[1, 2, 3, 4, 5, 6, 7, 8, 9, 10, 11, 12]
    let right : Tensor Nat := .ofLiteral [2, 3] #[1, 2, 0, 3, 1, 2]
    let target : Target := .whole ⟨.ofFree [2], .strided [2]⟩
    let update (own first second : Nat) := own + first * second
    left.source.contractInto update [2, 1] right.source [0, 1] target #[7, 8, 9] =
        .ok () #[36, 8, 92] ∧
      left.source.contractInto update [1, 2] right.source [1, 0] target #[7, 8, 9] =
        .ok () #[36, 8, 92] ∧
    ∃ contraction other,
      Contraction.plan [2, 1] [2, 3, 2] [0, 1] [2, 3] = .ok contraction ∧
      Contraction.plan [1, 2] [2, 3, 2] [1, 0] [2, 3] = .ok other ∧
      Multiset.ofList (contraction.received left.source right.source [1]) =
        Multiset.ofList (other.received left.source right.source [1]) := by
  intro left right target update
  have reordered : [(2, 0), (1, 1)].Perm [(1, 1), (2, 0)] := .swap _ _ _
  obtain ⟨runs, plans⟩ := contractInto_reordered (show ∀ size ∈ left.source.shape.sizes, _ by decide)
    (show ∀ size ∈ right.source.shape.sizes, _ by decide) reordered
  have exchanges : Contraction.Exchanges update := fun own _ _ _ _ => Nat.add_right_comm own _ _
  have run : left.source.contractInto update [2, 1] right.source [0, 1] target #[7, 8, 9] =
      .ok () #[36, 8, 92] := by
    dsimp only [left, right, target, update]
    rfl
  obtain ⟨other, otherPlanned, _, same, _⟩ := plans _ rfl
  exact ⟨run, (runs update exchanges target _ _).mp run, _, other, rfl, otherPlanned, same [1]⟩

end ShapedTensor

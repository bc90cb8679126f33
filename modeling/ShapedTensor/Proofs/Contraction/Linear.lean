import ShapedTensor.Proofs.Contraction.Updates
import ShapedTensor.Proofs.Operand.Holds
import ShapedTensor.Proofs.Source.Alike

namespace ShapedTensor

open Index

variable {T : Type}

namespace Tensor

/-- The tensor of the values of a function. -/
def ofEntries (shape : Shape) (entry : List Nat → T) : Tensor T :=
  ⟨shape, .growable, ((all shape.sizes).map entry).toArray⟩

/-- The tensor of the values of a function is full if its shape has a size. -/
theorem ofEntries_full {shape : Shape} {count : Nat} (size : shape.size = .ok count)
    (entry : List Nat → T) : (ofEntries shape entry).Full := by
  change shape.size = .ok ((all shape.sizes).map entry).toArray.size
  rw [size, List.size_toArray, List.length_map, length_all, (shape.prod_of_size size).1]

/-- The tensor of the values of a function reads them. -/
theorem ofEntries_reads {shape : Shape} {count : Nat} (size : shape.size = .ok count)
    (entry : List Nat → T) : (ofEntries shape entry).source.Reads entry := by
  intro index inside
  obtain ⟨element, found, read⟩ := (ofEntries_full size entry).read_eq inside
  have listed : ((all shape.sizes).map entry).toArray[ordinal 0 shape.sizes index]? =
      some (entry index) := by
    have own : Inside shape.sizes index := inside
    rw [List.getElem?_toArray, List.getElem?_map, getElem?_all own]
    rfl
  obtain rfl := Option.some.inj (found.symm.trans listed)
  exact read

/-- A full tensor with growable cells is that of the elements that it reads. -/
theorem eq_ofEntries {shape : Shape} {cells : Array T} {entry : List Nat → T}
    (full : Full ⟨shape, .growable, cells⟩)
    (reads : (source ⟨shape, .growable, cells⟩).Reads entry) :
    ⟨shape, .growable, cells⟩ = ofEntries shape entry := by
  have size : shape.size = .ok cells.size := full
  have product := (shape.prod_of_size size).1
  have same : cells = ((all shape.sizes).map entry).toArray := by
    apply Array.ext_getElem?
    intro position
    by_cases below : position < shape.sizes.prod
    · obtain ⟨index, inside, rfl⟩ := exists_ordinal below
      have own := ((read_eq_ok inside).mp (reads index inside)).2
      have other := ((read_eq_ok inside).mp (ofEntries_reads size entry index inside)).2
      exact own.trans other.symm
    · rw [Array.getElem?_eq_none (by omega),
        Array.getElem?_eq_none (by simp [length_all]; omega)]
  rw [same, ofEntries]

section Entries

variable [Stored T] [Zero T] (shape : Shape)

/-- The tensor of the values of a function is built where zeros are. -/
theorem tabulate_pure (entry : List Nat → T) :
    tabulate .growable shape (fun index => .ok (entry index)) =
      (fun _ : Tensor T => ofEntries shape entry) <$> zeros .growable shape := by
  have elements : Source.elements ⟨shape, fun index => .ok (entry index)⟩ =
      .ok ((all shape.sizes).map entry).toArray := by
    rw [Source.elements_eq_ok, List.forall₂_map_right_iff, List.forall₂_same]
    exact fun _ _ => rfl
  rw [tabulate_eq, elements, zeros, filled]
  cases shape.size with
  | error fault => rfl
  | ok count =>
      change (Buffer.reserve T count >>= fun _ => .ok (ofEntries shape entry)) =
        (fun _ => ofEntries shape entry) <$> ((Buffer.reserve T count >>= _) >>= _)
      cases Buffer.reserve T count <;> rfl

/-- Combinations of the values of two functions are values of one. -/
theorem tabulate_zipWith (combine : T → T → T) (left right : List Nat → T) :
    (do
      let leftTensor ← tabulate .growable shape fun index => .ok (left index)
      let rightTensor ← tabulate .growable shape fun index => .ok (right index)
      leftTensor.source.zipWith combine rightTensor.source) =
    tabulate .growable shape fun index => .ok (combine (left index) (right index)) := by
  rw [tabulate_pure shape left, tabulate_pure shape right]
  cases built : zeros (T := T) .growable shape with
  | error fault =>
      rw [tabulate_pure shape fun index => combine (left index) (right index), built]
      rfl
  | ok output =>
      obtain ⟨count, size, _⟩ := filled_eq_ok.mp built
      change shape.combine shape >>= _ = _
      rw [Shape.combine_self]
      apply Source.Alike.tabulate
      intro index inside
      rw [ofEntries_reads size left index inside, ofEntries_reads size right index inside]
      rfl

/-- Images of the values of a function are values of one. -/
theorem tabulate_map (change : T → T) (entry : List Nat → T) :
    (do
      let tensor ← tabulate .growable shape fun index => .ok (entry index)
      tensor.source.map change) =
    tabulate .growable shape fun index => .ok (change (entry index)) := by
  rw [tabulate_pure shape entry]
  cases built : zeros (T := T) .growable shape with
  | error fault =>
      rw [tabulate_pure shape fun index => change (entry index), built]
      rfl
  | ok output =>
      obtain ⟨count, size, _⟩ := filled_eq_ok.mp built
      apply Source.Alike.tabulate
      intro index inside
      rw [ofEntries_reads size entry index inside]
      rfl

end Entries

end Tensor

namespace Contraction

variable [Element T] (laws : CommSemiringLaws T) (contraction : Contraction)
  (left right other : List Nat → T) (output : List Nat) (factor : T)
include laws

/-- An entry of a contraction is a sum of products. -/
theorem entry_eq_sum :
    contraction.entry Update.add left right output 0 =
      ((all contraction.contractedSizes).map fun summed =>
        left (contraction.leftIndex summed output) *
          right (contraction.rightIndex summed output)).sum := by
  let ring := laws.toCommSemiring
  exact foldl_add_sum_zero _ _

/-- An entry is additive in the elements of the left operand. -/
theorem entry_add_left :
    contraction.entry Update.add (fun index => left index + other index) right output 0 =
      contraction.entry Update.add left right output 0 +
        contraction.entry Update.add other right output 0 := by
  let ring := laws.toCommSemiring
  simp only [entry_eq_sum laws, laws.add_mul]
  exact List.sum_map_add

/-- An entry is additive in the elements of the right operand. -/
theorem entry_add_right :
    contraction.entry Update.add left (fun index => right index + other index) output 0 =
      contraction.entry Update.add left right output 0 +
        contraction.entry Update.add left other output 0 := by
  let ring := laws.toCommSemiring
  simp only [entry_eq_sum laws, laws.mul_add]
  exact List.sum_map_add

/-- A factor of the elements of the left operand is one of the entry. -/
theorem entry_mul_left :
    contraction.entry Update.add (fun index => factor * left index) right output 0 =
      factor * contraction.entry Update.add left right output 0 := by
  let ring := laws.toCommSemiring
  simp only [entry_eq_sum laws, laws.mul_assoc]
  exact List.sum_map_mul_left _ _ factor

/-- A factor of the elements of the right operand is one of the entry. -/
theorem entry_mul_right :
    contraction.entry Update.add left (fun index => factor * right index) output 0 =
      factor * contraction.entry Update.add left right output 0 := by
  let ring := laws.toCommSemiring
  have exchange (first second : T) : first * (factor * second) = factor * (first * second) :=
    mul_left_comm first factor second
  simp only [entry_eq_sum laws, exchange]
  exact List.sum_map_mul_left _ _ factor

end Contraction

/-- The tensor of a contraction of readable sources is that of the entries of its plan. -/
theorem Source.contract_eq_tabulate [Element T] {left right : Source T}
    {leftElement rightElement : List Nat → T}
    (leftWords : ∀ size ∈ left.shape.sizes, size < Size.bound)
    (rightWords : ∀ size ∈ right.shape.sizes, size < Size.bound)
    (leftReads : left.Reads leftElement) (rightReads : right.Reads rightElement)
    (leftAxes rightAxes : List Nat) (pattern : Pattern) :
    left.contract leftAxes right rightAxes pattern = (do
      let contraction ← Contraction.plan leftAxes left.shape.sizes rightAxes right.shape.sizes
      let shape ← Shape.ofSizes pattern contraction.outputSizes
      Tensor.tabulate .growable shape fun index =>
        .ok (contraction.entry Update.add leftElement rightElement index 0)) := by
  rw [contract]
  cases planned : Contraction.plan leftAxes left.shape.sizes rightAxes right.shape.sizes with
  | error fault => rfl
  | ok contraction =>
      change Shape.ofSizes pattern contraction.outputSizes >>= _ =
        Shape.ofSizes pattern contraction.outputSizes >>= _
      cases shaped : Shape.ofSizes pattern contraction.outputSizes with
      | error fault => rfl
      | ok shape =>
          change Tensor.zeros .growable shape >>= _ = Tensor.tabulate .growable shape _
          rw [Tensor.tabulate_pure]
          cases zeros : Tensor.zeros (T := T) .growable shape with
          | error fault => rfl
          | ok output =>
              have inWords : contraction.InWords :=
                fun _ => Contraction.words_of_plan leftWords rightWords planned
              obtain ⟨cells, run, full, reads⟩ := Contraction.written_zeros Update.add inWords planned
                leftReads rightReads zeros (Shape.sizes_of_ofSizes shaped)
              exact run.trans (congrArg Except.ok (Tensor.eq_ofEntries full reads))

namespace Operand

variable [Element T]

/-- A tensor of combinations holds what the elements of its operands combine to. -/
theorem Holds.zipWith {first second : Operand T} {sizes : List Nat} {element other : List Nat → T}
    (firstHolds : first.Holds sizes element) (secondHolds : second.Holds sizes other)
    {combine : T → T → T} {result : List Nat → T}
    (same : ∀ index, Inside sizes index → combine (element index) (other index) = result index)
    {tensor : Tensor T} (combined : first.source.zipWith combine second.source = .ok tensor) :
    (ofTensor tensor).Holds sizes result := by
  obtain ⟨_, kept, _, reads⟩ := Source.zipWith_eq_ok combined
  have sized : tensor.shape.sizes = sizes := kept.trans firstHolds.sizes
  refine ⟨firstHolds.words, sized, fun index inside => ?_⟩
  have own : Inside sizes index := sized ▸ inside
  obtain ⟨leftElement, rightElement, leftRead, rightRead, read⟩ := reads index inside
  obtain rfl := Except.ok.inj ((firstHolds.reads index (firstHolds.sizes ▸ own)).symm.trans leftRead)
  obtain rfl := Except.ok.inj ((secondHolds.reads index (secondHolds.sizes ▸ own)).symm.trans rightRead)
  rw [← same index own]
  exact read

/-- The sum of operands holds the sums of their elements. -/
theorem Holds.add (laws : RingLaws T) {first second : Operand T} {sizes : List Nat}
    {element other : List Nat → T} (firstHolds : first.Holds sizes element)
    (secondHolds : second.Holds sizes other) {sum : Tensor T}
    (added : first.add second.source = .ok sum) :
    (ofTensor sum).Holds sizes fun index => element index + other index := by
  cases first with
  | ofTensor tensor => exact firstHolds.zipWith secondHolds (fun _ _ => rfl) added
  | ofView view => exact firstHolds.zipWith secondHolds (fun _ _ => rfl) added
  | ofZero zero =>
      refine firstHolds.zipWith secondHolds (fun index inside => ?_) added
      rw [firstHolds.eq_zero inside, laws.zero_add]

/-- An image of an operand, which keeps zero, holds the images of its elements. -/
theorem Holds.map {operand image : Operand T} {sizes : List Nat} {element : List Nat → T}
    (holds : operand.Holds sizes element) {change : T → T} (zero : change 0 = 0)
    (mapped : operand.map (·.map change) = .ok image) :
    image.Holds sizes fun index => change (element index) := by
  have dense {tensor : Tensor T} (built : operand.source.map change = .ok tensor) :
      (ofTensor tensor).Holds sizes fun index => change (element index) := by
    obtain ⟨shape, _, reads⟩ := Source.map_eq_ok built
    have sized : tensor.shape.sizes = sizes := by rw [shape, holds.sizes]
    refine ⟨holds.words, sized, fun index inside => ?_⟩
    have own : Inside operand.source.shape.sizes index := shape ▸ inside
    obtain ⟨found, read, changed⟩ := reads index own
    obtain rfl := Except.ok.inj ((holds.reads index own).symm.trans read)
    exact changed
  cases operand with
  | ofTensor tensor =>
      obtain ⟨result, built, rfl⟩ := Checked.map_eq_ok.mp mapped
      exact dense built
  | ofView view =>
      obtain ⟨result, built, rfl⟩ := Checked.map_eq_ok.mp mapped
      exact dense built
  | ofZero tensor =>
      obtain rfl := Except.ok.inj mapped
      refine ⟨holds.words, holds.sizes, fun index inside => ?_⟩
      rw [holds.eq_zero (holds.sizes ▸ inside), zero]
      rfl

/-- A function on operands takes a sum to the sum of its values and a multiple to the multiple of its
value. -/
structure Linear (sizes : List Nat) (image : Operand T → Except Fault (Tensor T)) : Prop where
  add : ∀ {first second : Operand T} {element other : List Nat → T} {sum : Tensor T},
    first.Holds sizes element → second.Holds sizes other → first.add second.source = .ok sum →
      image (.ofTensor sum) = (do
        let firstImage ← image first
        let secondImage ← image second
        firstImage.source.add secondImage.source)
  scaleLeft : ∀ {operand multiple : Operand T} {element : List Nat → T} (factor : T),
    operand.Holds sizes element → operand.map (·.scaleLeft factor) = .ok multiple →
      image multiple = (do
        let result ← image operand
        result.source.scaleLeft factor)
  scale : ∀ {operand multiple : Operand T} {element : List Nat → T} (factor : T),
    operand.Holds sizes element → operand.map (·.scale factor) = .ok multiple →
      image multiple = (do
        let result ← image operand
        result.source.scale factor)

/-- What tabulates values that are linear in the elements of an operand is linear in the operand. -/
theorem linear_of_entries {κ : Type} (laws : RingLaws T) {sizes : List Nat}
    {image : Operand T → Except Fault (Tensor T)} (frame : Except Fault κ) (shape : κ → Shape)
    (value : κ → (List Nat → T) → List Nat → T)
    (tabulates : ∀ operand element, operand.Holds sizes element →
      image operand = (do
        let kept ← frame
        Tensor.tabulate .growable (shape kept) fun index => .ok (value kept element index)))
    (adds : ∀ kept element other index,
      value kept (fun index => element index + other index) index =
        value kept element index + value kept other index)
    (multiplies : ∀ kept factor element index,
      value kept (fun index => factor * element index) index =
        factor * value kept element index) : Linear sizes image := by
  constructor
  case add =>
    intro first second element other sum firstHolds secondHolds added
    rw [tabulates _ _ (firstHolds.add laws secondHolds added), tabulates _ _ firstHolds,
      tabulates _ _ secondHolds]
    cases frame with
    | error fault => rfl
    | ok kept =>
        simp only [adds]
        exact (Tensor.tabulate_zipWith (shape kept) (· + ·) (value kept element)
          (value kept other)).symm
  case scaleLeft =>
    intro operand multiple element factor holds mapped
    rw [tabulates _ _ (holds.map (laws.mul_zero factor) mapped), tabulates _ _ holds]
    cases frame with
    | error fault => rfl
    | ok kept =>
        simp only [multiplies]
        exact (Tensor.tabulate_map (shape kept) (factor * ·) (value kept element)).symm
  case scale =>
    intro operand multiple element factor holds mapped
    rw [tabulates _ _ (holds.map (laws.zero_mul factor) mapped), tabulates _ _ holds]
    cases frame with
    | error fault => rfl
    | ok kept =>
        simp only [laws.mul_comm _ factor, multiplies]
        simp only [laws.mul_comm factor]
        exact (Tensor.tabulate_map (shape kept) (· * factor) (value kept element)).symm

/-- Over a commutative ring with a conjugation a contraction is linear in either operand, and its
updates agree. -/
theorem contract_multilinear (laws : ConjLaws T) (leftSizes rightSizes leftAxes rightAxes : List Nat) :
    (∀ (pattern : Pattern) (right : Operand T) (element : List Nat → T),
      right.Holds rightSizes element →
      Linear leftSizes fun left => left.source.contract leftAxes right.source rightAxes pattern) ∧
    (∀ (pattern : Pattern) (left : Operand T) (element : List Nat → T),
      left.Holds leftSizes element →
      Linear rightSizes fun right => left.source.contract leftAxes right.source rightAxes pattern) ∧
    ∀ (left right : Operand T) (leftElement rightElement : List Nat → T) (contraction : Contraction)
      (target : Target) (size : Nat),
      left.Holds leftSizes leftElement → right.Holds rightSizes rightElement →
      Contraction.plan leftAxes leftSizes rightAxes rightSizes = .ok contraction →
      target.shape.sizes = contraction.outputSizes → target.Within size →
        Update.Agree size fun update =>
          left.source.contractInto update leftAxes right.source rightAxes target := by
  have ring := laws.toRingLaws
  have comm := ring.toCommSemiringLaws
  have tabulates (pattern : Pattern) {left right : Operand T} {leftElement rightElement : List Nat → T}
      (leftHolds : left.Holds leftSizes leftElement) (rightHolds : right.Holds rightSizes rightElement) :
      left.source.contract leftAxes right.source rightAxes pattern = (do
        let kept ← (do
          let contraction ← Contraction.plan leftAxes leftSizes rightAxes rightSizes
          let shape ← Shape.ofSizes pattern contraction.outputSizes
          return (contraction, shape))
        Tensor.tabulate .growable kept.2 fun index =>
          .ok (kept.1.entry Update.add leftElement rightElement index 0)) := by
    have contracted := Source.contract_eq_tabulate leftHolds.source_words rightHolds.source_words
      leftHolds.reads rightHolds.reads leftAxes rightAxes pattern
    rw [leftHolds.sizes, rightHolds.sizes] at contracted
    rw [contracted]
    simp only [bind_assoc, pure_bind]
  refine ⟨?_, ?_, ?_⟩
  · intro pattern right rightElement rightHolds
    exact linear_of_entries ring _ Prod.snd
      (fun (kept : Contraction × Shape) element index =>
        kept.1.entry Update.add element rightElement index 0)
      (fun left leftElement leftHolds => tabulates pattern leftHolds rightHolds)
      (fun kept element other index => kept.1.entry_add_left comm element rightElement other index)
      (fun kept factor element index => kept.1.entry_mul_left comm element rightElement index factor)
  · intro pattern left leftElement leftHolds
    exact linear_of_entries ring _ Prod.snd
      (fun (kept : Contraction × Shape) element index =>
        kept.1.entry Update.add leftElement element index 0)
      (fun right rightElement rightHolds => tabulates pattern leftHolds rightHolds)
      (fun kept element other index => kept.1.entry_add_right comm leftElement element other index)
      (fun kept factor element index => kept.1.entry_mul_right comm leftElement element index factor)
  · intro left right leftElement rightElement contraction target size leftHolds rightHolds planned
      outputs within
    rw [← leftHolds.sizes, ← rightHolds.sizes] at planned
    exact Source.contractInto_agree laws leftHolds.source_words rightHolds.source_words
      leftHolds.reads rightHolds.reads planned outputs within

open scoped Integer in
/-- A sum of complex vectors meets a matrix, added into every other cell, subtracted again and
conjugated. -/
theorem contract_multilinear_complex :
    let first : Tensor (Complex Int) := .ofLiteral [2] #[⟨1, 1⟩, ⟨2, 0⟩]
    let second : Tensor (Complex Int) := .ofLiteral [2] #[⟨0, 1⟩, ⟨1, 0⟩]
    let matrix : Tensor (Complex Int) := .ofLiteral [2, 2] #[⟨1, 0⟩, ⟨0, 1⟩, ⟨2, 1⟩, ⟨3, 0⟩]
    let sum : Tensor (Complex Int) := ⟨first.shape, .growable, #[⟨1, 2⟩, ⟨3, 0⟩]⟩
    let target : Target := .whole ⟨.ofFree [2], .strided [2]⟩
    let cells : Array (Complex Int) := #[⟨9, 9⟩, ⟨7, 7⟩, ⟨8, 8⟩]
    (ofTensor first).add second.source = .ok sum ∧
    (sum.source.contract [0] matrix.source [0] [none] = (do
      let firstImage ← first.source.contract [0] matrix.source [0] [none]
      let secondImage ← second.source.contract [0] matrix.source [0] [none]
      firstImage.source.add secondImage.source)) ∧
    ∃ after,
      first.source.contractInto Update.addConj [0] matrix.source [0] target cells = .ok () after ∧
      first.source.contractInto Update.subConj [0] matrix.source [0] target after = .ok () cells := by
  intro first second matrix sum target cells
  have firstHolds := holds_of_full (show first.Full from rfl) (by decide)
  have secondHolds := holds_of_full (show second.Full from rfl) (by decide)
  have matrixHolds := holds_of_full (show matrix.Full from rfl) (by decide)
  have added : (ofTensor first).add second.source = .ok sum := rfl
  have within : target.Within 3 := by
    intro index inside
    have listed : index ∈ [[0], [1]] := mem_all.mpr inside
    rcases List.mem_pair.mp listed with rfl | rfl
    · exact ⟨0, rfl⟩
    · exact ⟨2, rfl⟩
  obtain ⟨left, _, agree⟩ :=
    contract_multilinear (Complex.conjLaws Integer.ringLaws) [2] [2, 2] [0] [0]
  have linear := left [none] (ofTensor matrix) _ matrixHolds
  have planned : Contraction.plan [0] [2] [0] [2, 2] = .ok ⟨[(0, 0)], [], [1], [2], [2]⟩ := by
    rfl
  have updates := agree (ofTensor first) (ofTensor matrix) _ _ _ target 3 firstHolds matrixHolds planned
    rfl within
  have sums := linear.add firstHolds secondHolds added
  have undone := updates.conjUndone cells rfl
  exact ⟨added, sums, undone⟩

end Operand

end ShapedTensor

import ShapedTensor.Proofs.Operand.Holds
import ShapedTensor.Proofs.Source.Copy

namespace ShapedTensor

open Index

variable {T : Type}

namespace Checked

variable {ι : Type} {compare : ι → Except Fault Bool}

/-- After a difference nothing is compared. -/
theorem foldlM_flag_false (items : List ι) :
    items.foldlM (fun same item => if same then compare item else return false) false = .ok false := by
  induction items with
  | nil => rfl
  | cons item items ih => exact ih

/-- A comparison in steps finds no difference when there is none at any item. -/
theorem foldlM_flag_true {items : List ι} :
    items.foldlM (fun same item => if same then compare item else return false) true = .ok true ↔
      ∀ item ∈ items, compare item = .ok true := by
  induction items with
  | nil => simp [pure, Except.pure]
  | cons item items ih =>
      rw [List.foldlM_cons, bind_eq_ok, List.forall_mem_cons, Bool.exists_bool, foldlM_flag_false, ih]
      simp

end Checked

namespace Source

variable [BEq T] {left right third : Source T}

/-- Two sources agree when they have the same sizes and equal elements at every index. -/
structure Agree (left right : Source T) : Prop where
  sizes : left.shape.sizes = right.shape.sizes
  element : ∀ index, Inside left.shape.sizes index → ∃ leftElement rightElement,
    left.read index = .ok leftElement ∧ right.read index = .ok rightElement ∧
      (leftElement == rightElement) = true

/-- The comparison of two sources at one index. -/
def sameAt (left right : Source T) (index : List Nat) : Except Fault Bool := do
  let leftElement ← left.read index
  let rightElement ← right.read index
  return leftElement == rightElement

/-- The comparison at one index succeeds when both sources have an element there. -/
theorem sameAt_eq_ok {index : List Nat} {answer : Bool} :
    left.sameAt right index = .ok answer ↔ ∃ leftElement rightElement,
      left.read index = .ok leftElement ∧ right.read index = .ok rightElement ∧
        (leftElement == rightElement) = answer := by
  simp only [sameAt, Checked.bind_eq_ok, pure, Except.pure, Except.ok.injEq, exists_and_left]

/-- Sources are found equal exactly when they agree. -/
theorem equals_iff_agree : left.equals right = .ok true ↔ left.Agree right := by
  rw [equals]
  by_cases sizes : left.shape.sizes = right.shape.sizes
  · have flag : left.sameElements right = .ok true ↔
        ∀ index ∈ all left.shape.sizes, left.sameAt right index = .ok true := by
      rw [sameElements, foldM_eq]
      exact Checked.foldlM_flag_true
    rw [if_pos ((left.shape.sameSizes_iff right.shape).mpr sizes), flag]
    simp only [mem_all, sameAt_eq_ok]
    exact ⟨fun element => ⟨sizes, element⟩, Agree.element⟩
  · rw [if_neg (mt (left.shape.sameSizes_iff right.shape).mp sizes)]
    exact ⟨by simp, fun agree => absurd agree.sizes sizes⟩

/-- Sources with an element at every index can be compared. -/
theorem exists_equals {leftElement rightElement : List Nat → T} (leftReads : left.Reads leftElement)
    (rightReads : right.Reads rightElement) : ∃ answer, left.equals right = .ok answer := by
  rw [equals]
  by_cases sizes : left.shape.sizes = right.shape.sizes
  · rw [if_pos ((left.shape.sameSizes_iff right.shape).mpr sizes)]
    have steps (same : Bool) (index : List Nat) (inside : Inside left.shape.sizes index) :
        (if same then left.sameAt right index else return false) =
          (pure (if same then leftElement index == rightElement index else false) :
            Except Fault Bool) := by
      rw [sameAt, leftReads index inside, rightReads index (sizes ▸ inside)]
      cases same <;> rfl
    exact ⟨_, foldM_pure steps true⟩
  · rw [if_neg (mt (left.shape.sameSizes_iff right.shape).mp sizes)]
    exact ⟨false, rfl⟩

/-- An answer does not depend on the order of the operands if that on two elements does not. -/
theorem equals_symm
    (symmetric : ∀ first second : T, (first == second) = true → (second == first) = true)
    {answer : Bool} (compared : left.equals right = .ok answer) : right.equals left = .ok answer := by
  have commutes (first second : T) : (first == second) = (second == first) :=
    Bool.eq_iff_iff.mpr ⟨symmetric first second, symmetric second first⟩
  rw [equals] at compared ⊢
  by_cases sizes : left.shape.sizes = right.shape.sizes
  · rw [if_pos ((left.shape.sameSizes_iff right.shape).mpr sizes), sameElements, foldM_eq] at compared
    rw [if_pos ((right.shape.sameSizes_iff left.shape).mpr sizes.symm), sameElements, foldM_eq, ← sizes]
    refine Checked.foldlM_imp (fun same index _ next step => ?_) compared
    cases same with
    | false => exact step
    | true =>
        obtain ⟨leftElement, rightElement, leftRead, rightRead, rfl⟩ := sameAt_eq_ok.mp step
        exact sameAt_eq_ok.mpr ⟨rightElement, leftElement, rightRead, leftRead, commutes _ _⟩
  · rw [if_neg (mt (left.shape.sameSizes_iff right.shape).mp sizes)] at compared
    rwa [if_neg (mt (right.shape.sameSizes_iff left.shape).mp (Ne.symm sizes))]

namespace Agree

/-- Sources agree with all that a source agrees with in between if elements do. -/
theorem trans
    (transitive : ∀ first second third : T, (first == second) = true → (second == third) = true →
      (first == third) = true)
    (before : left.Agree right) (after : right.Agree third) : left.Agree third := by
  refine ⟨before.sizes.trans after.sizes, fun index inside => ?_⟩
  obtain ⟨first, second, firstRead, secondRead, same⟩ := before.element index inside
  obtain ⟨own, last, ownRead, lastRead, others⟩ := after.element index (before.sizes ▸ inside)
  obtain rfl := Except.ok.inj (secondRead.symm.trans ownRead)
  exact ⟨first, last, firstRead, lastRead, transitive first second last same others⟩

/-- Sources of the same sizes agree if one of these is zero. -/
theorem of_empty (sizes : left.shape.sizes = right.shape.sizes) (empty : 0 ∈ left.shape.sizes) :
    left.Agree right :=
  ⟨sizes, fun _ inside => absurd empty inside.zero_notMem⟩

/-- Matrices that agree are turned into matrices that agree. -/
theorem turned {leftTurned rightTurned : Source T} {rows columns otherRows otherColumns : Nat}
    (agree : left.Agree right) (leftTurns : left.Turns leftTurned rows columns)
    (rightTurns : right.Turns rightTurned otherRows otherColumns) : leftTurned.Agree rightTurned := by
  have sizes := agree.sizes
  rw [leftTurns.sizes, rightTurns.sizes] at sizes
  obtain ⟨rfl, rfl⟩ : rows = otherRows ∧ columns = otherColumns := by simpa using sizes
  refine ⟨leftTurns.turnedSizes.trans rightTurns.turnedSizes.symm, fun index inside => ?_⟩
  rw [leftTurns.turnedSizes] at inside
  obtain ⟨column, columnBelow, row, rowBelow, rfl⟩ := inside_pair.mp inside
  rw [leftTurns.read row rowBelow column columnBelow, rightTurns.read row rowBelow column columnBelow]
  apply agree.element
  rw [leftTurns.sizes]
  exact inside_pair.mpr ⟨row, rowBelow, column, columnBelow, rfl⟩

end Agree

/-- Matrices agree exactly when the turned ones do. -/
theorem agree_iff_turned {leftTurned rightTurned : Source T} {rows columns otherRows otherColumns : Nat}
    (leftTurns : left.Turns leftTurned rows columns)
    (rightTurns : right.Turns rightTurned otherRows otherColumns) :
    left.Agree right ↔ leftTurned.Agree rightTurned :=
  ⟨fun agree => agree.turned leftTurns rightTurns,
    fun agree => agree.turned leftTurns.symm rightTurns.symm⟩

/-- A source whose elements equal themselves agrees with its copy, and the copy with it. -/
theorem agree_copy [Stored T] {source : Source T} {kind : StorageKind} {pattern : Pattern}
    {copy : Tensor T} (copied : Tensor.ofSource kind pattern source = .ok copy)
    (reflexive : ∀ index element, Inside source.shape.sizes index → source.read index = .ok element →
      (element == element) = true) : source.Agree copy.source ∧ copy.source.Agree source := by
  obtain ⟨sizes, _, reads⟩ := Tensor.ofSource_reads copied
  have same (index : List Nat) (inside : Inside source.shape.sizes index) : ∃ element,
      source.read index = .ok element ∧ copy.read index = .ok element ∧ (element == element) = true := by
    obtain ⟨element, own, other⟩ := reads index inside
    exact ⟨element, own, other, reflexive index element inside own⟩
  refine ⟨⟨sizes.symm, fun index inside => ?_⟩, sizes, fun index inside => ?_⟩
  · obtain ⟨element, own, other, equal⟩ := same index inside
    exact ⟨element, element, own, other, equal⟩
  · obtain ⟨element, own, other, equal⟩ := same index (sizes ▸ inside)
    exact ⟨element, element, other, own, equal⟩

end Source

namespace Operand

variable [Element T] {left right : Operand T}

/-- Concrete operands are found equal exactly when they agree. -/
theorem Concrete.equals_iff_agree (leftConcrete : left.Concrete) (rightConcrete : right.Concrete) :
    left.equals right = .ok true ↔ left.source.Agree right.source := by
  rw [leftConcrete.equals_eq rightConcrete]
  exact Source.equals_iff_agree

/-- A comparison is extensional when it depends on nothing but the sizes of the operands and their
elements. -/
structure Extensional (left right : Operand T) : Prop where
  agrees : left.equals right = .ok true ↔ left.source.Agree right.source
  answers : ∀ leftElement rightElement, left.source.Reads leftElement →
    right.source.Reads rightElement → ∃ answer, left.equals right = .ok answer
  symmetric : (∀ first second : T, (first == second) = true → (second == first) = true) →
    ∀ answer, left.equals right = .ok answer ↔ right.equals left = .ok answer
  empty : left.source.shape.sizes = right.source.shape.sizes → 0 ∈ left.source.shape.sizes →
    left.equals right = .ok true

/-- Comparisons of concrete operands are extensional. -/
theorem Concrete.extensional (leftConcrete : left.Concrete) (rightConcrete : right.Concrete) :
    left.Extensional right := by
  have compared := leftConcrete.equals_eq rightConcrete
  have exchanged := rightConcrete.equals_eq leftConcrete
  constructor
  case agrees => exact leftConcrete.equals_iff_agree rightConcrete
  case answers =>
    intro leftElement rightElement leftReads rightReads
    rw [compared]
    exact Source.exists_equals leftReads rightReads
  case symmetric =>
    intro symmetric answer
    rw [compared, exchanged]
    exact ⟨Source.equals_symm symmetric, Source.equals_symm symmetric⟩
  case empty =>
    intro sizes empty
    exact (leftConcrete.equals_iff_agree rightConcrete).mpr (.of_empty sizes empty)

/-- Two matrices are compared like their transposed views, as far as they can be compared. -/
theorem equals_turned {left right : View T} (leftMatrix : left.IsMatrix) (rightMatrix : right.IsMatrix) :
    ∃ leftTurned rightTurned, left.transpose = .ok leftTurned ∧ right.transpose = .ok rightTurned ∧
      ((ofView left).equals (ofView right) = .ok true ↔
        (ofView leftTurned).equals (ofView rightTurned) = .ok true) ∧
      ∀ leftElement rightElement, left.source.Reads leftElement → right.source.Reads rightElement →
        (ofView left).equals (ofView right) = (ofView leftTurned).equals (ofView rightTurned) := by
  obtain ⟨_, _, leftTurned, leftTransposed, _, _, leftTurns⟩ := leftMatrix.turns
  obtain ⟨_, _, rightTurned, rightTransposed, _, _, rightTurns⟩ := rightMatrix.turns
  have same : (ofView left).equals (ofView right) = .ok true ↔
      (ofView leftTurned).equals (ofView rightTurned) = .ok true :=
    Source.equals_iff_agree.trans
      ((Source.agree_iff_turned leftTurns rightTurns).trans Source.equals_iff_agree.symm)
  refine ⟨leftTurned, rightTurned, leftTransposed, rightTransposed, same, ?_⟩
  intro leftElement rightElement leftReads rightReads
  obtain ⟨answer, compared⟩ : ∃ answer, (ofView left).equals (ofView right) = .ok answer :=
    Source.exists_equals leftReads rightReads
  obtain ⟨other, turnedCompared⟩ :
      ∃ other, (ofView leftTurned).equals (ofView rightTurned) = .ok other :=
    Source.exists_equals (leftTurns.reads leftReads) (rightTurns.reads rightReads)
  rw [compared, turnedCompared, Except.ok.injEq, Except.ok.injEq] at same
  rw [compared, turnedCompared, Bool.eq_iff_iff.mpr same]

/-- Tensors and views are equal exactly when they have the same sizes and equal elements, however they
keep them. -/
theorem equals_extensional :
    (∀ left right : Operand T, left.Concrete → right.Concrete → left.Extensional right) ∧
    ((∀ first second third : T, (first == second) = true → (second == third) = true →
        (first == third) = true) →
      ∀ first second third : Operand T, first.Concrete → second.Concrete → third.Concrete →
        first.equals second = .ok true → second.equals third = .ok true →
          first.equals third = .ok true) ∧
    (∀ (operand : Operand T) kind pattern copy, operand.Concrete →
      Tensor.ofSource kind pattern operand.source = .ok copy →
      (∀ index element, Inside operand.source.shape.sizes index →
        operand.source.read index = .ok element → (element == element) = true) →
      operand.equals (ofTensor copy) = .ok true ∧ (ofTensor copy).equals operand = .ok true) ∧
    ∀ left right : View T, left.IsMatrix → right.IsMatrix → ∃ leftTurned rightTurned,
      left.transpose = .ok leftTurned ∧ right.transpose = .ok rightTurned ∧
      ((ofView left).equals (ofView right) = .ok true ↔
        (ofView leftTurned).equals (ofView rightTurned) = .ok true) ∧
      ∀ leftElement rightElement, left.source.Reads leftElement → right.source.Reads rightElement →
        (ofView left).equals (ofView right) = (ofView leftTurned).equals (ofView rightTurned) := by
  refine ⟨fun _ _ leftConcrete => leftConcrete.extensional, ?_, ?_, fun _ _ => equals_turned⟩
  · intro transitive first second third firstConcrete secondConcrete thirdConcrete before after
    have firstAgree := (firstConcrete.equals_iff_agree secondConcrete).mp before
    have secondAgree := (secondConcrete.equals_iff_agree thirdConcrete).mp after
    exact (firstConcrete.equals_iff_agree thirdConcrete).mpr (firstAgree.trans transitive secondAgree)
  · intro operand kind pattern copy concrete copied reflexive
    have copyConcrete : (ofTensor copy).Concrete := trivial
    obtain ⟨agree, exchanged⟩ := Source.agree_copy copied reflexive
    exact ⟨(concrete.equals_iff_agree copyConcrete).mpr agree,
      (copyConcrete.equals_iff_agree concrete).mpr exchanged⟩

open scoped Integer in
/-- A conjugated column-major view equals its copy in both orders, and so do their transposed views. -/
theorem equals_extensional_columnMajor :
    let view : View (Complex Int) := ⟨⟨.ofFree [2, 2], .columnMajor⟩, .conjugating,
      .ofCells #[⟨1, 2⟩, ⟨3, 4⟩, ⟨5, 6⟩, ⟨7, 8⟩]⟩
    let copy : Tensor (Complex Int) := ⟨.ofFree [2, 2], ⟨.growable,
      #[⟨1, -2⟩, ⟨5, -6⟩, ⟨3, -4⟩, ⟨7, -8⟩]⟩⟩
    (ofView view).equals (ofTensor copy) = .ok true ∧ (ofTensor copy).equals (ofView view) = .ok true ∧
      ∃ turned copyTurned, view.transpose = .ok turned ∧ copy.view.transpose = .ok copyTurned ∧
        (ofView turned).equals (ofView copyTurned) = .ok true := by
  intro view copy
  obtain ⟨extensional, _, copies, matrices⟩ := @equals_extensional (Complex Int) _
  have copied : Tensor.ofSource .growable view.shape.pattern view.source = .ok copy := rfl
  obtain ⟨equal, exchanged⟩ := copies (ofView view) .growable view.shape.pattern copy trivial copied
    fun _ element _ _ => congrArg₂ Bool.and (decide_eq_true rfl) (decide_eq_true rfl)
  obtain ⟨turned, copyTurned, transposed, copyTransposed, same, _⟩ :=
    matrices view copy.view ⟨rfl, by decide, trivial, rfl⟩ ⟨rfl, by decide, trivial, rfl⟩
  have copyEqual : (ofView view).equals (ofView copy.view) = .ok true := by
    rw [(extensional (ofView view) (ofView copy.view) trivial trivial).agrees]
    rw [(extensional (ofView view) (ofTensor copy) trivial trivial).agrees] at equal
    rwa [show (ofView copy.view).source = (ofTensor copy).source from copy.source_view]
  exact ⟨equal, exchanged, turned, copyTurned, transposed, copyTransposed, same.mp copyEqual⟩

end Operand

end ShapedTensor

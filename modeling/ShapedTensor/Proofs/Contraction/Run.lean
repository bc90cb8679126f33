import ShapedTensor.Product
import ShapedTensor.Proofs.Access
import ShapedTensor.Proofs.Index.Odometer
import ShapedTensor.Proofs.Tensor.Cells

namespace ShapedTensor

variable {T : Type}

namespace Contraction

/-- The indices of the output and of the operands that one update goes to. -/
structure Visit where
  output : List Nat
  left : List Nat
  right : List Nat

/-- One update at given indices. -/
def Visit.run (visit : Visit) (update : T → T → T → T) (left right : Source T) (target : Target) :
    Writing T Unit := do
  let cell ← target.cell (T := T) visit.output
  let leftElement ← left.read visit.left
  let rightElement ← right.read visit.right
  modify (·.modify cell fun own => update own leftElement rightElement)

/-- One update at given indices succeeds when its cell and both elements are found, and changes this
cell. -/
theorem Visit.run_eq_ok (visit : Visit) {update : T → T → T → T} {left right : Source T}
    {target : Target} {cells after : Array T} :
    visit.run update left right target cells = .ok () after ↔
      ∃ cell leftElement rightElement, target.locate cells.size visit.output = .ok cell ∧
        left.read visit.left = .ok leftElement ∧ right.read visit.right = .ok rightElement ∧
        after = cells.modify cell fun own => update own leftElement rightElement := by
  rw [Visit.run, Writing.bind_eq_ok]
  constructor
  · rintro ⟨cell, middle, located, run⟩
    rw [Target.cell_eq, Writing.lift_eq_ok] at located
    rcases located with ⟨located, rfl⟩
    obtain ⟨leftElement, _, leftFound, run⟩ := Writing.bind_eq_ok.mp run
    obtain ⟨leftRead, rfl⟩ := Writing.lift_eq_ok.mp leftFound
    obtain ⟨rightElement, _, rightFound, run⟩ := Writing.bind_eq_ok.mp run
    obtain ⟨rightRead, rfl⟩ := Writing.lift_eq_ok.mp rightFound
    obtain ⟨_, rfl⟩ := EStateM.Result.ok.inj run
    exact ⟨cell, leftElement, rightElement, located, leftRead, rightRead, rfl⟩
  · rintro ⟨cell, leftElement, rightElement, located, leftRead, rightRead, rfl⟩
    refine ⟨cell, cells, ?_, ?_⟩
    · rw [Target.cell_eq, Writing.lift_eq_ok]
      exact ⟨located, rfl⟩
    · rw [leftRead, rightRead]
      rfl

/-- The indices of the update at summed and output coordinates. -/
def visit (contraction : Contraction) (summed output : List Nat) : Visit :=
  ⟨output, contraction.leftIndex summed output, contraction.rightIndex summed output⟩

/-- One update succeeds when its cell and both elements are found, and changes this cell. -/
theorem step_eq_ok {contraction : Contraction} {update : T → T → T → T} {left right : Source T}
    {target : Target} {summed output : List Nat} {cells after : Array T} :
    contraction.step update left right target summed output cells = .ok () after ↔
      ∃ cell leftElement rightElement, target.locate cells.size output = .ok cell ∧
        left.read (contraction.leftIndex summed output) = .ok leftElement ∧
        right.read (contraction.rightIndex summed output) = .ok rightElement ∧
        after = cells.modify cell fun own => update own leftElement rightElement :=
  (contraction.visit summed output).run_eq_ok

/-- What every change of a cell by the update keeps, a run keeps. -/
theorem keeps_run {property : Array T → Prop} {update : T → T → T → T} {left right : Source T}
    (kept : ∀ (cells : Array T) cell leftIndex leftElement rightIndex rightElement,
      left.read leftIndex = .ok leftElement → right.read rightIndex = .ok rightElement →
      property cells → property (cells.modify cell fun own => update own leftElement rightElement))
    (contraction : Contraction) (target : Target) :
    Writing.Keeps property (contraction.run update left right target) := by
  unfold run
  split
  · refine Odometer.keeps_foldM (fun state position cells after result holds run => ?_) ()
    obtain ⟨cell, _, _, _, leftRead, rightRead, rfl⟩ := step_eq_ok.mp run
    exact kept cells cell _ _ _ _ leftRead rightRead holds
  · exact Writing.Keeps.lift property (.error _)

/-- A run on operands that read more follows the run on those that read less. -/
theorem follows_run {update : T → T → T → T} {left right leftLeader rightLeader : Source T}
    (leftFollows : leftLeader.Follows left) (rightFollows : rightLeader.Follows right)
    (contraction : Contraction) (target : Target) :
    Writing.Follows (contraction.run update leftLeader rightLeader target)
      (contraction.run update left right target) := by
  unfold run
  split
  · refine Odometer.follows_foldM (fun state position cells after result run => ?_) ()
    obtain ⟨cell, leftElement, rightElement, located, leftRead, rightRead, rfl⟩ := step_eq_ok.mp run
    exact step_eq_ok.mpr ⟨cell, leftElement, rightElement, located,
      leftFollows.read _ _ leftRead, rightFollows.read _ _ rightRead, rfl⟩
  · exact .refl _

/-- A run that succeeds has a target of the output sizes. -/
theorem outputs_of_run {contraction : Contraction} {update : T → T → T → T} {left right : Source T}
    {target : Target} {cells after : Array T}
    (run : contraction.run update left right target cells = .ok () after) :
    target.shape.sizes = contraction.outputSizes := by
  unfold Contraction.run at run
  split at run
  · assumption
  · cases run

end Contraction

/-- An update on two sources is silent when it changes nothing with any elements that they read. -/
def Source.Silent (update : T → T → T → T) (left right : Source T) : Prop :=
  ∀ own leftIndex leftElement rightIndex rightElement, left.read leftIndex = .ok leftElement →
    right.read rightIndex = .ok rightElement → update own leftElement rightElement = own

namespace Source

/-- A run of silent updates leaves the cells as they are. -/
theorem Silent.run {update : T → T → T → T} {left right : Source T} (silent : Silent update left right)
    {contraction : Contraction} {target : Target} {cells after : Array T}
    (run : contraction.run update left right target cells = .ok () after) : after = cells := by
  have kept : Writing.Keeps (· = cells) (contraction.run update left right target) := by
    apply Contraction.keeps_run
    rintro _ cell leftIndex leftElement rightIndex rightElement leftRead rightRead rfl
    exact modify_self _ cell fun own =>
      silent own leftIndex leftElement rightIndex rightElement leftRead rightRead
  exact kept cells after () rfl run

/-- A contraction into a target succeeds when its axes are accepted and the run succeeds. -/
theorem contractInto_eq_ok {update : T → T → T → T} {left right : Source T}
    {leftAxes rightAxes : List Nat} {target : Target} {cells after : Array T} :
    left.contractInto update leftAxes right rightAxes target cells = .ok () after ↔
      ∃ contraction, Contraction.plan leftAxes left.shape.sizes rightAxes right.shape.sizes =
          .ok contraction ∧ contraction.run update left right target cells = .ok () after := by
  rw [contractInto, Writing.bind_eq_ok]
  constructor
  · rintro ⟨contraction, _, accepted, run⟩
    obtain ⟨planned, rfl⟩ := Writing.lift_eq_ok.mp accepted
    exact ⟨contraction, planned, run⟩
  · rintro ⟨contraction, planned, run⟩
    exact ⟨contraction, cells, Writing.lift_eq_ok.mpr ⟨planned, rfl⟩, run⟩

variable [Element T]

/-- A contraction gives a full tensor. -/
theorem contract_full {left right : Source T} {leftAxes rightAxes : List Nat} {pattern : Pattern}
    {tensor : Tensor T} (contracted : left.contract leftAxes right rightAxes pattern = .ok tensor) :
    tensor.Full := by
  obtain ⟨contraction, _, contracted⟩ := Checked.bind_eq_ok.mp contracted
  obtain ⟨shape, _, contracted⟩ := Checked.bind_eq_ok.mp contracted
  obtain ⟨output, started, contracted⟩ := Checked.bind_eq_ok.mp contracted
  obtain ⟨cells, run, rfl⟩ := Tensor.written_eq_ok.mp contracted
  have kept : Writing.Keeps (·.size = output.cells.size)
      (contraction.run Update.add left right output.target) := by
    apply Contraction.keeps_run
    intro before cell _ _ _ _ _ _ size
    rw [Array.size_modify, size]
  have full : output.Full := Tensor.filled_full started
  change output.shape.size = .ok cells.size
  rw [kept output.cells cells () rfl run]
  exact full

/-- A contraction succeeds on operands that read more with the same tensor. -/
theorem contract_imp {left right leftLeader rightLeader : Source T}
    (leftFollows : leftLeader.Follows left) (rightFollows : rightLeader.Follows right)
    {leftAxes rightAxes : List Nat} {pattern : Pattern} {tensor : Tensor T}
    (contracted : leftLeader.contract leftAxes rightLeader rightAxes pattern = .ok tensor) :
    left.contract leftAxes right rightAxes pattern = .ok tensor := by
  obtain ⟨contraction, planned, contracted⟩ := Checked.bind_eq_ok.mp contracted
  obtain ⟨shape, shaped, contracted⟩ := Checked.bind_eq_ok.mp contracted
  obtain ⟨output, started, contracted⟩ := Checked.bind_eq_ok.mp contracted
  obtain ⟨cells, run, rfl⟩ := Tensor.written_eq_ok.mp contracted
  rw [← leftFollows.shape, ← rightFollows.shape] at planned
  refine Checked.bind_eq_ok.mpr ⟨contraction, planned, Checked.bind_eq_ok.mpr ⟨shape, shaped,
    Checked.bind_eq_ok.mpr ⟨output, started, Tensor.written_eq_ok.mpr ⟨cells, ?_, rfl⟩⟩⟩⟩
  exact Contraction.follows_run leftFollows rightFollows contraction output.target output.cells
    cells () run

/-- A contraction of adjacent axes succeeds on a right operand that reads more with the same tensor. -/
theorem contractAdjacentWith_imp {left right rightLeader : Source T}
    (follows : rightLeader.Follows right) {update : T → T → T → T} {count : Nat} {tensor : Tensor T}
    (contracted : left.contractAdjacentWith update count rightLeader = .ok tensor) :
    left.contractAdjacentWith update count right = .ok tensor := by
  obtain ⟨shape, shaped, contracted⟩ := Checked.bind_eq_ok.mp contracted
  obtain ⟨output, started, contracted⟩ := Checked.bind_eq_ok.mp contracted
  obtain ⟨cells, run, rfl⟩ := Tensor.written_eq_ok.mp contracted
  obtain ⟨axes, middle, found, run⟩ := Writing.bind_eq_ok.mp run
  obtain ⟨contraction, planned, run⟩ := contractInto_eq_ok.mp run
  rw [← follows.shape] at shaped planned
  refine Checked.bind_eq_ok.mpr ⟨shape, shaped, Checked.bind_eq_ok.mpr ⟨output, started,
    Tensor.written_eq_ok.mpr ⟨cells, Writing.bind_eq_ok.mpr ⟨axes, middle, found, ?_⟩, rfl⟩⟩⟩
  exact contractInto_eq_ok.mpr ⟨contraction, planned, Contraction.follows_run (.refl left) follows
    contraction output.target middle cells () run⟩

/-- Several contractions give a full tensor. -/
theorem multilinear_full (source operand : Source T) (operands : List (Source T)) {tensor : Tensor T}
    (contracted : source.multilinear (operand :: operands) = .ok tensor) : tensor.Full := by
  induction operands generalizing source operand with
  | nil => exact contract_full contracted
  | cons next operands ih =>
      obtain ⟨middle, _, contracted⟩ := Checked.bind_eq_ok.mp contracted
      exact ih middle.source next contracted

/-- Several contractions succeed on a source that reads more with the same tensor. -/
theorem multilinear_imp {leader source : Source T} (follows : leader.Follows source)
    (operand : Source T) (operands : List (Source T)) {tensor : Tensor T}
    (contracted : leader.multilinear (operand :: operands) = .ok tensor) :
    source.multilinear (operand :: operands) = .ok tensor := by
  have first {middle : Tensor T} (contracted : leader.contractLeading operand = .ok middle) :
      source.contractLeading operand = .ok middle := by
    rw [contractLeading, follows.shape]
    exact contract_imp follows (.refl operand) contracted
  cases operands with
  | nil => exact first contracted
  | cons next operands =>
      obtain ⟨middle, start, contracted⟩ := Checked.bind_eq_ok.mp contracted
      exact Checked.bind_eq_ok.mpr ⟨middle, first start, contracted⟩

/-- A contraction of adjacent axes with a silent update gives the tensor of zeros. -/
theorem Silent.contractAdjacentWith {update : T → T → T → T} {left right : Source T}
    (silent : Silent update left right) {count : Nat} {tensor : Tensor T}
    (contracted : left.contractAdjacentWith update count right = .ok tensor) :
    ∃ shape, left.shape.contract right.shape count = .ok shape ∧
      Tensor.zeros .growable shape = .ok tensor := by
  obtain ⟨shape, shaped, contracted⟩ := Checked.bind_eq_ok.mp contracted
  obtain ⟨output, started, contracted⟩ := Checked.bind_eq_ok.mp contracted
  obtain ⟨cells, run, rfl⟩ := Tensor.written_eq_ok.mp contracted
  obtain ⟨⟨leftAxes, rightAxes⟩, middle, axes, run⟩ := Writing.bind_eq_ok.mp run
  obtain ⟨_, rfl⟩ := Writing.lift_eq_ok.mp axes
  obtain ⟨contraction, _, run⟩ := contractInto_eq_ok.mp run
  obtain rfl := silent.run run
  exact ⟨shape, shaped, started⟩

/-- A contraction down to one element with a silent update gives zero. -/
theorem Silent.reduce {update : T → T → T → T} {left right : Source T}
    (silent : Silent update left right) {leftAxes rightAxes : List Nat} {value : T}
    (reduced : left.reduce update leftAxes right rightAxes = .ok value) : value = 0 := by
  obtain ⟨output, written, read⟩ := Checked.bind_eq_ok.mp reduced
  obtain ⟨cells, run, rfl⟩ := Tensor.written_eq_ok.mp written
  obtain ⟨contraction, _, run⟩ := contractInto_eq_ok.mp run
  obtain rfl := silent.run run
  exact (Except.ok.inj read).symm

end Source

end ShapedTensor

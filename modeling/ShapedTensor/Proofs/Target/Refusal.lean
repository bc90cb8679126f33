import ShapedTensor.Proofs.Contraction.Shape
import ShapedTensor.Proofs.Target.Frame
import ShapedTensor.Proofs.Target.InPlace

namespace ShapedTensor

open Index

variable {T : Type}

/-- A writable value with its own cells is the value itself. -/
theorem Writable.withCells_cells (writable : Writable T) :
    writable.withCells writable.cells = writable := by
  cases writable <;> rfl

/-- An action is guarded by a condition when it succeeds where the condition holds, and elsewhere fails
with a fault and a state that are as told. -/
structure Guarded {σ : Type} (action : EStateM Fault σ Unit) (before : σ) (condition : Prop)
    (left : Fault → σ → Prop) : Prop where
  accepts : condition → ∃ after, action before = .ok () after
  refuses : ¬condition → ∃ fault after, action before = .error fault after ∧ left fault after

namespace Guarded

variable {σ : Type} {action : EStateM Fault σ Unit} {before : σ} {condition : Prop}
  {left : Fault → σ → Prop}

/-- Another condition guards an action when it holds in the same cases. -/
theorem of_iff {other : Prop} (guarded : Guarded action before condition left)
    (same : other ↔ condition) : Guarded action before other left where
  accepts holds := guarded.accepts (same.mp holds)
  refuses fails := guarded.refuses (mt same.mpr fails)

/-- An action that succeeds under a condition is guarded by it. -/
theorem of_ok {after : σ} (holds : condition) (run : action before = .ok () after) :
    Guarded action before condition left where
  accepts _ := ⟨after, run⟩
  refuses fails := absurd holds fails

/-- An action that fails is guarded by a condition that does not hold. -/
theorem of_error {fault : Fault} {after : σ} (fails : ¬condition)
    (run : action before = .error fault after) (leaves : left fault after) :
    Guarded action before condition left where
  accepts holds := absurd holds fails
  refuses _ := ⟨fault, after, run, leaves⟩

/-- What is guarded on the cells of a writable value is guarded on the value. -/
theorem writing {action : Target → Writing T Unit} {writable : Writable T}
    {cellsLeft : Fault → Array T → Prop} {left : Fault → Writable T → Prop}
    (guarded : Guarded (action writable.target) writable.cells condition cellsLeft)
    (carried : ∀ fault cells, cellsLeft fault cells → left fault (writable.withCells cells)) :
    Guarded (Writable.writing action) writable condition left where
  accepts holds := by
    obtain ⟨cells, run⟩ := guarded.accepts holds
    exact ⟨_, by rw [Writable.writing, run]⟩
  refuses fails := by
    obtain ⟨fault, cells, run, leaves⟩ := guarded.refuses fails
    exact ⟨fault, _, by rw [Writable.writing, run], carried fault cells leaves⟩

/-- A refusal that leaves the cells as they are leaves the writable value as it is. -/
theorem writing_kept {action : Target → Writing T Unit} {writable : Writable T}
    (guarded : Guarded (action writable.target) writable.cells condition
      fun _ after => after = writable.cells) :
    Guarded (Writable.writing action) writable condition fun _ after => after = writable := by
  apply guarded.writing
  rintro fault _ rfl
  exact writable.withCells_cells

/-- What is guarded behind a first part is guarded behind the part that leads there. -/
theorem behind {first : Writing T Unit} {next : Unit → Writing T Unit} {cells middle : Array T}
    {left : Fault → Array T → Prop} (start : first cells = .ok () middle)
    (guarded : Guarded (next ()) middle condition left) :
    Guarded (first >>= next) cells condition left where
  accepts holds := by
    rw [Writing.bind_of_ok start]
    exact guarded.accepts holds
  refuses fails := by
    rw [Writing.bind_of_ok start]
    exact guarded.refuses fails

end Guarded

/-- A source is readable when its sizes are words and it has an element at every index of its shape. -/
structure Source.Readable (source : Source T) : Prop where
  words : ∀ size ∈ source.shape.sizes, size < Size.bound
  elements : ∀ index, Inside source.shape.sizes index → ∃ element, source.read index = .ok element

/-- A readable source reads the values of a function. -/
theorem Source.Readable.exists_reads [Element T] {source : Source T} (readable : source.Readable) :
    ∃ element, source.Reads element := by
  have : Nonempty T := ⟨0⟩
  choose! element reads using readable.elements
  exact ⟨element, reads⟩

/-- A target finds a cell of a buffer for every index of its shape. -/
def Target.Finds (target : Target) (size : Nat) : Prop :=
  ∀ index, Inside target.shape.sizes index → ∃ cell, target.locate size index = .ok cell

/-- The cells that a target finds are the values of a function. -/
theorem Target.Finds.exists_cell {target : Target} {size : Nat} (finds : target.Finds size) :
    ∃ cell : List Nat → Nat, ∀ index, Inside target.shape.sizes index →
      target.locate size index = .ok (cell index) := by
  choose! cell located using finds
  exact ⟨cell, located⟩

/-- A target that is filled has the value in the cell of every index, and keeps the other cells. -/
theorem Target.fill_of_found {target : Target} {cells : Array T} (finds : target.Finds cells.size)
    (value : T) :
    ∃ after, target.fill value cells = .ok () after ∧ target.Confined cells after ∧
      ∀ index cell, Inside target.shape.sizes index → target.locate cells.size index = .ok cell →
        after[cell]? = some value := by
  obtain ⟨place, located⟩ := finds.exists_cell
  have run : target.fill value cells = .ok () _ := map_of_located located fun _ => value
  have confined : target.Confined cells (Writing.left (target.fill value) cells) :=
    moves_map target.confined_chained (fun _ inside => target.confined_allows inside) _ cells
  rw [Writing.left_of_ok run] at confined
  refine ⟨_, run, confined, fun index cell inside found => ?_⟩
  obtain rfl := Except.ok.inj ((located index inside).symm.trans found)
  obtain ⟨_, _, _, below⟩ := locate_eq_ok.mp found
  exact getElem?_foldl_replace place value (mem_all.mpr inside) below

namespace Contraction

variable {leftAxes leftSizes rightAxes rightSizes outputs : List Nat}

/-- Operands and an output fit a contraction when its lists of axes do and each pair and the output have
the right sizes. -/
structure Fits (leftAxes leftSizes rightAxes rightSizes outputs : List Nat) : Prop where
  paired : leftAxes.length = rightAxes.length
  leftNamed : Names leftSizes.length leftAxes
  rightNamed : Names rightSizes.length rightAxes
  met : ∀ pair ∈ leftAxes.zip rightAxes, leftSizes.getD pair.1 0 = rightSizes.getD pair.2 0
  outputs : outputs = (freeAxes leftAxes leftSizes.length).map (leftSizes.getD · 0) ++
    (freeAxes rightAxes rightSizes.length).map (rightSizes.getD · 0)

/-- A contraction fits when its plan is accepted and gives the sizes of the output. -/
theorem fits_iff : Fits leftAxes leftSizes rightAxes rightSizes outputs ↔
    ∃ contraction, plan leftAxes leftSizes rightAxes rightSizes = .ok contraction ∧
      outputs = contraction.outputSizes := by
  constructor
  · rintro ⟨paired, leftNamed, rightNamed, met, sizes⟩
    exact ⟨_, plan_eq_ok.mpr ⟨paired, leftNamed, rightNamed, met, rfl⟩, sizes⟩
  · rintro ⟨contraction, planned, sizes⟩
    obtain ⟨paired, leftNamed, rightNamed, met, rfl⟩ := plan_eq_ok.mp planned
    exact ⟨paired, leftNamed, rightNamed, met, sizes⟩

/-- A contraction of adjacent axes fits when the sizes of its operands are cut where they meet. -/
theorem fits_adjacent {left right : Shape} {count : Nat} (enough : count ≤ left.rank) :
    Fits (List.range' (left.rank - count) count) left.sizes (List.range count) right.sizes outputs ↔
      ∃ outer inner last, left.sizes = outer ++ inner ∧ right.sizes = inner ++ last ∧
        inner.length = count ∧ outputs = outer ++ last := by
  rw [fits_iff]
  constructor
  · rintro ⟨contraction, planned, sizes⟩
    have planned_iff_agree := (Shape.contract_tfae right enough).out 1 2
    obtain ⟨outer, inner, last, leftSizes, rightSizes, rfl⟩ :=
      Shape.sizes_of_pairs enough (planned_iff_agree.mp ⟨contraction, planned⟩)
    obtain rfl := Except.ok.inj ((plan_of_sizes leftSizes rightSizes).symm.trans planned)
    exact ⟨outer, inner, last, leftSizes, rightSizes, rfl, sizes⟩
  · rintro ⟨outer, inner, last, leftSizes, rightSizes, rfl, sizes⟩
    exact ⟨_, plan_of_sizes leftSizes rightSizes, sizes⟩

/-- The second axis of a matrix meets a vector of its size and keeps the first. -/
theorem fits_rows {rows columns count length : Nat} :
    Fits [1] [rows, columns] [0] [count] [length] ↔ [length, count] = [rows, columns] := by
  constructor
  · intro fits
    have met : columns = count := fits.met (1, 0) (by simp)
    have kept : [length] = [rows] := fits.outputs
    simp_all
  · intro same
    obtain ⟨rfl, rfl⟩ : length = rows ∧ count = columns := by simpa using same
    exact ⟨rfl, by simp [Names], by simp [Names], by simp, rfl⟩

/-- A vector meets the first axis of a matrix of its size and keeps the second. -/
theorem fits_columns {rows columns count length : Nat} :
    Fits [0] [count] [0] [rows, columns] [length] ↔ [count, length] = [rows, columns] := by
  constructor
  · intro fits
    have met : count = rows := fits.met (0, 0) (by simp)
    have kept : [length] = [columns] := fits.outputs
    simp_all
  · intro same
    obtain ⟨rfl, rfl⟩ : count = rows ∧ length = columns := by simpa using same
    exact ⟨rfl, by simp [Names], by simp [Names], by simp, rfl⟩

end Contraction

section Cells

variable [Element T] {target : Target} {cells : Array T} (finds : target.Finds cells.size)
include finds

/-- A contraction of readable sources is guarded by the fit of its axes and of its output. -/
theorem Source.guarded_contractInto (update : T → T → T → T) {left right : Source T}
    (leftReadable : left.Readable) (rightReadable : right.Readable) (leftAxes rightAxes : List Nat) :
    Guarded (left.contractInto update leftAxes right rightAxes target) cells
      (Contraction.Fits leftAxes left.shape.sizes rightAxes right.shape.sizes target.shape.sizes)
      fun _ after => after = cells := by
  cases planned : Contraction.plan leftAxes left.shape.sizes rightAxes right.shape.sizes with
  | error fault =>
      have run : left.contractInto update leftAxes right rightAxes target cells =
          .error fault cells := by
        rw [contractInto, planned]
        rfl
      exact .of_error (by simp [Contraction.fits_iff, planned]) run rfl
  | ok contraction =>
      rw [contractInto_of_plan planned]
      by_cases outputs : target.shape.sizes = contraction.outputSizes
      · obtain ⟨leftElement, leftReads⟩ := leftReadable.exists_reads
        obtain ⟨rightElement, rightReads⟩ := rightReadable.exists_reads
        obtain ⟨cell, located⟩ := finds.exists_cell
        have words := Contraction.words_of_plan leftReadable.words rightReadable.words planned
        apply Guarded.of_ok (Contraction.fits_iff.mpr ⟨contraction, planned, outputs⟩)
        exact Contraction.run_of_located update words (Contraction.pairs_of_plan planned)
          (Contraction.aligned_of_plan planned) leftReads rightReads outputs (outputs ▸ located)
      · rw [Contraction.run, if_neg outputs]
        exact .of_error (by simpa [Contraction.fits_iff, planned] using outputs) rfl rfl

/-- A contraction of adjacent axes of readable sources is guarded by the sizes that meet, and those that
are left for the output. -/
theorem Source.guarded_contractAdjacentInto (update : T → T → T → T) {left right : Source T}
    (leftReadable : left.Readable) (rightReadable : right.Readable) (count : Nat) :
    Guarded (left.contractAdjacentInto update count right target) cells
      (∃ outer inner last, left.shape.sizes = outer ++ inner ∧ right.shape.sizes = inner ++ last ∧
        inner.length = count ∧ target.shape.sizes = outer ++ last)
      fun _ after => after = cells := by
  by_cases enough : count ≤ left.shape.rank
  · have axes : Contraction.adjacentAxes left.shape.rank count =
        .ok (List.range' (left.shape.rank - count) count, List.range count) := if_pos enough
    rw [contractAdjacentInto, axes]
    exact (guarded_contractInto finds update leftReadable rightReadable _ _).of_iff
      (Contraction.fits_adjacent enough).symm
  · have apart : ¬∃ outer inner last, left.shape.sizes = outer ++ inner ∧
        right.shape.sizes = inner ++ last ∧ inner.length = count ∧
        target.shape.sizes = outer ++ last := by
      rintro ⟨outer, inner, last, leftSizes, _, rfl, _⟩
      have rank : left.shape.rank = outer.length + inner.length := Shape.rank_of_append leftSizes
      omega
    rw [contractAdjacentInto, Contraction.adjacentAxes, if_neg enough]
    exact .of_error apart rfl rfl

/-- A matrix-vector product is guarded by the sizes of the vector and of the target, which have to be
those of the matrix. -/
theorem Source.guarded_timesInto (update : T → T → T → T) (form : MatrixForm)
    {matrix vector : Source T} (matrixReadable : matrix.Readable) (vectorReadable : vector.Readable)
    {rows columns count length : Nat} (matrixSizes : matrix.shape.sizes = [rows, columns])
    (vectorSizes : vector.shape.sizes = [count]) (targetSizes : target.shape.sizes = [length]) :
    Guarded (matrix.timesInto update form vector target) cells
      (form.sizes length count = [rows, columns]) fun _ after => after = cells := by
  have byRows := guarded_contractInto finds update matrixReadable vectorReadable [1] [0]
  have byColumns := guarded_contractInto finds update vectorReadable matrixReadable [0] [0]
  rw [matrixSizes, vectorSizes, targetSizes] at byRows byColumns
  cases form with
  | plain => exact byRows.of_iff Contraction.fits_rows.symm
  | transposed => exact byColumns.of_iff Contraction.fits_columns.symm
  | adjoint => exact byColumns.of_iff Contraction.fits_columns.symm

/-- A combination with a readable source is guarded by the equality of sizes. -/
theorem Target.guarded_zip (change : T → T → T) {source : Source T} (readable : source.Readable) :
    Guarded (target.zip change source) cells (target.shape.sizes = source.shape.sizes)
      fun fault after => fault = .shapesDiffer target.shape source.shape ∧ after = cells where
  accepts same := by
    obtain ⟨element, reads⟩ := readable.exists_reads
    obtain ⟨cell, located⟩ := finds.exists_cell
    exact ⟨_, zip_of_located located change same.symm reads⟩
  refuses differ := by
    refine ⟨_, cells, ?_, rfl, rfl⟩
    rw [zip_eq, if_neg (mt (Shape.sameSizes_iff _ _).mp differ)]
    rfl

/-- A combination whose sizes are compared first tells those that differ. -/
theorem Target.guarded_checked (change : T → T → T) {source : Source T}
    (readable : source.Readable) :
    Guarded (do Source.checkSizes target.shape source.shape; target.zip change source) cells
      (target.shape.sizes = source.shape.sizes)
      fun fault after =>
        fault = .sizesDiffer target.shape.sizes source.shape.sizes ∧ after = cells where
  accepts same := by
    rw [Source.checkSizes, if_pos ((Shape.sameSizes_iff _ _).mpr same)]
    exact (guarded_zip finds change readable).accepts same
  refuses differ := by
    rw [Source.checkSizes, if_neg (mt (Shape.sameSizes_iff _ _).mp differ)]
    exact ⟨_, cells, rfl, rfl, rfl⟩

end Cells

namespace Writable

variable {writable : Writable T}

/-- An edit other than a filling runs on the cells, whatever has them. -/
theorem apply_eq_writing [Element T] {edit : Edit T} (other : ∀ value, edit ≠ .fill value) :
    apply edit = writing (·.apply edit) := by
  funext writable
  cases edit with
  | fill value => exact absurd rfl (other value)
  | _ => rfl

/-- A writable value is cleared when every element becomes zero and no cell between them changes. -/
def Cleared [Element T] (before after : Writable T) : Prop :=
  ∃ cells, after = before.withCells cells ∧ before.target.Confined before.cells cells ∧
    after.operand.source.Reads fun _ => 0

/-- What a matrix-vector product that is refused leaves of its target: one that overwrites has cleared it
by then. -/
def LeftBy [Element T] (before after : Writable T) : Accumulation T → Prop
  | .overwrite => before.Cleared after
  | _ => after = before

/-- A value that finds a cell for every index reads a value there after it is filled with it. -/
theorem cleared_of_fill [Element T] (finds : writable.target.Finds writable.cells.size)
    {cells : Array T} (filled : writable.target.fill 0 writable.cells = .ok () cells) :
    writable.Cleared (writable.withCells cells) := by
  obtain ⟨after, run, confined, replaced⟩ := Target.fill_of_found finds (0 : T)
  obtain ⟨_, rfl⟩ := EStateM.Result.ok.inj (run.symm.trans filled)
  refine ⟨after, rfl, confined, fun index inside => ?_⟩
  rw [shape_operand, target_withCells] at inside
  obtain ⟨cell, located⟩ := finds index inside
  apply read_of_locate
  · rw [target_withCells, cells_withCells, confined.size]
    exact located
  · rw [cells_withCells]
    exact replaced index cell inside located

/-- A matrix-vector product of readable operands is guarded by the sizes of the vector and of the
target. -/
theorem guarded_matVec [Element T] (finds : writable.target.Finds writable.cells.size)
    (form : MatrixForm) (accumulation : Accumulation T) {matrix vector : Source T}
    (matrixReadable : matrix.Readable) (vectorReadable : vector.Readable)
    {rows columns count length : Nat} (matrixSizes : matrix.shape.sizes = [rows, columns])
    (vectorSizes : vector.shape.sizes = [count])
    (targetSizes : writable.target.shape.sizes = [length]) :
    Guarded (writing (·.apply (.matVec form accumulation matrix vector))) writable
      (form.sizes length count = [rows, columns]) fun _ after => writable.LeftBy after accumulation := by
  have products {cells : Array T} (finds : writable.target.Finds cells.size) :=
    Source.guarded_timesInto finds (accumulation.update form) form matrixReadable vectorReadable
      matrixSizes vectorSizes targetSizes
  cases accumulation with
  | overwrite =>
      obtain ⟨middle, filled, confined, _⟩ := Target.fill_of_found finds (0 : T)
      apply ((products (confined.size ▸ finds)).behind filled).writing
      rintro _ _ rfl
      exact cleared_of_fill finds filled
  | _ => exact (products finds).writing_kept

/-- Edits that the shapes of their readable operands decide, and that leave the value as it is where
these do not meet. -/
structure GuardedByShapes [Element T] (writable : Writable T) : Prop where
  contract : ∀ update left leftAxes right rightAxes, left.Readable → right.Readable →
    Guarded (apply (.contract update left leftAxes right rightAxes)) writable
      (Contraction.Fits leftAxes left.shape.sizes rightAxes right.shape.sizes
        writable.target.shape.sizes)
      fun _ after => after = writable
  contractAdjacent : ∀ update count (left right : Source T), left.Readable → right.Readable →
    Guarded (writing (left.contractAdjacentInto update count right)) writable
      (∃ outer inner last, left.shape.sizes = outer ++ inner ∧ right.shape.sizes = inner ++ last ∧
        inner.length = count ∧ writable.target.shape.sizes = outer ++ last)
      fun _ after => after = writable
  matVec : ∀ form accumulation matrix vector rows columns count length, matrix.Readable →
    vector.Readable → matrix.shape.sizes = [rows, columns] → vector.shape.sizes = [count] →
    writable.target.shape.sizes = [length] →
    Guarded (apply (.matVec form accumulation matrix vector)) writable
      (form.sizes length count = [rows, columns]) fun _ after => writable.LeftBy after accumulation
  inPlace : ∀ (inPlace : InPlace T), ∀ source ∈ inPlace.operand?, source.Readable →
    Guarded (apply inPlace.edit) writable (writable.target.shape.sizes = source.shape.sizes)
      fun fault after =>
        fault = .shapesDiffer writable.target.shape source.shape ∧ after = writable
  checked : ∀ source, source.Readable → ∀ edit ∈ [Edit.checkedAdd source, .checkedSub source],
    Guarded (apply edit) writable (writable.target.shape.sizes = source.shape.sizes)
      fun fault after =>
        fault = .sizesDiffer writable.target.shape.sizes source.shape.sizes ∧ after = writable

/-- The edits of a writable value that finds a cell for every index are guarded by the shapes of their
operands. -/
theorem guardedByShapes [Element T] (finds : writable.target.Finds writable.cells.size) :
    writable.GuardedByShapes := by
  constructor
  case contract =>
    intro update left leftAxes right rightAxes leftReadable rightReadable
    rw [apply_eq_writing (by simp)]
    have onCells :=
      Source.guarded_contractInto finds update leftReadable rightReadable leftAxes rightAxes
    exact onCells.writing_kept
  case contractAdjacent =>
    intro update count left right leftReadable rightReadable
    have onCells := Source.guarded_contractAdjacentInto finds update leftReadable rightReadable count
    exact onCells.writing_kept
  case matVec =>
    intro form accumulation matrix vector rows columns count length matrixReadable vectorReadable
      matrixSizes vectorSizes targetSizes
    rw [apply_eq_writing (by simp)]
    exact guarded_matVec finds form accumulation matrixReadable vectorReadable matrixSizes vectorSizes
      targetSizes
  case inPlace =>
    intro inPlace source listed readable
    have zipped (change : T → T → T) :
        Guarded (writing (·.zip change source)) writable
          (writable.target.shape.sizes = source.shape.sizes) fun fault after =>
            fault = .shapesDiffer writable.target.shape source.shape ∧ after = writable := by
      apply (Target.guarded_zip finds change readable).writing
      rintro _ _ ⟨rfl, rfl⟩
      exact ⟨rfl, writable.withCells_cells⟩
    -- The other changes have no operand.
    cases inPlace <;> cases listed <;> exact zipped _
  case checked =>
    intro source readable edit listed
    have compared (change : T → T → T) :
        Guarded (writing fun target => do
          Source.checkSizes target.shape source.shape; target.zip change source) writable
          (writable.target.shape.sizes = source.shape.sizes) fun fault after =>
            fault = .sizesDiffer writable.target.shape.sizes source.shape.sizes ∧
              after = writable := by
      apply (Target.guarded_checked finds change readable).writing
      rintro _ _ ⟨rfl, rfl⟩
      exact ⟨rfl, writable.withCells_cells⟩
    simp only [List.mem_cons, List.not_mem_nil, or_false] at listed
    rcases listed with rfl | rfl <;> exact compared _

end Writable

/-- A change of the shape of a tensor is guarded by the count of the elements and the room for them, and
leaves the tensor as it is if it is refused. -/
theorem Tensor.guarded_resize [Element T] (tensor : Tensor T) (shape : Shape) (value : T) :
    Guarded (apply (.resize shape value)) tensor
      (∃ count, shape.size = .ok count ∧ tensor.storage.kind.reserve T count = .ok ())
      fun fault after =>
        (∀ overflow, shape.size = .error overflow → fault = overflow) ∧ after = tensor := by
  have replaced : apply (.resize shape value) tensor =
      EStateM.bind (liftM (tensor.resize shape value)) set tensor := rfl
  cases size : shape.size with
  | error overflow =>
      rw [resize, size] at replaced
      exact .of_error (by simp) replaced ⟨fun _ same => Except.error.inj same, rfl⟩
  | ok count =>
      rw [resize, size] at replaced
      change _ = EStateM.bind (liftM ((tensor.storage.kind.reserve T count >>= _) >>= _)) set tensor
        at replaced
      cases reserved : tensor.storage.kind.reserve T count with
      | error fault =>
          rw [reserved] at replaced
          exact .of_error (by simp [reserved]) replaced ⟨by simp, rfl⟩
      | ok _ =>
          rw [reserved] at replaced
          exact .of_ok ⟨count, rfl, reserved⟩ replaced

namespace Writable

variable {writable : Writable T}

/-- Shapes decide on an edit, and what they refuse leaves the value as it is, but for a product that has
cleared it. -/
theorem refusals_exact [Element T] (finds : writable.target.Finds writable.cells.size) :
    writable.GuardedByShapes ∧ ∀ (tensor : Tensor T) shape value,
      Guarded (Tensor.apply (.resize shape value)) tensor
        (∃ count, shape.size = .ok count ∧ tensor.storage.kind.reserve T count = .ok ())
        fun fault after =>
          (∀ overflow, shape.size = .error overflow → fault = overflow) ∧ after = tensor :=
  ⟨guardedByShapes finds, fun tensor => tensor.guarded_resize⟩

open scoped Integer in
/-- A product of rows of three with a vector of two leaves the target as it is when it adds, and cleared
when it overwrites. -/
theorem refusals_exact_product :
    let writable : Writable Int := .ofTensor (.ofLiteral [2] #[5, 6])
    let matrix : Source Int := (Tensor.ofLiteral [2, 3] #[1, 2, 3, 4, 5, 6]).source
    let vector : Source Int := (Tensor.ofLiteral [2] #[1, 1]).source
    (∃ fault, apply (.matVec .plain .add matrix vector) writable = .error fault writable) ∧
      ∃ fault after, apply (.matVec .plain .overwrite matrix vector) writable = .error fault after ∧
        after.operand.source.read [1] = .ok 0 := by
  intro writable matrix vector
  have readable {tensor : Tensor Int} (full : tensor.Full)
      (words : ∀ size ∈ tensor.shape.sizes, size < Size.bound) : tensor.source.Readable := by
    refine ⟨words, fun index inside => ?_⟩
    obtain ⟨element, _, read⟩ := full.read_eq inside
    exact ⟨element, read⟩
  have matrixReadable : matrix.Readable := readable rfl (by decide)
  have vectorReadable : vector.Readable := readable rfl (by decide)
  have full : (Tensor.ofLiteral [2] #[5, 6] : Tensor Int).Full := rfl
  have finds : writable.target.Finds writable.cells.size := fun index inside =>
    ⟨_, full.addressed.located index inside⟩
  have products := (refusals_exact finds).1.matVec
  have guarded (accumulation : Accumulation Int) :=
    products .plain accumulation matrix vector 2 3 2 2 matrixReadable vectorReadable rfl rfl rfl
  constructor
  · obtain ⟨fault, after, run, left⟩ := (guarded .add).refuses (by decide)
    obtain rfl : after = writable := left
    exact ⟨fault, run⟩
  · obtain ⟨fault, _, run, cells, rfl, _, reads⟩ := (guarded .overwrite).refuses (by decide)
    exact ⟨fault, _, run, reads [1] (.cons (by decide) .nil)⟩

end Writable

end ShapedTensor

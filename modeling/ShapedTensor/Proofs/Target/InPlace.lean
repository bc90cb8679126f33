import ShapedTensor.Proofs.Layout.Packed
import ShapedTensor.Proofs.Operand.Holds
import ShapedTensor.Proofs.Source.Copy

namespace ShapedTensor

open Index

variable {T : Type}

/-- A change of every element in place. -/
inductive InPlace (T : Type) where
  | fill (value : T)
  | map (change : T → T)
  | add (source : Source T)
  | sub (source : Source T)
  | scale (factor : T)
  | unscale (divisor : T)
  | addMultiple (factor : T) (source : Source T)
  | scaleAdd (factor : T) (source : Source T)

namespace InPlace

/-- The edit that makes the change. -/
def edit : InPlace T → Edit T
  | fill value => .fill value
  | map change => .map change
  | add source => .add source
  | sub source => .sub source
  | scale factor => .scale factor
  | unscale divisor => .unscale divisor
  | addMultiple factor source => .addMultiple factor source
  | scaleAdd factor source => .scaleAdd factor source

/-- The operand of the change, if it has one. -/
def operand? : InPlace T → Option (Source T)
  | fill _ | map _ | scale _ | unscale _ => none
  | add source | sub source | addMultiple _ source | scaleAdd _ source => some source

variable [Element T]

/-- What becomes of an element when the operand has another one at its index. -/
def image (other own : T) : InPlace T → T
  | fill value => value
  | map change => change own
  | add _ => own + other
  | sub _ => own - other
  | scale factor => own * factor
  | unscale divisor => own / divisor
  | addMultiple factor _ => own + factor * other
  | scaleAdd factor _ => factor * own + other

/-- The walk of the change, with a function of the element and of that of the operand for its own. -/
def walk {m : Type → Type} [Monad m] [MonadLiftT (Writing T) m] (inPlace : InPlace T)
    (target : Target) (call : T → Option T → m T) : m Unit :=
  match inPlace.operand? with
  | none => target.mapM fun own => call own none
  | some source => target.zipM (fun own other => call own (some other)) source

/-- The allocating form of the change: the tensor of the changed elements. -/
def allocated (own : Source T) : InPlace T → Except Fault (Tensor T)
  | fill value => Tensor.filled .growable own.shape value
  | map change => own.map change
  | add source => own.add source
  | sub source => own.sub source
  | scale factor => own.scale factor
  | unscale divisor => own.unscale divisor
  | addMultiple factor source => do
      let multiple ← source.scaleLeft factor
      own.add multiple.source
  | scaleAdd factor source => do
      let multiple ← own.scaleLeft factor
      multiple.source.add source

end InPlace

namespace Tensor

section Yields

variable [Stored T] {sizes : List Nat} {element other : List Nat → T} {value : Except Fault (Tensor T)}

/-- A computation forms the tensor of a function over sizes as soon as the elements are a number of
words and have room. -/
structure Yields (value : Except Fault (Tensor T)) (sizes : List Nat) (element : List Nat → T) :
    Prop where
  formed : ∀ tensor, value = .ok tensor →
    tensor.shape.sizes = sizes ∧ tensor.source.Reads element
  room : ∀ count, Size.product sizes = .ok count → Buffer.bytes T count < Buffer.bound →
    ∃ tensor, value = .ok tensor

/-- The tensor of the values of a function yields it. -/
theorem yields_tabulate {shape : Shape} {entry : List Nat → Except Fault T}
    (reads : (⟨shape, entry⟩ : Source T).Reads element) :
    Yields (tabulate .growable shape entry) shape.sizes element := by
  constructor
  case formed =>
    intro tensor built
    obtain ⟨rfl, _, values⟩ := tabulate_eq_ok built
    refine ⟨rfl, fun index inside => ?_⟩
    obtain ⟨own, found, read⟩ := values index inside
    obtain rfl := Except.ok.inj ((reads index inside).symm.trans found)
    exact read
  case room =>
    intro count size enough
    rw [tabulate_eq_ofSource]
    apply Source.exists_copy.mpr
    exact ⟨fun index inside => ⟨element index, reads index inside⟩, count, size, enough, rfl⟩

/-- The tensor of one value yields it everywhere. -/
theorem yields_filled (shape : Shape) (element : T) :
    Yields (filled .growable shape element) shape.sizes fun _ => element := by
  constructor
  case formed =>
    intro tensor built
    have full := filled_full built
    obtain ⟨count, _, _, rfl⟩ := filled_eq_ok.mp built
    refine ⟨rfl, fun index inside => ?_⟩
    obtain ⟨own, _, read⟩ := full.read_eq inside
    obtain rfl : own = element := Array.eq_of_mem_replicate (mem_of_read read)
    exact read
  case room =>
    intro count size enough
    exact ⟨_, filled_eq_ok.mpr ⟨count, size, Buffer.reserve_eq_ok.mpr enough, rfl⟩⟩

/-- The tensor of images yields the images of the elements. -/
theorem yields_map {source : Source T} (reads : source.Reads element) (change : T → T) :
    Yields (source.map change) source.shape.sizes fun index => change (element index) := by
  apply yields_tabulate
  intro index inside
  change change <$> source.read index = _
  rw [reads index inside]
  rfl

/-- The tensor of combinations yields the combinations of the elements. -/
theorem yields_zipWith {left right : Source T} (same : left.shape.sizes = right.shape.sizes)
    (leftReads : left.Reads element) (rightReads : right.Reads other) (combine : T → T → T) :
    Yields (left.zipWith combine right) left.shape.sizes fun index =>
      combine (element index) (other index) := by
  obtain ⟨shape, joined⟩ := Shape.exists_combine same
  have sizes := (Shape.sizes_of_combine joined).2
  rw [Source.zipWith, joined, ← sizes]
  apply yields_tabulate
  intro index inside
  change Inside shape.sizes index at inside
  rw [sizes] at inside
  change (left.read index >>= fun leftElement => right.read index >>= fun rightElement =>
    pure (combine leftElement rightElement)) = _
  rw [leftReads index inside, rightReads index (same ▸ inside)]
  rfl

/-- A computation that goes on from a tensor yields what it yields on all tensors of its elements. -/
theorem Yields.bind {next : Tensor T → Except Fault (Tensor T)} (first : Yields value sizes element)
    (rest : ∀ tensor, tensor.shape.sizes = sizes → tensor.source.Reads element →
      Yields (next tensor) sizes other) : Yields (value >>= next) sizes other := by
  constructor
  case formed =>
    intro result built
    obtain ⟨tensor, start, built⟩ := Checked.bind_eq_ok.mp built
    obtain ⟨own, reads⟩ := first.formed tensor start
    exact (rest tensor own reads).formed result built
  case room =>
    intro count size enough
    obtain ⟨tensor, start⟩ := first.room count size enough
    obtain ⟨own, reads⟩ := first.formed tensor start
    rw [start]
    exact (rest tensor own reads).room count size enough

end Yields

end Tensor

/-- The allocating form yields what the change makes of the elements. -/
theorem InPlace.yields_allocated [Element T] {inPlace : InPlace T} {own : Source T}
    {ownElement element : List Nat → T} (reads : own.Reads ownElement)
    (readable : ∀ source ∈ inPlace.operand?, source.shape.sizes = own.shape.sizes ∧
      source.Reads element) :
    Tensor.Yields (inPlace.allocated own) own.shape.sizes fun index =>
      inPlace.image (element index) (ownElement index) := by
  cases inPlace with
  | fill value => exact Tensor.yields_filled own.shape value
  | map change => exact Tensor.yields_map reads change
  | scale factor => exact Tensor.yields_map reads (· * factor)
  | unscale divisor => exact Tensor.yields_map reads (· / divisor)
  | add source =>
      obtain ⟨same, sourceReads⟩ := readable source rfl
      exact Tensor.yields_zipWith same.symm reads sourceReads (· + ·)
  | sub source =>
      obtain ⟨same, sourceReads⟩ := readable source rfl
      exact Tensor.yields_zipWith same.symm reads sourceReads (· - ·)
  | addMultiple factor source =>
      obtain ⟨same, sourceReads⟩ := readable source rfl
      have multiples := Tensor.yields_map sourceReads (factor * ·)
      rw [same] at multiples
      refine multiples.bind fun multiple sizes multipleReads => ?_
      exact Tensor.yields_zipWith sizes.symm reads multipleReads (· + ·)
  | scaleAdd factor source =>
      obtain ⟨same, sourceReads⟩ := readable source rfl
      refine (Tensor.yields_map reads (factor * ·)).bind fun multiple sizes multipleReads => ?_
      have sums := Tensor.yields_zipWith (sizes.trans same.symm) multipleReads sourceReads (· + ·)
      change multiple.source.shape.sizes = own.shape.sizes at sizes
      rwa [sizes] at sums

/-- Packed targets place distinct indices in distinct places. -/
theorem Target.distinct_of_packed {target : Target}
    (packed : target.mapping.layout = .rowMajor ∨ target.mapping.layout = .columnMajor) :
    target.Distinct := by
  intro first second place firstInside secondInside firstPlaced secondPlaced
  rcases target with ⟨⟨shape, layout⟩, window⟩
  change Inside shape.sizes first at firstInside
  change Inside shape.sizes second at secondInside
  rcases packed with rowMajor | columnMajor
  · obtain rfl : layout = .rowMajor := rowMajor
    obtain ⟨firstNumber, _⟩ := (Mapping.horner_eq_ok firstInside).mp firstPlaced
    obtain ⟨secondNumber, _⟩ := (Mapping.horner_eq_ok secondInside).mp secondPlaced
    exact ordinal_inj firstInside secondInside (firstNumber.trans secondNumber.symm)
  · obtain rfl : layout = .columnMajor := columnMajor
    have firstTurned : Inside shape.sizes.reverse first.reverse := List.rel_reverse firstInside
    have secondTurned : Inside shape.sizes.reverse second.reverse := List.rel_reverse secondInside
    obtain ⟨firstNumber, _⟩ := (Mapping.horner_eq_ok firstTurned).mp firstPlaced
    obtain ⟨secondNumber, _⟩ := (Mapping.horner_eq_ok secondTurned).mp secondPlaced
    have same := ordinal_inj firstTurned secondTurned (firstNumber.trans secondNumber.symm)
    exact List.reverse_injective same

section Walk

variable {target : Target} {inPlace : InPlace T} {element : List Nat → T}

/-- The edit is the walk with the function of the change. -/
theorem InPlace.apply_eq_walk [Element T] (inPlace : InPlace T) (target : Target) :
    target.apply inPlace.edit =
      inPlace.walk target fun own other => (pure (inPlace.image (other.getD own) own) : Writing T T) := by
  cases inPlace <;> rfl

variable (readable : ∀ source ∈ inPlace.operand?, source.shape.sizes = target.shape.sizes ∧
  source.Reads element)
include readable

/-- A walk with a readable operand calls its function at each index with the elements there. -/
theorem InPlace.walk_eq {m : Type → Type} [Monad m] [LawfulMonad m] [MonadLiftT (Writing T) m]
    [LawfulMonadLiftT (Writing T) m] (call : T → Option T → m T) :
    inPlace.walk target call = Index.forM target.shape.sizes fun index =>
      target.callAt index fun own => call own (inPlace.operand?.map fun _ => element index) := by
  rw [walk]
  cases operand : inPlace.operand? with
  | none => rfl
  | some source =>
      obtain ⟨sizes, reads⟩ := readable source operand
      change target.zipM (fun own other => call own (some other)) source = _
      rw [Target.zipM, if_pos ((Shape.sameSizes_iff _ _).mpr sizes.symm)]
      refine Index.foldM_congr (fun _ index inside => ?_) ()
      have read : (liftM (source.read index) : Writing T T) = pure (element index) := by
        rw [reads index (sizes ▸ inside)]
        rfl
      beta_reduce
      rw [read, liftM_pure, pure_bind]
      rfl

/-- A walk over a target with a cell for each index makes one call for each visit. -/
theorem InPlace.makes_walk {cells : Array T} {cell : List Nat → Nat}
    (addressed : target.Addressed cells.size cell) {own : List Nat → T}
    (holds : ∀ index, Inside target.shape.sizes index → cells[cell index]? = some (own index))
    {σ : Type} (call : T → Option T → StateT σ (Except Fault) T) (state : σ) :
    Writing.Makes
      ((visited target.shape.sizes).mapM fun index =>
        call (own index) (inPlace.operand?.map fun _ => element index))
      (inPlace.walk target fun own other => Writing.calling (call own other)) state cells
      (fun after => after.size = cells.size ∧ ∀ position,
        (∀ index ∈ all target.shape.sizes, cell index ≠ position) →
          after[position]? = cells[position]?)
      fun answers after => List.Forall₂ (fun index answer => after[cell index]? = some answer)
        (all target.shape.sizes) answers := by
  rw [walk_eq readable, Index.forM, foldM_eq, visited_eq]
  exact Target.makes_visits addressed
    (fun index own => call own (inPlace.operand?.map fun _ => element index)) own (all_nodup _)
    (fun index listed => mem_all.mp listed) rfl (fun index listed => holds index (mem_all.mp listed))
    state

end Walk

section Run

variable {cells : Array T} {cell : List Nat → Nat}

/-- A change in place visits each index of a target in turn. -/
theorem Target.apply_inPlace [Element T] {target : Target} {inPlace : InPlace T}
    {element : List Nat → T} (addressed : target.Addressed cells.size cell)
    (readable : ∀ source ∈ inPlace.operand?, source.shape.sizes = target.shape.sizes ∧
      source.Reads element) :
    target.apply inPlace.edit cells = .ok () ((all target.shape.sizes).foldl
      (fun cells index => cells.modify (cell index) (inPlace.image (element index))) cells) := by
  have zipped (change : T → T → T) {source : Source T} (listed : source ∈ inPlace.operand?) :=
    zip_of_located addressed.located change (readable source listed).1 (readable source listed).2
  cases inPlace with
  | fill value => exact map_of_located addressed.located fun _ => value
  | map change => exact map_of_located addressed.located change
  | scale factor => exact map_of_located addressed.located (· * factor)
  | unscale divisor => exact map_of_located addressed.located (· / divisor)
  | add source => exact zipped (· + ·) rfl
  | sub source => exact zipped (· - ·) rfl
  | addMultiple factor source => exact zipped (fun own other => own + factor * other) rfl
  | scaleAdd factor source => exact zipped (fun own other => factor * own + other) rfl

/-- A full tensor has a cell of its own for each index. -/
theorem Tensor.Full.addressed {tensor : Tensor T} (full : tensor.Full) :
    tensor.target.Addressed tensor.cells.size (ordinal 0 tensor.shape.sizes) := by
  apply Tensor.addressed_of_reads
  intro index inside
  obtain ⟨element, _, read⟩ := full.read_eq inside
  exact ⟨element, read⟩

/-- The cells of a full tensor are all filled at once as by a visit of each index. -/
theorem Tensor.Full.refill_eq {tensor : Tensor T} (full : tensor.Full) (value : T) :
    tensor.cells.map (fun _ => value) = (all tensor.shape.sizes).foldl
      (fun cells index => cells.modify (ordinal 0 tensor.shape.sizes index) fun _ => value)
      tensor.cells := by
  obtain ⟨count, _⟩ := tensor.shape.prod_of_size full
  apply Array.ext_getElem?
  intro position
  by_cases below : position < tensor.cells.size
  · obtain ⟨index, inside, rfl⟩ := exists_ordinal (count ▸ below)
    rw [Array.getElem?_map]
    exact (Target.getElem?_modify_all full.addressed (fun _ _ => value) inside).symm
  · have size := size_foldl_modify (ordinal 0 tensor.shape.sizes) (fun _ _ => value)
      (all tensor.shape.sizes) tensor.cells
    rw [Array.getElem?_eq_none (by simpa using below), Array.getElem?_eq_none (by omega)]

end Run

namespace Writable

variable {writable : Writable T}

/-- A writable value is ready when it is a full tensor, or has a cell of its own for each index. -/
def Ready : Writable T → Prop
  | ofTensor tensor => tensor.Full
  | ofBuffer target cells => ∃ cell, target.Addressed cells.size cell

/-- A buffer as long as the span of a target without coinciding places is ready. -/
theorem ready_of_span {target : Target} {cells : Array T} {length : Nat}
    (spread : target.mapping.layout ≠ .broadcast) (spanned : target.mapping.span = .ok length)
    (enough : target.window.start + length ≤ cells.size) (distinct : target.Distinct) :
    (ofBuffer target cells).Ready := by
  have located (index : List Nat) : ∃ cell, Inside target.shape.sizes index →
      target.mapping.offset index = .ok cell ∧ cell < length := by
    by_cases inside : Inside target.shape.sizes index
    · obtain ⟨place, placed, below⟩ := Mapping.offset_of_span spanned spread inside
      exact ⟨place, fun _ => ⟨placed, below⟩⟩
    · exact ⟨0, fun own => absurd own inside⟩
  choose place placed using located
  refine ⟨fun index => target.window.start + place index, ?_, ?_⟩
  · intro index inside
    obtain ⟨found, below⟩ := placed index inside
    exact Target.locate_eq_ok.mpr ⟨place index, found, rfl, by omega⟩
  · intro first second firstInside secondInside same
    have equal : place first = place second := by omega
    apply distinct first second (place first) firstInside secondInside
    · exact (placed first firstInside).1
    · rw [equal]
      exact (placed second secondInside).1

/-- A writable value with a cell for each index reads what is in the cells. -/
theorem reads_of_addressed [Element T] {cell : List Nat → Nat}
    (addressed : writable.target.Addressed writable.cells.size cell) :
    writable.operand.source.Reads fun index => writable.cells.getD (cell index) 0 := by
  intro index inside
  rw [shape_operand] at inside
  have below := addressed.cell_lt inside
  apply read_of_locate (addressed.located index inside)
  simp [Array.getD_eq_getD_getElem?, below]

/-- Cells are changed by the indices of a writable value when each index changes the cell of its own. -/
structure ChangedBy (writable : Writable T) (change : List Nat → T → T) (cell : List Nat → Nat)
    (after : Array T) : Prop where
  addressed : writable.target.Addressed writable.cells.size cell
  result : after = (all writable.target.shape.sizes).foldl
    (fun cells index => cells.modify (cell index) (change index)) writable.cells

section ChangedBy

variable {change : List Nat → T → T} {cell : List Nat → Nat} {after : Array T}

/-- Cells that keep their size and change only where the indices have theirs are confined. -/
theorem confined_of_addressed (addressed : writable.target.Addressed writable.cells.size cell)
    (size : after.size = writable.cells.size)
    (kept : ∀ position, (∀ index ∈ all writable.target.shape.sizes, cell index ≠ position) →
      after[position]? = writable.cells[position]?) :
    writable.target.Confined writable.cells after where
  size := size
  kept position apart := by
    apply kept
    rintro index listed rfl
    have inside := mem_all.mp listed
    exact apart index inside (addressed.located index inside)

/-- Where indices change their cells, no other cell is touched. -/
theorem ChangedBy.confined (changed : writable.ChangedBy change cell after) :
    writable.target.Confined writable.cells after := by
  obtain ⟨addressed, rfl⟩ := changed
  apply confined_of_addressed addressed
  · exact size_foldl_modify cell change _ _
  · exact fun position unnamed => getElem?_foldl_modify_of_ne cell change unnamed _

/-- A writable value finds in the cell of an index the element that it reads there. -/
theorem getElem?_of_reads [Element T] {own : List Nat → T}
    (addressed : writable.target.Addressed writable.cells.size cell)
    (reads : writable.operand.source.Reads own) {index : List Nat}
    (inside : Inside writable.target.shape.sizes index) :
    writable.cells[cell index]? = some (own index) := by
  have located := addressed.located index inside
  have below := addressed.cell_lt inside
  have held := read_of_locate located (Array.getElem?_eq_getElem below)
  rw [reads index (by rwa [shape_operand])] at held
  rw [Array.getElem?_eq_getElem below, Except.ok.inj held]

/-- Where indices change their cells, each element is the image of the one that was there. -/
theorem ChangedBy.reads [Element T] (changed : writable.ChangedBy change cell after)
    {own : List Nat → T} (reads : writable.operand.source.Reads own) :
    (writable.withCells after).operand.source.Reads fun index => change index (own index) := by
  intro index inside
  rw [shape_operand, target_withCells] at inside
  have there := getElem?_of_reads changed.addressed reads inside
  apply read_of_locate
  · rw [target_withCells, cells_withCells, changed.confined.size]
    exact changed.addressed.located index inside
  · rw [cells_withCells, changed.result, Target.getElem?_modify_all changed.addressed change inside,
      there]
    rfl

end ChangedBy

/-- An action that succeeds on the cells of a writable value changes its cells. -/
theorem writing_of_ok {α : Type} {action : Target → Writing T α} {result : α} {after : Array T}
    (run : action writable.target writable.cells = .ok result after) :
    writing action writable = .ok result (writable.withCells after) := by
  rw [writing, run]

/-- A change in place of a value that is ready changes the cells of its indices. -/
theorem apply_inPlace [Element T] {inPlace : InPlace T} {element : List Nat → T}
    (ready : writable.Ready)
    (readable : ∀ source ∈ inPlace.operand?,
      source.shape.sizes = writable.target.shape.sizes ∧ source.Reads element) :
    ∃ after cell, apply inPlace.edit writable = .ok () (writable.withCells after) ∧
      writable.target.apply inPlace.edit writable.cells = .ok () after ∧
      writable.ChangedBy (fun index => inPlace.image (element index)) cell after := by
  have walked {cell : List Nat → Nat}
      (addressed : writable.target.Addressed writable.cells.size cell) :=
    Target.apply_inPlace addressed readable
  cases writable with
  | ofBuffer target cells =>
      obtain ⟨cell, addressed⟩ := ready
      have run := walked addressed
      refine ⟨_, cell, ?_, run, addressed, rfl⟩
      have written : writing (·.apply inPlace.edit) (ofBuffer target cells) = _ := writing_of_ok run
      cases inPlace <;> exact written
  | ofTensor tensor =>
      have full : tensor.Full := ready
      have run := walked full.addressed
      refine ⟨_, _, ?_, run, full.addressed, rfl⟩
      have written : writing (·.apply inPlace.edit) (ofTensor tensor) = _ := writing_of_ok run
      cases inPlace with
      | fill value =>
          change EStateM.Result.ok () (ofTensor (tensor.withCells (tensor.cells.map fun _ => value))) = _
          rw [full.refill_eq value]
          rfl
      | _ => exact written

/-- A change in place calls its function once for each element: it is a walk, which makes one call for each
visit whatever the function is and remembers. -/
structure CallsOnce [Element T] (writable : Writable T) (inPlace : InPlace T)
    (own element : List Nat → T) (after : Array T) : Prop where
  walked : inPlace.walk writable.target
    (fun own other => (pure (inPlace.image (other.getD own) own) : Writing T T)) writable.cells =
      .ok () after
  called : ∀ (σ : Type) (call : T → Option T → StateT σ (Except Fault) T) (state : σ),
    Writing.Makes
      ((visited writable.target.shape.sizes).mapM fun index =>
        call (own index) (inPlace.operand?.map fun _ => element index))
      (inPlace.walk writable.target fun own other => Writing.calling (call own other)) state
      writable.cells (writable.target.Confined writable.cells)
      fun answers after =>
        (writable.withCells after).operand.source.elements = .ok answers.toArray

/-- A change in place that succeeds calls its function once for each element. -/
theorem callsOnce [Element T] {inPlace : InPlace T} {own element : List Nat → T} {after : Array T}
    {cell : List Nat → Nat} (addressed : writable.target.Addressed writable.cells.size cell)
    (reads : writable.operand.source.Reads own)
    (readable : ∀ source ∈ inPlace.operand?,
      source.shape.sizes = writable.target.shape.sizes ∧ source.Reads element)
    (run : writable.target.apply inPlace.edit writable.cells = .ok () after) :
    writable.CallsOnce inPlace own element after where
  walked := by rwa [← inPlace.apply_eq_walk]
  called σ call state := by
    have makes := inPlace.makes_walk readable addressed
      (fun index inside => getElem?_of_reads addressed reads inside) call state
    refine makes.imp (fun after left => confined_of_addressed addressed left.1 left.2) ?_
    intro answers after left stored
    apply Source.elements_eq_ok.mpr
    rw [shape_operand, target_withCells, List.toList_toArray]
    have listed : ∀ index ∈ all writable.target.shape.sizes,
        Inside writable.target.shape.sizes index := fun _ => mem_all.mp
    refine ((List.forall₂_and_left _ _).mpr ⟨listed, stored⟩).imp ?_
    rintro index answer ⟨inside, found⟩
    apply read_of_locate
    · rw [target_withCells, cells_withCells, left.1]
      exact addressed.located index inside
    · rwa [cells_withCells]

/-- A change in place leaves the elements of its allocating form, calls its function once for each and
touches no other cell. -/
theorem inPlace_exact [Element T] {inPlace : InPlace T} {element : List Nat → T}
    (ready : writable.Ready)
    (readable : ∀ source ∈ inPlace.operand?,
      source.shape.sizes = writable.target.shape.sizes ∧ source.Reads element) :
    ∃ after, apply inPlace.edit writable = .ok () (writable.withCells after) ∧
      (∃ own, writable.operand.source.Reads own ∧ writable.CallsOnce inPlace own element after) ∧
      writable.target.Confined writable.cells after ∧
      (∀ tensor, inPlace.allocated writable.operand.source = .ok tensor →
        tensor.shape.sizes = writable.target.shape.sizes ∧
        ∀ index, Inside writable.target.shape.sizes index → ∃ value, tensor.read index = .ok value ∧
          (writable.withCells after).operand.source.read index = .ok value) ∧
      ∀ count, writable.target.shape.size = .ok count → Buffer.bytes T count < Buffer.bound →
        ∃ tensor, inPlace.allocated writable.operand.source = .ok tensor := by
  obtain ⟨after, cell, applied, run, changed⟩ := apply_inPlace ready readable
  have own := reads_of_addressed changed.addressed
  have becomes := changed.reads own
  have shape : writable.operand.source.shape = writable.target.shape := shape_operand
  have yields := InPlace.yields_allocated own (shape ▸ readable)
  rw [shape] at yields
  refine ⟨after, applied, ⟨_, own, callsOnce changed.addressed own readable run⟩, changed.confined,
    fun tensor built => ?_, yields.room⟩
  obtain ⟨sizes, reads⟩ := yields.formed tensor built
  refine ⟨sizes, fun index inside => ⟨_, reads index ?_, becomes index ?_⟩⟩
  · change Inside tensor.shape.sizes index
    rwa [sizes]
  · rwa [shape_operand, target_withCells]

open scoped Integer in
/-- Twice an operand in rows is added to four integers in columns, and a function in place of the sum
counts four calls. -/
theorem inPlace_exact_columns :
    let target : Target := ⟨⟨⟨[.free 2, .fixed 2]⟩, .columnMajor⟩, ⟨1⟩⟩
    let writable : Writable Int := .ofBuffer target #[9, 1, 2, 3, 4, 9]
    let source : Source Int := (Tensor.ofLiteral [2, 2] #[10, 20, 30, 40]).source
    let counting (own : Int) (other : Option Int) : StateT Nat (Except Fault) Int := do
      modify (· + 1)
      return own - other.getD 0
    ∃ after, apply (InPlace.addMultiple 2 source).edit writable = .ok () (writable.withCells after) ∧
      after[0]? = some 9 ∧ (writable.withCells after).operand.source.read [0, 1] = .ok 43 ∧
      ∃ last, (InPlace.addMultiple 2 source).walk target
        (fun own other => Writing.calling (counting own other)) 0 writable.cells = .ok ((), 4) last := by
  intro target writable source counting
  have ready : writable.Ready := by
    apply ready_of_span (by simp [target]) (show target.mapping.span = .ok 4 from rfl) (by decide)
    exact Target.distinct_of_packed (.inr rfl)
  have full : (Tensor.ofLiteral [2, 2] #[10, 20, 30, 40] : Tensor Int).Full := rfl
  have readable : ∀ other ∈ (InPlace.addMultiple 2 source).operand?,
      other.shape.sizes = writable.target.shape.sizes ∧
        other.Reads fun index => #[10, 20, 30, 40].getD (ordinal 0 [2, 2] index) 0 := by
    rintro _ ⟨⟩
    exact ⟨rfl, full.reads⟩
  obtain ⟨after, run, ⟨_, _, once⟩, confined, agree, _⟩ := inPlace_exact ready readable
  refine ⟨after, run, ?_, ?_, ?_⟩
  · apply confined.kept 0
    intro index _ located
    obtain ⟨place, _, start, _⟩ := Target.locate_eq_ok.mp located
    change 1 + place = 0 at start
    omega
  · have inside : Inside [2, 2] [0, 1] := inside_pair.mpr ⟨0, by decide, 1, by decide, rfl⟩
    have allocated : (InPlace.addMultiple 2 source).allocated writable.operand.source =
        .ok (⟨⟨[.fixed 2, .fixed 2]⟩, .growable, #[21, 43, 62, 84]⟩ : Tensor Int) := rfl
    obtain ⟨value, read, left⟩ := (agree _ allocated).2 [0, 1] inside
    obtain rfl : (43 : Int) = value := Except.ok.inj read
    exact left
  · obtain ⟨last, walked, _⟩ := (once.called Nat counting 0).returned _ 4 rfl
    exact ⟨last, walked⟩

end Writable

end ShapedTensor

import Mathlib.Logic.Relation
import ShapedTensor.Proofs.Element.Integer
import ShapedTensor.Proofs.Shape.Algebra
import ShapedTensor.Proofs.Target.Frame
import ShapedTensor.Tensor.Nested

namespace ShapedTensor

open Index

variable {T : Type}

namespace Tensor

section Ways

variable [Element T]

/-- The tensors of a storage and a pattern, in all the ways in which they are built. -/
inductive Built : StorageKind → Pattern → Tensor T → Prop where
  | filled {kind : StorageKind} {shape : Shape} {value : T} {tensor : Tensor T}
      (built : filled kind shape value = .ok tensor) : Built kind shape.pattern tensor
  | ofCells {kind : StorageKind} {shape : Shape} {cells : Array T} {tensor : Tensor T}
      (built : ofCells kind shape cells = .ok tensor) : Built kind shape.pattern tensor
  | tabulate {kind : StorageKind} {shape : Shape} {entry : List Nat → Except Fault T}
      {tensor : Tensor T} (built : tabulate kind shape entry = .ok tensor) :
      Built kind shape.pattern tensor
  | ofSource {kind : StorageKind} {pattern : Pattern} {source : Source T} {tensor : Tensor T}
      (built : ofSource kind pattern source = .ok tensor) : Built kind pattern tensor
  | ofNested {kind : StorageKind} {pattern : Pattern} {depth : Nat} {list : Nested T depth}
      {tensor : Tensor T} (built : ofNested kind pattern depth list = .ok tensor) :
      Built kind pattern tensor
  | default {kind : StorageKind} {pattern : Pattern} {tensor : Tensor T}
      (built : zeros kind (.ofPattern pattern) = .ok tensor) : Built kind pattern tensor
  | vector {cells : Array T} (word : cells.size < Size.bound) :
      Built (.inline cells.size) [some cells.size] (ofLiteral [cells.size] cells)
  | matrix {rows columns : Nat} {cells : Array T} (count : cells.size = rows * columns)
      (rowsWord : rows < Size.bound) (word : cells.size < Size.bound) :
      Built (.inline cells.size) [some rows, some columns] (ofLiteral [rows, columns] cells)

/-- The tensor that an action leaves, whether it succeeds or not. -/
def left {α : Type} (action : EStateM Fault (Tensor T) α) (tensor : Tensor T) : Tensor T :=
  match action tensor with
  | .ok _ next => next
  | .error _ next => next

/-- One use of a tensor, in which another shape has the pattern of the tensor. -/
inductive Use : Tensor T → Tensor T → Prop where
  | edit {tensor : Tensor T} (edit : Edit T) : Use tensor (left (apply (.within edit)) tensor)
  | assignCell {tensor : Tensor T} (position : Nat) (value : T) :
      Use tensor (left (apply (.assignCell position value)) tensor)
  | refill {tensor : Tensor T} (value : T) : Use tensor (left (apply (.refill value)) tensor)
  | resize {tensor : Tensor T} {shape : Shape} (value : T)
      (patterned : shape.pattern = tensor.shape.pattern) :
      Use tensor (left (apply (.resize shape value)) tensor)
  | map {tensor next : Tensor T} {change : T → T} (mapped : tensor.map change = .ok next) :
      Use tensor next
  | contractAdjacent {tensor : Tensor T} (update : T → T → T → T) (count : Nat)
      (first second : Source T) :
      Use tensor (left (writing (first.contractAdjacentInto update count second)) tensor)
  | zeroMatVec {tensor : Tensor T} (accumulation : Accumulation T) :
      Use tensor (left (writing (ZeroTensor.matVec accumulation)) tensor)

end Ways

/-- What holds of a tensor of a storage and a pattern. -/
structure Intact (kind : StorageKind) (pattern : Pattern) (tensor : Tensor T) : Prop where
  full : tensor.Full
  stored : tensor.storage.kind = kind
  room : kind.check tensor.cells.size = .ok ()
  patterned : tensor.shape.pattern = pattern

variable {kind : StorageKind} {pattern : Pattern} {tensor next : Tensor T}

/-- Room for elements is room for as many cells. -/
theorem check_of_reserve [Stored T] {count : Nat} (reserved : kind.reserve T count = .ok ()) :
    kind.check count = .ok () := by
  cases kind with
  | growable => rfl
  | inline own => exact reserved

/-- A filled tensor is intact. -/
theorem intact_filled [Stored T] {shape : Shape} {value : T}
    (built : filled kind shape value = .ok tensor) : tensor.Intact kind shape.pattern := by
  have full := filled_full built
  obtain ⟨count, _, reserved, rfl⟩ := filled_eq_ok.mp built
  refine ⟨full, rfl, ?_, rfl⟩
  change kind.check (Array.replicate count value).size = _
  rw [Array.size_replicate]
  exact check_of_reserve reserved

/-- A tensor of given cells is intact. -/
theorem intact_ofCells {shape : Shape} {cells : Array T}
    (built : ofCells kind shape cells = .ok tensor) : tensor.Intact kind shape.pattern := by
  obtain ⟨size, room, rfl⟩ := ofCells_eq_ok.mp built
  exact ⟨size, rfl, room, rfl⟩

/-- The copy of a source is intact. -/
theorem intact_ofSource [Stored T] {source : Source T}
    (built : ofSource kind pattern source = .ok tensor) : tensor.Intact kind pattern := by
  obtain ⟨_, full, _⟩ := ofSource_reads built
  obtain ⟨shape, _, _, converted, _, _, _, room, rfl⟩ := ofSource_eq_ok_convert.mp built
  exact ⟨full, rfl, room, (Shape.ofSizes_eq_ok.mp converted).2⟩

/-- A literal is intact when the product of its sizes is a word at every step. -/
theorem intact_ofLiteral {sizes : List Nat} {cells : Array T}
    (size : Size.product sizes = .ok cells.size) :
    (ofLiteral sizes cells).Intact (.inline cells.size) (sizes.map some) := by
  refine ⟨?_, rfl, if_pos rfl, ?_⟩
  · change Size.product (List.map Axis.size (sizes.map Axis.fixed)) = .ok cells.size
    rw [List.map_map]
    exact (congrArg Size.product (List.map_id sizes)).trans size
  · change List.map Axis.fixedSize? (sizes.map Axis.fixed) = _
    rw [List.map_map]
    rfl

/-- Every tensor is intact when it is built. -/
theorem Built.intact [Element T] (built : tensor.Built kind pattern) : tensor.Intact kind pattern := by
  induction built with
  | filled built => exact intact_filled built
  | ofCells built => exact intact_ofCells built
  | tabulate built =>
      rw [tabulate_eq_ofSource] at built
      exact intact_ofSource built
  | ofSource built => exact intact_ofSource built
  | ofNested built =>
      obtain ⟨_, built⟩ := Checked.ite_eq_ok.mp built
      obtain ⟨sizes, _, built⟩ := Checked.bind_eq_ok.mp built
      obtain ⟨count, _, built⟩ := Checked.bind_eq_ok.mp built
      obtain ⟨_, built⟩ := Checked.check_eq_ok.mp built
      obtain ⟨cells, _, built⟩ := Checked.bind_eq_ok.mp built
      obtain ⟨shape, shaped, held⟩ := Checked.bind_eq_ok.mp built
      obtain ⟨_, rfl⟩ := Shape.ofSizes_eq_ok.mp shaped
      exact intact_ofCells held
  | @default _ pattern _ built => exact Shape.pattern_fillFree pattern [] ▸ intact_filled built
  | @vector cells word =>
      have product : Size.product [cells.size] = .ok cells.size :=
        Checked.bind_eq_ok.mpr ⟨_, Size.mul_eq_ok.mpr ⟨Nat.one_mul _, word⟩, rfl⟩
      exact intact_ofLiteral product
  | @matrix rows columns cells count rowsWord word =>
      have first : Size.mul 1 rows = .ok rows := Size.mul_eq_ok.mpr ⟨Nat.one_mul rows, rowsWord⟩
      have second : Size.mul rows columns = .ok cells.size := Size.mul_eq_ok.mpr ⟨count.symm, word⟩
      have product : Size.product [rows, columns] = .ok cells.size :=
        Checked.bind_eq_ok.mpr ⟨rows, first, Checked.bind_eq_ok.mpr ⟨_, second, rfl⟩⟩
      exact intact_ofLiteral product

/-- Other cells of the same number leave a tensor intact. -/
theorem Intact.withCells (intact : tensor.Intact kind pattern) {cells : Array T}
    (size : cells.size = tensor.cells.size) : (tensor.withCells cells).Intact kind pattern := by
  refine ⟨?_, intact.stored, ?_, intact.patterned⟩
  · change tensor.shape.size = .ok cells.size
    rw [size]
    exact intact.full
  · change kind.check cells.size = .ok ()
    rw [size]
    exact intact.room

/-- The relation of buffers with the same number of cells. -/
def SameSize (before after : Array T) : Prop := after.size = before.size

theorem sameSize_chained : Writing.Chained (T := T) SameSize where
  refl _ := rfl
  trans _ _ _ start rest := rest.trans start

theorem sameSize_allows (target : Target) (index : List Nat) : target.Allows (T := T) SameSize index :=
  fun _ _ _ _ => Array.size_modify

/-- An action that keeps the number of cells leaves a tensor intact. -/
theorem Intact.writing {α : Type} (intact : tensor.Intact kind pattern)
    (action : Target → Writing T α) (sized : Writing.Moves SameSize (action tensor.target)) :
    (left (writing action) tensor).Intact kind pattern := by
  have kept : (Writing.left (action tensor.target) tensor.cells).size = tensor.cells.size :=
    sized tensor.cells
  have outcome : left (Tensor.writing action) tensor =
      tensor.withCells (Writing.left (action tensor.target) tensor.cells) := by
    rw [left, Tensor.writing, Writing.left]
    cases action tensor.target tensor.cells <;> rfl
  rw [outcome]
  exact intact.withCells kept

/-- Another shape of the same pattern leaves a tensor intact. -/
theorem Intact.resize [Stored T] (intact : tensor.Intact kind pattern) {shape : Shape} {value : T}
    (patterned : shape.pattern = pattern) (resized : tensor.resize shape value = .ok next) :
    next.Intact kind pattern := by
  obtain ⟨count, size, resized⟩ := Checked.bind_eq_ok.mp resized
  obtain ⟨storage, stored, resized⟩ := Checked.bind_eq_ok.mp resized
  obtain ⟨reserved, stored⟩ := Checked.check_eq_ok.mp stored
  obtain rfl := Except.ok.inj stored
  obtain rfl := Except.ok.inj resized
  have sized := Storage.size_resized tensor.storage.cells count value
  refine ⟨?_, intact.stored, ?_, patterned⟩
  · change shape.size = .ok (Storage.resized tensor.storage.cells count value).size
    rw [sized, size]
  · change kind.check (Storage.resized tensor.storage.cells count value).size = .ok ()
    rw [sized, ← intact.stored]
    exact check_of_reserve reserved

/-- A replacement that is computed first leaves the tensor as it is when that fails. -/
theorem Intact.replace {α : Type} (intact : tensor.Intact kind pattern)
    (value : Tensor T → Except Fault α) (replaced : Tensor T → α → Tensor T)
    (kept : ∀ result, value tensor = .ok result → (replaced tensor result).Intact kind pattern) :
    (left (do
      let tensor ← get
      let result ← value tensor
      set (replaced tensor result) : EStateM Fault (Tensor T) Unit) tensor).Intact kind pattern := by
  change (left (EStateM.bind (liftM (value tensor)) fun result => set (replaced tensor result))
    tensor).Intact kind pattern
  rw [left, EStateM.bind]
  cases found : value tensor with
  | ok result => exact kept result found
  | error fault => exact intact

/-- Every use leaves a tensor intact. -/
theorem Intact.use [Element T] (intact : tensor.Intact kind pattern) (use : Use tensor next) :
    next.Intact kind pattern := by
  have allows (target : Target) (index : List Nat) : target.Allows (T := T) SameSize index :=
    sameSize_allows target index
  cases use with
  | edit edit =>
      apply intact.writing (·.apply edit)
      exact Target.moves_apply sameSize_chained edit fun index _ => allows _ index
  | assignCell position value =>
      refine intact.replace (fun tensor => tensor.storage.set position value)
        (fun tensor storage => { tensor with storage }) fun storage stored => ?_
      obtain ⟨_, stored⟩ := Checked.ite_eq_ok.mp stored
      obtain rfl := Except.ok.inj stored
      exact intact.withCells Array.size_setIfInBounds
  | refill value => exact intact.withCells Array.size_map
  | @resize shape value patterned =>
      exact intact.replace (fun tensor => tensor.resize shape value) (fun _ resized => resized)
        fun _ resized => intact.resize (patterned.trans intact.patterned) resized
  | @map _ change mapped =>
      obtain ⟨cells, run, rfl⟩ := written_eq_ok.mp mapped
      have sized : SameSize tensor.cells (Writing.left (tensor.target.map change) tensor.cells) :=
        Target.moves_map sameSize_chained (fun index _ => allows _ index) change tensor.cells
      rw [Writing.left_of_ok run] at sized
      exact intact.withCells sized
  | contractAdjacent update count first second =>
      apply intact.writing (first.contractAdjacentInto update count second)
      refine sameSize_chained.bind (sameSize_chained.lift _) fun axes => ?_
      exact Target.moves_contractInto sameSize_chained (fun index _ => allows _ index) update first
        second axes.1 axes.2
  | zeroMatVec accumulation =>
      apply intact.writing (ZeroTensor.matVec accumulation)
      cases accumulation with
      | overwrite => exact Target.moves_map sameSize_chained (fun index _ => allows _ index) _
      | add => exact sameSize_chained.lift (.ok ())
      | subtract => exact sameSize_chained.lift (.ok ())
      | addMultiple factor => exact sameSize_chained.lift (.ok ())

/-- All uses together leave a tensor intact. -/
theorem Intact.uses [Element T] {start : Tensor T} (intact : start.Intact kind pattern)
    (uses : Relation.ReflTransGen Use start tensor) : tensor.Intact kind pattern := by
  induction uses with
  | refl => exact intact
  | tail _ use ih => exact ih.use use

/-- However a tensor is built and used, it has the cells and the sizes that its shape promises and reads
every index. -/
theorem sound_of_history [Element T] {start : Tensor T} (built : start.Built kind pattern)
    (uses : Relation.ReflTransGen Use start tensor) :
    tensor.cells.size = tensor.shape.sizes.prod ∧ tensor.mapping.span = .ok tensor.cells.size ∧
    tensor.storage.kind = kind ∧ kind.check tensor.cells.size = .ok () ∧
    tensor.shape.pattern = pattern ∧
    (∀ (axis size : Nat), pattern[axis]? = some (some size) →
      tensor.shape.sizes[axis]? = some size) ∧
    ∀ index, Inside tensor.shape.sizes index → ∃ element, tensor.read index = .ok element := by
  obtain ⟨full, stored, room, patterned⟩ := built.intact.uses uses
  refine ⟨?_, full, stored, room, patterned, fun axis size fixed => ?_, fun index inside => ?_⟩
  · rw [← (Size.prod_of_product (by decide) full).1, Nat.one_mul]
  · rw [← patterned] at fixed
    exact Shape.sizes_of_pattern fixed
  · obtain ⟨element, _, read⟩ := full.read_eq inside
    exact ⟨element, read⟩

open scoped Integer in
/-- A tensor of two rows is widened by a column and added to a source that refuses its last element. -/
theorem sound_of_history_widened :
    let start : Tensor Int := ⟨⟨[.fixed 2, .free 2]⟩, .growable, #[1, 2, 3, 4]⟩
    let after : Tensor Int := ⟨⟨[.fixed 2, .free 3]⟩, .growable, #[11, 12, 13, 14, 10, 0]⟩
    start.Built .growable [some 2, none] ∧ Relation.ReflTransGen Use start after ∧
      after.mapping.span = .ok after.cells.size ∧ after.shape.sizes[0]? = some 2 ∧
      ∃ element, after.read [1, 2] = .ok element := by
  let start : Tensor Int := ⟨⟨[.fixed 2, .free 2]⟩, .growable, #[1, 2, 3, 4]⟩
  let widened : Tensor Int := ⟨⟨[.fixed 2, .free 3]⟩, .growable, #[1, 2, 3, 4, 0, 0]⟩
  let after : Tensor Int := ⟨⟨[.fixed 2, .free 3]⟩, .growable, #[11, 12, 13, 14, 10, 0]⟩
  let refusing : Source Int := ⟨.ofFree [2, 3], fun index =>
    if index = [1, 2] then .error (.sequenceExhausted 5) else .ok 10⟩
  have built : start.Built .growable [some 2, none] :=
    .ofCells (show ofCells .growable ⟨[.fixed 2, .free 2]⟩ #[1, 2, 3, 4] = .ok start from rfl)
  have widens : left (apply (.resize ⟨[.fixed 2, .free 3]⟩ 0)) start = widened := rfl
  have adds : left (apply (.within (.add refusing))) widened = after := rfl
  have first : Use start widened := widens ▸ Use.resize 0 rfl
  have second : Use widened after := adds ▸ Use.edit (.add refusing)
  have uses : Relation.ReflTransGen Use start after := .tail (.single first) second
  obtain ⟨_, span, _, _, _, fixed, reads⟩ := sound_of_history built uses
  exact ⟨built, uses, span, fixed 0 2 rfl, reads [1, 2] (by decide)⟩

end Tensor

end ShapedTensor

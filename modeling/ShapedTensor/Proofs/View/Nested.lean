import ShapedTensor.Operand
import ShapedTensor.Proofs.Layout.Offset
import ShapedTensor.Proofs.Target.Addressed
import ShapedTensor.Proofs.Target.Frame
import ShapedTensor.Proofs.View.Slice

namespace ShapedTensor

open Index

/-- A mapping goes on behind the beginning of an index, some cells later: a whole index lies as many
cells behind the rest of it, as far as words go. -/
structure Mapping.Behind (next mapping : Mapping) (path : List Nat) (distance : Nat) : Prop where
  axes : next.shape.axes = mapping.shape.axes.drop path.length
  inside : ∀ index, Inside next.shape.sizes index ↔ Inside mapping.shape.sizes (path ++ index)
  offset : ∀ index place, Inside next.shape.sizes index →
    (mapping.offset (path ++ index) = .ok place ↔
      ∃ inner, next.offset index = .ok inner ∧ distance + inner = place ∧ place < Size.bound)

namespace Mapping

theorem behind_nil (mapping : Mapping) : mapping.Behind mapping [] 0 := by
  refine ⟨rfl, fun index => Iff.rfl, fun index place inside => ?_⟩
  constructor
  · intro found
    exact ⟨place, found, Nat.zero_add place, ((offset_eq_ok inside).mp found).2⟩
  · rintro ⟨inner, found, rfl, _⟩
    rwa [Nat.zero_add]

/-- The mapping of a slice goes on behind the position of the slice. -/
theorem behind_tail {mapping rest : Mapping} {size position stride : Nat}
    (sized : mapping.shape.sizeAt 0 = .ok size) (below : position < size)
    (found : mapping.stride 0 = .ok stride) (cut : mapping.tail = .ok rest) :
    rest.Behind mapping [position] (stride * position) where
  axes := congrArg Shape.axes (tail_eq_ok cut).1
  inside _ := (inside_cons sized below cut).symm
  offset _ _ inside := offset_cons_eq_ok found cut ((inside_cons sized below cut).mpr inside)

/-- A mapping that goes on behind a mapping that goes on goes on behind both beginnings. -/
theorem Behind.trans {first next last : Mapping} {front rest : List Nat} {start distance : Nat}
    (outer : next.Behind first front start) (inner : last.Behind next rest distance) :
    last.Behind first (front ++ rest) (start + distance) := by
  refine ⟨?_, fun index => ?_, fun index place inside => ?_⟩
  · rw [inner.axes, outer.axes, List.drop_drop, List.length_append]
  · rw [inner.inside, outer.inside, List.append_assoc]
  · rw [List.append_assoc, outer.offset _ _ ((inner.inside index).mp inside)]
    simp only [inner.offset _ _ inside]
    constructor
    · rintro ⟨_, ⟨own, found, rfl, _⟩, rfl, word⟩
      exact ⟨own, found, Nat.add_assoc .., word⟩
    · rintro ⟨own, found, rfl, word⟩
      exact ⟨distance + own, ⟨own, found, rfl, by omega⟩, (Nat.add_assoc ..).symm, word⟩

end Mapping

namespace View

variable {T : Type} [Element T] {view next : View T} {path : List Nat}

/-- A view goes on behind the beginning of an index when its mapping does and it reads at each place
what the whole view reads the distance later. -/
structure Behind (next view : View T) (path : List Nat) (distance : Nat) : Prop where
  mapping : next.mapping.Behind view.mapping path distance
  read : ∀ place element, next.accessor.read next.handle place = .ok element ↔
    view.accessor.read view.handle (distance + place) = .ok element

/-- A slice goes on behind its position. -/
theorem behind_slice {position : Nat} (cut : view.slice position = .ok next) :
    ∃ distance, next.Behind view [position] distance := by
  obtain ⟨_, handle, rest, ⟨size, sized, below⟩, ⟨stride, found, product⟩, advanced, tail, rfl⟩ :=
    slice_eq_ok_advance.mp cut
  obtain ⟨rfl, _⟩ := Size.mul_eq_ok.mp product
  exact ⟨_, Mapping.behind_tail sized below found tail, Accessor.read_advance advanced⟩

/-- Slices of slices go on behind all their positions. -/
theorem behind_walk (walked : view.walk (path.map .slice) = .ok next) :
    ∃ distance, next.Behind view path distance := by
  induction path generalizing view with
  | nil =>
      obtain rfl := Except.ok.inj walked
      refine ⟨0, view.mapping.behind_nil, fun place element => ?_⟩
      rw [Nat.zero_add]
  | cons position path ih =>
      rw [List.map_cons, walk, List.foldlM_cons] at walked
      obtain ⟨middle, cut, walked⟩ := Checked.bind_eq_ok.mp walked
      obtain ⟨start, outer⟩ := behind_slice cut
      obtain ⟨distance, inner⟩ := ih walked
      refine ⟨start + distance, outer.mapping.trans inner.mapping, fun place element => ?_⟩
      rw [inner.read, outer.read, Nat.add_assoc]

/-- At an index whose whole has a place, the elements that are read are those of the whole index. -/
theorem Behind.read_eq_ok {distance : Nat} (behind : next.Behind view path distance)
    {index : List Nat} {place : Nat} (inside : Inside next.shape.sizes index)
    (placed : view.mapping.offset (path ++ index) = .ok place) (element : T) :
    next.read index = .ok element ↔ view.read (path ++ index) = .ok element := by
  obtain ⟨inner, found, rfl, _⟩ := (behind.mapping.offset index place inside).mp placed
  have front : view.read (path ++ index) = view.accessor.read view.handle (distance + inner) := by
    rw [View.read, placed]
    rfl
  have rest : next.read index = next.accessor.read next.handle inner := by
    rw [View.read, found]
    rfl
  rw [front, rest]
  exact behind.read inner element

/-- What is read at a whole index is read behind its beginning. -/
theorem Behind.read_of_read {distance : Nat} (behind : next.Behind view path distance)
    {index : List Nat} (inside : Inside next.shape.sizes index) {element : T}
    (read : view.read (path ++ index) = .ok element) : next.read index = .ok element := by
  obtain ⟨place, placed, _⟩ := Checked.bind_eq_ok.mp read
  exact (behind.read_eq_ok inside placed element).mpr read

end View

namespace Target

variable {T : Type} {target next : Target} {path : List Nat}

/-- A target goes on behind the beginning of an index when its mapping does and its window starts the
distance later. -/
structure Behind (next target : Target) (path : List Nat) (distance : Nat) : Prop where
  mapping : next.mapping.Behind target.mapping path distance
  start : next.window.start = target.window.start + distance

/-- A slice goes on behind its position. -/
theorem behind_slice {size position : Nat} (cut : target.slice size position = .ok next) :
    ∃ distance, next.Behind target [position] distance := by
  obtain ⟨rest, _, parted, rfl⟩ := slice_eq_ok.mp cut
  rcases parted.inside with ⟨size, sized, below⟩
  rcases parted.apart with ⟨stride, found, product⟩
  obtain ⟨rfl, _⟩ := Size.mul_eq_ok.mp product
  exact ⟨_, Mapping.behind_tail sized below found parted.tail, rfl⟩

/-- Slices of slices go on behind all their positions. -/
theorem behind_slices {size : Nat}
    (reached : path.foldlM (fun target position => target.slice size position) target = .ok next) :
    ∃ distance, next.Behind target path distance := by
  induction path generalizing target with
  | nil =>
      obtain rfl := Except.ok.inj reached
      exact ⟨0, target.mapping.behind_nil, rfl⟩
  | cons position path ih =>
      rw [List.foldlM_cons] at reached
      obtain ⟨middle, cut, reached⟩ := Checked.bind_eq_ok.mp reached
      obtain ⟨start, outer⟩ := behind_slice cut
      obtain ⟨distance, inner⟩ := ih reached
      refine ⟨start + distance, outer.mapping.trans inner.mapping, ?_⟩
      rw [inner.start, outer.start, Nat.add_assoc]

/-- An index is located when it has a place and the buffer has the cell there. -/
theorem locate_eq_ok {size : Nat} {index : List Nat} {cell : Nat} :
    target.locate size index = .ok cell ↔ ∃ place, target.mapping.offset index = .ok place ∧
      target.window.start + place = cell ∧ cell < size := by
  rw [locate, Checked.bind_eq_ok]
  simp only [Window.cell_eq_ok]

/-- The indices of a target have distinct places. -/
def Distinct (target : Target) : Prop :=
  ∀ first second place, Inside target.shape.sizes first → Inside target.shape.sizes second →
    target.mapping.offset first = .ok place → target.mapping.offset second = .ok place → first = second

section Behind

variable {distance : Nat} (behind : next.Behind target path distance)
include behind

/-- At an index whose whole has a place, the cell is that of the whole index. -/
theorem Behind.locate_eq_ok {size cell place : Nat} {index : List Nat}
    (inside : Inside next.shape.sizes index)
    (placed : target.mapping.offset (path ++ index) = .ok place) :
    next.locate size index = .ok cell ↔ target.locate size (path ++ index) = .ok cell := by
  obtain ⟨inner, found, rfl, _⟩ := (behind.mapping.offset index place inside).mp placed
  rw [Target.locate_eq_ok, Target.locate_eq_ok]
  simp only [found, placed, Except.ok.injEq, exists_eq_left', behind.start, Nat.add_assoc]

/-- Where places are distinct, no other index of the whole target has the cell of an index. -/
theorem Behind.prefix_of_locate (distinct : target.Distinct) {size cell : Nat}
    {index other : List Nat} (inside : Inside next.shape.sizes index)
    (otherInside : Inside target.shape.sizes other) (located : next.locate size index = .ok cell)
    (otherLocated : target.locate size other = .ok cell) : path <+: other := by
  obtain ⟨inner, found, rfl, _⟩ := Target.locate_eq_ok.mp located
  obtain ⟨place, placed, same, _⟩ := Target.locate_eq_ok.mp otherLocated
  have word := ((Mapping.offset_eq_ok otherInside).mp placed).2
  have sum : distance + inner = place := by
    have := behind.start
    omega
  have whole := (behind.mapping.offset index place inside).mpr ⟨inner, found, sum, word⟩
  rw [distinct other (path ++ index) place otherInside ((behind.mapping.inside index).mp inside)
    placed whole]
  exact List.prefix_append path index

/-- A target whose whole has a cell for each index has the cells of the whole indices. -/
theorem Behind.addressed {size : Nat} {cell : List Nat → Nat} (addressed : target.Addressed size cell) :
    next.Addressed size fun index => cell (path ++ index) := by
  have whole {index : List Nat} : Inside next.shape.sizes index →
      Inside target.shape.sizes (path ++ index) := (behind.mapping.inside index).mp
  constructor
  · intro index inside
    have located := addressed.located (path ++ index) (whole inside)
    obtain ⟨place, placed, _⟩ := Target.locate_eq_ok.mp located
    exact (behind.locate_eq_ok inside placed).mpr located
  · intro first second firstInside secondInside same
    exact List.append_cancel_left
      (addressed.apart _ _ (whole firstInside) (whole secondInside) same)

end Behind

/-- What is read at an index whose cell keeps its element stays the same. -/
theorem read_view_congr [Element T] {before after : Array T} (size : after.size = before.size)
    {index : List Nat} (kept : ∀ cell, target.locate before.size index = .ok cell →
      after[cell]? = before[cell]?) :
    (target.view after).read index = (target.view before).read index := by
  rw [View.read, View.read]
  change (target.mapping.offset index >>= _) = (target.mapping.offset index >>= _)
  cases placed : target.mapping.offset index with
  | error fault => rfl
  | ok place =>
      have same : after[target.window.start + place]? = before[target.window.start + place]? := by
        by_cases below : target.window.start + place < before.size
        · exact kept _ (locate_eq_ok.mpr ⟨place, placed, rfl, below⟩)
        · rw [Array.getElem?_eq_none (by omega), Array.getElem?_eq_none (by omega)]
      change Accessor.plain.read ⟨after, target.window⟩ place =
        Accessor.plain.read ⟨before, target.window⟩ place
      rw [Accessor.read, Accessor.read, same, size]

end Target

variable {T : Type} [Element T]

/-- A view reads behind a path what the whole view reads at the path followed by the index. -/
structure View.ReadsBehind (next view : View T) (path : List Nat) : Prop where
  axes : next.shape.axes = view.shape.axes.drop path.length
  inside : ∀ index, Inside next.shape.sizes index ↔ Inside view.shape.sizes (path ++ index)
  /-- Where the whole index has a place, both read the same element or none. -/
  read : ∀ index place, Inside next.shape.sizes index →
    view.mapping.offset (path ++ index) = .ok place →
    ∀ element, next.read index = .ok element ↔ view.read (path ++ index) = .ok element
  readable : (∀ index, Inside view.shape.sizes index → ∃ element, view.read index = .ok element) →
    ∀ index, Inside next.shape.sizes index → next.read index = view.read (path ++ index)
  /-- At the end of a whole index there is one element left. -/
  element : path.length = view.shape.rank → next.shape = .scalar ∧
    ∀ element, view.read path = .ok element → next.read [] = .ok element

/-- A target writes behind a path what the whole target writes at the path followed by the index. -/
structure Target.WritesBehind (T : Type) [Element T] (next target : Target) (path : List Nat) :
    Prop where
  axes : next.shape.axes = target.shape.axes.drop path.length
  inside : ∀ index, Inside next.shape.sizes index ↔ Inside target.shape.sizes (path ++ index)
  write : ∀ index place, Inside next.shape.sizes index →
    target.mapping.offset (path ++ index) = .ok place →
    ∀ (change : T → T) cells after, next.modifyAt index change cells = .ok () after ↔
      target.modifyAt (path ++ index) change cells = .ok () after
  /-- An edit that stays inside changes no other cells, whether it succeeds or not. -/
  confined : ∀ (edit : Edit T) cells,
    (∀ index, edit.Reaches next.shape index → Inside next.shape.sizes index) →
    next.Confined cells (Writing.left (next.apply edit) cells)
  /-- So it keeps the elements whose index does not begin with the path. -/
  kept : target.Distinct → ∀ (edit : Edit T) cells,
    (∀ index, edit.Reaches next.shape index → Inside next.shape.sizes index) →
    ∀ index, Inside target.shape.sizes index → ¬path <+: index →
      (target.view (Writing.left (next.apply edit) cells)).read index = (target.view cells).read index
  /-- Fills, sums and matrix-vector products change the cells of the whole indices. -/
  writesAt : ∀ cell (cells : Array T), target.Addressed cells.size cell →
    next.WritesAt (fun index => cell (path ++ index)) cells

/-- A view that goes on behind a path reads there. -/
theorem View.Behind.readsBehind {view next : View T} {path : List Nat} {distance : Nat}
    (behind : next.Behind view path distance) : next.ReadsBehind view path where
  axes := behind.mapping.axes
  inside := behind.mapping.inside
  read _ _ inside placed := behind.read_eq_ok inside placed
  readable := by
    intro reads index inside
    obtain ⟨element, read⟩ := reads _ ((behind.mapping.inside index).mp inside)
    rw [read, behind.read_of_read inside read]
  element := by
    intro whole
    have axes : next.shape.axes = view.shape.axes.drop path.length := behind.mapping.axes
    rw [List.drop_eq_nil_of_le whole.ge] at axes
    have scalar : next.shape = .scalar := congrArg Shape.mk axes
    have inside : Inside next.shape.sizes [] := scalar ▸ .nil
    refine ⟨scalar, fun element read => behind.read_of_read inside ?_⟩
    rwa [List.append_nil]

/-- A target that goes on behind a path writes there. -/
theorem Target.Behind.writesBehind {target next : Target} {path : List Nat} {distance : Nat}
    (behind : next.Behind target path distance) : next.WritesBehind T target path where
  axes := behind.mapping.axes
  inside := behind.mapping.inside
  write index place inside placed change cells after := by
    rw [modifyAt_eq_ok, modifyAt_eq_ok]
    simp only [behind.locate_eq_ok inside placed]
  confined _ cells stays := confined_apply stays cells
  kept := by
    intro distinct edit cells stays index inside apart
    have confined := confined_apply stays cells
    apply read_view_congr confined.size
    intro cell located
    apply confined.kept
    intro other otherInside otherLocated
    exact apart (behind.prefix_of_locate distinct otherInside inside otherLocated located)
  writesAt _ _ addressed := (behind.addressed addressed).writesAt

/-- A slice at any depth reads and writes what the whole does behind its path and keeps all other
elements. -/
theorem View.slices_nested :
    (∀ (view next : View T) position, view.slice position = .ok next →
      next.shape = view.shape.tail ∧ next.ReadsBehind view [position]) ∧
    (∀ (view next : View T) path, view.walk (path.map .slice) = .ok next →
      next.ReadsBehind view path) ∧
    (∀ (target next : Target) size position, target.slice size position = .ok next →
      next.shape = target.shape.tail ∧ next.WritesBehind T target [position]) ∧
    ∀ (writable : Writable T) next path, writable.sliceAlong path = .ok next →
      next.WritesBehind T writable.target path := by
  refine ⟨fun view next position cut => ?_, fun view next path walked => ?_,
    fun target next size position cut => ?_, fun writable next path reached => ?_⟩
  · obtain ⟨_, behind⟩ := behind_slice cut
    exact ⟨congrArg Shape.mk behind.mapping.axes, behind.readsBehind⟩
  · obtain ⟨_, behind⟩ := behind_walk walked
    exact behind.readsBehind
  · obtain ⟨_, behind⟩ := Target.behind_slice cut
    exact ⟨congrArg Shape.mk behind.mapping.axes, behind.writesBehind⟩
  · obtain ⟨_, behind⟩ := Target.behind_slices reached
    exact behind.writesBehind

open scoped Integer in
/-- The last row of a conjugated column-major view is read, and that of a column-major target
negated. -/
theorem View.slices_nested_columnMajor :
    let columns : Mapping := ⟨⟨[.fixed 2, .free 3]⟩, .columnMajor⟩
    let view : View (Complex Int) := ⟨columns, .conjugating,
      .ofCells #[⟨1, 0⟩, ⟨4, 1⟩, ⟨2, 0⟩, ⟨5, 1⟩, ⟨3, 0⟩, ⟨6, 1⟩]⟩
    let target : Target := .whole columns
    let cells : Array Int := #[1, 4, 2, 5, 3, 6]
    (∃ element, view.walk [.slice 1, .slice 2] = .ok element ∧ element.read [] = .ok ⟨6, -1⟩) ∧
      ∃ row, target.slice cells.size 1 = .ok row ∧
        (∃ after, row.map (- ·) cells = .ok () after ∧ after[5]? = some (-6)) ∧
        (target.view (Writing.left (row.apply (.map (- ·))) cells)).read [0, 2] = .ok (3 : Int) := by
  intro columns view target cells
  let cell (index : List Nat) : Nat := index.headD 0 + 2 * index.tail.headD 0
  have addressed : target.Addressed cells.size cell := by
    constructor
    · exact fun index inside =>
        (show ∀ index ∈ all [2, 3], target.locate 6 index = .ok (cell index) by decide) index
          (mem_all.mpr inside)
    · exact fun first second firstInside secondInside =>
        (show ∀ first ∈ all [2, 3], ∀ second ∈ all [2, 3], cell first = cell second →
          first = second by decide) first (mem_all.mpr firstInside) second (mem_all.mpr secondInside)
  have distinct : target.Distinct := by
    intro first second place firstInside secondInside firstPlace secondPlace
    have located {index : List Nat} (inside : Inside target.shape.sizes index)
        (placed : target.mapping.offset index = .ok place) : cell index = place := by
      obtain ⟨own, found, start, _⟩ := Target.locate_eq_ok.mp (addressed.located index inside)
      rw [← start, Except.ok.inj (found.symm.trans placed)]
      exact Nat.zero_add place
    exact addressed.apart first second firstInside secondInside
      ((located firstInside firstPlace).trans (located secondInside secondPlace).symm)
  constructor
  · obtain ⟨element, walked⟩ : ∃ element, view.walk [.slice 1, .slice 2] = .ok element := ⟨_, rfl⟩
    have reads := (slices_nested (T := Complex Int)).2.1 view element [1, 2] walked
    exact ⟨element, walked, (reads.element rfl).2 _ rfl⟩
  · obtain ⟨row, cut⟩ : ∃ row, target.slice cells.size 1 = .ok row := ⟨_, rfl⟩
    have writes := ((slices_nested (T := Int)).2.2.1 target row cells.size 1 cut).2
    obtain ⟨after, run, _, becomes⟩ := (writes.writesAt cell cells addressed).map (- ·)
    refine ⟨row, cut, ⟨after, run, ?_⟩, ?_⟩
    · have inside : Inside row.shape.sizes [2] := (writes.inside [2]).mpr (by decide)
      exact (becomes [2] inside).trans rfl
    · rw [writes.kept distinct (.map (- ·)) cells (fun _ reached => reached) [0, 2] (by decide)
        (by decide)]
      rfl

end ShapedTensor

import Mathlib.Logic.Function.Iterate
import ShapedTensor.Proofs.Run.Checked
import ShapedTensor.Proofs.Run.Outcome
import ShapedTensor.Proofs.Run.Writing
import ShapedTensor.View.Accessor

namespace ShapedTensor

section Windows

variable {T : Type} {window : Window}

/-- A window moves by as many cells as it has. -/
theorem Window.advance_eq_ok {next : Window} {size count : Nat} :
    window.advance size count = .ok next ↔
      count ≤ window.length size ∧ ⟨window.start + count⟩ = next := by
  rw [Window.advance, Checked.ite_eq_ok, Except.ok.injEq]

/-- A window that has moved has so many cells less. -/
theorem Window.length_advance (window : Window) (size count : Nat) :
    (⟨window.start + count⟩ : Window).length size = window.length size - count :=
  Nat.sub_add_eq size window.start count

/-- A cell that is replaced has the new value, and every other cell its own. -/
theorem getElem?_replaced {cells : Array T} {cell : Nat} (inside : cell < cells.size) (value : T)
    (other : Nat) :
    (cells.modify cell fun _ => value)[other]? = if other = cell then some value else cells[other]? := by
  rw [Array.getElem?_modify]
  by_cases same : other = cell
  · rw [if_pos same.symm, if_pos same, same, Array.getElem?_eq_getElem inside]
    rfl
  · rw [if_neg (Ne.symm same), if_neg same]

/-- A write at a position that a window has replaces the element of its cell. -/
theorem Window.write_of_lt {position : Nat} {cells : Array T}
    (inside : window.start + position < cells.size) (value : T) :
    window.write position value cells =
      .ok () (cells.modify (window.start + position) fun _ => value) :=
  modifyAt_of_cell (if_pos inside) _

/-- A write at a position that a window does not have changes nothing. -/
theorem Window.write_of_le {position : Nat} {cells : Array T}
    (past : cells.size ≤ window.start + position) (value : T) :
    window.write position value cells =
      .error (.positionPastEnd (window.length cells.size) position) cells :=
  modifyAt_of_missed (if_neg past.not_gt) _

/-- A write behind the first cells of a window is a write through what is left of it. -/
theorem Window.writeBehind_of_advance {rest : Window} {count : Nat} {cells : Array T}
    (advanced : window.advance cells.size count = .ok rest) (position : Nat) (value : T) :
    window.writeBehind count position value cells = rest.write position value cells := by
  rw [Window.writeBehind, Writing.get_bind, advanced]
  rfl

/-- A window with fewer cells than are to be left behind refuses the write. -/
theorem Window.writeBehind_of_short {count : Nat} {cells : Array T}
    (short : window.length cells.size < count) (position : Nat) (value : T) :
    window.writeBehind count position value cells =
      .error (.startPastEnd count (window.length cells.size)) cells := by
  have refused : window.advance cells.size count = .error _ := if_neg short.not_ge
  rw [Window.writeBehind, Writing.get_bind, refused]
  rfl

/-- A write behind the first cells of a window replaces the element of one cell. -/
theorem Window.writeBehind_of_lt {count position : Nat} {cells : Array T}
    (inside : window.start + (count + position) < cells.size) (value : T) :
    window.writeBehind count position value cells =
      .ok () (cells.modify (window.start + (count + position)) fun _ => value) := by
  have among : count ≤ window.length cells.size := by
    rw [Window.length]
    omega
  rw [← Nat.add_assoc] at inside ⊢
  rw [writeBehind_of_advance (advance_eq_ok.mpr ⟨among, rfl⟩), write_of_lt inside]

/-- A write behind the first cells of a window that ends before the position changes nothing. -/
theorem Window.writeBehind_of_le {count position : Nat} {cells : Array T}
    (past : cells.size ≤ window.start + (count + position)) (value : T) :
    ∃ fault, window.writeBehind count position value cells = .error fault cells := by
  by_cases among : count ≤ window.length cells.size
  · rw [← Nat.add_assoc] at past
    exact ⟨_, (writeBehind_of_advance (advance_eq_ok.mpr ⟨among, rfl⟩) position value).trans
      (write_of_le past value)⟩
  · exact ⟨_, writeBehind_of_short (Nat.lt_of_not_le among) position value⟩

/-- A write behind the first cells of a window succeeds when the window has the sum of the positions. -/
theorem Window.writeBehind_eq_ok {count position : Nat} {value : T} {cells after : Array T} :
    window.writeBehind count position value cells = .ok () after ↔
      window.start + (count + position) < cells.size ∧
        cells.modify (window.start + (count + position)) (fun _ => value) = after := by
  by_cases inside : window.start + (count + position) < cells.size
  · rw [writeBehind_of_lt inside, EStateM.Result.ok.injEq]
    simp [inside]
  · obtain ⟨fault, refused⟩ := writeBehind_of_le (Nat.le_of_not_lt inside) value
    rw [refused]
    exact iff_of_false nofun fun written => inside written.1

/-- A write behind the first cells of a window that is refused leaves the buffer as it was. -/
theorem Window.cells_of_refused {count position : Nat} {value : T} {cells after : Array T}
    {fault : Fault} (refused : window.writeBehind count position value cells = .error fault after) :
    after = cells := by
  by_cases inside : window.start + (count + position) < cells.size
  · rw [writeBehind_of_lt inside] at refused
    cases refused
  · obtain ⟨_, other⟩ := writeBehind_of_le (Nat.le_of_not_lt inside) value
    rw [other] at refused
    exact (EStateM.Result.error.inj refused).2.symm

/-- A write behind the first cells of a window ends like a write through the whole window. -/
theorem Window.outcome_writeBehind (window : Window) (count position : Nat) (value : T) :
    Writing.outcome (window.writeBehind count position value) =
      Writing.outcome (window.write (count + position) value) := by
  funext cells
  rw [Writing.outcome, Writing.outcome]
  by_cases inside : window.start + (count + position) < cells.size
  · rw [writeBehind_of_lt inside, write_of_lt inside]
  · have past := Nat.le_of_not_lt inside
    obtain ⟨fault, refused⟩ := writeBehind_of_le past value
    rw [refused, write_of_le past]

end Windows

namespace Handle

variable {T : Type} {handle : Handle T}

/-- The items of a sequence that are still to come. -/
def items (handle : Handle T) : List T := handle.cells.toList.drop handle.window.start

/-- A sequence without its next item. -/
def rest (handle : Handle T) : Handle T := handle.next.2

/-- A window on a buffer has as many cells as there are items to come. -/
theorem length_items (handle : Handle T) :
    handle.items.length = handle.window.length handle.cells.size := by
  rw [items, List.length_drop, Array.length_toList, Window.length]

/-- A cell of the window is the item at its position. -/
theorem getElem?_items (handle : Handle T) (position : Nat) :
    handle.items[position]? = handle.cells[handle.window.start + position]? := by
  rw [items, List.getElem?_drop, Array.getElem?_toList]

/-- A window that starts later lacks its first items. -/
theorem items_later (handle : Handle T) (count : Nat) :
    items ⟨handle.cells, ⟨handle.window.start + count⟩⟩ = handle.items.drop count :=
  List.drop_drop.symm

theorem next_item (handle : Handle T) : handle.next.1 = handle.items.head? := by
  rw [List.head?_eq_getElem?, getElem?_items, Nat.add_zero, next]
  cases handle.cells[handle.window.start]? <;> rfl

theorem rest_of_exhausted (exhausted : handle.next.1 = none) : handle.rest = handle := by
  rw [rest]
  unfold next at exhausted ⊢
  cases found : handle.cells[handle.window.start]? with
  | some item => simp [found] at exhausted
  | none => rfl

/-- The items behind the next one are the tail of those to come. -/
theorem items_rest (handle : Handle T) : handle.rest.items = handle.items.tail := by
  cases found : handle.cells[handle.window.start]? with
  | some item =>
      have moved : handle.rest = ⟨handle.cells, ⟨handle.window.start + 1⟩⟩ := by
        rw [rest, next, found]
      rw [moved, items_later, List.drop_one]
  | none =>
      have empty : handle.items.head? = none := by
        rw [List.head?_eq_getElem?, getElem?_items, Nat.add_zero, found]
      rw [rest_of_exhausted ((next_item handle).trans empty), List.head?_eq_none_iff.mp empty]
      rfl

/-- To go to an item is to leave the items before it one by one, as long as there are some. -/
theorem nth_eq (handle : Handle T) (count : Nat) : handle.nth count = (rest^[count] handle).next := by
  induction count generalizing handle with
  | zero => rfl
  | succ count ih =>
      rw [nth, Function.iterate_succ_apply]
      cases found : handle.next with
      | mk item behind =>
          cases item with
          | some item =>
              have moved : handle.rest = behind := congrArg Prod.snd found
              rw [moved]
              exact ih behind
          | none =>
              have stays := rest_of_exhausted (congrArg Prod.fst found)
              obtain rfl : handle = behind := stays.symm.trans (congrArg Prod.snd found)
              rw [stays, Function.iterate_fixed stays, found]

/-- After some steps as many of the items to come are gone, if there were so many. -/
theorem items_iterate (handle : Handle T) (count : Nat) :
    (rest^[count] handle).items = handle.items.drop count := by
  induction count generalizing handle with
  | zero => rfl
  | succ count ih => rw [Function.iterate_succ_apply, ih, items_rest, List.drop_tail]

end Handle

namespace Accessor

variable {T : Type} {accessor : Accessor} {handle next : Handle T} {count : Nat}

/-- A plainly read handle moves by as many cells as its window has. -/
theorem plain_advance_eq_ok :
    Accessor.plain.advance handle count = .ok next ↔
      count ≤ handle.window.length handle.cells.size ∧
        ⟨handle.cells, ⟨handle.window.start + count⟩⟩ = next := by
  rw [Accessor.advance, Checked.bind_eq_ok]
  simp only [Window.advance_eq_ok]
  constructor
  · rintro ⟨window, ⟨among, rfl⟩, built⟩
    exact ⟨among, Except.ok.inj built⟩
  · rintro ⟨among, rfl⟩
    exact ⟨_, ⟨among, rfl⟩, rfl⟩

/-- Two advances of a plainly read handle are one advance by both counts. -/
theorem plain_advance_advance {first second : Nat} :
    (Accessor.plain.advance handle first >>= fun middle => Accessor.plain.advance middle second) =
        .ok next ↔
      Accessor.plain.advance handle (first + second) = .ok next := by
  simp only [Checked.bind_eq_ok, plain_advance_eq_ok]
  constructor
  · rintro ⟨_, ⟨among, rfl⟩, behind, rfl⟩
    have left : second ≤ handle.window.length handle.cells.size - first :=
      (Window.length_advance ..) ▸ behind
    exact ⟨by omega, by rw [Nat.add_assoc]⟩
  · rintro ⟨among, rfl⟩
    have left : second ≤ handle.window.length handle.cells.size - first := by omega
    rw [← Window.length_advance] at left
    exact ⟨⟨handle.cells, _⟩, ⟨by omega, rfl⟩, left, by rw [Nat.add_assoc]⟩

/-- A sequence is advanced item by item and never refuses. -/
theorem sequence_advance (handle : Handle T) (count : Nat) :
    Accessor.sequence.advance handle count = .ok (Handle.rest^[count] handle) := by
  rw [Accessor.advance]
  cases count with
  | zero => rfl
  | succ count =>
      rw [if_pos (Nat.succ_pos count), Nat.add_sub_cancel, Handle.nth_eq,
        Function.iterate_succ_apply', Handle.rest]

/-- An accessor reads a window when it looks up its cells by their positions. -/
def ReadsWindow (accessor : Accessor) : Prop := accessor = .plain ∨ accessor = .conjugating

/-- A window refuses to be advanced past its end; sequences and zeros refuse nothing. -/
theorem exists_advance_iff :
    (∃ next, accessor.advance handle count = .ok next) ↔
      (accessor.ReadsWindow → count ≤ handle.window.length handle.cells.size) := by
  cases accessor with
  | zero => simp [advance, ReadsWindow]
  | sequence => simp [sequence_advance, ReadsWindow]
  | plain | conjugating =>
      constructor
      · rintro ⟨next, advanced⟩ _
        exact (plain_advance_eq_ok.mp advanced).1
      · intro among
        exact ⟨_, plain_advance_eq_ok.mpr ⟨among (by simp [ReadsWindow]), rfl⟩⟩

/-- An advance by nothing leaves a handle as it is. -/
theorem advance_zero (accessor : Accessor) (handle : Handle T) :
    accessor.advance handle 0 = .ok handle := by
  cases accessor with
  | zero => rfl
  | sequence => rfl
  | plain | conjugating => exact plain_advance_eq_ok.mpr ⟨Nat.zero_le _, rfl⟩

/-- Two advances are one advance by both counts. -/
theorem advance_advance {first second : Nat} :
    (accessor.advance handle first >>= fun middle => accessor.advance middle second) = .ok next ↔
      accessor.advance handle (first + second) = .ok next := by
  cases accessor with
  | zero => rfl
  | sequence =>
      simp only [sequence_advance]
      rw [Nat.add_comm, Function.iterate_add_apply]
      rfl
  | plain | conjugating => exact plain_advance_advance

/-- Advances one after the other are one advance by the sum of the counts. -/
theorem advance_path {counts : List Nat} :
    counts.foldlM accessor.advance handle = .ok next ↔
      accessor.advance handle counts.sum = .ok next := by
  induction counts generalizing handle with
  | nil =>
      rw [List.foldlM_nil, List.sum_nil, advance_zero]
      rfl
  | cons count counts ih =>
      rw [List.foldlM_cons, List.sum_cons, ← advance_advance, Checked.bind_eq_ok, Checked.bind_eq_ok]
      exact exists_congr fun middle => and_congr_right fun _ => ih

variable [Element T]

/-- The element that an accessor shows at a position: one of the items to come, or zero. -/
def shown (accessor : Accessor) (handle : Handle T) (position : Nat) : Option T :=
  match accessor with
  | plain | sequence => handle.items[position]?
  | conjugating => handle.items[position]?.map Element.conj
  | zero => some 0

/-- What an accessor shows is what it reads. -/
theorem read_eq_ok {position : Nat} {element : T} :
    accessor.read handle position = .ok element ↔ accessor.shown handle position = some element := by
  cases accessor with
  | zero => simp [read, shown]
  | sequence =>
      rw [read, shown, Handle.nth_eq, Handle.next_item, Handle.items_iterate, List.head?_drop]
      cases handle.items[position]? <;> simp
  | plain | conjugating =>
      rw [read, shown, ← Handle.getElem?_items]
      cases handle.items[position]? <;> simp

/-- An advanced handle shows what the handle shows behind the positions that are left. -/
theorem shown_advance (advanced : accessor.advance handle count = .ok next) (position : Nat) :
    accessor.shown next position = accessor.shown handle (count + position) := by
  cases accessor with
  | zero => rfl
  | sequence =>
      rw [sequence_advance] at advanced
      obtain rfl := Except.ok.inj advanced
      rw [shown, shown, Handle.items_iterate, List.getElem?_drop]
  | plain | conjugating =>
      obtain ⟨_, rfl⟩ := plain_advance_eq_ok.mp advanced
      rw [shown, shown, Handle.items_later, List.getElem?_drop]

/-- A handle without its first positions reads what the handle reads behind them. -/
theorem read_advance (advanced : accessor.advance handle count = .ok next) (position : Nat)
    (element : T) :
    accessor.read next position = .ok element ↔
      accessor.read handle (count + position) = .ok element := by
  rw [read_eq_ok, read_eq_ok, shown_advance advanced]

/-- Behind the positions of a handle that cannot be left nothing is read. -/
theorem exists_advance_of_read {position : Nat} {element : T}
    (read : accessor.read handle (count + position) = .ok element) :
    ∃ next, accessor.advance handle count = .ok next := by
  rw [exists_advance_iff, ← Handle.length_items]
  have shown := read_eq_ok.mp read
  rintro (rfl | rfl)
  · have below := (List.getElem?_eq_some_iff.mp shown).1
    omega
  · obtain ⟨item, found, _⟩ := Option.map_eq_some_iff.mp shown
    have below := (List.getElem?_eq_some_iff.mp found).1
    omega

/-- A read behind an advance is a read at the sum of the positions. -/
theorem read_behind {position : Nat} {element : T} :
    (accessor.advance handle count >>= fun next => accessor.read next position) = .ok element ↔
      accessor.read handle (count + position) = .ok element := by
  rw [Checked.bind_eq_ok]
  constructor
  · rintro ⟨next, advanced, found⟩
    exact (read_advance advanced position element).mp found
  · intro found
    obtain ⟨next, advanced⟩ := exists_advance_of_read found
    exact ⟨next, advanced, (read_advance advanced position element).mpr found⟩

/-- Advancing acts on a handle like addition on its positions. -/
structure Acts (accessor : Accessor) (handle : Handle T) : Prop where
  /-- An advance by nothing changes nothing. -/
  zero : accessor.advance handle 0 = .ok handle
  /-- Two advances succeed when one by the sum does, and reach the same handle. -/
  add : ∀ first second next,
    (accessor.advance handle first >>= fun middle => accessor.advance middle second) = .ok next ↔
      accessor.advance handle (first + second) = .ok next
  /-- So do any number of advances. -/
  path : ∀ (counts : List Nat) next,
    counts.foldlM accessor.advance handle = .ok next ↔
      accessor.advance handle counts.sum = .ok next
  /-- A read behind an advance is a read at the sum. -/
  read : ∀ count position element,
    (accessor.advance handle count >>= fun next => accessor.read next position) = .ok element ↔
      accessor.read handle (count + position) = .ok element
  /-- A read gives the item at the position, as the accessor shows it. -/
  shown : ∀ position element,
    accessor.read handle position = .ok element ↔ accessor.shown handle position = some element
  /-- A window refuses to be advanced past its end, and nothing else is refused. -/
  advances : ∀ count, (∃ next, accessor.advance handle count = .ok next) ↔
    (accessor.ReadsWindow → count ≤ handle.window.length handle.cells.size)

end Accessor

namespace Window

variable {T : Type} [Element T]

/-- A window that is lent out for a write behind its first cells changes in one cell at most, and is
read as before everywhere else. -/
structure Lends (window : Window) (count position : Nat) (value : T) (cells : Array T) : Prop where
  /-- The write succeeds when the window has the sum of the positions. -/
  writes : (∃ after, window.writeBehind count position value cells = .ok () after) ↔
    count + position < window.length cells.size
  /-- A refused write changes nothing. -/
  refuses : ∀ fault after, window.writeBehind count position value cells = .error fault after →
    after = cells
  /-- A write changes the cell at the sum of the positions and no other. -/
  changes : ∀ after, window.writeBehind count position value cells = .ok () after →
    after.size = cells.size ∧ ∀ cell,
      after[cell]? = if cell = window.start + (count + position) then some value else cells[cell]?
  /-- The window reads the value at the sum of the positions and elsewhere what it read before. -/
  reads : ∀ after, window.writeBehind count position value cells = .ok () after → ∀ other,
    Accessor.plain.read ⟨after, window⟩ other =
      if other = count + position then .ok value else Accessor.plain.read ⟨cells, window⟩ other

/-- A window is read as before a change of one of its cells, but for that cell. -/
theorem read_replaced {window : Window} {position : Nat} {cells : Array T}
    (inside : window.start + position < cells.size) (value : T) (other : Nat) :
    Accessor.plain.read ⟨cells.modify (window.start + position) fun _ => value, window⟩ other =
      if other = position then .ok value else Accessor.plain.read ⟨cells, window⟩ other := by
  rw [Accessor.read, Accessor.read]
  simp only [getElem?_replaced inside, Array.size_modify, Nat.add_left_cancel_iff]
  by_cases same : other = position
  · rw [if_pos same, if_pos same]
  · rw [if_neg same, if_neg same]

/-- A window can be lent out for every write. -/
theorem lends (window : Window) (count position : Nat) (value : T) (cells : Array T) :
    window.Lends count position value cells where
  writes := by
    simp only [writeBehind_eq_ok, length]
    constructor
    · rintro ⟨_, inside, _⟩
      omega
    · intro below
      exact ⟨_, by omega, rfl⟩
  refuses _ _ := cells_of_refused
  changes after written := by
    obtain ⟨inside, rfl⟩ := writeBehind_eq_ok.mp written
    exact ⟨Array.size_modify .., getElem?_replaced inside value⟩
  reads after written := by
    obtain ⟨inside, rfl⟩ := writeBehind_eq_ok.mp written
    exact read_replaced inside value

end Window

/-- Handles advance and are read by the sum of what one goes on by, and so are windows that are lent out
for writes. -/
theorem Accessor.advancing_adds {T : Type} [Element T] :
    (∀ (accessor : Accessor) (handle : Handle T), accessor.Acts handle) ∧
    (∀ (window : Window) (count position : Nat) (value : T) (cells : Array T),
      window.Lends count position value cells) ∧
    ∀ (window : Window) (writes : List (Nat × Nat × T)),
      Writing.outcome (writes.foldlM
          (fun _ (count, position, value) => window.writeBehind count position value) ()) =
        Writing.outcome (writes.foldlM
          (fun _ (count, position, value) => window.write (count + position) value) ()) := by
  refine ⟨fun accessor handle => ?_, Window.lends, fun window writes => ?_⟩
  · exact {
      zero := advance_zero accessor handle
      add := fun _ _ _ => advance_advance
      path := fun _ _ => advance_path
      read := fun _ _ _ => read_behind
      shown := fun _ _ => read_eq_ok
      advances := fun _ => exists_advance_iff }
  · exact Writing.outcome_foldlM (fun _ write _ => window.outcome_writeBehind ..) ()

/-- A sequence of three items runs out when it is advanced by five, and a window on them refuses. -/
example :
    Accessor.sequence.advance (Handle.ofCells #[1, 2, 3]) 5 = .ok ⟨#[1, 2, 3], ⟨3⟩⟩ ∧
      Accessor.plain.advance (Handle.ofCells #[1, 2, 3]) 5 = .error (.startPastEnd 5 3) :=
  ⟨rfl, rfl⟩

end ShapedTensor

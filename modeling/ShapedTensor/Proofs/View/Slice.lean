import ShapedTensor.Proofs.Element.Integer
import ShapedTensor.Proofs.Layout.Fit
import ShapedTensor.Proofs.Tensor.Cells
import ShapedTensor.Proofs.View.Advance

namespace ShapedTensor

namespace Target

/-- The number of cells from the start of a target on, in a buffer of `size` cells. -/
def room (target : Target) (size : Nat) : Nat := target.window.length size

/-- The targets of a buffer of `size` cells that a checked constructor, a tensor or a slice gives. -/
inductive Reached (size : Nat) : Target → Prop where
  | checked {mapping : Mapping} {target : Target} (regular : mapping.Regular)
      (built : ofLength mapping size = .ok target) : Reached size target
  | tensor {T : Type} {tensor : Tensor T} (full : tensor.Full) (sized : tensor.cells.size = size) :
      Reached size tensor.target
  | slice {target next : Target} {position : Nat} (reached : Reached size target)
      (cut : target.slice size position = .ok next) : Reached size next

/-- A slice of a target cuts its mapping and moves its window to the start of the slice. -/
theorem slice_eq_ok {target next : Target} {cells position : Nat} :
    target.slice cells position = .ok next ↔ ∃ rest distance,
      target.mapping.Cut position (target.room cells) rest distance ∧
        ⟨rest, ⟨target.window.start + distance⟩⟩ = next := by
  rw [slice, Checked.bind_eq_ok]
  constructor
  · rintro ⟨size, sized, cut⟩
    by_cases below : position < size
    · rw [if_pos below] at cut
      obtain ⟨rest, tail, cut⟩ := Checked.bind_eq_ok.mp cut
      obtain ⟨stride, found, cut⟩ := Checked.bind_eq_ok.mp cut
      obtain ⟨distance, product, cut⟩ := Checked.bind_eq_ok.mp cut
      obtain ⟨window, advanced, built⟩ := Checked.bind_eq_ok.mp cut
      obtain ⟨among, rfl⟩ := Window.advance_eq_ok.mp advanced
      refine ⟨rest, distance, ?_, Except.ok.inj built⟩
      exact ⟨⟨size, sized, below⟩, ⟨stride, found, product⟩, among, tail⟩
    · rw [if_neg below] at cut
      cases cut
  · rintro ⟨rest, distance, cut, rfl⟩
    rcases cut.inside with ⟨size, sized, below⟩
    rcases cut.apart with ⟨stride, found, product⟩
    have advanced := Window.advance_eq_ok.mpr ⟨cut.among, rfl⟩
    refine ⟨size, sized, ?_⟩
    rw [if_pos below]
    exact Checked.bind_eq_ok.mpr ⟨rest, cut.tail, Checked.bind_eq_ok.mpr ⟨stride, found,
      Checked.bind_eq_ok.mpr ⟨distance, product, Checked.bind_eq_ok.mpr ⟨_, advanced, rfl⟩⟩⟩⟩

/-- A reached target fits into the cells from its start on. -/
theorem Reached.fits {cells : Nat} {target : Target} (reached : Reached cells target) :
    target.mapping.Fits (target.room cells) := by
  induction reached with
  | checked regular built =>
      obtain ⟨passed, built⟩ := Checked.check_eq_ok.mp built
      obtain rfl := Except.ok.inj built
      exact ⟨regular.length_strides, View.checkSpan_eq_ok.mp passed⟩
  | @tensor _ tensor full sized =>
      have regular : tensor.mapping.Regular := trivial
      exact ⟨regular.length_strides, tensor.cells.size, full, sized.le⟩
  | slice _ cut ih =>
      obtain ⟨rest, distance, parted, rfl⟩ := slice_eq_ok.mp cut
      have remains := ih.cut parted
      rwa [room, ← Window.length_advance] at remains

/-- A target has a slice when its mapping can be cut. -/
theorem slice_exists_iff_cut {target : Target} {cells position : Nat} :
    (∃ next, target.slice cells position = .ok next) ↔
      ∃ rest distance, target.mapping.Cut position (target.room cells) rest distance := by
  constructor
  · rintro ⟨next, cut⟩
    obtain ⟨rest, distance, cut, _⟩ := slice_eq_ok.mp cut
    exact ⟨rest, distance, cut⟩
  · rintro ⟨rest, distance, cut⟩
    exact ⟨_, slice_eq_ok.mpr ⟨rest, distance, cut, rfl⟩⟩

end Target

namespace View

variable {T : Type} [Element T]

/-- The number of cells from the start of a view on. -/
def room (view : View T) : Nat := view.handle.window.length view.handle.cells.size

/-- The views that a checked constructor, a tensor, a target, a transposition or a slice gives. -/
inductive Reached : View T → Prop where
  | checked {mapping : Mapping} {cells : Array T} {view : View T}
      (regular : mapping.Regular) (built : ofCells mapping cells = .ok view) : Reached view
  | tensor {tensor : Tensor T} (full : tensor.Full) : Reached tensor.view
  | target {target : Target} {cells : Array T} (reached : Target.Reached cells.size target) :
      Reached (target.view cells)
  | transpose {view next : View T} (reached : Reached view) (rank : view.shape.rank = 2)
      (exchanged : view.transpose = .ok next) : Reached next
  | slice {view next : View T} {position : Nat} (reached : Reached view)
      (cut : view.slice position = .ok next) : Reached next

omit [Element T] in
/-- A slice of a view goes on from the handle at the start of the slice, without the first axis. -/
theorem slice_eq_ok_advance {view next : View T} {position : Nat} :
    view.slice position = .ok next ↔ ∃ distance handle rest,
      (∃ size, view.shape.sizeAt 0 = .ok size ∧ position < size) ∧
      (∃ stride, view.mapping.stride 0 = .ok stride ∧ Size.mul stride position = .ok distance) ∧
      view.accessor.advance view.handle distance = .ok handle ∧ view.mapping.tail = .ok rest ∧
      ⟨rest, view.accessor, handle⟩ = next := by
  rw [slice, Checked.bind_eq_ok]
  constructor
  · rintro ⟨size, sized, cut⟩
    by_cases below : position < size
    · rw [if_pos below] at cut
      obtain ⟨stride, found, cut⟩ := Checked.bind_eq_ok.mp cut
      obtain ⟨distance, product, cut⟩ := Checked.bind_eq_ok.mp cut
      obtain ⟨handle, advanced, cut⟩ := Checked.bind_eq_ok.mp cut
      obtain ⟨rest, tail, built⟩ := Checked.bind_eq_ok.mp cut
      exact ⟨distance, handle, rest, ⟨size, sized, below⟩, ⟨stride, found, product⟩, advanced, tail,
        Except.ok.inj built⟩
    · rw [if_neg below] at cut
      cases cut
  · rintro ⟨distance, handle, rest, ⟨size, sized, below⟩, ⟨stride, found, product⟩, advanced, tail,
      rfl⟩
    refine ⟨size, sized, ?_⟩
    rw [if_pos below]
    exact Checked.bind_eq_ok.mpr ⟨stride, found, Checked.bind_eq_ok.mpr ⟨distance, product,
      Checked.bind_eq_ok.mpr ⟨handle, advanced, Checked.bind_eq_ok.mpr ⟨rest, tail, rfl⟩⟩⟩⟩

/-- A slice of a plain view cuts its mapping and moves its window to the start of the slice. -/
theorem slice_eq_ok {T : Type} [Element T] {view next : View T} {position : Nat}
    (plain : view.accessor = .plain) :
    view.slice position = .ok next ↔ ∃ rest distance,
      view.mapping.Cut position view.room rest distance ∧
        ⟨rest, .plain, view.handle.cells, ⟨view.handle.window.start + distance⟩⟩ = next := by
  simp only [slice_eq_ok_advance, plain, Accessor.plain_advance_eq_ok]
  constructor
  · rintro ⟨distance, _, rest, inside, apart, ⟨among, rfl⟩, tail, rfl⟩
    exact ⟨rest, distance, ⟨inside, apart, among, tail⟩, rfl⟩
  · rintro ⟨rest, distance, ⟨inside, apart, among, tail⟩, rfl⟩
    exact ⟨distance, _, rest, inside, apart, ⟨among, rfl⟩, tail, rfl⟩

/-- A reached view is plainly read and fits into the cells from its start on. -/
theorem Reached.fits {view : View T} (reached : view.Reached) :
    view.accessor = .plain ∧ view.mapping.Fits view.room := by
  induction reached with
  | checked regular built =>
      obtain ⟨passed, built⟩ := Checked.check_eq_ok.mp built
      obtain rfl := Except.ok.inj built
      exact ⟨rfl, regular.length_strides, checkSpan_eq_ok.mp passed⟩
  | @tensor tensor full => exact ⟨rfl, (Target.Reached.tensor full rfl).fits⟩
  | target reached => exact ⟨rfl, reached.fits⟩
  | transpose _ rank exchanged ih =>
      rcases ih with ⟨plain, fits⟩
      obtain ⟨mapping, transposed, built⟩ := Checked.bind_eq_ok.mp exchanged
      obtain rfl := Except.ok.inj built
      exact ⟨plain, fits.transpose rank transposed⟩
  | slice _ cut ih =>
      rcases ih with ⟨plain, fits⟩
      obtain ⟨rest, distance, parted, rfl⟩ := (slice_eq_ok plain).mp cut
      have remains := fits.cut parted
      rw [room, ← Window.length_advance] at remains
      exact ⟨rfl, remains⟩

/-- A plain view has a slice when its mapping can be cut. -/
theorem slice_exists_iff_cut {view : View T} {position : Nat} (plain : view.accessor = .plain) :
    (∃ next, view.slice position = .ok next) ↔
      ∃ rest distance, view.mapping.Cut position view.room rest distance := by
  constructor
  · rintro ⟨next, cut⟩
    obtain ⟨rest, distance, cut, _⟩ := (slice_eq_ok plain).mp cut
    exact ⟨rest, distance, cut⟩
  · rintro ⟨rest, distance, cut⟩
    exact ⟨_, (slice_eq_ok plain).mpr ⟨rest, distance, cut, rfl⟩⟩

/-- Views and targets have every slice of their first axis, unless some side is empty and the slice
starts past the cells that are left. -/
theorem slice_exists_iff :
    (∀ view : View T, view.Reached → ∀ size position, view.shape.sizeAt 0 = .ok size →
      position < size → ((∃ next, view.slice position = .ok next) ↔
        0 ∉ view.shape.sizes ∨ view.mapping.Starts position view.room)) ∧
    (∀ cells (target : Target), target.Reached cells → ∀ size position,
      target.shape.sizeAt 0 = .ok size → position < size →
      ((∃ next, target.slice cells position = .ok next) ↔
        0 ∉ target.shape.sizes ∨ target.mapping.Starts position (target.room cells))) := by
  constructor
  · intro view reached size position sized below
    rcases reached.fits with ⟨plain, fits⟩
    rw [slice_exists_iff_cut plain]
    exact fits.exists_cut_iff sized below
  · intro cells target reached size position sized below
    rw [Target.slice_exists_iff_cut]
    exact reached.fits.exists_cut_iff sized below

open scoped Integer in
/-- The transpose of a column-major view of six cells has its last row, and the slice of a
column-major target of six cells has its last element. -/
theorem slice_exists_iff_nested :
    let rows : View Int := ⟨⟨.ofFree [3, 2], .strided [2, 1]⟩, .plain, .ofCells #[1, 2, 3, 4, 5, 6]⟩
    let row : Target := ⟨⟨.ofFree [3], .strided [2]⟩, ⟨1⟩⟩
    (rows.Reached ∧ ∃ next, rows.slice 2 = .ok next) ∧
      row.Reached 6 ∧ ∃ next, row.slice 6 2 = .ok next := by
  intro rows row
  have regular : (⟨.ofFree [2, 3], .columnMajor⟩ : Mapping).Regular := trivial
  constructor
  · have built : ofCells ⟨.ofFree [2, 3], .columnMajor⟩ rows.handle.cells = .ok _ := rfl
    have reached : rows.Reached := .transpose (.checked regular built) rfl rfl
    have full : 0 ∉ rows.shape.sizes := by decide
    exact ⟨reached, (slice_exists_iff.1 rows reached 3 2 rfl (by decide)).mpr (Or.inl full)⟩
  · have built : Target.ofLength ⟨.ofFree [2, 3], .columnMajor⟩ 6 = .ok _ := rfl
    have cut : (Target.whole ⟨.ofFree [2, 3], .columnMajor⟩).slice 6 1 = .ok row := rfl
    have reached : row.Reached 6 := .slice (.checked regular built) cut
    have full : 0 ∉ row.shape.sizes := by decide
    have exists_iff := (slice_exists_iff (T := Int)).2 6 row reached 3 2 rfl (by decide)
    exact ⟨reached, exists_iff.mpr (Or.inl full)⟩

open scoped Integer in
/-- A column-major view of two empty rows over no cells is checked and has no second slice. -/
theorem slice_of_empty_rows :
    ∃ view : View Int, view.Reached ∧ view.shape.sizeAt 0 = .ok 2 ∧
      view.slice 1 = .error (.startPastEnd 1 0) := by
  have built : ofCells (⟨.ofFree [2, 0], .columnMajor⟩ : Mapping) (#[] : Array Int) = .ok _ := rfl
  have regular : (⟨.ofFree [2, 0], .columnMajor⟩ : Mapping).Regular := trivial
  exact ⟨_, .checked regular built, rfl, rfl⟩

end View

end ShapedTensor

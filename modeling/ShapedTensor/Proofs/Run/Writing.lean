import ShapedTensor.Target

namespace ShapedTensor

variable {T α β σ ι : Type}

namespace Writing

/-- An action goes on from the result and the buffer of its first part. -/
theorem bind_of_ok {action : Writing T α} {next : α → Writing T β} {cells after : Array T}
    {result : α} (first : action cells = .ok result after) :
    (action >>= next) cells = next result after := by
  change EStateM.bind action next cells = _
  rw [EStateM.bind, first]

/-- An action that looks at the buffer first goes on with what it has seen. -/
theorem get_bind (next : Array T → Writing T α) (cells : Array T) :
    (get >>= next) cells = next cells cells := rfl

/-- An action succeeds when its first part does and the rest succeeds after it. -/
theorem bind_eq_ok {action : Writing T α} {next : α → Writing T β} {cells after : Array T}
    {result : β} :
    (action >>= next) cells = .ok result after ↔
      ∃ value middle, action cells = .ok value middle ∧ next value middle = .ok result after := by
  change EStateM.bind action next cells = _ ↔ _
  rw [EStateM.bind]
  cases action cells <;> simp [and_assoc]

/-- A computation without a buffer succeeds in a buffer with the same result and leaves it. -/
theorem lift_eq_ok {value : Except Fault α} {cells after : Array T} {result : α} :
    (liftM value : Writing T α) cells = .ok result after ↔ value = .ok result ∧ cells = after := by
  cases value with
  | ok value =>
      change EStateM.Result.ok value cells = _ ↔ _
      simp
  | error fault =>
      change EStateM.Result.error fault cells = _ ↔ _
      simp

/-- A run succeeds when every step does in every buffer of the same size. -/
theorem foldlM_of_ok {size : Nat} {step : Unit → ι → Writing T Unit}
    {change : Array T → ι → Array T} {items : List ι}
    (steps : ∀ item ∈ items, ∀ cells : Array T, cells.size = size →
      step () item cells = .ok () (change cells item))
    (keeps : ∀ cells item, (change cells item).size = cells.size) {cells : Array T}
    (fits : cells.size = size) :
    items.foldlM step () cells = .ok () (items.foldl change cells) := by
  induction items generalizing cells with
  | nil => rfl
  | cons item items ih =>
      rw [List.foldlM_cons, bind_of_ok (steps item (by simp) cells fits), List.foldl_cons]
      refine ih (fun other listed => steps other (by simp [listed])) ?_
      rw [keeps, fits]

/-- An action keeps a property of buffers when its success leaves it true. -/
def Keeps (property : Array T → Prop) (action : Writing T α) : Prop :=
  ∀ cells after result, property cells → action cells = .ok result after → property after

/-- A computation without a buffer keeps every property. -/
theorem Keeps.lift (property : Array T → Prop) (value : Except Fault α) :
    Keeps property (liftM value : Writing T α) := by
  intro cells after result holds run
  obtain ⟨_, rfl⟩ := lift_eq_ok.mp run
  exact holds

/-- What both parts of an action keep, it keeps. -/
theorem Keeps.bind {property : Array T → Prop} {action : Writing T α} {next : α → Writing T β}
    (first : Keeps property action) (rest : ∀ value, Keeps property (next value)) :
    Keeps property (action >>= next) := by
  intro cells after result holds run
  obtain ⟨value, middle, start, run⟩ := bind_eq_ok.mp run
  exact rest value middle after result (first cells middle value holds start) run

/-- An action follows another when it succeeds like it whenever that succeeds. -/
def Follows (leader action : Writing T α) : Prop :=
  ∀ cells after result, leader cells = .ok result after → action cells = .ok result after

/-- An action whose parts follow those of another follows it. -/
theorem Follows.bind {leader action : Writing T α} {leaderNext next : α → Writing T β}
    (first : Follows leader action) (rest : ∀ value, Follows (leaderNext value) (next value)) :
    Follows (leader >>= leaderNext) (action >>= next) := by
  intro cells after result run
  obtain ⟨value, middle, start, run⟩ := bind_eq_ok.mp run
  exact bind_eq_ok.mpr ⟨value, middle, first cells middle value start,
    rest value middle after result run⟩

theorem Follows.refl (action : Writing T α) : Follows action action :=
  fun _ _ _ run => run

end Writing

namespace Window

variable {window : Window} {position : Nat} {cells : Array T}

/-- A change at a position of a window changes its cell. -/
theorem modifyAt_of_cell {cell : Nat} (found : window.cell cells.size position = .ok cell)
    (change : T → T) : window.modifyAt position change cells = .ok () (cells.modify cell change) := by
  rw [modifyAt, Writing.get_bind, found]
  rfl

/-- A change at a position without a cell fails and leaves the buffer as it is. -/
theorem modifyAt_of_missed {fault : Fault} (missed : window.cell cells.size position = .error fault)
    (change : T → T) : window.modifyAt position change cells = .error fault cells := by
  rw [modifyAt, Writing.get_bind, missed]
  rfl

end Window

section Changes

/-- A cell is set by a change into one value. -/
theorem setIfInBounds_eq_modify (cells : Array T) (cell : Nat) (value : T) :
    cells.setIfInBounds cell value = cells.modify cell fun _ => value := by
  refine Array.ext_getElem? fun position => ?_
  rw [Array.getElem?_setIfInBounds, Array.getElem?_modify]
  by_cases same : cell = position
  · subst same
    by_cases below : cell < cells.size <;> simp [below]
  · simp [same]

/-- A change of a cell into itself leaves the cells as they are. -/
theorem modify_self (cells : Array T) (cell : Nat) {change : T → T}
    (unchanged : ∀ own, change own = own) : cells.modify cell change = cells := by
  have same : change = id := funext unchanged
  ext position
  · simp
  · simp [same, Array.getElem_modify]

variable (cell : ι → Nat) (change : ι → T → T)

/-- Changes of single cells keep the size of a buffer. -/
theorem size_foldl_modify (items : List ι) (cells : Array T) :
    (items.foldl (fun cells item => cells.modify (cell item) (change item)) cells).size =
      cells.size := by
  induction items generalizing cells with
  | nil => rfl
  | cons item items ih => rw [List.foldl_cons, ih, Array.size_modify]

/-- A cell undergoes the changes that name it, in their order. -/
theorem getElem?_foldl_modify (items : List ι) (cells : Array T) (position : Nat) :
    (items.foldl (fun cells item => cells.modify (cell item) (change item)) cells)[position]? =
      cells[position]?.map fun own =>
        (items.filter fun item => cell item = position).foldl (fun own item => change item own)
          own := by
  induction items generalizing cells with
  | nil => simp
  | cons item items ih =>
      rw [List.foldl_cons, ih, Array.getElem?_modify]
      by_cases named : cell item = position
      · simp [named, Function.comp_def]
      · simp [named]

/-- A cell that is replaced by a value, once or more often, ends as this value. -/
theorem getElem?_foldl_replace (value : T) {items : List ι} {item : ι} (listed : item ∈ items)
    {cells : Array T} (below : cell item < cells.size) :
    (items.foldl (fun cells item => cells.modify (cell item) fun _ => value) cells)[cell item]? =
      some value := by
  have named : item ∈ items.filter fun other => cell other = cell item := by simpa using listed
  have last := List.dropLast_concat_getLast (List.ne_nil_of_mem named)
  rw [getElem?_foldl_modify cell fun _ _ => value, Array.getElem?_eq_getElem below, ← last]
  simp

/-- A cell that no change names keeps its element. -/
theorem getElem?_foldl_modify_of_ne {items : List ι} {position : Nat}
    (unnamed : ∀ item ∈ items, cell item ≠ position) (cells : Array T) :
    (items.foldl (fun cells item => cells.modify (cell item) (change item)) cells)[position]? =
      cells[position]? := by
  have none : items.filter (fun item => cell item = position) = [] := by
    rw [List.filter_eq_nil_iff]
    intro item listed
    simpa using unnamed item listed
  rw [getElem?_foldl_modify, none]
  simp

end Changes

end ShapedTensor

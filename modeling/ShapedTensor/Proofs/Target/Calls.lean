import ShapedTensor.Proofs.Access

namespace ShapedTensor

open Index

variable {T : Type}

namespace Writing

variable {σ α β : Type}

/-- The call of a function with a state of its own, while a buffer is written. -/
def calling (call : StateT σ (Except Fault) α) : StateT σ (Writing T) α :=
  fun state => liftM (call state)

/-- A walk makes calls when it ends with their state and their answers stored, or with their fault. -/
structure Makes (calls : StateT σ (Except Fault) α) (walk : StateT σ (Writing T) Unit) (state : σ)
    (cells : Array T) (left : Array T → Prop) (stored : α → Array T → Prop) : Prop where
  returned : ∀ answers last, calls state = .ok (answers, last) →
    ∃ after, walk state cells = .ok ((), last) after ∧ left after ∧ stored answers after
  raised : ∀ fault, calls state = .error fault →
    ∃ after, walk state cells = .error fault after ∧ left after

variable {calls : StateT σ (Except Fault) α} {walk : StateT σ (Writing T) Unit}
  {rest : Unit → StateT σ (Writing T) Unit} {state : σ}
  {cells : Array T} {left leftAtEnd : Array T → Prop} {stored : α → Array T → Prop}
  {storedAtEnd : β → Array T → Prop}

/-- What a walk leaves and stores has the properties that follow from these. -/
theorem Makes.imp {storedToo : α → Array T → Prop} (makes : Makes calls walk state cells left stored)
    (leaves : ∀ after, left after → leftAtEnd after)
    (stores : ∀ answers after, left after → stored answers after → storedToo answers after) :
    Makes calls walk state cells leftAtEnd storedToo where
  returned answers last run := by
    obtain ⟨after, ended, kept, held⟩ := makes.returned answers last run
    exact ⟨after, ended, leaves after kept, stores answers after kept held⟩
  raised fault run := by
    obtain ⟨after, ended, kept⟩ := makes.raised fault run
    exact ⟨after, ended, leaves after kept⟩

/-- A walk that stores the image of the answers makes the calls with this image. -/
theorem Makes.map (makes : Makes calls walk state cells left stored) (image : α → β)
    (stores : ∀ answers after, left after → stored answers after → storedAtEnd (image answers) after) :
    Makes (image <$> calls) walk state cells left storedAtEnd := by
  have ran : (image <$> calls) state = Except.map (fun result => (image result.1, result.2))
      (calls state) := rfl
  constructor
  case returned =>
    intro answers last run
    cases called : calls state with
    | error fault =>
        rw [ran, called] at run
        cases run
    | ok result =>
        rw [ran, called] at run
        obtain ⟨rfl, rfl⟩ := Prod.mk.inj (Except.ok.inj run)
        obtain ⟨after, ended, kept, held⟩ := makes.returned result.1 result.2 called
        exact ⟨after, ended, kept, stores result.1 after kept held⟩
  case raised =>
    intro fault run
    cases called : calls state with
    | ok result =>
        rw [ran, called] at run
        cases run
    | error other =>
        rw [ran, called] at run
        obtain rfl := Except.error.inj run
        exact makes.raised other called

/-- A walk goes on to make the calls that follow. -/
theorem Makes.bind {next : α → StateT σ (Except Fault) β}
    (first : Makes calls walk state cells left stored)
    (leaves : ∀ after, left after → leftAtEnd after)
    (follows : ∀ answers last after, left after → stored answers after →
      Makes (next answers) (rest ()) last after leftAtEnd storedAtEnd) :
    Makes (calls >>= next) (walk >>= rest) state cells leftAtEnd storedAtEnd := by
  cases ran : calls state with
  | error fault =>
      have failed : (calls >>= next) state = .error fault := by
        change Except.bind (calls state) _ = _
        rw [ran]
        rfl
      obtain ⟨after, ended, kept⟩ := first.raised fault ran
      constructor
      case returned =>
        intro answers last run
        rw [failed] at run
        cases run
      case raised =>
        intro other run
        obtain rfl := Except.error.inj (failed.symm.trans run)
        refine ⟨after, ?_, leaves after kept⟩
        change EStateM.bind (walk state) _ cells = _
        rw [EStateM.bind, ended]
  | ok result =>
      obtain ⟨answers, middle⟩ := result
      have onward : (calls >>= next) state = next answers middle := by
        change Except.bind (calls state) _ = _
        rw [ran]
        rfl
      obtain ⟨after, ended, kept, held⟩ := first.returned answers middle ran
      have goesOn : (walk >>= rest) state cells = rest () middle after := by
        change EStateM.bind (walk state) _ cells = _
        rw [EStateM.bind, ended]
      obtain ⟨returned, raised⟩ := follows answers middle after kept held
      exact ⟨fun answers last run => goesOn ▸ returned answers last (onward ▸ run),
        fun fault run => goesOn ▸ raised fault (onward ▸ run)⟩

end Writing

namespace Target

variable {target : Target} {index : List Nat} {cell : Nat} {cells : Array T} {fault : Fault}

/-- A change at a located index changes its cell. -/
theorem modifyAt_of_locate (located : target.locate cells.size index = .ok cell) (change : T → T) :
    target.modifyAt index change cells = .ok () (cells.modify cell change) := by
  obtain ⟨place, offset, found⟩ := Checked.bind_eq_ok.mp located
  rw [modifyAt, offset]
  exact Window.modifyAt_of_cell found change

/-- A change at an index that is not located fails and leaves the buffer as it is. -/
theorem modifyAt_of_error
    (lost : target.locate cells.size index = .error fault) (change : T → T) :
    target.modifyAt index change cells = .error fault cells := by
  rw [modifyAt]
  rw [locate] at lost
  cases placed : target.mapping.offset index with
  | error other =>
      rw [placed] at lost
      obtain rfl := Except.error.inj lost
      rfl
  | ok place =>
      rw [placed] at lost
      exact Window.modifyAt_of_missed lost change

/-- At a place the element of the cell is found, or the place is refused as past the end. -/
theorem held_of_offset (offset : target.mapping.offset index = .ok place) :
    target.held index cells = cells[target.window.start + place]?.elim
      (.error (.positionPastEnd (target.window.length cells.size) place) cells)
      fun own => .ok (target.window.start + place, own) cells := by
  have placed : (liftM (target.mapping.offset index) : Writing T Nat) cells = .ok place cells := by
    rw [offset]
    rfl
  rw [held, Writing.bind_of_ok placed, Writing.get_bind]
  cases cells[target.window.start + place]? <;> rfl

/-- The element at a located index is that of its cell. -/
theorem held_of_locate {own : T}
    (located : target.locate cells.size index = .ok cell) (found : cells[cell]? = some own) :
    target.held index cells = .ok (cell, own) cells := by
  obtain ⟨place, offset, inBuffer⟩ := Checked.bind_eq_ok.mp located
  obtain ⟨rfl, _⟩ := Window.cell_eq_ok.mp inBuffer
  rw [held_of_offset offset, found]
  rfl

/-- An element is refused with the fault of its cell. -/
theorem held_of_error
    (lost : target.locate cells.size index = .error fault) :
    target.held index cells = .error fault cells := by
  rw [locate] at lost
  cases placed : target.mapping.offset index with
  | error other =>
      rw [placed] at lost
      obtain rfl := Except.error.inj lost
      rw [held, placed]
      rfl
  | ok place =>
      rw [placed] at lost
      change target.window.cell cells.size place = _ at lost
      rw [Window.cell] at lost
      split at lost
      · cases lost
      · next outside =>
          obtain rfl := Except.error.inj lost
          rw [held_of_offset placed, Array.getElem?_eq_none (by omega)]
          rfl

/-- A call without an effect changes the element. -/
theorem callAt_pure (target : Target) (index : List Nat) (change : T → T) :
    target.callAt index (fun own => (pure (change own) : Writing T T)) =
      target.modifyAt index change := by
  funext cells
  cases located : target.locate cells.size index with
  | error fault =>
      rw [modifyAt_of_error located]
      change EStateM.bind (target.held index) _ cells = _
      rw [EStateM.bind, held_of_error located]
  | ok cell =>
      obtain ⟨place, _, found⟩ := Checked.bind_eq_ok.mp located
      have below := (Window.cell_eq_ok.mp found).2
      have holds : cells[cell]? = some cells[cell] := Array.getElem?_eq_getElem below
      have replaced : cells.setIfInBounds cell (change cells[cell]) = cells.modify cell change := by
        refine Array.ext_getElem? fun position => ?_
        rw [Array.getElem?_setIfInBounds, Array.getElem?_modify]
        by_cases same : cell = position
        · subst same
          simp [below]
        · simp [same]
      rw [modifyAt_of_locate located, ← replaced]
      exact Writing.bind_of_ok (held_of_locate located holds)

/-- A map changes the elements one by one. -/
theorem map_eq (target : Target) (change : T → T) :
    target.map change =
      Index.forM target.shape.sizes fun index => target.modifyAt index change := by
  rw [map, mapM]
  simp only [callAt_pure]

/-- A combination with a source changes the elements one by one, each behind the read of the other. -/
theorem zip_eq (target : Target) (change : T → T → T) (source : Source T) :
    target.zip change source =
      if target.shape.sameSizes source.shape then
        Index.forM target.shape.sizes fun index => do
          let other ← source.read index
          target.modifyAt index fun own => change own other
      else throw (.shapesDiffer target.shape source.shape) := by
  rw [zip, zipM]
  simp only [callAt_pure]
  rfl

section Calls

variable {σ : Type}

/-- A call at a located index puts its answer in place of the element, or ends with its fault. -/
theorem callAt_eq {own : T} (located : target.locate cells.size index = .ok cell)
    (found : cells[cell]? = some own) (call : T → StateT σ (Except Fault) T) (state : σ) :
    target.callAt index (fun own => Writing.calling (call own)) state cells =
      match call own state with
      | .ok (answer, last) => .ok ((), last) (cells.modify cell fun _ => answer)
      | .error fault => .error fault cells := by
  change EStateM.bind (EStateM.bind (target.held index) fun own => pure (own, state)) _ cells = _
  rw [EStateM.bind, EStateM.bind, held_of_locate located found]
  change EStateM.bind (liftM (call own state) : Writing T (T × σ)) _ cells = _
  cases call own state with
  | error fault => rfl
  | ok result =>
      obtain ⟨answer, last⟩ := result
      exact congrArg (EStateM.Result.ok ((), last)) (setIfInBounds_eq_modify cells cell answer)

/-- A call at a located index is made. -/
theorem makes_callAt {own : T} (located : target.locate cells.size index = .ok cell)
    (found : cells[cell]? = some own) (call : T → StateT σ (Except Fault) T) (state : σ) :
    Writing.Makes (call own) (target.callAt index fun own => Writing.calling (call own)) state cells
      (fun after => after.size = cells.size ∧
        ∀ position, cell ≠ position → after[position]? = cells[position]?)
      fun answer after => after[cell]? = some answer := by
  have step := callAt_eq located found call state
  have below := (Array.getElem?_eq_some_iff.mp found).1
  constructor
  case returned =>
    intro answer last ran
    rw [ran] at step
    refine ⟨_, step, ⟨Array.size_modify, fun position apart => ?_⟩, ?_⟩
    · simp [Array.getElem?_modify, apart]
    · simp [Array.getElem?_modify, found]
  case raised =>
    intro fault ran
    rw [ran] at step
    exact ⟨cells, step, rfl, fun _ _ => rfl⟩

/-- Calls at distinct indices are made, with the elements before, and their answers are in the cells of the
indices. -/
theorem makes_visits {size : Nat} {cell : List Nat → Nat} (addressed : target.Addressed size cell)
    (call : List Nat → T → StateT σ (Except Fault) T) (own : List Nat → T) {items : List (List Nat)}
    (distinct : items.Nodup) (inside : ∀ index ∈ items, Inside target.shape.sizes index)
    {cells : Array T} (fits : cells.size = size)
    (holds : ∀ index ∈ items, cells[cell index]? = some (own index)) (state : σ) :
    Writing.Makes (items.mapM fun index => call index (own index))
      (items.foldlM (fun _ index => target.callAt index fun own =>
        Writing.calling (call index own)) ()) state cells
      (fun after => after.size = size ∧
        ∀ position, (∀ index ∈ items, cell index ≠ position) → after[position]? = cells[position]?)
      fun answers after =>
        List.Forall₂ (fun index answer => after[cell index]? = some answer) items answers := by
  induction items generalizing cells state with
  | nil =>
      constructor
      case returned =>
        rintro _ _ ⟨⟩
        exact ⟨cells, rfl, ⟨fits, fun _ _ => rfl⟩, .nil⟩
      case raised => rintro _ ⟨⟩
  | cons index items ih =>
      obtain ⟨fresh, distinct⟩ := List.nodup_cons.mp distinct
      have located := addressed.located index (inside index (by simp))
      have apart (other : List Nat) (listed : other ∈ items) : cell index ≠ cell other := by
        intro same
        have equal := addressed.apart index other (inside index (by simp))
          (inside other (by simp [listed])) same
        exact fresh (equal ▸ listed)
      -- The cells are apart, so the calls to come find their elements and leave this answer.
      rw [List.mapM_cons, List.foldlM_cons]
      refine (makes_callAt (fits ▸ located) (holds index (by simp)) (call index) state).bind ?_ ?_
      · rintro after ⟨kept, others⟩
        exact ⟨kept.trans fits, fun position unnamed => others position (unnamed index (by simp))⟩
      · rintro answer last middle ⟨kept, others⟩ stored
        rw [bind_pure_comp]
        have rest := ih distinct (fun other listed => inside other (by simp [listed]))
          (kept.trans fits) (fun other listed => ?_) last
        · refine (rest.map (answer :: ·) ?_).imp ?_ fun _ _ _ held => held
          · rintro answers after ⟨_, same⟩ held
            refine .cons ?_ held
            rw [same (cell index) fun other listed => (apart other listed).symm]
            exact stored
          · rintro after ⟨size, same⟩
            refine ⟨size, fun position unnamed => ?_⟩
            rw [same position fun other listed => unnamed other (by simp [listed])]
            exact others position (unnamed index (by simp))
        · rw [others _ (apart other listed)]
          exact holds other (by simp [listed])

end Calls

end Target

end ShapedTensor

import ShapedTensor.Proofs.Index.Odometer

/-! An action that fails has changed the buffer up to its fault. -/

namespace ShapedTensor

open Index

variable {T α β σ ι : Type}

namespace Writing

/-- The buffer that an action leaves, whether it succeeds or not. -/
def left (action : Writing T α) (cells : Array T) : Array T :=
  match action cells with
  | .ok _ after => after
  | .error _ after => after

theorem left_of_ok {action : Writing T α} {cells after : Array T} {result : α}
    (run : action cells = .ok result after) : left action cells = after := by
  rw [left, run]

/-- What an action ends in: its result, if it succeeds, and the buffer that it leaves. -/
def outcome (action : Writing T α) (cells : Array T) : Option α × Array T :=
  match action cells with
  | .ok result after => (some result, after)
  | .error _ after => (none, after)

/-- An action ends like another when its first part and what follows do. -/
theorem outcome_bind {action other : Writing T α} {next otherNext : α → Writing T β}
    (first : outcome action = outcome other)
    (rest : ∀ value, outcome (next value) = outcome (otherNext value)) :
    outcome (action >>= next) = outcome (other >>= otherNext) := by
  funext cells
  have start := congrFun first cells
  change outcome (EStateM.bind action next) cells = outcome (EStateM.bind other otherNext) cells
  simp only [outcome, EStateM.bind] at start ⊢
  cases ran : action cells <;> cases otherRan : other cells <;> simp only [ran, otherRan] at start ⊢
  case ok.ok value middle otherValue otherMiddle =>
    obtain ⟨rfl, rfl⟩ : value = otherValue ∧ middle = otherMiddle := by simpa using start
    exact congrFun (rest value) middle
  case ok.error => simp at start
  case error.ok => simp at start
  case error.error => simpa using start

/-- A run ends like another when every step does. -/
theorem outcome_foldlM {items : List ι} {step other : σ → ι → Writing T σ}
    (steps : ∀ state, ∀ item ∈ items, outcome (step state item) = outcome (other state item))
    (state : σ) : outcome (items.foldlM step state) = outcome (items.foldlM other state) := by
  induction items generalizing state with
  | nil => rfl
  | cons item items ih =>
      rw [List.foldlM_cons, List.foldlM_cons]
      apply outcome_bind
      · exact steps state item (by simp)
      · exact fun next => ih (fun state after listed => steps state after (by simp [listed])) next

/-- A relation of buffers that goes on from one to the next. -/
structure Chained (related : Array T → Array T → Prop) : Prop where
  refl : ∀ cells, related cells cells
  trans : ∀ first second third, related first second → related second third → related first third

/-- An action moves within a relation when it leaves a buffer related to the one that it found. -/
def Moves (related : Array T → Array T → Prop) (action : Writing T α) : Prop :=
  ∀ cells, related cells (left action cells)

variable {related : Array T → Array T → Prop} (chained : Chained related)
include chained

theorem Chained.lift (value : Except Fault α) : Moves related (liftM value : Writing T α) := by
  intro cells
  cases value <;> exact chained.refl cells

/-- An action moves within a relation when both its parts do. -/
theorem Chained.bind {action : Writing T α} {next : α → Writing T β} (first : Moves related action)
    (rest : ∀ value, Moves related (next value)) : Moves related (action >>= next) := by
  intro cells
  have start := first cells
  change related cells (left (EStateM.bind action next) cells)
  rw [left] at start
  rw [left, EStateM.bind]
  cases run : action cells with
  | ok value middle =>
      rw [run] at start
      exact chained.trans _ _ _ start (rest value middle)
  | error fault middle =>
      rw [run] at start
      exact start

/-- A run moves within a relation when every step does. -/
theorem Chained.foldlM {step : σ → ι → Writing T σ} {items : List ι}
    (steps : ∀ state, ∀ item ∈ items, Moves related (step state item)) (state : σ) :
    Moves related (items.foldlM step state) := by
  induction items generalizing state with
  | nil => exact chained.lift (.ok state)
  | cons item items ih =>
      rw [List.foldlM_cons]
      refine chained.bind (steps state item (by simp)) fun next => ?_
      exact ih (fun state other listed => steps state other (by simp [listed])) next

/-- A walk moves within a relation when it does at every index. -/
theorem Chained.walk {sizes : List Nat} {visit : List Nat → Writing T Unit}
    (visits : ∀ index, Inside sizes index → Moves related (visit index)) :
    Moves related (Index.forM sizes visit) := by
  rw [Index.forM, Index.foldM_eq]
  exact chained.foldlM (fun _ index listed => visits index (mem_all.mp listed)) ()

/-- The odometer moves within a relation when every step at an index of its box does. -/
theorem Chained.odometer {sizes : List Nat} {step : σ → List Nat → Writing T σ}
    (steps : ∀ state index, Inside sizes index → Moves related (step state index)) (state : σ) :
    Moves related (Odometer.foldM sizes step state) := by
  have runs (fuel : Nat) : ∀ index state, Inside sizes index →
      Moves related
        (runM (fun index => liftM (Odometer.advance sizes index)) step fuel index state) := by
    induction fuel with
    | zero => exact fun _ state _ => chained.lift (.ok state)
    | succ fuel ih =>
        intro index state inside cells
        refine chained.bind (steps state index inside) (fun state cells => ?_) cells
        -- The next index is inside the box only if the odometer has found it.
        change related cells (left (liftM (Odometer.advance sizes index) >>= _) cells)
        cases advanced : Odometer.advance sizes index with
        | error fault => exact chained.refl cells
        | ok found =>
            cases found with
            | none => exact chained.refl cells
            | some next => exact ih next state (Odometer.inside_advance inside advanced) cells
  unfold Odometer.foldM sweepM
  split
  · exact chained.lift (.ok state)
  · next filled => exact runs _ _ state (inside_first (by simpa using filled))

end Writing

end ShapedTensor

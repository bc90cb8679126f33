import ShapedTensor.Proofs.Index.Odometer
import ShapedTensor.Source

namespace ShapedTensor

open Index

variable {T α β σ ι : Type} {causes : Fault → Prop}

namespace Checked

/-- A computation raises no fault but those of certain causes. -/
def Raises (causes : Fault → Prop) (value : Except Fault α) : Prop :=
  ∀ fault, value = .error fault → causes fault

theorem Raises.ok (result : α) : Raises causes (.ok result) := by
  intro fault raised
  cases raised

/-- A refusal raises its own fault. -/
theorem Raises.error {fault : Fault} (cause : causes fault) :
    Raises causes (.error fault : Except Fault α) := by
  intro other raised
  obtain rfl := Except.error.inj raised
  exact cause

/-- What raises certain faults raises no others than a larger class of them. -/
theorem Raises.mono {other : Fault → Prop} {value : Except Fault α} (raises : Raises causes value)
    (larger : ∀ fault, causes fault → other fault) : Raises other value :=
  fun fault raised => larger fault (raises fault raised)

/-- A computation raises what its first part raises, and behind its success what the rest raises. -/
theorem Raises.bind {value : Except Fault α} {next : α → Except Fault β} (first : Raises causes value)
    (rest : ∀ middle, value = .ok middle → Raises causes (next middle)) :
    Raises causes (value >>= next) := by
  cases value with
  | ok middle => exact rest middle rfl
  | error fault => exact .error (first fault rfl)

/-- The image of a computation raises what the computation raises. -/
theorem Raises.map {value : Except Fault α} (raises : Raises causes value) (image : α → β) :
    Raises causes (image <$> value) := by
  cases value with
  | ok result => exact .ok (image result)
  | error fault => exact .error (raises fault rfl)

/-- A guard raises its refusal or what it guards. -/
theorem Raises.ite {condition : Prop} [Decidable condition] {value : Except Fault α} {fault : Fault}
    (kept : condition → Raises causes value) (refused : ¬condition → causes fault) :
    Raises causes (if condition then value else .error fault) := by
  split
  · next holds => exact kept holds
  · next fails => exact .error (refused fails)

/-- A run raises what its steps raise. -/
theorem Raises.foldlM {step : σ → ι → Except Fault σ} {items : List ι}
    (steps : ∀ state, ∀ item ∈ items, Raises causes (step state item)) (state : σ) :
    Raises causes (items.foldlM step state) := by
  induction items generalizing state with
  | nil => exact .ok state
  | cons item items ih =>
      rw [List.foldlM_cons]
      refine (steps state item (by simp)).bind fun next _ => ?_
      exact ih (fun state other listed => steps state other (by simp [listed])) next

/-- The elements of a source are raised over by nothing but its reads. -/
theorem Raises.elements {source : Source T}
    (reads : ∀ index, Inside source.shape.sizes index → Raises causes (source.read index)) :
    Raises causes source.elements := by
  rw [Source.elements, Index.collectM, Index.foldM_eq]
  exact foldlM (fun _ index listed => (reads index (mem_all.mp listed)).map _) #[]

end Checked

namespace Writing

/-- An action raises no fault but those of certain causes, in any buffer. -/
def Raises (causes : Fault → Prop) (action : Writing T α) : Prop :=
  ∀ cells after fault, action cells = .error fault after → causes fault

/-- What succeeds in every buffer raises nothing. -/
theorem Raises.of_ok {action : Writing T α}
    (succeeds : ∀ cells, ∃ result after, action cells = .ok result after) : Raises causes action := by
  intro cells after fault raised
  obtain ⟨result, other, run⟩ := succeeds cells
  rw [run] at raised
  cases raised

/-- A computation without a buffer raises the same in a buffer. -/
theorem Raises.lift {value : Except Fault α} (raises : Checked.Raises causes value) :
    Raises causes (liftM value : Writing T α) := by
  intro cells after fault raised
  cases value with
  | ok result => cases raised
  | error other =>
      obtain ⟨rfl, _⟩ := EStateM.Result.error.inj raised
      exact raises other rfl

/-- An action raises what its parts raise. -/
theorem Raises.bind {action : Writing T α} {next : α → Writing T β} (first : Raises causes action)
    (rest : ∀ value, Raises causes (next value)) : Raises causes (action >>= next) := by
  intro cells after fault raised
  change EStateM.bind action next cells = _ at raised
  rw [EStateM.bind] at raised
  cases run : action cells with
  | ok value middle =>
      rw [run] at raised
      exact rest value middle after fault raised
  | error other middle =>
      rw [run] at raised
      obtain ⟨rfl, _⟩ := EStateM.Result.error.inj raised
      exact first cells middle other run

end Writing

namespace Odometer

/-- The odometer raises nothing but an overflow of a coordinate. -/
theorem raises_advance (overflow : causes .sumOverflow) (sizes index : List Nat) :
    Checked.Raises causes (advance sizes index) := by
  induction sizes generalizing index with
  | nil => exact .ok none
  | cons size sizes ih =>
      cases index with
      | nil => exact .ok none
      | cons coordinate index =>
          refine (ih index).bind fun found _ => ?_
          cases found with
          | some rest => exact .ok _
          | none =>
              have next : Checked.Raises causes (Size.add coordinate 1) :=
                .ite (fun _ => .ok _) fun _ => overflow
              exact next.bind fun _ _ => .ok _

/-- A run of the odometer raises what its steps raise, or an overflow of a coordinate. -/
theorem raises_foldM (overflow : causes .sumOverflow) {sizes : List Nat}
    {step : σ → List Nat → Writing T σ}
    (steps : ∀ state index, Writing.Raises causes (step state index)) (state : σ) :
    Writing.Raises causes (Odometer.foldM sizes step state) := by
  have runs (fuel : Nat) : ∀ index state,
      Writing.Raises causes
        (runM (fun index => liftM (advance sizes index)) step fuel index state) := by
    induction fuel with
    | zero => exact fun _ _ => .of_ok fun _ => ⟨_, _, rfl⟩
    | succ fuel ih =>
        intro index state
        refine (steps state index).bind fun state => ?_
        refine (Writing.Raises.lift (raises_advance overflow sizes index)).bind fun found => ?_
        cases found with
        | none => exact .of_ok fun _ => ⟨_, _, rfl⟩
        | some next => exact ih next state
  unfold Odometer.foldM sweepM
  split
  · exact .of_ok fun _ => ⟨_, _, rfl⟩
  · exact runs _ _ state

end Odometer

end ShapedTensor

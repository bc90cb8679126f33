import ShapedTensor.Index.Odometer
import ShapedTensor.Proofs.Index.Walk
import ShapedTensor.Proofs.Run.Checked
import ShapedTensor.Proofs.Run.Writing

namespace ShapedTensor.Odometer

open Index

/-- The odometer advances behind its first coordinate, and counts this one on at the end of the others. -/
theorem advance_cons (size first : Nat) (sizes index : List Nat) :
    advance (size :: sizes) (first :: index) = (do
      match ← advance sizes index with
      | some rest => return some (first :: rest)
      | none =>
          let next ← Size.add first 1
          return if next < size then some (next :: index.map fun _ => 0) else none) :=
  rfl

/-- Where the odometer advances inside a box, the walk goes on in the same way. -/
theorem next_of_advance {sizes index : List Nat} (inside : Inside sizes index)
    {found : Option (List Nat)} (advanced : advance sizes index = .ok found) :
    next sizes index = found := by
  induction inside generalizing found with
  | nil => exact Except.ok.inj advanced
  | @cons first size index sizes less inside ih =>
      rw [advance_cons] at advanced
      obtain ⟨rest, behind, advanced⟩ := Checked.bind_eq_ok.mp advanced
      rw [next_cons inside, ih behind]
      cases rest with
      | some rest => exact Except.ok.inj advanced
      | none =>
          obtain ⟨successor, counted, advanced⟩ := Checked.bind_eq_ok.mp advanced
          obtain ⟨rfl, _⟩ := Size.add_eq_ok.mp counted
          rw [← Inside.restart inside]
          exact Except.ok.inj advanced

/-- Inside a box of words the odometer advances, since no coordinate that counts on exceeds its size. -/
theorem advance_eq {sizes index : List Nat} (words : ∀ size ∈ sizes, size < Size.bound)
    (inside : Inside sizes index) : advance sizes index = .ok (next sizes index) := by
  have advances : ∃ found, advance sizes index = .ok found := by
    induction inside with
    | nil => exact ⟨none, rfl⟩
    | @cons first size index sizes less _ ih =>
        have word : size < Size.bound := words size (by simp)
        have counted : Size.add first 1 = .ok (first + 1) := Size.add_eq_ok.mpr ⟨rfl, by omega⟩
        obtain ⟨found, advanced⟩ := ih fun size listed => words size (by simp [listed])
        rw [advance_cons, advanced]
        cases found with
        | some rest => exact ⟨some (first :: rest), rfl⟩
        | none =>
            exact ⟨_, Checked.bind_eq_ok.mpr ⟨none, rfl,
              Checked.bind_eq_ok.mpr ⟨first + 1, counted, rfl⟩⟩⟩
  obtain ⟨found, advanced⟩ := advances
  rw [advanced, next_of_advance inside advanced]

/-- From an index inside a box the odometer advances to one inside. -/
theorem inside_advance {sizes index following : List Nat} (inside : Inside sizes index)
    (advanced : advance sizes index = .ok (some following)) : Inside sizes following := by
  have found := next_of_advance inside advanced
  rcases next_remaining inside with ⟨other, same, otherInside, _⟩ | ⟨ended, _⟩
  · obtain rfl := Option.some.inj (same.symm.trans found)
    exact otherInside
  · rw [ended] at found
    cases found

/-- The odometer runs over the list of all indices of its box. -/
theorem foldM_eq {m : Type → Type} [Monad m] [LawfulMonad m] [MonadLiftT (Except Fault) m] {σ : Type}
    {sizes : List Nat} (words : ∀ size ∈ sizes, size < Size.bound)
    (lifted : ∀ value : Option (List Nat),
      (liftM (n := m) (Except.ok value : Except Fault (Option (List Nat)))) = pure value)
    (step : σ → List Nat → m σ) (state : σ) :
    foldM sizes step state = (all sizes).foldlM step state := by
  refine sweepM_eq (fun index inside => ?_) step state
  rw [advance_eq words inside, lifted]

/-- The odometer visits the same indices as the walk, in the same order. -/
theorem visited_eq {sizes : List Nat} (words : ∀ size ∈ sizes, size < Size.bound) :
    visited sizes = .ok (Index.visited sizes) := by
  have collected : foldM sizes (fun seen index => .ok (seen.push index)) #[] =
      (.ok (all sizes).toArray : Except Fault _) := by
    rw [foldM_eq words fun _ => rfl]
    refine (foldlM_push (m := Except Fault) (all sizes) pure #[]).trans ?_
    rw [List.mapM_pure, List.map_id', map_pure, Array.empty_append]
    rfl
  rw [visited, collected, Index.visited_eq]
  rfl

section Buffer

variable {T σ : Type} {sizes : List Nat}

/-- What every step keeps of a buffer, the odometer keeps. -/
theorem keeps_foldM {property : Array T → Prop} {step : σ → List Nat → Writing T σ}
    (steps : ∀ state index, Writing.Keeps property (step state index)) (state : σ) :
    Writing.Keeps property (foldM sizes step state) := by
  have done (state : σ) : Writing.Keeps property (pure state : Writing T σ) :=
    Writing.Keeps.lift property (.ok state)
  have walk (fuel : Nat) : ∀ index state, Writing.Keeps property
      (runM (fun index => liftM (advance sizes index)) step fuel index state) := by
    induction fuel with
    | zero => exact fun _ state => done state
    | succ fuel ih =>
        intro index state
        refine (steps state index).bind fun state => (Writing.Keeps.lift property _).bind fun next => ?_
        cases next with
        | some next => exact ih next state
        | none => exact done state
  unfold foldM sweepM
  split
  · exact done state
  · exact walk _ _ state

/-- The odometer follows another one when each of its steps follows that one's. -/
theorem follows_foldM {leader step : σ → List Nat → Writing T σ}
    (steps : ∀ state index, Writing.Follows (leader state index) (step state index)) (state : σ) :
    Writing.Follows (foldM sizes leader state) (foldM sizes step state) := by
  have walk (fuel : Nat) : ∀ index state, Writing.Follows
      (runM (fun index => liftM (advance sizes index)) leader fuel index state)
      (runM (fun index => liftM (advance sizes index)) step fuel index state) := by
    induction fuel with
    | zero => exact fun _ state => .refl _
    | succ fuel ih =>
        intro index state
        refine (steps state index).bind fun state => (Writing.Follows.refl _).bind fun next => ?_
        cases next with
        | some next => exact ih next state
        | none => exact .refl _
  unfold foldM sweepM
  split
  · exact .refl _
  · exact walk _ _ state

end Buffer

end ShapedTensor.Odometer

import ShapedTensor.Fault

namespace ShapedTensor.Checked

variable {α β σ ι : Type}

/-- A computation succeeds when its first part does and the rest succeeds after it. -/
theorem bind_eq_ok {value : Except Fault α} {next : α → Except Fault β} {result : β} :
    (value >>= next) = .ok result ↔ ∃ middle, value = .ok middle ∧ next middle = .ok result := by
  cases value with
  | ok middle =>
      change next middle = _ ↔ _
      simp
  | error fault =>
      change Except.error fault = _ ↔ _
      simp

/-- A computation behind a check succeeds when the check does and it does itself. -/
theorem check_eq_ok {check : Except Fault Unit} {next : Unit → Except Fault β} {result : β} :
    (check >>= next) = .ok result ↔ check = .ok () ∧ next () = .ok result := by
  rw [bind_eq_ok]
  exact ⟨fun ⟨_, passed, run⟩ => ⟨passed, run⟩, fun ⟨passed, run⟩ => ⟨(), passed, run⟩⟩

/-- The image of a computation succeeds when the computation does. -/
theorem map_eq_ok {value : Except Fault α} {image : α → β} {result : β} :
    image <$> value = .ok result ↔ ∃ middle, value = .ok middle ∧ image middle = result := by
  cases value with
  | ok middle =>
      change Except.ok (image middle) = _ ↔ _
      simp
  | error fault =>
      change Except.error fault = _ ↔ _
      simp

/-- A guard succeeds when its condition holds. -/
theorem ite_eq_ok {condition : Prop} [Decidable condition] {value : Except Fault α} {fault : Fault}
    {result : α} :
    (if condition then value else .error fault) = .ok result ↔ condition ∧ value = .ok result := by
  split <;> simp_all

/-- A run succeeds like another one when each of its steps does. -/
theorem foldlM_imp {items : List ι} {step other : σ → ι → Except Fault σ}
    (follows : ∀ state, ∀ item ∈ items, ∀ next, step state item = .ok next →
      other state item = .ok next) {start last : σ}
    (run : items.foldlM step start = .ok last) : items.foldlM other start = .ok last := by
  induction items generalizing start with
  | nil => exact run
  | cons item items ih =>
      rw [List.foldlM_cons] at run ⊢
      obtain ⟨next, first, rest⟩ := bind_eq_ok.mp run
      refine bind_eq_ok.mpr ⟨next, follows start item (by simp) next first, ?_⟩
      exact ih (fun state other listed => follows state other (by simp [listed])) rest

/-- What every step keeps true of the state, a run keeps true. -/
theorem foldlM_inv {items : List ι} {step : σ → ι → Except Fault σ} {property : σ → Prop}
    (keeps : ∀ state item next, property state → step state item = .ok next → property next)
    {start last : σ} (holds : property start) (run : items.foldlM step start = .ok last) :
    property last := by
  induction items generalizing start with
  | nil =>
      obtain rfl := Except.ok.inj run
      exact holds
  | cons item items ih =>
      rw [List.foldlM_cons] at run
      obtain ⟨next, first, rest⟩ := bind_eq_ok.mp run
      exact ih (keeps start item next holds first) rest

/-- In a run that succeeds, the step of each item succeeded from some state. -/
theorem foldlM_ran {items : List ι} {step : σ → ι → Except Fault σ} {start last : σ}
    (run : items.foldlM step start = .ok last) :
    ∀ item ∈ items, ∃ state next, step state item = .ok next := by
  induction items generalizing start with
  | nil => simp
  | cons item items ih =>
      rw [List.foldlM_cons] at run
      obtain ⟨next, first, rest⟩ := bind_eq_ok.mp run
      rw [List.forall_mem_cons]
      exact ⟨⟨start, next, first⟩, ih rest⟩

end ShapedTensor.Checked

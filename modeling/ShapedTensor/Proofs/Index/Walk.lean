import ShapedTensor.Proofs.Index.Box

namespace ShapedTensor.Index

/-- The indices from the given one to the last, in the order of the box. -/
def remaining : (sizes index : List Nat) → List (List Nat)
  | size :: sizes, first :: index =>
      (remaining sizes index).map (first :: ·) ++
        (List.range' (first + 1) (size - (first + 1))).flatMap fun next =>
          (all sizes).map (next :: ·)
  | _, _ => [[]]

/-- From the first index on, the whole box is left. -/
theorem remaining_first {sizes : List Nat} (filled : 0 ∉ sizes) :
    remaining sizes (sizes.map fun _ => 0) = all sizes := by
  induction sizes with
  | nil => rfl
  | cons size sizes ih =>
      obtain ⟨positive, rest⟩ : 0 ≠ size ∧ 0 ∉ sizes := by simpa using filled
      have range : List.range size = 0 :: List.range' 1 (size - 1) := by
        conv_lhs => rw [List.range_eq_range', show size = size - 1 + 1 by omega, List.range'_succ]
      rw [List.map_cons, remaining, ih rest, all, range, List.flatMap_cons]

/-- A coordinate that does not reach its size moves on, and those after it start again. -/
theorem remaining_carry {size first : Nat} {sizes index : List Nat} (more : first + 1 < size)
    (filled : 0 ∉ sizes) (last : remaining sizes index = [index]) :
    remaining (size :: sizes) (first :: index) =
      (first :: index) :: remaining (size :: sizes) ((first + 1) :: sizes.map fun _ => 0) := by
  have range : List.range' (first + 1) (size - (first + 1)) =
      (first + 1) :: List.range' (first + 1 + 1) (size - (first + 1 + 1)) := by
    rw [show size - (first + 1) = size - (first + 1 + 1) + 1 by omega, List.range'_succ]
  rw [remaining, remaining, last, remaining_first filled, range]
  rfl

/-- Inside a box the coordinates after one that counts on start again from the first index. -/
theorem Inside.restart {sizes index : List Nat} (inside : Inside sizes index) :
    (index.map fun _ => 0) = sizes.map fun _ => 0 := by
  rw [List.map_const', List.map_const', inside.length_eq]

/-- The index after one inside a box: the coordinates behind the first one advance, and if they were the
last ones the first one counts on. -/
theorem next_cons {size first : Nat} {sizes index : List Nat} (inside : Inside sizes index) :
    next (size :: sizes) (first :: index) =
      match next sizes index with
      | some rest => some (first :: rest)
      | none => if first + 1 < size then some ((first + 1) :: sizes.map fun _ => 0) else none := by
  rw [← Inside.restart inside]
  change (match next sizes index with
    | some rest => some (first :: rest)
    | none => if first + 1 < size then some ((first + 1) :: index.map fun _ => 0) else none) = _
  rfl

/-- One advance leaves an index for the next one that remains, and the last one for none. -/
theorem next_remaining {sizes index : List Nat} (inside : Inside sizes index) :
    (∃ following, next sizes index = some following ∧ Inside sizes following ∧
      remaining sizes index = index :: remaining sizes following) ∨
    (next sizes index = none ∧ remaining sizes index = [index]) := by
  induction inside with
  | nil => exact .inr ⟨rfl, rfl⟩
  | @cons first size index sizes less inside ih =>
      rw [next_cons inside]
      rcases ih with ⟨rest, advanced, restInside, left⟩ | ⟨ended, left⟩
      · refine .inl ⟨first :: rest, ?_, .cons less restInside, ?_⟩
        · rw [advanced]
        · rw [remaining, remaining, left, List.map_cons, List.cons_append]
      · have filled := Inside.zero_notMem inside
        rw [ended]
        by_cases more : first + 1 < size
        · exact .inl ⟨_, if_pos more, .cons more (inside_first filled), remaining_carry more filled left⟩
        · refine .inr ⟨if_neg more, ?_⟩
          rw [remaining, left, show size - (first + 1) = 0 by omega]
          rfl

section Loop

variable {m : Type → Type} [Monad m] {σ : Type} {advance : List Nat → m (Option (List Nat))}

/-- A loop that begins at an index passes through a list of indices when each is followed by the next one
of the list, and the last one by none. -/
inductive Passes (advance : List Nat → m (Option (List Nat))) : List Nat → List (List Nat) → Prop where
  | last {index : List Nat} (ended : advance index = pure none) : Passes advance index [index]
  | next {index following : List Nat} {visits : List (List Nat)}
      (advanced : advance index = pure (some following)) (rest : Passes advance following visits) :
      Passes advance index (index :: visits)

/-- A loop that advances as the box does passes through the indices that are left. -/
theorem passes_remaining {sizes : List Nat}
    (advances : ∀ index, Inside sizes index → advance index = pure (next sizes index))
    {index : List Nat} (inside : Inside sizes index) :
    Passes advance index (remaining sizes index) := by
  -- One advance shortens what is left by the index that it leaves behind.
  generalize length : (remaining sizes index).length = count
  induction count generalizing index with
  | zero => rcases next_remaining inside with ⟨_, _, _, left⟩ | ⟨_, left⟩ <;> simp [left] at length
  | succ count ih =>
      have advanced := advances index inside
      rcases next_remaining inside with ⟨following, found, followingInside, left⟩ | ⟨ended, left⟩
      · rw [left, List.length_cons, Nat.add_right_cancel_iff] at length
        rw [left]
        exact .next (advanced.trans (congrArg pure found)) (ih followingInside length)
      · rw [left]
        exact .last (advanced.trans (congrArg pure ended))

variable [LawfulMonad m]

/-- A loop that ends runs over the indices that it passes, with any fuel that is enough for them. -/
theorem Passes.runM_eq {index : List Nat} {visits : List (List Nat)}
    (passes : Passes advance index visits) (step : σ → List Nat → m σ) {fuel : Nat}
    (enough : visits.length ≤ fuel) (state : σ) :
    runM advance step fuel index state = visits.foldlM step state := by
  induction passes generalizing fuel state with
  | last ended =>
      obtain ⟨fuel, rfl⟩ := Nat.exists_eq_add_one_of_ne_zero (show fuel ≠ 0 from Nat.ne_of_gt enough)
      rw [runM, List.foldlM_cons]
      refine bind_congr fun state => ?_
      rw [ended, pure_bind, List.foldlM_nil]
  | next advanced _ ih =>
      obtain ⟨fuel, rfl⟩ := Nat.exists_eq_add_one_of_ne_zero (show fuel ≠ 0 from Nat.ne_of_gt
        (Nat.lt_of_lt_of_le (Nat.succ_pos _) enough))
      rw [runM, List.foldlM_cons]
      refine bind_congr fun state => ?_
      rw [advanced, pure_bind]
      exact ih (by simpa using enough) state

/-- A loop that advances as the box does runs over the list of all indices. -/
theorem sweepM_eq {sizes : List Nat}
    (advances : ∀ index, Inside sizes index → advance index = pure (next sizes index))
    (step : σ → List Nat → m σ) (state : σ) :
    sweepM advance sizes step state = (all sizes).foldlM step state := by
  unfold sweepM
  split
  · next empty => rw [all_eq_nil (by simpa using empty), List.foldlM_nil]
  · next filled =>
      have filled : 0 ∉ sizes := by simpa using filled
      have passes := passes_remaining advances (inside_first filled)
      rw [remaining_first filled] at passes
      refine passes.runM_eq step ?_ state
      rw [length_all, List.prod_eq_foldl]

/-- A walk runs over the list of all indices. -/
theorem foldM_eq (sizes : List Nat) (step : σ → List Nat → m σ) (state : σ) :
    foldM sizes step state = (all sizes).foldlM step state :=
  sweepM_eq (fun _ _ => rfl) step state

end Loop

section Collect

variable {m : Type → Type} [Monad m] [LawfulMonad m] {ι α : Type}

/-- Pushing what an action gives at item after item collects the results in the order of the items. -/
theorem foldlM_push (items : List ι) (entry : ι → m α) (seen : Array α) :
    items.foldlM (fun values item => values.push <$> entry item) seen =
      (fun values => seen ++ values.toArray) <$> items.mapM entry := by
  induction items generalizing seen with
  | nil => simp
  | cons item items ih =>
      rw [List.foldlM_cons, List.mapM_cons, bind_map_left, map_bind]
      refine bind_congr fun value => ?_
      rw [ih, bind_pure_comp, Functor.map_map]
      simp

/-- A collection asks for an entry at each index once, in the order of the box. -/
theorem collectM_eq (sizes : List Nat) (entry : List Nat → m α) :
    collectM sizes entry = List.toArray <$> (all sizes).mapM entry := by
  rw [collectM, foldM_eq, foldlM_push]
  simp

end Collect

theorem visited_eq (sizes : List Nat) : visited sizes = all sizes := by
  have collected : collectM (m := Id) sizes pure = (all sizes).toArray := by
    rw [collectM_eq, List.mapM_pure, List.map_id']
    rfl
  exact congrArg Array.toList collected

end ShapedTensor.Index

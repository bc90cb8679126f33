import ShapedTensor.Proofs.Contraction.Plan

namespace ShapedTensor.Contraction

open Index

/-- The first numbers and those that follow them are all numbers below the last one. -/
theorem range_add (start count : Nat) :
    List.range (start + count) = List.range start ++ List.range' start count := by
  rw [List.range_eq_range', List.range_eq_range', ← List.range'_append_1, Nat.zero_add]

/-- Behind the last axes the first ones stay free. -/
theorem freeAxes_range' (start count : Nat) :
    freeAxes (List.range' start count) (start + count) = List.range start := by
  have kept : (List.range start).filter (fun axis => axis ∉ List.range' start count) =
      List.range start := by
    rw [List.filter_eq_self]
    intro axis listed
    have below := List.mem_range.mp listed
    simp [List.mem_range'_1]
    omega
  have dropped : (List.range' start count).filter
      (fun axis => axis ∉ List.range' start count) = [] := by
    rw [List.filter_eq_nil_iff]
    intro axis listed
    simpa using listed
  rw [freeAxes, range_add, List.filter_append, kept, dropped, List.append_nil]

/-- Before the first axes the last ones stay free. -/
theorem freeAxes_range (count rest : Nat) :
    freeAxes (List.range count) (count + rest) = List.range' count rest := by
  have dropped : (List.range count).filter (fun axis => axis ∉ List.range count) = [] := by
    rw [List.filter_eq_nil_iff]
    intro axis listed
    simpa using listed
  have kept : (List.range' count rest).filter (fun axis => axis ∉ List.range count) =
      List.range' count rest := by
    rw [List.filter_eq_self]
    intro axis listed
    have above := (List.mem_range'_1.mp listed).1
    simpa using above
  rw [freeAxes, range_add, List.filter_append, kept, dropped, List.nil_append]

section Entries

variable {α : Type} (default : α)

/-- The entries at the last axes are the last entries. -/
theorem map_getD_range' (first rest : List α) :
    (List.range' first.length rest.length).map ((first ++ rest).getD · default) = rest := by
  refine List.ext_getElem (by simp) fun place _ inside => ?_
  simp [inside]

/-- The entries at the first axes are the first entries. -/
theorem map_getD_range (first rest : List α) :
    (List.range first.length).map ((first ++ rest).getD · default) = first := by
  refine List.ext_getElem (by simp) fun place _ inside => ?_
  simp [inside, List.getElem?_append_left]

/-- The entries at the first axes of a list are what it begins with. -/
theorem map_getD_take (items : List α) {count : Nat} (enough : count ≤ items.length) :
    (List.range count).map (items.getD · default) = items.take count := by
  have first := map_getD_range default (items.take count) (items.drop count)
  rwa [List.take_append_drop, List.length_take_of_le enough] at first

/-- The entries at the axes from a start on are what the list ends with. -/
theorem map_getD_drop (items : List α) {start : Nat} (enough : start ≤ items.length) :
    (List.range' start (items.length - start)).map (items.getD · default) = items.drop start := by
  have rest := map_getD_range' default (items.take start) (items.drop start)
  rwa [List.take_append_drop, List.length_take_of_le enough, List.length_drop] at rest

end Entries

variable (outer inner last : List Nat)

/-- The contraction of last axes with first ones, which keeps `outer` on the left and `last` on the
right. -/
def adjacent : Contraction where
  pairs := (List.range' outer.length inner.length).zip (List.range inner.length)
  freeLeft := List.range outer.length
  freeRight := List.range' inner.length last.length
  contractedSizes := inner
  outputSizes := outer ++ last

/-- Adjacent axes of the same sizes are accepted. -/
theorem plan_adjacent :
    plan (List.range' outer.length inner.length) (outer ++ inner) (List.range inner.length)
      (inner ++ last) = .ok (adjacent outer inner last) := by
  refine plan_eq_ok.mpr ⟨by simp, ⟨List.nodup_range', ?_⟩, ⟨List.nodup_range, ?_⟩, ?_, ?_⟩
  · intro axis listed
    have above := (List.mem_range'_1.mp listed).2
    simpa using above
  · intro axis listed
    have below := List.mem_range.mp listed
    simp
    omega
  · intro pair listed
    obtain ⟨place, inside, rfl⟩ := List.mem_iff_getElem.mp listed
    have below : place < inner.length := by simpa using inside
    simp [below, List.getElem?_append_left]
  · rw [ofAxes, adjacent, List.length_append, List.length_append, freeAxes_range', freeAxes_range,
      map_getD_range', map_getD_range', map_getD_range]

variable {outer inner last} {first summed rest : List Nat}

/-- The left operand is read at its output coordinates followed by the summed ones. -/
theorem leftIndex_adjacent (firstInside : Inside outer first) (summedInside : Inside inner summed)
    (restInside : Inside last rest) :
    (adjacent outer inner last).leftIndex summed (first ++ rest) = first ++ summed := by
  have aligned := aligned_of_plan (plan_adjacent outer inner last)
  have placed := (aligned.leftPlaced summed (first ++ rest) summedInside
    (List.rel_append firstInside restInside)).1
  have outerLength := firstInside.length_eq
  have innerLength := summedInside.length_eq
  rcases placed with ⟨length, places⟩
  simp only [adjacent, List.length_append, List.length_range', List.length_range, ← outerLength,
    ← innerLength, List.take_left] at length places ⊢
  refine List.ext_getElem? fun position => ?_
  by_cases before : position < first.length
  · have place := places (summed.length + position) (by omega)
    simp only [List.getElem_append_right, List.length_range', Nat.le_add_right, Nat.add_sub_cancel_left,
      List.getElem_range, List.getElem?_append_right] at place
    rw [place, List.getElem?_append_left before]
  · by_cases within : position < first.length + summed.length
    · have place := places (position - first.length) (by omega)
      rw [List.getElem_append_left (by simp; omega), List.getElem_range',
        List.getElem?_append_left (by omega), Nat.one_mul, Nat.add_sub_cancel' (by omega)] at place
      rw [place, List.getElem?_append_right (by omega)]
    · rw [List.getElem?_eq_none (by omega), List.getElem?_eq_none (by simp; omega)]

/-- The right operand is read at the summed coordinates followed by its output ones. -/
theorem rightIndex_adjacent (firstInside : Inside outer first) (summedInside : Inside inner summed)
    (restInside : Inside last rest) :
    (adjacent outer inner last).rightIndex summed (first ++ rest) = summed ++ rest := by
  have aligned := aligned_of_plan (plan_adjacent outer inner last)
  have placed := (aligned.rightPlaced summed (first ++ rest) summedInside
    (List.rel_append firstInside restInside)).1
  have outerLength := firstInside.length_eq
  have innerLength := summedInside.length_eq
  have lastLength := restInside.length_eq
  rcases placed with ⟨length, places⟩
  simp only [adjacent, ← outerLength, ← innerLength, ← lastLength, List.drop_left, ← range_add,
    List.length_range, List.getElem_range] at length places ⊢
  refine List.ext_getElem? fun position => ?_
  by_cases inside : position < summed.length + rest.length
  · exact places position inside
  · rw [List.getElem?_eq_none (by omega), List.getElem?_eq_none (by simp; omega)]

end ShapedTensor.Contraction

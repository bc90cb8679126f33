import ShapedTensor.Proofs.Access
import ShapedTensor.Proofs.Element.Integer
import ShapedTensor.Proofs.Shape.Algebra
import ShapedTensor.Proofs.Source.Printing
import ShapedTensor.Proofs.Tensor.Rectangular

namespace ShapedTensor

open Index

variable {T : Type}

namespace Nested

/-- Nested lists of elements in nested brackets. -/
def text [ElementText T] : (depth : Nat) → Nested T depth → String
  | 0, (element : T) => ElementText.display element
  | depth + 1, (items : List (Nested T depth)) => Text.bracketed (items.map (text depth))

/-- The values of a function, nested by the coordinates of the index. -/
def ofFunction : (sizes : List Nat) → (element : List Nat → T) → Nested T sizes.length
  | [], element => element []
  | size :: sizes, element =>
      (List.range size).map fun position => ofFunction sizes fun index => element (position :: index)

/-- The nested values of a function are, from left to right, its values in row-major order. -/
theorem leaves_ofFunction (sizes : List Nat) (element : List Nat → T) :
    leaves sizes.length (ofFunction sizes element) = (all sizes).map element := by
  induction sizes generalizing element with
  | nil => rfl
  | cons size sizes ih =>
      change ((List.range size).map _).flatMap (leaves sizes.length) = _
      rw [List.flatMap_map, all, List.map_flatMap]
      refine List.flatMap_congr fun position _ => ?_
      rw [ih, List.map_map]
      rfl

/-- The nested values of a function over sizes have these lengths on their levels. -/
theorem even_ofFunction (sizes : List Nat) (element : List Nat → T) :
    Even sizes.length sizes (ofFunction sizes element) := by
  induction sizes generalizing element with
  | nil => simp [Even, lengthsOn]
  | cons size sizes ih =>
      refine even_succ.mpr ⟨List.length_map _ |>.trans List.length_range, fun item listed => ?_⟩
      obtain ⟨position, _, rfl⟩ := List.mem_map.mp listed
      exact ih _

end Nested

namespace Source

/-- The elements whose first coordinate is the given one. -/
def fixFirst (source : Source T) (position : Nat) : Source T :=
  ⟨source.shape.tail, fun index => source.read (position :: index)⟩

variable [ElementText T]

/-- The text of elements that can all be read is that of the nested list of them. -/
theorem textFrom_of_reads {source : Source T} {fixed sizes : List Nat} {element : List Nat → T}
    (reads : ∀ rest, Inside sizes rest → source.read (fixed ++ rest) = .ok (element rest)) :
    source.textFrom fixed sizes = .ok (Nested.text sizes.length (Nested.ofFunction sizes element)) := by
  induction sizes generalizing fixed element with
  | nil =>
      have only := reads [] .nil
      rw [List.append_nil] at only
      rw [textFrom, only]
      rfl
  | cons size sizes ih =>
      have parts : ∀ position ∈ List.range size, source.textFrom (fixed ++ [position]) sizes =
          .ok (Nested.text sizes.length (Nested.ofFunction sizes fun rest => element (position :: rest))) := by
        intro position listed
        refine ih fun rest inside => ?_
        rw [List.append_assoc]
        exact reads (position :: rest) (.cons (List.mem_range.mp listed) inside)
      rw [textFrom, mapM_congr parts]
      change Text.bracketed <$> (List.range size).mapM (fun position => pure _) = _
      rw [List.mapM_pure]
      change Except.ok (Text.bracketed _) = Except.ok (Text.bracketed (((List.range size).map _).map _))
      rw [List.map_map]
      rfl

/-- A source prints as the bracketed text of its slices, which shows each element once in row-major
order. -/
structure PrintedBySlices (source : Source T) (size : Nat) (sizes : List Nat) : Prop where
  slices : source.text =
    Text.bracketed <$> (List.range size).mapM fun position => (source.fixFirst position).text
  element : sizes = [] → ∀ position,
    (source.fixFirst position).text = ElementText.display <$> source.read [position]
  only : ∀ other : Source T, other.shape.sizes = size :: sizes →
    (∀ index, Inside (size :: sizes) index → other.read index = source.read index) →
      other.text = source.text
  nested : ∀ element, source.Reads element → ∃ items : List (Nested T sizes.length),
    source.text = .ok (Nested.text (sizes.length + 1) items) ∧ items.length = size ∧
      (∀ item ∈ items, Nested.Even sizes.length sizes item) ∧
      items.flatMap (Nested.leaves sizes.length) = (all (size :: sizes)).map element

/-- Up to rank 3 every source with a first axis, be it a tensor or a view of any layout and accessor, is
printed by its slices. -/
theorem text_compositional (source : Source T) {size : Nat} {sizes : List Nat}
    (listed : source.shape.sizes = size :: sizes) (low : source.shape.rank ≤ 3) :
    source.PrintedBySlices size sizes := by
  have rank : source.shape.rank = sizes.length + 1 := by
    rw [← source.shape.sizes_length, listed, List.length_cons]
  have whole : source.text = source.textFrom [] (size :: sizes) := by rw [text_eq low, listed]
  have slice (position : Nat) : (source.fixFirst position).text = source.textFrom [position] sizes := by
    have rest : (source.fixFirst position).shape.sizes = sizes := by
      rw [fixFirst, Shape.sizes_tail, listed, List.tail_cons]
    have lower : (source.fixFirst position).shape.rank ≤ 3 := by
      rw [← Shape.sizes_length, rest]
      omega
    rw [text_eq lower, rest]
    exact textFrom_congr fun _ _ => rfl
  constructor
  case slices =>
    rw [whole, textFrom]
    exact congrArg (Text.bracketed <$> ·) (mapM_congr fun position _ => (slice position).symm)
  case element =>
    rintro rfl position
    exact slice position
  case only =>
    intro other sizes same
    have otherLow : other.shape.rank ≤ 3 := by
      rw [← other.shape.sizes_length, sizes, List.length_cons]
      omega
    rw [whole, text_eq otherLow, sizes]
    exact textFrom_congr same
  case nested =>
    intro element reads
    rw [Reads, listed] at reads
    obtain ⟨length, even⟩ := Nested.even_succ.mp (Nested.even_ofFunction (size :: sizes) element)
    exact ⟨Nested.ofFunction (size :: sizes) element, whole.trans (textFrom_of_reads reads), length, even,
      Nested.leaves_ofFunction (size :: sizes) element⟩

open scoped Integer in
/-- A view of the columns of a buffer is printed row by row. -/
theorem text_compositional_columns :
    let view : View Int := ⟨⟨.ofFree [2, 3], .columnMajor⟩, .plain, .ofCells #[1, 4, 2, 5, 3, 6]⟩
    ∃ rows : List (Nested Int 1), view.source.text = .ok (Nested.text 2 rows) ∧ rows.length = 2 ∧
      rows.flatMap (Nested.leaves 1) = [1, 2, 3, 4, 5, 6] := by
  intro view
  let element (index : List Nat) := (view.read index).toOption.getD 0
  have reads : view.source.Reads element := fun index inside =>
    (show ∀ index ∈ all [2, 3], view.read index = .ok (element index) by decide) index
      (mem_all.mpr inside)
  have listed : view.source.shape.sizes = 2 :: [3] := rfl
  obtain ⟨rows, printed, length, _, leaves⟩ :=
    (text_compositional view.source listed (by decide)).nested element reads
  exact ⟨rows, printed, length, leaves.trans (by decide)⟩

end Source

end ShapedTensor

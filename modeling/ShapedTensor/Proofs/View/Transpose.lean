import ShapedTensor.Proofs.Layout.Offset
import ShapedTensor.Proofs.Shape.Algebra
import ShapedTensor.Proofs.Tensor.Cells

namespace ShapedTensor

open Index

variable {T : Type}

theorem Size.mul_one {number : Nat} (word : number < bound) : mul number 1 = .ok number :=
  mul_eq_ok.mpr ⟨Nat.mul_one number, word⟩

namespace Shape

/-- The axes of a matrix after the first one are its columns, those after the second one none. -/
theorem sizeAfter_pair {shape : Shape} {rows columns : Nat} (sizes : shape.sizes = [rows, columns])
    (word : columns < Size.bound) :
    shape.sizeAfter 0 = .ok columns ∧ shape.sizeAfter 1 = .ok 1 := by
  have rank : shape.rank = 2 := by rw [← shape.sizes_length, sizes]; rfl
  have product : Size.product [columns] = .ok columns := by
    refine Checked.bind_eq_ok.mpr ⟨columns, ?_, rfl⟩
    exact Size.mul_eq_ok.mpr ⟨Nat.one_mul columns, word⟩
  constructor
  · refine Checked.bind_eq_ok.mpr ⟨1, rfl, ?_⟩
    rw [if_pos (by omega), sizes]
    exact product
  · refine Checked.bind_eq_ok.mpr ⟨2, rfl, ?_⟩
    rw [if_pos (by omega), sizes]
    rfl

end Shape

namespace Strides

/-- The place of a row and a column is the sum of their two distances. -/
theorem offset_pair (row column first second : Nat) :
    offset [row, column] [first, second] = (do
      let rowDistance ← Size.mul row first
      let columnDistance ← Size.mul column second
      Size.add rowDistance columnDistance) := by
  change (Size.mul row first >>= Size.add 0) >>= (fun distance =>
    (Size.mul column second >>= Size.add distance) >>= pure) = _
  cases moved : Size.mul row first with
  | error fault => rfl
  | ok distance =>
      have start : Size.add 0 distance = .ok distance :=
        Size.add_eq_ok.mpr ⟨Nat.zero_add distance, (Size.mul_eq_ok.mp moved).2⟩
      change Size.add 0 distance >>= _ = Size.mul column second >>= Size.add distance
      rw [start]
      exact bind_pure (Size.mul column second >>= Size.add distance)

/-- The place of a row and a column does not depend on which of them comes first. -/
theorem offset_pair_comm (row column first second : Nat) :
    offset [row, column] [first, second] = offset [column, row] [second, first] := by
  rw [offset_pair, offset_pair]
  unfold Size.mul
  split <;> split
  · change Size.add _ _ = Size.add _ _
    simp only [Size.add, Nat.add_comm]
  all_goals rfl

end Strides

namespace Mapping

variable {mapping : Mapping} {rows columns : Nat} (sizes : mapping.shape.sizes = [rows, columns])
  (rowsWord : rows < Size.bound) (columnsWord : columns < Size.bound)
  (regular : mapping.Regular) (strided : mapping.isStrided = true)
include sizes rowsWord columnsWord regular strided

omit sizes rowsWord columnsWord regular strided in
/-- The place of a row and a column from the first on is the one in the strides of the columns and one. -/
theorem horner_pair {row column : Nat} (rowWord : row < Size.bound) :
    horner [row, column] [rows, columns] = (do
      let distance ← Size.mul row columns
      Size.add distance column) := by
  have above : Size.mul 0 rows = .ok 0 := Size.mul_eq_ok.mpr ⟨Nat.zero_mul rows, by decide⟩
  have start : Size.add 0 row = .ok row := Size.add_eq_ok.mpr ⟨Nat.zero_add row, rowWord⟩
  change (Size.mul 0 rows >>= (Size.add · row)) >>= (fun place =>
    (Size.mul place columns >>= (Size.add · column)) >>= pure) = _
  rw [above]
  change Size.add 0 row >>= _ = _
  rw [start]
  exact bind_pure (Size.mul row columns >>= (Size.add · column))

/-- A matrix in a strided layout has two strides, and its places are sums of distances in them. -/
theorem strides_pair :
    ∃ first second, mapping.stride 0 = .ok first ∧ mapping.stride 1 = .ok second ∧
      ∀ row < rows, ∀ column < columns,
        mapping.offset [row, column] = Strides.offset [row, column] [first, second] := by
  have rank : mapping.shape.rank = 2 := by
    rw [← Shape.sizes_length, sizes]
    rfl
  rcases mapping with ⟨shape, layout⟩
  cases layout with
  | rowMajor =>
      obtain ⟨first, second⟩ := Shape.sizeAfter_pair sizes columnsWord
      refine ⟨columns, 1, first, second, fun row rowBelow column columnBelow => ?_⟩
      change horner [row, column] shape.sizes = _
      rw [show shape.sizes = [rows, columns] from sizes, horner_pair (by omega),
        Strides.offset_pair, Size.mul_one (by omega)]
      rfl
  | columnMajor =>
      have first : shape.sizeBefore 0 = .ok 1 := by
        rw [Shape.sizeBefore, if_pos (Nat.zero_le _)]
        rfl
      have second : shape.sizeBefore 1 = .ok rows := by
        rw [Shape.sizeBefore, if_pos (by rw [show shape.rank = 2 from rank]; decide),
          show shape.sizes = [rows, columns] from sizes]
        exact Checked.bind_eq_ok.mpr ⟨rows, Size.mul_eq_ok.mpr ⟨Nat.one_mul rows, rowsWord⟩, rfl⟩
      refine ⟨1, rows, first, second, fun row rowBelow column columnBelow => ?_⟩
      change horner [column, row] shape.sizes.reverse = _
      rw [show shape.sizes = [rows, columns] from sizes, Strides.offset_pair_comm,
        Strides.offset_pair, Size.mul_one (by omega)]
      exact horner_pair (by omega)
  | strided strides =>
      obtain ⟨first, second, rfl⟩ := List.length_eq_two.mp (regular.trans rank)
      exact ⟨first, second, rfl, rfl, fun row _ column _ => rfl⟩
  | broadcast => cases strided

/-- A matrix in a strided layout has a transposed mapping in a strided layout, which finds the same place
at the opposite index. -/
theorem transpose_pair :
    ∃ turned, mapping.transpose = .ok turned ∧ turned.shape = mapping.shape.transpose ∧
      turned.Regular ∧ turned.isStrided = true ∧ ∀ row < rows, ∀ column < columns,
        turned.offset [column, row] = mapping.offset [row, column] := by
  have rank : mapping.shape.rank = 2 := by
    rw [← Shape.sizes_length, sizes]
    rfl
  obtain ⟨first, second, firstFound, secondFound, offsets⟩ :=
    strides_pair sizes rowsWord columnsWord regular strided
  refine ⟨⟨mapping.shape.transpose, .strided [second, first]⟩, ?_, rfl, ?_, rfl, ?_⟩
  · rw [transpose, if_pos strided, secondFound, firstFound]
    rfl
  · change 2 = mapping.shape.transpose.rank
    rw [← Shape.sizes_length, Shape.sizes_transpose, sizes]
    rfl
  · intro row rowBelow column columnBelow
    rw [offsets row rowBelow column columnBelow, Strides.offset_pair_comm]
    rfl

end Mapping

/-- A matrix is turned from another one when it has its rows as columns and reads the same at the
opposite index. -/
structure Source.Turns (matrix turned : Source T) (rows columns : Nat) : Prop where
  sizes : matrix.shape.sizes = [rows, columns]
  turnedSizes : turned.shape.sizes = [columns, rows]
  read : ∀ row < rows, ∀ column < columns, turned.read [column, row] = matrix.read [row, column]

namespace Source.Turns

variable {matrix turned : Source T} {rows columns : Nat}

theorem symm (turns : matrix.Turns turned rows columns) : turned.Turns matrix columns rows :=
  ⟨turns.turnedSizes, turns.sizes, fun column columnBelow row rowBelow =>
    (turns.read row rowBelow column columnBelow).symm⟩

/-- A turned matrix reads each element at the opposite index. -/
theorem reads (turns : matrix.Turns turned rows columns) {element : List Nat → T}
    (reads : matrix.Reads element) : turned.Reads fun index => element index.reverse := by
  intro index inside
  rw [turns.turnedSizes] at inside
  obtain ⟨column, columnBelow, row, rowBelow, rfl⟩ := inside_pair.mp inside
  have own : Inside matrix.shape.sizes [row, column] :=
    turns.sizes ▸ inside_pair.mpr ⟨row, rowBelow, column, columnBelow, rfl⟩
  rw [turns.read row rowBelow column columnBelow]
  exact reads [row, column] own

end Source.Turns

/-- A matrix in a strided layout has a transposed view in a strided layout, which is turned from it. -/
theorem View.transpose_turns [Element T] {view : View T} {rows columns : Nat}
    (sizes : view.shape.sizes = [rows, columns]) (rowsWord : rows < Size.bound)
    (columnsWord : columns < Size.bound) (regular : view.mapping.Regular)
    (strided : view.mapping.isStrided = true) :
    ∃ turned, view.transpose = .ok turned ∧ turned.shape = view.shape.transpose ∧
      turned.mapping.Regular ∧ turned.mapping.isStrided = true ∧
      view.adjoint = .ok { turned with accessor := .conjugating } ∧
      turned.accessor = view.accessor ∧ view.source.Turns turned.source rows columns := by
  obtain ⟨mapping, transposed, shape, turnedRegular, turnedStrided, offsets⟩ :=
    Mapping.transpose_pair sizes rowsWord columnsWord regular strided
  refine ⟨{ view with mapping }, ?_, shape, turnedRegular, turnedStrided, ?_, rfl, sizes, ?_, ?_⟩
  · rw [transpose, transposed]
    rfl
  · rw [adjoint, transposed]
    rfl
  · change mapping.shape.sizes = _
    have own : view.mapping.shape.sizes = [rows, columns] := sizes
    rw [shape, Shape.sizes_transpose, own]
    rfl
  · intro row rowBelow column columnBelow
    change mapping.offset [column, row] >>= _ = view.mapping.offset [row, column] >>= _
    rw [offsets row rowBelow column columnBelow]

/-- A view is a matrix when it has two axes, whose sizes are words, in a strided layout. -/
structure View.IsMatrix (view : View T) : Prop where
  rank : view.shape.rank = 2
  words : ∀ size ∈ view.shape.sizes, size < Size.bound
  regular : view.mapping.Regular
  strided : view.mapping.isStrided = true

/-- A matrix has a transposed view, which is turned from it, and an adjoint view, which conjugates it. -/
theorem View.IsMatrix.turns [Element T] {view : View T} (matrix : view.IsMatrix) :
    ∃ rows columns turned, view.transpose = .ok turned ∧
      view.adjoint = .ok { turned with accessor := .conjugating } ∧
      turned.accessor = view.accessor ∧ view.source.Turns turned.source rows columns := by
  obtain ⟨rows, columns, sizes⟩ :=
    List.length_eq_two.mp ((Shape.sizes_length view.shape).trans matrix.rank)
  obtain ⟨turned, transposed, _, _, _, conjugated, accessor, turns⟩ := transpose_turns sizes
    (matrix.words rows (by simp [sizes])) (matrix.words columns (by simp [sizes])) matrix.regular
    matrix.strided
  exact ⟨rows, columns, turned, transposed, conjugated, accessor, turns⟩

/-- The transposed view of a readable matrix of any layout reads each element at the opposite index. -/
theorem View.reads_of_transpose [Element T] {view turned : View T} {rows columns : Nat}
    (sizes : view.shape.sizes = [rows, columns]) (transposed : view.transpose = .ok turned)
    {element : List Nat → T} (reads : view.source.Reads element) :
    turned.shape = view.shape.transpose ∧ turned.source.Reads fun index => element index.reverse := by
  have rank : view.mapping.shape.rank = 2 := by
    rw [← Shape.sizes_length]
    exact congrArg List.length sizes
  obtain ⟨mapping, exchanged, built⟩ := Checked.bind_eq_ok.mp transposed
  obtain rfl := Except.ok.inj built
  obtain ⟨_, exchanged⟩ := Checked.ite_eq_ok.mp exchanged
  obtain ⟨second, secondFound, exchanged⟩ := Checked.bind_eq_ok.mp exchanged
  obtain ⟨first, firstFound, exchanged⟩ := Checked.bind_eq_ok.mp exchanged
  obtain rfl := Except.ok.inj exchanged
  have firstListed := Mapping.strides_of_stride (by omega) firstFound
  have secondListed := Mapping.strides_of_stride (by omega) secondFound
  refine ⟨rfl, fun index inside => ?_⟩
  change Inside view.shape.transpose.sizes index at inside
  rw [Shape.sizes_transpose, sizes] at inside
  obtain ⟨column, columnBelow, row, rowBelow, rfl⟩ := inside_pair.mp inside
  have own : Inside view.mapping.shape.sizes [row, column] :=
    (show view.mapping.shape.sizes = [rows, columns] from sizes) ▸
      inside_pair.mpr ⟨row, rowBelow, column, columnBelow, rfl⟩
  -- The same cell is found: the coordinates meet the same strides in the opposite order.
  obtain ⟨place, placed, found⟩ := Checked.bind_eq_ok.mp (reads [row, column] own)
  obtain ⟨same, word⟩ := (Mapping.offset_eq_ok own).mp placed
  refine Checked.bind_eq_ok.mpr ⟨place, (Strides.accumulate_eq_ok (by decide)).mpr ⟨?_, word⟩, found⟩
  rw [← same]
  match view.mapping.strides, firstListed, secondListed with
  | _ :: _ :: _, rfl, rfl =>
      simp only [List.zip_cons_cons, List.zip_nil_left, Strides.total_cons, Strides.total_nil]
      omega

namespace Tensor

variable [Element T]

theorem source_view (tensor : Tensor T) : tensor.view.source = tensor.source := by
  refine congrArg (Source.mk tensor.shape) (funext fun index => bind_congr fun place => ?_)
  change Accessor.plain.read (Handle.ofCells tensor.cells) place = tensor.cellAt place
  rw [Accessor.read, Handle.ofCells, Window.whole, Nat.zero_add]
  rfl

/-- A matrix has a transposed view, which reads each element at the opposite index. -/
theorem transpose_reads {tensor : Tensor T} {rows columns : Nat}
    (sizes : tensor.shape.sizes = [rows, columns]) (rowsWord : rows < Size.bound)
    (columnsWord : columns < Size.bound) {element : List Nat → T}
    (reads : tensor.source.Reads element) :
    ∃ view, tensor.view.transpose = .ok view ∧ view.source.shape = tensor.shape.transpose ∧
      view.source.Reads fun index => element index.reverse := by
  have viewSizes : tensor.view.shape.sizes = [rows, columns] := sizes
  obtain ⟨view, transposed, shape, _, _, _, _, turns⟩ :=
    View.transpose_turns viewSizes rowsWord columnsWord trivial rfl
  rw [source_view] at turns
  exact ⟨view, transposed, shape, turns.reads reads⟩

end Tensor

end ShapedTensor

import ShapedTensor.Proofs.Index.Enumeration
import ShapedTensor.Proofs.Layout.Packed
import ShapedTensor.Proofs.Source.Copy
import ShapedTensor.Proofs.Tensor.History
import ShapedTensor.Proofs.View.Transpose

namespace ShapedTensor

open Index

variable {T : Type}

section Run

variable {m : Type → Type} [Monad m] [LawfulMonad m] {ι α β : Type}

/-- What follows a run over a list matters only for as many results as there are items. -/
theorem bind_mapM_congr {items : List ι} {entry : ι → m α} {next other : List α → m β}
    (same : ∀ elements, elements.length = items.length → next elements = other elements) :
    items.mapM entry >>= next = items.mapM entry >>= other := by
  induction items generalizing next other with
  | nil =>
      rw [List.mapM_nil, pure_bind, pure_bind]
      exact same [] rfl
  | cons item items ih =>
      simp only [List.mapM_cons, bind_assoc, pure_bind]
      refine bind_congr fun element => ih fun elements length => ?_
      exact same (element :: elements) (by rw [List.length_cons, List.length_cons, length])

end Run

namespace Tensor

variable {kind : StorageKind} {pattern : Pattern} {shape : Shape} {count : Nat}

section Generate

variable [Stored T] {m : Type → Type} [Monad m] [LawfulMonad m] [MonadLiftT (Except Fault) m]

/-- A tensor that is generated asks for an entry at each visit of the walk, and for nothing else. -/
theorem generate_eq (lifted : ∀ {α : Type} (value : α),
      (liftM (n := m) (Except.ok value : Except Fault α)) = pure value)
    (sized : shape.size = .ok count) (checked : kind.check count = .ok ())
    (room : Buffer.bytes T count < Buffer.bound) (entry : List Nat → m T) :
    generate kind shape entry = (fun elements => ⟨shape, ⟨kind, elements.toArray⟩⟩) <$>
      (visited shape.sizes).mapM entry := by
  rw [generate, sized, lifted, pure_bind, Buffer.reserve_eq_ok.mpr room, lifted, pure_bind, collectM_eq,
    bind_map_left, visited_eq, map_eq_pure_bind]
  -- The storage is given as many elements as there were visits, so it accepts them whatever they are.
  refine bind_mapM_congr fun elements length => ?_
  have stored : Storage.ofCells kind elements.toArray = .ok ⟨kind, elements.toArray⟩ := by
    refine Storage.ofCells_eq_ok.mpr ⟨?_, rfl⟩
    rwa [List.size_toArray, length, length_all, (shape.prod_of_size sized).1]
  rw [stored, lifted, pure_bind]

/-- A tensor whose elements no buffer holds asks for none of them. -/
theorem generate_eq_capacityOverflow (sized : shape.size = .ok count)
    (much : Buffer.bound ≤ Buffer.bytes T count) {σ : Type}
    (entry : List Nat → StateT σ (Except Fault) T) (state : σ) :
    (generate kind shape entry).run state = .error .capacityOverflow := by
  have refused : Buffer.reserve T count = .error .capacityOverflow := if_neg (Nat.not_lt_of_le much)
  have counted : (liftM (Except.ok count : Except Fault Nat) : StateT σ (Except Fault) Nat) =
      pure count := rfl
  rw [generate, sized, counted, pure_bind, refused]
  rfl

end Generate

/-- The tensor of a function is built where it has room, and reads the function. -/
theorem exists_tabulate [Stored T] (sized : shape.size = .ok count)
    (checked : kind.check count = .ok ()) (room : Buffer.bytes T count < Buffer.bound)
    (element : List Nat → T) :
    ∃ tensor, tabulate kind shape (fun index => .ok (element index)) = .ok tensor ∧
      tensor.shape = shape ∧
      ∀ index, Inside shape.sizes index → tensor.read index = .ok (element index) := by
  have collected : ((visited shape.sizes).mapM fun index => (.ok (element index) : Except Fault T)) =
      .ok ((visited shape.sizes).map element) := List.mapM_pure
  have built : tabulate kind shape (fun index => .ok (element index)) =
      .ok ⟨shape, ⟨kind, ((visited shape.sizes).map element).toArray⟩⟩ := by
    rw [tabulate, generate_eq (fun _ => rfl) sized checked room, collected]
    rfl
  refine ⟨_, built, rfl, fun index inside => ?_⟩
  obtain ⟨own, same, read⟩ := (tabulate_eq_ok built).2.2 index inside
  rwa [Except.ok.inj same]

/-- A full tensor has the cell of a position at the index that the walk visits there. -/
theorem Full.read_visited {tensor : Tensor T} (full : tensor.Full) {position : Nat} {index : List Nat}
    (visit : (visited tensor.shape.sizes)[position]? = some index) :
    ∃ element, tensor.cells[position]? = some element ∧ tensor.read index = .ok element := by
  rw [visited_eq] at visit
  obtain ⟨element, found, read⟩ := full.read_eq (mem_all.mp (List.mem_of_getElem? visit))
  rw [ordinal_of_getElem? visit] at found
  exact ⟨element, found, read⟩

/-- A source that reads every index is copied under a pattern of its rank exactly when its sizes fit the
pattern and there is room for the elements. -/
theorem exists_ofSource_iff [Stored T] (source : Source T) (sized : source.shape.size = .ok count)
    (checked : kind.check count = .ok ()) (ranked : pattern.length = source.shape.rank)
    (reads : ∀ index, Inside source.shape.sizes index → ∃ element, source.read index = .ok element) :
    (∃ tensor, ofSource kind pattern source = .ok tensor) ↔
      (∀ axis size : Nat, pattern[axis]? = some (some size) →
        source.shape.sizes[axis]? = some size) ∧
      Buffer.bytes T count < Buffer.bound := by
  rw [← Shape.exists_ofSizes_iff (source.shape.sizes_length.trans ranked.symm)]
  constructor
  · rintro ⟨tensor, copied⟩
    obtain ⟨shape, own, _, converted, size, reserved, _⟩ := ofSource_eq_ok_convert.mp copied
    rw [Shape.size, Shape.sizes_of_ofSizes converted] at size
    obtain rfl := Except.ok.inj (sized.symm.trans size)
    exact ⟨⟨shape, converted⟩, Buffer.reserve_eq_ok.mp reserved⟩
  · rintro ⟨⟨shape, converted⟩, room⟩
    obtain ⟨cells, collected⟩ := Source.exists_elements.mpr reads
    have size : shape.size = .ok count := by
      rw [Shape.size, Shape.sizes_of_ofSizes converted]
      exact sized
    rw [← Source.size_elements_of_size sized collected] at checked
    exact ⟨_, ofSource_eq_ok_convert.mpr ⟨shape, count, cells, converted, size,
      Buffer.reserve_eq_ok.mpr room, collected, checked, rfl⟩⟩

/-- The elements of a full tensor are its cells. -/
theorem Full.elements_eq {tensor : Tensor T} (full : tensor.Full) :
    tensor.source.elements = .ok tensor.cells := by
  refine Source.elements_eq_ok.mpr (List.forall₂_iff_get.mpr ⟨?_, fun position below ownBelow => ?_⟩)
  · rw [length_all, Array.length_toList]
    exact (tensor.shape.prod_of_size full).1
  · have visit : (visited tensor.shape.sizes)[position]? =
        some ((all tensor.shape.sizes).get ⟨position, below⟩) := by
      rw [visited_eq]
      exact List.getElem?_eq_getElem below
    obtain ⟨element, found, read⟩ := full.read_visited visit
    obtain ⟨_, rfl⟩ := Array.getElem?_eq_some_iff.mp found
    exact read

/-- The copy of the whole view of a full tensor has its cells. -/
theorem cells_ofSource_view [Element T] {tensor copy : Tensor T} (full : tensor.Full)
    (copied : ofSource kind pattern tensor.view.source = .ok copy) : copy.cells = tensor.cells := by
  rw [source_view] at copied
  obtain ⟨_, _, cells, _, _, _, collected, _, rfl⟩ := ofSource_eq_ok_convert.mp copied
  exact Except.ok.inj (collected.symm.trans full.elements_eq)

/-- A full tensor reads every index through the view of it. -/
theorem Full.view_reads [Element T] {tensor : Tensor T} (full : tensor.Full) {index : List Nat}
    (inside : Inside tensor.shape.sizes index) :
    ∃ element, tensor.view.source.read index = .ok element := by
  rw [source_view]
  obtain ⟨element, _, read⟩ := full.read_eq inside
  exact ⟨element, read⟩

/-- A vector literal reads its elements. -/
theorem read_ofLiteral_vector {length : Nat} (literal : Vector T length) (word : length < Size.bound)
    {position : Nat} (below : position < length) :
    (ofLiteral [length] literal.toArray).read [position] = .ok literal[position] := by
  have sized : Size.product [length] = .ok literal.toArray.size := by
    have counted : Size.mul 1 length = .ok length :=
      Size.mul_eq_ok.mpr ⟨Nat.one_mul length, word⟩
    rw [Size.product, List.foldlM_cons, counted, Vector.size_toArray]
    rfl
  obtain ⟨element, found, read⟩ := (intact_ofLiteral sized).full.read_eq (.cons below .nil)
  rw [read]
  change literal.toArray[0 * length + position]? = some element at found
  rw [Nat.zero_mul, Nat.zero_add, Vector.getElem?_toArray, Vector.getElem?_eq_getElem below] at found
  rw [Option.some.inj found]

/-- A matrix literal reads the elements of its rows. -/
theorem read_ofLiteral_matrix {rows columns : Nat} (literal : Vector (Vector T columns) rows)
    (sized : Size.product [rows, columns] = .ok count) {row column : Nat} (rowBelow : row < rows)
    (columnBelow : column < columns) :
    (ofLiteral [rows, columns] literal.flatten.toArray).read [row, column] =
      .ok literal[row][column] := by
  have product : rows * columns = count := by
    simpa using (Size.prod_of_product (by decide) sized).1
  have cells : literal.flatten.toArray.size = count := by
    rw [Vector.size_toArray, product]
  obtain ⟨element, found, read⟩ :=
    (intact_ofLiteral (cells ▸ sized)).full.read_eq (.cons rowBelow (.cons columnBelow .nil))
  change literal.flatten.toArray[(0 * rows + row) * columns + column]? = some element at found
  have rowAt : (row * columns + column) / columns = row := by
    rw [Nat.add_comm, Nat.add_mul_div_right _ _ (by omega), Nat.div_eq_of_lt columnBelow, Nat.zero_add]
  have columnAt : (row * columns + column) % columns = column := by
    rw [Nat.mul_add_mod_self_right, Nat.mod_eq_of_lt columnBelow]
  have below : row * columns + column < rows * columns := by
    calc row * columns + column < row * columns + columns := Nat.add_lt_add_left columnBelow _
      _ = (row + 1) * columns := (Nat.succ_mul row columns).symm
      _ ≤ rows * columns := Nat.mul_le_mul_right columns rowBelow
  rw [Nat.zero_mul, Nat.zero_add, Vector.getElem?_toArray, Vector.getElem?_eq_getElem below,
    Vector.getElem_flatten] at found
  simp only [rowAt, columnAt] at found
  rw [read, Option.some.inj found]

/-- A function of the index makes a tensor when its calls are the visits of the walk, each after the one
before it, and the tensor reads its values. -/
structure MadeOfFunction (T : Type) [Stored T] (kind : StorageKind) (shape : Shape) : Prop where
  calls : ∀ {σ : Type} (entry : List Nat → StateT σ (Except Fault) T),
    generate kind shape entry = (fun elements => ⟨shape, ⟨kind, elements.toArray⟩⟩) <$>
      (visited shape.sizes).mapM entry
  reads : ∀ element : List Nat → T, ∃ tensor,
    tabulate kind shape (fun index => .ok (element index)) = .ok tensor ∧ tensor.shape = shape ∧
      ∀ index, Inside shape.sizes index → tensor.read index = .ok (element index)

/-- Cells make a tensor when there are `count` of them, and it reads each one at the visit of its
position. -/
structure MadeOfCells (T : Type) (kind : StorageKind) (shape : Shape) (count : Nat) : Prop where
  accepts : ∀ cells : Array T, cells.size = count → ∃ tensor, ofCells kind shape cells = .ok tensor
  refuses : ∀ cells : Array T, cells.size ≠ count →
    ofCells kind shape cells = .error (.elementCount count cells.size)
  reads : ∀ (cells : Array T) tensor, ofCells kind shape cells = .ok tensor → tensor.shape = shape ∧
    ∀ (position : Nat) index, (visited shape.sizes)[position]? = some index →
      ∃ element, cells[position]? = some element ∧ tensor.read index = .ok element

/-- A source that reads every index makes a tensor that reads it, as far as its pattern fits and a
buffer has room. -/
structure MadeOfSource (T : Type) [Element T] (kind : StorageKind) (shape : Shape) (count : Nat) :
    Prop where
  accepts : ∀ (source : Source T) (pattern : Pattern), source.shape = shape →
    pattern.length = shape.rank →
    (∀ index, Inside shape.sizes index → ∃ element, source.read index = .ok element) →
    ((∃ tensor, ofSource kind pattern source = .ok tensor) ↔
      (∀ axis size : Nat, pattern[axis]? = some (some size) → shape.sizes[axis]? = some size) ∧
      Buffer.bytes T count < Buffer.bound)
  reads : ∀ (source : Source T) pattern tensor, source.shape = shape →
    ofSource kind pattern source = .ok tensor →
    tensor.shape.sizes = shape.sizes ∧ tensor.shape.pattern = pattern ∧
      ∀ index, Inside shape.sizes index → tensor.read index = source.read index
  whole : ∀ (tensor : Tensor T) (pattern : Pattern), tensor.shape = shape → tensor.Full →
    pattern.length = shape.rank →
    (∀ axis size : Nat, pattern[axis]? = some (some size) → shape.sizes[axis]? = some size) →
    Buffer.bytes T count < Buffer.bound →
    ∃ copy, ofSource kind pattern tensor.view.source = .ok copy ∧ copy.cells = tensor.cells

/-- An array literal makes a tensor that reads the elements of the literal. -/
structure MadeOfLiteral (T : Type) : Prop where
  vector : ∀ {length : Nat} (literal : Vector T length), length < Size.bound →
    ∀ position, (below : position < length) →
      (ofLiteral [length] literal.toArray).read [position] = .ok literal[position]
  matrix : ∀ {rows columns count : Nat} (literal : Vector (Vector T columns) rows),
    Size.product [rows, columns] = .ok count →
    ∀ row column, (rowBelow : row < rows) → (columnBelow : column < columns) →
      (ofLiteral [rows, columns] literal.flatten.toArray).read [row, column] =
        .ok literal[row][column]

/-- A tensor reads what it is built from, and only what needs a new buffer is refused where no buffer
has room. -/
theorem built_reads_back [Element T] (sized : shape.size = .ok count)
    (checked : kind.check count = .ok ()) :
    shape.Enumerates (visited shape.sizes) ∧
      (Buffer.bytes T count < Buffer.bound → MadeOfFunction T kind shape) ∧
      (Buffer.bound ≤ Buffer.bytes T count →
        ∀ {σ : Type} (entry : List Nat → StateT σ (Except Fault) T) (state : σ),
          (generate kind shape entry).run state = .error .capacityOverflow) ∧
      MadeOfCells T kind shape count ∧ MadeOfSource T kind shape count ∧ MadeOfLiteral T := by
  refine ⟨shape.enumerates_visited, fun room => ⟨?_, ?_⟩, ?_, ⟨?_, ?_, ?_⟩, ⟨?_, ?_, ?_⟩, ⟨?_, ?_⟩⟩
  · exact fun entry => generate_eq (fun _ => rfl) sized checked room entry
  · exact exists_tabulate sized checked room
  · exact fun much _ entry => generate_eq_capacityOverflow sized much entry
  · rintro cells rfl
    exact ⟨_, ofCells_eq_ok.mpr ⟨sized, checked, rfl⟩⟩
  · intro cells other
    rw [ofCells, sized]
    exact if_neg other
  · intro cells tensor built
    obtain ⟨size, _, rfl⟩ := ofCells_eq_ok.mp built
    have full : Full (⟨shape, ⟨kind, cells⟩⟩ : Tensor T) := size
    exact ⟨rfl, fun position index visit => full.read_visited visit⟩
  · rintro source pattern rfl ranked reads
    exact exists_ofSource_iff source sized checked ranked reads
  · rintro source pattern tensor rfl copied
    obtain ⟨sizes, _, reads⟩ := ofSource_reads copied
    refine ⟨sizes, (intact_ofSource copied).patterned, fun index inside => ?_⟩
    obtain ⟨element, read, ownRead⟩ := reads index inside
    rw [read, ownRead]
  · rintro tensor pattern rfl full ranked fits room
    have accepted :=
      exists_ofSource_iff tensor.view.source sized checked ranked fun _ => full.view_reads
    obtain ⟨copy, copied⟩ := accepted.mpr ⟨fits, room⟩
    exact ⟨copy, copied, cells_ofSource_view full copied⟩
  · exact fun literal word position below => read_ofLiteral_vector literal word below
  · exact fun literal sized row column rowBelow columnBelow =>
      read_ofLiteral_matrix literal sized rowBelow columnBelow

open scoped Integer in
/-- Two rows of three elements, held inline: of a function of the index, of six cells, and of a literal. -/
theorem built_reads_back_rows :
    let shape : Shape := ⟨[.fixed 2, .free 3]⟩
    let literal : Vector (Vector Int 3) 2 := #v[#v[1, 2, 3], #v[4, 5, 6]]
    shape.size = .ok 6 ∧ (StorageKind.inline 6).check 6 = .ok () ∧
      (∃ tensor : Tensor Int,
        tabulate (.inline 6) shape (fun index => .ok (Int.ofNat index.sum)) = .ok tensor ∧
          tensor.read [1, 2] = .ok 3) ∧
      (∃ tensor : Tensor Int, ofCells (.inline 6) shape #[1, 2, 3, 4, 5, 6] = .ok tensor ∧
        tensor.read [1, 0] = .ok 4) ∧
      (ofLiteral [2, 3] literal.flatten.toArray).read [1, 0] = .ok 4 := by
  intro shape literal
  have sized : shape.size = .ok 6 := rfl
  have checked : (StorageKind.inline 6).check 6 = .ok () := rfl
  obtain ⟨_, function, _, cells, _, literals⟩ := @built_reads_back Int _ _ _ _ sized checked
  refine ⟨sized, checked, ?_, ?_, literals.matrix literal rfl 1 0 (by decide) (by decide)⟩
  · obtain ⟨tensor, built, _, reads⟩ :=
      (function (by decide)).reads fun index => Int.ofNat index.sum
    exact ⟨tensor, built, reads [1, 2] (by decide)⟩
  · obtain ⟨tensor, built⟩ := cells.accepts #[1, 2, 3, 4, 5, 6] rfl
    obtain ⟨element, found, read⟩ := (cells.reads _ tensor built).2 3 [1, 0] rfl
    obtain rfl := Option.some.inj found
    exact ⟨tensor, built, read⟩

/-- No buffer has room for `2 ^ 60` numbers of eight bytes, neither from a function nor from a view. -/
theorem generate_refused_beyond_buffer :
    let shape : Shape := .ofFree [1152921504606846976]
    let view : View Float := ⟨⟨shape, .broadcast⟩, .plain, .ofCells #[3]⟩
    shape.size = .ok 1152921504606846976 ∧
      (∀ (entry : List Nat → StateT Unit (Except Fault) Float),
        (generate .growable shape entry).run () = .error .capacityOverflow) ∧
      (∀ index, view.read index = .ok 3) ∧
      ¬∃ tensor, ofSource .growable [none] view.source = .ok tensor := by
  intro shape view
  have sized : shape.size = .ok 1152921504606846976 := rfl
  have reads (index : List Nat) : view.read index = .ok 3 := rfl
  refine ⟨sized, fun entry => generate_eq_capacityOverflow sized (by decide) entry (), reads, ?_⟩
  intro copied
  obtain ⟨_, room⟩ := (exists_ofSource_iff view.source sized rfl rfl
    fun index _ => ⟨3, reads index⟩).mp copied
  exact absurd room (by decide)

end Tensor

end ShapedTensor

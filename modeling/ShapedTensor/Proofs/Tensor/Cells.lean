import ShapedTensor.Elementwise
import ShapedTensor.Proofs.Access
import ShapedTensor.Proofs.Layout.Place
import ShapedTensor.Proofs.Shape.Algebra

namespace ShapedTensor

open Index

variable {T ι : Type}

namespace Source

/-- A run over items succeeds with one element for each item, in their order. -/
theorem mapM_eq_ok {read : ι → Except Fault T} {items : List ι} {elements : List T} :
    items.mapM read = .ok elements ↔
      List.Forall₂ (fun item element => read item = .ok element) items elements := by
  induction items generalizing elements with
  | nil =>
      change Except.ok [] = .ok elements ↔ _
      rw [Except.ok.injEq, List.forall₂_nil_left_iff, eq_comm]
  | cons item items ih =>
      rw [List.mapM_cons, Checked.bind_eq_ok, List.forall₂_cons_left_iff]
      refine exists_congr fun element => ?_
      rw [Checked.bind_eq_ok]
      simp only [ih]
      constructor
      · rintro ⟨first, others, rest, built⟩
        exact ⟨others, first, rest, (Except.ok.inj built).symm⟩
      · rintro ⟨others, first, rest, rfl⟩
        exact ⟨first, others, rest, rfl⟩

/-- The elements of a source are what it reads at all its indices. -/
theorem elements_eq_ok {source : Source T} {cells : Array T} :
    source.elements = .ok cells ↔
      List.Forall₂ (fun index element => source.read index = .ok element)
        (all source.shape.sizes) cells.toList := by
  rw [elements, collectM_eq, Checked.map_eq_ok, ← mapM_eq_ok]
  constructor
  · rintro ⟨elements, collected, rfl⟩
    exact collected
  · exact fun collected => ⟨cells.toList, collected, rfl⟩

/-- The elements are as many as the indices. -/
theorem size_elements {source : Source T} {cells : Array T}
    (collected : source.elements = .ok cells) : cells.size = source.shape.sizes.prod := by
  rw [← length_all, (elements_eq_ok.mp collected).length_eq, Array.length_toList]

/-- The element at the number of an index is the one that is read there. -/
theorem getElem?_elements {source : Source T} {cells : Array T}
    (collected : source.elements = .ok cells) {index : List Nat}
    (inside : Inside source.shape.sizes index) :
    ∃ element, source.read index = .ok element ∧
      cells[ordinal 0 source.shape.sizes index]? = some element := by
  have reads := elements_eq_ok.mp collected
  have below : ordinal 0 source.shape.sizes index < cells.size := by
    rw [size_elements collected]
    exact ordinal_lt inside
  have listed := getElem?_all inside
  rw [List.getElem?_eq_some_iff] at listed
  rcases listed with ⟨position, found⟩
  have read := reads.get position (by simpa using below)
  simp only [List.get_eq_getElem, found, Array.getElem_toList] at read
  exact ⟨_, read, Array.getElem?_eq_getElem below⟩

/-- The elements of a shape with a size are as many as this size. -/
theorem size_elements_of_size {source : Source T} {count : Nat} {cells : Array T}
    (size : source.shape.size = .ok count) (collected : source.elements = .ok cells) :
    cells.size = count := by
  rw [size_elements collected, (source.shape.prod_of_size size).1]

/-- The elements of a source that reads one value everywhere are copies of it. -/
theorem elements_of_constant {source : Source T} {value : T} {count : Nat}
    (reads : ∀ index, source.read index = .ok value) (product : source.shape.sizes.prod = count) :
    source.elements = .ok (Array.replicate count value) := by
  rw [elements_eq_ok, Array.toList_replicate, ← product, ← length_all]
  induction all source.shape.sizes with
  | nil => exact .nil
  | cons index indices ih => exact .cons (reads index) ih

end Source

/-- Storage holds the cells that it is given, if they are as many as it takes. -/
theorem Storage.ofCells_eq_ok {kind : StorageKind} {cells : Array T} {storage : Storage T} :
    ofCells kind cells = .ok storage ↔ kind.check cells.size = .ok () ∧ ⟨kind, cells⟩ = storage := by
  rw [ofCells, Checked.check_eq_ok]
  exact and_congr_right fun _ => ⟨Except.ok.inj, congrArg Except.ok⟩

/-- A buffer that is resized has the number of cells that was asked for. -/
theorem Storage.size_resized (cells : Array T) (count : Nat) (value : T) :
    (resized cells count value).size = count := by
  simp only [resized, Array.size_append, Array.size_replicate, Array.take_eq_extract,
    Array.size_extract]
  omega

namespace Tensor

/-- A tensor is full when it has as many cells as its shape has elements. -/
def Full (tensor : Tensor T) : Prop := tensor.shape.size = .ok tensor.cells.size

/-- The cell at a position is found when the tensor has it. -/
theorem cellAt_eq_ok {tensor : Tensor T} {position : Nat} {element : T} :
    tensor.cellAt position = .ok element ↔ tensor.cells[position]? = some element := by
  rw [cellAt]
  cases tensor.cells[position]? <;> simp

/-- A tensor reads the cell at the number of an index if this number is a word. -/
theorem read_eq_ok {tensor : Tensor T} {index : List Nat} (inside : Inside tensor.shape.sizes index)
    {element : T} :
    tensor.read index = .ok element ↔ ordinal 0 tensor.shape.sizes index < Size.bound ∧
      tensor.cells[ordinal 0 tensor.shape.sizes index]? = some element := by
  rw [read, Checked.bind_eq_ok]
  constructor
  · rintro ⟨place, offset, found⟩
    obtain ⟨rfl, word⟩ := (Mapping.horner_eq_ok inside).mp offset
    exact ⟨word, cellAt_eq_ok.mp found⟩
  · rintro ⟨word, found⟩
    exact ⟨_, (Mapping.horner_eq_ok inside).mpr ⟨rfl, word⟩, cellAt_eq_ok.mpr found⟩

/-- A full tensor reads the cell at the number of an index. -/
theorem Full.read_eq {tensor : Tensor T} (full : tensor.Full) {index : List Nat}
    (inside : Inside tensor.shape.sizes index) :
    ∃ element, tensor.cells[ordinal 0 tensor.shape.sizes index]? = some element ∧
      tensor.read index = .ok element := by
  obtain ⟨_, product⟩ := tensor.shape.prod_of_size full
  obtain ⟨_, below⟩ := Shape.horner_of_size full inside
  have found := Array.getElem?_eq_getElem below
  exact ⟨_, found, (read_eq_ok inside).mpr ⟨below.trans product, found⟩⟩

/-- What a tensor reads at an index is one of its cells. -/
theorem mem_of_read {tensor : Tensor T} {index : List Nat} {element : T}
    (read : tensor.read index = .ok element) : element ∈ tensor.cells := by
  obtain ⟨place, _, found⟩ := Checked.bind_eq_ok.mp read
  exact Array.mem_of_getElem? (cellAt_eq_ok.mp found)

/-- A tensor is built from as many cells as its shape has elements, if its storage takes them. -/
theorem ofCells_eq_ok {kind : StorageKind} {shape : Shape} {cells : Array T} {tensor : Tensor T} :
    ofCells kind shape cells = .ok tensor ↔
      shape.size = .ok cells.size ∧ kind.check cells.size = .ok () ∧
        tensor = ⟨shape, ⟨kind, cells⟩⟩ := by
  rw [ofCells, Checked.bind_eq_ok]
  constructor
  · rintro ⟨count, size, built⟩
    obtain ⟨rfl, given⟩ := Checked.ite_eq_ok.mp built
    obtain ⟨storage, stored, made⟩ := Checked.bind_eq_ok.mp given
    obtain ⟨room, rfl⟩ := Storage.ofCells_eq_ok.mp stored
    exact ⟨size, room, (Except.ok.inj made).symm⟩
  · rintro ⟨size, room, rfl⟩
    have stored := Storage.ofCells_eq_ok.mpr ⟨room, rfl⟩
    exact ⟨_, size, Checked.ite_eq_ok.mpr ⟨rfl, Checked.bind_eq_ok.mpr ⟨_, stored, rfl⟩⟩⟩

/-- A source is copied when its sizes fit the pattern, it has all its elements and there is room. -/
theorem ofSource_eq_ok_convert [Stored T] {kind : StorageKind} {pattern : Pattern} {source : Source T}
    {tensor : Tensor T} :
    ofSource kind pattern source = .ok tensor ↔
      ∃ shape count cells, source.shape.convert pattern = .ok shape ∧ shape.size = .ok count ∧
        Buffer.reserve T count = .ok () ∧ source.elements = .ok cells ∧
        kind.check cells.size = .ok () ∧ tensor = ⟨shape, ⟨kind, cells⟩⟩ := by
  constructor
  · intro built
    obtain ⟨shape, converted, built⟩ := Checked.bind_eq_ok.mp built
    obtain ⟨count, size, built⟩ := Checked.bind_eq_ok.mp built
    obtain ⟨reserved, built⟩ := Checked.check_eq_ok.mp built
    obtain ⟨cells, collected, built⟩ := Checked.bind_eq_ok.mp built
    obtain ⟨storage, stored, built⟩ := Checked.bind_eq_ok.mp built
    obtain ⟨checked, rfl⟩ := Storage.ofCells_eq_ok.mp stored
    exact ⟨shape, count, cells, converted, size, reserved, collected, checked,
      (Except.ok.inj built).symm⟩
  · rintro ⟨shape, count, cells, converted, size, reserved, collected, checked, rfl⟩
    have stored := Storage.ofCells_eq_ok.mpr ⟨checked, rfl⟩
    exact Checked.bind_eq_ok.mpr ⟨shape, converted, Checked.bind_eq_ok.mpr ⟨count, size,
      Checked.check_eq_ok.mpr ⟨reserved, Checked.bind_eq_ok.mpr ⟨cells, collected,
        Checked.bind_eq_ok.mpr ⟨_, stored, rfl⟩⟩⟩⟩⟩

/-- The copy of a source is full, has its sizes and reads its elements. -/
theorem ofSource_reads [Stored T] {kind : StorageKind} {pattern : Pattern} {source : Source T}
    {tensor : Tensor T} (built : ofSource kind pattern source = .ok tensor) :
    tensor.shape.sizes = source.shape.sizes ∧ tensor.Full ∧ ∀ index, Inside source.shape.sizes index →
      ∃ element, source.read index = .ok element ∧ tensor.read index = .ok element := by
  obtain ⟨shape, count, cells, converted, size, _, collected, _, rfl⟩ :=
    ofSource_eq_ok_convert.mp built
  have sizes : shape.sizes = source.shape.sizes := Shape.sizes_of_ofSizes converted
  have sourceSize : source.shape.size = .ok count := by
    rw [Shape.size, ← sizes]
    exact size
  have full : Full (⟨shape, ⟨kind, cells⟩⟩ : Tensor T) := by
    change shape.size = .ok cells.size
    rw [size, Source.size_elements_of_size sourceSize collected]
  refine ⟨sizes, full, fun index inside => ?_⟩
  obtain ⟨element, read, found⟩ := Source.getElem?_elements collected inside
  obtain ⟨own, same, ownRead⟩ := full.read_eq (sizes ▸ inside)
  rw [sizes] at same
  obtain rfl := Option.some.inj (same.symm.trans found)
  exact ⟨own, read, ownRead⟩

/-- A function gives the elements of a source one after the other, between the room for them and the
storage that takes them. -/
theorem tabulate_eq [Stored T] (kind : StorageKind) (shape : Shape)
    (entry : List Nat → Except Fault T) :
    tabulate kind shape entry = (do
      let count ← shape.size
      Buffer.reserve T count
      let cells ← Source.elements ⟨shape, entry⟩
      let storage ← Storage.ofCells kind cells
      return ⟨shape, storage⟩) :=
  rfl

/-- The tensor of the values of a function is the copy of a source with these elements. -/
theorem tabulate_eq_ofSource [Stored T] (kind : StorageKind) (shape : Shape)
    (entry : List Nat → Except Fault T) :
    tabulate kind shape entry = ofSource kind shape.pattern ⟨shape, entry⟩ := by
  rw [ofSource, Shape.convert_pattern]
  rfl

/-- A tensor that is built from a function of the index is full and reads its values. -/
theorem tabulate_eq_ok [Stored T] {kind : StorageKind} {shape : Shape}
    {entry : List Nat → Except Fault T} {tensor : Tensor T}
    (built : tabulate kind shape entry = .ok tensor) :
    tensor.shape = shape ∧ tensor.Full ∧ ∀ index, Inside shape.sizes index →
      ∃ element, entry index = .ok element ∧ tensor.read index = .ok element := by
  rw [tabulate_eq_ofSource] at built
  obtain ⟨_, full, reads⟩ := ofSource_reads built
  obtain ⟨own, _, _, converted, _, _, _, _, rfl⟩ := ofSource_eq_ok_convert.mp built
  exact ⟨Except.ok.inj (converted.symm.trans shape.convert_pattern), full, reads⟩

/-- A tensor is also built from a function that has the same values. -/
theorem tabulate_imp [Stored T] {kind : StorageKind} {shape : Shape}
    {entry other : List Nat → Except Fault T}
    (follows : ∀ index element, entry index = .ok element → other index = .ok element)
    {tensor : Tensor T} (built : tabulate kind shape entry = .ok tensor) :
    tabulate kind shape other = .ok tensor := by
  rw [tabulate_eq] at built ⊢
  obtain ⟨count, size, built⟩ := Checked.bind_eq_ok.mp built
  obtain ⟨reserved, built⟩ := Checked.check_eq_ok.mp built
  obtain ⟨cells, collected, built⟩ := Checked.bind_eq_ok.mp built
  have others : Source.elements ⟨shape, other⟩ = .ok cells :=
    Source.elements_eq_ok.mpr ((Source.elements_eq_ok.mp collected).imp follows)
  exact Checked.bind_eq_ok.mpr ⟨count, size, Checked.check_eq_ok.mpr ⟨reserved,
    Checked.bind_eq_ok.mpr ⟨cells, others, built⟩⟩⟩

/-- A tensor of one value has that value in as many cells as its shape has elements. -/
theorem filled_eq_ok [Stored T] {kind : StorageKind} {shape : Shape} {value : T}
    {tensor : Tensor T} :
    filled kind shape value = .ok tensor ↔ ∃ count, shape.size = .ok count ∧
      kind.reserve T count = .ok () ∧ tensor = ⟨shape, ⟨kind, Array.replicate count value⟩⟩ := by
  rw [filled, Checked.bind_eq_ok]
  simp only [Storage.filled, bind_assoc, Checked.check_eq_ok, pure_bind]
  constructor
  · rintro ⟨count, size, reserved, built⟩
    exact ⟨count, size, reserved, (Except.ok.inj built).symm⟩
  · rintro ⟨count, size, reserved, rfl⟩
    exact ⟨count, size, reserved, rfl⟩

/-- A tensor of one value is full. -/
theorem filled_full [Stored T] {kind : StorageKind} {shape : Shape} {value : T} {tensor : Tensor T}
    (built : filled kind shape value = .ok tensor) : tensor.Full := by
  obtain ⟨count, size, _, rfl⟩ := filled_eq_ok.mp built
  change shape.size = .ok (Array.replicate count value).size
  rw [size, Array.size_replicate]

/-- An action on the cells of a tensor succeeds with the cells that it leaves. -/
theorem written_eq_ok {tensor after : Tensor T} {action : Target → Writing T Unit} :
    tensor.written action = .ok after ↔
      ∃ cells, action tensor.target tensor.cells = .ok () cells ∧ after = tensor.withCells cells := by
  rw [written]
  cases action tensor.target tensor.cells <;> simp [eq_comm]

end Tensor

end ShapedTensor

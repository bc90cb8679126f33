import ShapedTensor.Edit
import ShapedTensor.Proofs.Element.Integer
import ShapedTensor.Proofs.Tensor.Cells

namespace ShapedTensor

open Index

variable {T : Type}

namespace Storage

/-- A resized buffer is as much of the cells as it has room for, and copies of the value behind them. -/
theorem resized_eq (cells : Array T) (count : Nat) (value : T) :
    resized cells count value = cells.take (min cells.size count) ++
      Array.replicate (count - min cells.size count) value := by
  have kept : cells.take count = cells.take (min cells.size count) := by
    rw [Array.take_eq_extract, Array.take_eq_extract, Array.extract_eq_extract_right]
    omega
  rw [resized, kept, show count - cells.size = count - min cells.size count by omega]

/-- A resized buffer keeps a cell that it has room for. -/
theorem getElem?_resized_of_lt {cells : Array T} {count position : Nat} (value : T)
    (old : position < cells.size) (room : position < count) :
    (resized cells count value)[position]? = cells[position]? := by
  have among : position < min count cells.size - 0 := by omega
  rw [resized, Array.getElem?_append_left (by simpa using And.intro room old), Array.take_eq_extract,
    Array.getElem?_extract, if_pos among, Nat.zero_add]

/-- A resized buffer has the value in the places that the cells did not reach. -/
theorem getElem?_resized_of_le {cells : Array T} {count position : Nat} (value : T)
    (new : cells.size ≤ position) (room : position < count) :
    (resized cells count value)[position]? = some value := by
  rw [resized, Array.getElem?_append_right (by simp; omega), Array.getElem?_replicate, if_pos]
  simp
  omega

end Storage

namespace Index

variable {sizes other index : List Nat}

/-- The number of an index does not depend on the size of the first axis. -/
theorem ordinal_of_tail (ranks : sizes.length = other.length) (tails : sizes.tail = other.tail) :
    ordinal 0 sizes index = ordinal 0 other index := by
  cases sizes with
  | nil => rw [List.eq_nil_of_length_eq_zero ranks.symm]
  | cons size rest =>
      cases other with
      | nil => cases ranks
      | cons otherSize otherRest =>
          obtain rfl : rest = otherRest := tails
          cases index with
          | nil => rfl
          | cons first index => rw [ordinal, ordinal, Nat.zero_mul, Nat.zero_mul]

/-- Among boxes that differ in their first side, the indices of the one are those whose numbers lie below
its number of indices. -/
theorem inside_iff_ordinal_lt (inside : Inside sizes index) (ranks : sizes.length = other.length)
    (tails : sizes.tail = other.tail) : Inside other index ↔ ordinal 0 sizes index < other.prod := by
  rw [ordinal_of_tail ranks tails]
  refine ⟨ordinal_lt, fun below => ?_⟩
  cases inside with
  | nil => rw [List.eq_nil_of_length_eq_zero ranks.symm]; exact .nil
  | @cons first size index sizes less inside =>
      cases other with
      | nil => cases ranks
      | cons otherSize otherRest =>
          obtain rfl : sizes = otherRest := tails
          rw [ordinal, Nat.zero_mul, Nat.zero_add, ordinal_eq inside, List.prod_cons] at below
          exact .cons (Nat.lt_of_mul_lt_mul_right (Nat.lt_of_le_of_lt (Nat.le_add_right _ _) below)) inside

end Index

namespace Tensor

variable {tensor : Tensor T} {shape : Shape} {count : Nat} {kind : StorageKind} {index : List Nat}

/-- A tensor with growable cells takes another shape if there is room for the elements, and stays as it is
if there is not. -/
theorem apply_resize [Element T] (dense : tensor.storage.kind = .growable)
    (sized : shape.size = .ok count) (value : T) :
    apply (.resize shape value) tensor =
      if Buffer.bytes T count < Buffer.bound then
        .ok () ⟨shape, ⟨.growable, Storage.resized tensor.cells count value⟩⟩
      else .error .capacityOverflow tensor := by
  have replaced : apply (.resize shape value) tensor =
      EStateM.bind (liftM (tensor.resize shape value)) set tensor := rfl
  have reserved : tensor.storage.kind.reserve T count =
      if Buffer.bytes T count < Buffer.bound then .ok () else .error .capacityOverflow := by
    rw [dense]
    rfl
  rw [replaced, resize, sized]
  change EStateM.bind (liftM ((tensor.storage.kind.reserve T count >>= _) >>= _)) set tensor = _
  rw [reserved]
  split
  · change EStateM.Result.ok () (⟨shape, ⟨tensor.storage.kind, _⟩⟩ : Tensor T) = _
    rw [dense]
    rfl
  · rfl

/-- After a change of the first axis an index reads what it did if the tensor had it, and the value if
not. -/
theorem read_resized (full : tensor.Full) (sized : shape.size = .ok count)
    (ranks : shape.rank = tensor.shape.rank) (tails : shape.sizes.tail = tensor.shape.sizes.tail)
    (value : T) (inside : Inside shape.sizes index) :
    ∃ element,
      (⟨shape, ⟨kind, Storage.resized tensor.cells count value⟩⟩ : Tensor T).read index =
        .ok element ∧
      if tensor.shape.contains index then tensor.read index = .ok element else element = value := by
  rw [← Shape.sizes_length, ← Shape.sizes_length] at ranks
  have afterFull : (⟨shape, ⟨kind, Storage.resized tensor.cells count value⟩⟩ : Tensor T).Full :=
    sized.trans (congrArg Except.ok (Storage.size_resized tensor.cells count value).symm)
  obtain ⟨element, found, read⟩ := afterFull.read_eq inside
  change (Storage.resized tensor.cells count value)[ordinal 0 shape.sizes index]? = _ at found
  obtain ⟨_, room⟩ := Shape.horner_of_size sized inside
  -- The tensor had the index exactly when the place of it lies among the old cells.
  have old := inside_iff_ordinal_lt inside ranks tails
  rw [(tensor.shape.prod_of_size full).1] at old
  refine ⟨element, read, ?_⟩
  split
  · next contained =>
      have before := Shape.contains_iff.mp contained
      rw [Storage.getElem?_resized_of_lt value (old.mp before) room, ordinal_of_tail ranks tails]
        at found
      obtain ⟨own, same, ownRead⟩ := full.read_eq before
      obtain rfl := Option.some.inj (same.symm.trans found)
      exact ownRead
  · next missing =>
      have behind : tensor.cells.size ≤ ordinal 0 shape.sizes index :=
        Nat.le_of_not_lt fun less => missing (Shape.contains_iff.mpr (old.mpr less))
      rw [Storage.getElem?_resized_of_le value behind room] at found
      exact (Option.some.inj found).symm

/-- A third column takes the second row from its indices: what was read at `[1, 0]` was 3. -/
example : (⟨.ofFree [2, 3], ⟨.growable, Storage.resized #[1, 2, 3, 4] 6 0⟩⟩ : Tensor Nat).read [1, 0] =
    .ok 4 :=
  rfl

/-- A tensor that takes another shape keeps its first cells, and its elements if only the first axis
differs. -/
theorem resize_keeps_elements [Element T] (full : tensor.Full)
    (dense : tensor.storage.kind = .growable) (sized : shape.size = .ok count) (value : T) :
    (Buffer.bound ≤ Buffer.bytes T count →
      apply (.resize shape value) tensor = .error .capacityOverflow tensor) ∧
    (Buffer.bytes T count < Buffer.bound → ∃ after,
      apply (.resize shape value) tensor = .ok () after ∧ after.shape = shape ∧
      after.cells = tensor.cells.take (min tensor.cells.size count) ++
        Array.replicate (count - min tensor.cells.size count) value ∧
      (shape.rank = tensor.shape.rank → shape.sizes.tail = tensor.shape.sizes.tail →
        ∀ index, Inside shape.sizes index → ∃ element, after.read index = .ok element ∧
          if tensor.shape.contains index then tensor.read index = .ok element
          else element = value)) := by
  rw [apply_resize dense sized]
  constructor
  · intro much
    rw [if_neg (Nat.not_lt_of_le much)]
  · intro room
    rw [if_pos room]
    exact ⟨_, rfl, rfl, Storage.resized_eq tensor.cells count value, fun ranks tails index inside =>
      read_resized full sized ranks tails value inside⟩

open scoped Integer in
/-- A third row of zeros leaves the elements of the first two where they are. -/
theorem resize_keeps_elements_row :
    let tensor : Tensor Int := ⟨.ofFree [2, 2], ⟨.growable, #[1, 2, 3, 4]⟩⟩
    tensor.Full ∧ (Shape.ofFree [3, 2]).size = .ok 6 ∧
      ∃ after, apply (.resize (.ofFree [3, 2]) 0) tensor = .ok () after ∧
        after.cells = #[1, 2, 3, 4, 0, 0] ∧ after.read [1, 1] = .ok 4 ∧ after.read [2, 1] = .ok 0 := by
  intro tensor
  have full : tensor.Full := rfl
  have sized : (Shape.ofFree [3, 2]).size = .ok 6 := rfl
  obtain ⟨after, resized, _, cells, reads⟩ :=
    (resize_keeps_elements full rfl sized 0).2 (by decide)
  have kept := reads rfl rfl [1, 1] (by decide)
  have new := reads rfl rfl [2, 1] (by decide)
  refine ⟨full, sized, after, resized, cells, ?_, ?_⟩
  · obtain ⟨element, read, own⟩ := kept
    rw [read]
    exact own.symm
  · obtain ⟨element, read, rfl⟩ := new
    exact read

/-- Two cells grow to as many numbers of eight bytes as no buffer has room for, though they can be counted:
the tensor is not resized. -/
theorem resize_refused_beyond_buffer :
    let tensor : Tensor Float := ⟨.ofFree [2], ⟨.growable, #[1, 2]⟩⟩
    let shape : Shape := .ofFree [1152921504606846976]
    tensor.Full ∧ shape.size = .ok 1152921504606846976 ∧
      apply (.resize shape 7) tensor = .error .capacityOverflow tensor ∧
      ¬∃ after, apply (.resize shape 7) tensor = .ok () after := by
  intro tensor shape
  have sized : shape.size = .ok 1152921504606846976 := rfl
  have refused : apply (.resize shape 7) tensor = .error .capacityOverflow tensor := by
    rw [apply_resize rfl sized]
    exact if_neg (by decide)
  refine ⟨rfl, sized, refused, ?_⟩
  rintro ⟨after, resized⟩
  rw [refused] at resized
  cases resized

end Tensor

end ShapedTensor

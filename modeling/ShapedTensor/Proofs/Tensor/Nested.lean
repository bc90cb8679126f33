import ShapedTensor.Element.Real
import ShapedTensor.Proofs.Tensor.Cells
import ShapedTensor.Proofs.Tensor.Rectangular

namespace ShapedTensor

open Index

variable {T : Type}

namespace Nested

variable {depth : Nat}

/-- What a list whose depth is the rank is to be answered with. -/
inductive Answer (pattern : Pattern) (list : Nested T depth) : Except Fault (Tensor T) → Prop
  /-- A rectangular list gives the tensor with its lengths and its elements. -/
  | tensor {tensor : Tensor T} (even : Rectangular pattern list)
      (patterned : tensor.shape.pattern = pattern)
      (sized : tensor.shape.sizes = (List.range pattern.length).map (expected pattern list))
      (reads : ∀ index element,
        tensor.source.at? index = .ok element ↔ get? depth list index = some element) :
      Answer pattern list (.ok tensor)
  /-- Another list is refused for a length that some list has and should not have. -/
  | mismatch {axis given : Nat} (ragged : ¬Rectangular pattern list)
      (present : given ∈ lengthsOn depth list axis) (wrong : given ≠ expected pattern list axis) :
      Answer pattern list (.error (.listLength axis (expected pattern list axis) given))

section Answers

variable {pattern : Pattern} {list : Nested T depth}

/-- The measured lengths and the sizes have one product: an empty list stands before all sizes that
were not measured. -/
theorem product_sizesOf (ranked : depth = pattern.length) (fits : FirstFit pattern (lengths depth list))
    {start count : Nat} (product : (lengths depth list).foldlM Size.mul start = .ok count) :
    (sizesOf pattern (lengths depth list)).foldlM Size.mul start = .ok count := by
  induction depth generalizing pattern start with
  | zero =>
      obtain rfl := List.length_eq_zero_iff.mp ranked.symm
      exact product
  | succ depth ih =>
      obtain ⟨entry, pattern, rfl⟩ := List.exists_cons_of_length_eq_add_one ranked.symm
      cases list with
      | nil =>
          change FirstFit (entry :: pattern) [0] at fits
          change [0].foldlM Size.mul start = .ok count at product
          change (sizesOf (entry :: pattern) [0]).foldlM Size.mul start = .ok count
          obtain ⟨next, first, rest⟩ := Checked.bind_eq_ok.mp product
          obtain rfl := Except.ok.inj rest
          obtain ⟨rfl, _⟩ := Size.mul_eq_ok.mp first
          rw [sizesOf_cons, List.headD_cons, (firstFit_cons.mp fits).1, List.foldlM_cons]
          exact Checked.bind_eq_ok.mpr ⟨_, first, Size.foldlM_mul_zero _⟩
      | cons item items =>
          change FirstFit (entry :: pattern) ((items.length + 1) :: lengths depth item) at fits
          change (sizesOf (entry :: pattern) ((items.length + 1) :: lengths depth item)).foldlM
            Size.mul start = .ok count
          obtain ⟨own, inner⟩ := firstFit_cons.mp fits
          obtain ⟨next, first, rest⟩ := Checked.bind_eq_ok.mp product
          rw [sizesOf_cons, List.headD_cons, own, List.foldlM_cons]
          exact Checked.bind_eq_ok.mpr ⟨next, first, ih (by simpa using ranked) inner rest⟩

/-- A measured length that is not the fixed size is answered with a mismatch. -/
theorem Answer.of_measured {fault : Fault}
    (raised : sizesUnder pattern 0 (lengths depth list) = .error fault) :
    Answer pattern list (.error fault) := by
  obtain ⟨axis, length, fixed, reached, entry, wrong, rfl⟩ := raises_sizesUnder _ _ _ fault raised
  have present : length ∈ lengthsOn depth list axis := List.mem_of_head? (head?_lengthsOn reached)
  have size : expected pattern list axis = fixed := by
    rw [expected, entry]
    rfl
  rw [← size] at wrong ⊢
  rw [Nat.zero_add]
  exact .mismatch (fun even => wrong (even.eq_expected present)) present wrong

/-- A list of a wrong length is answered with a mismatch when it is found by the copy. -/
theorem Answer.of_refused (ranked : depth = pattern.length)
    (fits : FirstFit pattern (lengths depth list)) {fault : Fault}
    (raised : flatten depth 0 (sizesOf pattern (lengths depth list)) list #[] = .error fault) :
    Answer pattern list (.error fault) := by
  obtain ⟨level, given, present, wrong, filled, rfl⟩ := raises_flatten _ _ _ _ fault raised
  have below := level_lt present
  have reached := List.getElem?_eq_getElem (lt_length_lengths ranked fits below filled)
  rw [Nat.zero_add]
  rw [expected_of_reached (ranked ▸ below) reached] at wrong ⊢
  exact .mismatch (fun even => wrong (even.eq_expected present)) present wrong

/-- The sizes make a shape under the pattern. -/
theorem exists_shape (pattern : Pattern) (reached : List Nat) :
    ∃ shape, Shape.ofSizes pattern (sizesOf pattern reached) = .ok shape := by
  refine (Shape.exists_ofSizes_iff (by simp [sizesOf])).mpr fun axis size fixed => ?_
  rw [sizesOf, List.getElem?_mapIdx, fixed]
  rfl

/-- A full tensor of the elements of an even list finds at an index what the index leads to. -/
theorem at?_eq_ok_iff {tensor : Tensor T} (full : tensor.Full)
    (ranked : tensor.shape.sizes.length = depth) (even : Even depth tensor.shape.sizes list)
    (listed : tensor.cells.toList = leaves depth list) {index : List Nat} {element : T} :
    tensor.source.at? index = .ok element ↔ get? depth list index = some element := by
  have cell (inside : Inside tensor.shape.sizes index) :
      get? depth list index = tensor.cells[ordinal 0 tensor.shape.sizes index]? := by
    rw [get?_eq_leaf ranked even inside, ← listed, Array.getElem?_toList]
  rw [Source.at?, Checked.ite_eq_ok, Shape.contains_iff]
  constructor
  · rintro ⟨inside, read⟩
    rw [cell inside]
    exact ((Tensor.read_eq_ok inside).mp read).2
  · intro found
    have inside := inside_of_get? ranked even found
    obtain ⟨own, stored, read⟩ := full.read_eq inside
    obtain rfl : own = element := Option.some.inj (stored.symm.trans ((cell inside).symm.trans found))
    exact ⟨inside, read⟩

/-- A list that is copied is answered with the tensor of its elements. -/
theorem Answer.of_copied (ranked : depth = pattern.length) (fits : FirstFit pattern (lengths depth list))
    {count : Nat} (product : Size.product (lengths depth list) = .ok count) {cells : Array T}
    (copied : flatten depth 0 (sizesOf pattern (lengths depth list)) list #[] = .ok cells) :
    ∃ shape, Shape.ofSizes pattern (sizesOf pattern (lengths depth list)) = .ok shape ∧
      Tensor.ofCells .growable shape cells = .ok ⟨shape, ⟨.growable, cells⟩⟩ ∧
        Answer pattern list (.ok ⟨shape, ⟨.growable, cells⟩⟩) := by
  obtain ⟨shape, shaped⟩ := exists_shape pattern (lengths depth list)
  obtain ⟨sized, patterned⟩ := Shape.ofSizes_eq_ok.mp shaped
  have even := even_of_flatten copied
  have listed : cells.toList = leaves depth list := by simpa using toList_flatten copied
  rw [← sized] at even
  have axes : shape.sizes.length = depth := by rw [ranked, ← patterned]; simp
  have size : shape.size = .ok count := by
    rw [Shape.size, sized]
    exact product_sizesOf ranked fits product
  have counted : cells.size = count := by
    rw [← (shape.prod_of_size size).1, ← length_leaves axes even, ← listed, Array.length_toList]
  have full : Tensor.Full (⟨shape, ⟨.growable, cells⟩⟩ : Tensor T) := by
    change shape.size = .ok cells.size
    rw [size, counted]
  refine ⟨shape, shaped, ?_, .tensor (sized ▸ even).rectangular patterned ?_ fun index element => ?_⟩
  · rw [Tensor.ofCells, size]
    exact (if_pos counted).trans rfl
  · rw [sized] at even ⊢
    exact sizesOf_eq_expected even
  · exact at?_eq_ok_iff full axes even listed

end Answers

/-- The list whose first lists have `others + 1` items each and whose other lists are empty. -/
def comb (others : Nat) (element : T) : (depth : Nat) → Nested T (depth + 1)
  | 0 => (List.replicate (others + 1) element : List T)
  | depth + 1 => (comb others element depth :: List.replicate others [] : List (List (Nested T depth)))

/-- The first lists of the list have all the same length. -/
theorem lengths_comb (others : Nat) (element : T) (depth : Nat) :
    lengths (depth + 1) (comb others element depth) = List.replicate (depth + 1) (others + 1) := by
  induction depth with
  | zero =>
      change [(List.replicate (others + 1) element).length] = [others + 1]
      rw [List.length_replicate]
  | succ depth ih =>
      change ((List.replicate others ([] : List (Nested T depth))).length + 1) ::
        lengths (depth + 1) (comb others element depth) = _
      rw [List.length_replicate, ih]
      rfl

/-- The list is not rectangular when it has an empty list at all. -/
theorem ragged_comb (pattern : Pattern) (others : Nat) (element : T) (depth : Nat) :
    ¬Rectangular pattern (comb (others + 1) element (depth + 1)) := by
  intro even
  have full : others + 2 ∈ lengthsOn (depth + 2) (comb (others + 1) element (depth + 1)) 1 :=
    List.mem_of_head? (head?_lengthsOn (by rw [lengths_comb]; rfl))
  have empty : 0 ∈ lengthsOn (depth + 2) (comb (others + 1) element (depth + 1)) 1 :=
    List.mem_flatMap.mpr ⟨([] : List (Nested T depth)),
      List.mem_cons_of_mem _ (List.mem_replicate.mpr ⟨Nat.succ_ne_zero others, rfl⟩),
      List.mem_singleton.mpr rfl⟩
  have same := (even.eq_expected full).trans (even.eq_expected empty).symm
  omega

end Nested

namespace Tensor

open Nested

variable [Stored T] {pattern : Pattern} {depth count : Nat} {list : Nested T depth}

/-- A list whose first lists fit the pattern is copied when there is room for what they promise. -/
theorem ofNested_eq_bind (ranked : depth = pattern.length) (fits : FirstFit pattern (lengths depth list))
    (product : Size.product (lengths depth list) = .ok count) :
    ofNested .growable pattern depth list = (do
      Buffer.reserve T count
      let cells ← flatten depth 0 (sizesOf pattern (lengths depth list)) list #[]
      let shape ← Shape.ofSizes pattern (sizesOf pattern (lengths depth list))
      ofCells .growable shape cells) := by
  have sizes : Size.product (sizesOf pattern (lengths depth list)) = .ok count :=
    product_sizesOf ranked fits product
  rw [ofNested, if_pos ranked, sizesUnder_eq_ok.mpr ⟨fits, rfl⟩]
  change (Size.product _ >>= _) = _
  rw [sizes]
  rfl

/-- When the first lists fit the pattern and promise more elements than a buffer holds, the room is
refused before any other list is looked at. -/
theorem ofNested_eq_capacityOverflow (ranked : depth = pattern.length)
    (fits : FirstFit pattern (lengths depth list))
    (product : Size.product (lengths depth list) = .ok count)
    (much : Buffer.bound ≤ Buffer.bytes T count) :
    ofNested .growable pattern depth list = .error .capacityOverflow := by
  rw [ofNested_eq_bind ranked fits product, Buffer.reserve, if_neg (Nat.not_lt.mpr much)]
  rfl

/-- When the first lists do not fit the pattern or there is room for what they promise, the list is
answered. -/
theorem answer_ofNested (ranked : depth = pattern.length)
    (product : Size.product (lengths depth list) = .ok count)
    (room : FirstFit pattern (lengths depth list) → Buffer.bytes T count < Buffer.bound) :
    Answer pattern list (ofNested .growable pattern depth list) := by
  cases measured : sizesUnder pattern 0 (lengths depth list) with
  | error fault =>
      rw [ofNested, if_pos ranked, measured]
      exact .of_measured measured
  | ok sizes =>
      obtain ⟨fits, rfl⟩ := sizesUnder_eq_ok.mp measured
      rw [ofNested_eq_bind ranked fits product, Buffer.reserve_eq_ok.mpr (room fits)]
      cases copied : flatten depth 0 (sizesOf pattern (lengths depth list)) list #[] with
      | error fault => exact .of_refused ranked fits copied
      | ok cells =>
          obtain ⟨shape, shaped, built, answer⟩ := Answer.of_copied ranked fits product copied
          change Answer pattern list (Shape.ofSizes _ _ >>= fun shape => ofCells .growable shape cells)
          rw [shaped]
          change Answer pattern list (ofCells .growable shape cells)
          rw [built]
          exact answer

/-- A list is refused for its depth or its lengths, or for the room that its first lists promise. -/
theorem ofNested_answers (pattern : Pattern) (list : Nested T depth)
    (product : Size.product (lengths depth list) = .ok count) :
    (depth ≠ pattern.length →
      ofNested .growable pattern depth list = .error (.nestingDepth pattern.length depth)) ∧
    (depth = pattern.length →
      (Answer pattern list (ofNested .growable pattern depth list) ↔
        ¬(FirstFit pattern (lengths depth list) ∧ Buffer.bound ≤ Buffer.bytes T count)) ∧
      (FirstFit pattern (lengths depth list) → Buffer.bound ≤ Buffer.bytes T count →
        ofNested .growable pattern depth list = .error .capacityOverflow)) := by
  refine ⟨fun differs => if_neg differs, fun ranked => ⟨⟨?_, fun room => ?_⟩, fun fits much => ?_⟩⟩
  · rintro answer ⟨fits, much⟩
    rw [ofNested_eq_capacityOverflow ranked fits product much] at answer
    cases answer
  · exact answer_ofNested ranked product fun fits => Nat.lt_of_not_le fun much => room ⟨fits, much⟩
  · exact ofNested_eq_capacityOverflow ranked fits product much

/-- Two rows of three are refused as a vector and answered as a matrix. -/
theorem ofNested_answers_rows :
    let rows : Nested Float 2 := ([[1, 2, 3], [4, 5, 6]] : List (List Float))
    Size.product (lengths 2 rows) = .ok 6 ∧
      ofNested .growable [none] 2 rows = .error (.nestingDepth 1 2) ∧
      Answer [none, some 3] rows (ofNested .growable [none, some 3] 2 rows) := by
  intro rows
  have product : Size.product (lengths 2 rows) = .ok 6 := rfl
  have room : ¬(FirstFit [none, some 3] (lengths 2 rows) ∧ Buffer.bound ≤ Buffer.bytes Float 6) :=
    fun ⟨_, much⟩ => absurd much (by decide)
  exact ⟨product, (ofNested_answers [none] rows product).1 (by decide),
    ((ofNested_answers [none, some 3] rows product).2 rfl).1.mpr room⟩

/-- Ragged lists of four levels promise more elements than there is room for, and are refused for the
room. -/
theorem ofNested_promise_unkept :
    let list : Nested Float 4 := comb 32767 0 3
    let pattern : Pattern := List.replicate 4 none
    Size.product (lengths 4 list) = .ok 1152921504606846976 ∧ ¬Rectangular pattern list ∧
      ofNested .growable pattern 4 list = .error .capacityOverflow := by
  intro list pattern
  have product : Size.product (lengths 4 list) = .ok 1152921504606846976 := by
    rw [lengths_comb]
    rfl
  have fits : FirstFit pattern (lengths 4 list) := by
    intro axis length fixed _ entry
    cases (List.eq_of_mem_replicate (List.mem_of_getElem? entry))
  exact ⟨product, ragged_comb pattern 32766 0 2,
    ofNested_eq_capacityOverflow rfl fits product (by decide)⟩

end Tensor

end ShapedTensor

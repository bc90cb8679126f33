import ShapedTensor.Proofs.Layout.Place
import ShapedTensor.Proofs.Run.Faults
import ShapedTensor.Tensor.Nested

namespace ShapedTensor.Nested

open Index

variable {T : Type} {depth : Nat}

/-- The lengths of all lists of a level, from left to right. -/
def lengthsOn : (depth : Nat) → Nested T depth → (level : Nat) → List Nat
  | 0, _, _ => []
  | _ + 1, (items : List (Nested T _)), 0 => [items.length]
  | depth + 1, (items : List (Nested T depth)), level + 1 =>
      items.flatMap fun item => lengthsOn depth item level

/-- The element that one position for each level leads to. -/
def get? : (depth : Nat) → Nested T depth → (index : List Nat) → Option T
  | 0, (element : T), [] => some element
  | depth + 1, (items : List (Nested T depth)), first :: rest =>
      items[first]?.bind fun item => get? depth item rest
  | _, _, _ => none

/-- The elements from left to right. -/
def leaves : (depth : Nat) → Nested T depth → List T
  | 0, (element : T) => [element]
  | depth + 1, (items : List (Nested T depth)) => items.flatMap (leaves depth)

/-- The size that an axis is to have: the fixed one, or else the length of the first list there. -/
def expected (pattern : Pattern) (list : Nested T depth) (axis : Nat) : Nat :=
  pattern[axis]?.join.getD ((lengthsOn depth list axis).headD 0)

/-- All lists of a level have one common length, and the fixed size of the axis where there is one. -/
def Rectangular (pattern : Pattern) (list : Nested T depth) : Prop :=
  ∀ axis, ∃ size, (∀ length ∈ lengthsOn depth list axis, length = size) ∧
    ∀ fixed, pattern[axis]? = some (some fixed) → size = fixed

/-- The lengths of the first lists are the fixed sizes where there are some. -/
def FirstFit (pattern : Pattern) (reached : List Nat) : Prop :=
  ∀ axis length fixed : Nat, reached[axis]? = some length → pattern[axis]? = some (some fixed) →
    length = fixed

section Lengths

/-- There are lists on the levels of the depth only. -/
theorem level_lt {list : Nested T depth} {level length : Nat}
    (present : length ∈ lengthsOn depth list level) : level < depth := by
  induction depth generalizing level with
  | zero => simp [lengthsOn] at present
  | succ depth ih =>
      cases level with
      | zero => exact Nat.succ_pos depth
      | succ level =>
          obtain ⟨item, _, inner⟩ := List.mem_flatMap.mp present
          exact Nat.succ_lt_succ (ih inner)

/-- The length that is measured on a level is the one of its first list. -/
theorem head?_lengthsOn {list : Nested T depth} {level length : Nat}
    (reached : (lengths depth list)[level]? = some length) :
    (lengthsOn depth list level).head? = some length := by
  induction depth generalizing level with
  | zero => simp [lengths] at reached
  | succ depth ih =>
      cases level with
      | zero => simpa [lengths, lengthsOn] using reached
      | succ level =>
          cases list with
          | nil => simp [lengths] at reached
          | cons first others =>
              have inner : (lengthsOn depth first level).head? = some length :=
                ih (by simpa [lengths] using reached)
              simp [lengthsOn, List.head?_append, inner]

/-- A measurement that does not reach all levels ends at an empty list. -/
theorem zero_mem_lengths {list : Nested T depth} (short : (lengths depth list).length < depth) :
    0 ∈ lengths depth list := by
  induction depth with
  | zero => simp at short
  | succ depth ih =>
      cases list with
      | nil => simp [lengths]
      | cons first others =>
          have inner : 0 ∈ lengths depth first := ih (by simpa [lengths] using short)
          simp [lengths, inner]

/-- In a rectangular list each length is the expected one. -/
theorem Rectangular.eq_expected {pattern : Pattern} {list : Nested T depth}
    (even : Rectangular pattern list) {axis length : Nat}
    (present : length ∈ lengthsOn depth list axis) : length = expected pattern list axis := by
  obtain ⟨size, common, fixed⟩ := even axis
  rw [common length present, expected]
  cases entry : pattern[axis]?.join with
  | some own => exact fixed own (Option.join_eq_some_iff.mp entry)
  | none =>
      cases listed : lengthsOn depth list axis with
      | nil => simp [listed] at present
      | cons first others => exact (common first (by simp [listed])).symm

end Lengths

section Sizes

/-- The sizes under a pattern: the fixed ones, the measured lengths, and 0 elsewhere. -/
def sizesOf (pattern : Pattern) (reached : List Nat) : List Nat :=
  pattern.mapIdx fun axis entry => entry.getD (reached.getD axis 0)

theorem sizesOf_cons (entry : Option Nat) (pattern : Pattern) (reached : List Nat) :
    sizesOf (entry :: pattern) reached =
      entry.getD (reached.headD 0) :: sizesOf pattern reached.tail := by
  cases reached <;> simp [sizesOf, List.mapIdx_cons]

theorem firstFit_cons {entry : Option Nat} {pattern : Pattern} {length : Nat} {reached : List Nat} :
    FirstFit (entry :: pattern) (length :: reached) ↔
      entry.getD length = length ∧ FirstFit pattern reached := by
  constructor
  · intro fits
    constructor
    · cases entry with
      | none => rfl
      | some fixed => exact (fits 0 length fixed rfl rfl).symm
    · exact fun axis => fits (axis + 1)
  · rintro ⟨first, rest⟩ (_ | axis)
    · rintro _ fixed ⟨⟩ ⟨⟩
      exact first.symm
    · exact rest axis

/-- The sizes are found when the measured lengths fit the pattern. -/
theorem sizesUnder_eq_ok {pattern : Pattern} {axis : Nat} {reached sizes : List Nat} :
    sizesUnder pattern axis reached = .ok sizes ↔
      FirstFit pattern reached ∧ sizesOf pattern reached = sizes := by
  induction pattern generalizing axis reached sizes with
  | nil => simp [sizesUnder, sizesOf, FirstFit]
  | cons entry pattern ih =>
      rw [sizesOf_cons]
      cases reached with
      | nil =>
          have fits (pattern : Pattern) : FirstFit pattern [] := by simp [FirstFit]
          rw [sizesUnder, Checked.bind_eq_ok]
          simp [ih, fits, pure, Except.pure]
      | cons length reached =>
          rw [sizesUnder, Checked.ite_eq_ok, Checked.bind_eq_ok, firstFit_cons]
          simp [ih, pure, Except.pure, and_assoc]

/-- A measured length that is not the fixed size is named with its axis. -/
theorem raises_sizesUnder (pattern : Pattern) (axis : Nat) (reached : List Nat) :
    Checked.Raises (fun fault => ∃ level length fixed, reached[level]? = some length ∧
      pattern[level]? = some (some fixed) ∧ length ≠ fixed ∧
        fault = .listLength (axis + level) fixed length)
      (sizesUnder pattern axis reached) := by
  induction pattern generalizing axis reached with
  | nil => exact .ok _
  | cons entry pattern ih =>
      cases reached with
      | nil =>
          refine Checked.Raises.bind (fun fault raised => ?_) fun _ _ => .ok _
          obtain ⟨_, _, _, none, _⟩ := ih (axis + 1) [] fault raised
          simp at none
      | cons length reached =>
          refine .ite (fun _ => Checked.Raises.bind (fun fault raised => ?_) fun _ _ => .ok _)
            fun differs => ?_
          · obtain ⟨level, found⟩ := ih (axis + 1) reached fault raised
            rw [Nat.add_right_comm] at found
            exact ⟨level + 1, found⟩
          · cases entry with
            | none => exact absurd rfl differs
            | some fixed => exact ⟨0, length, fixed, rfl, rfl, Ne.symm differs, rfl⟩

end Sizes

section Lists

/-- The lists of each level have the size of the axis. -/
def Even (depth : Nat) (sizes : List Nat) (list : Nested T depth) : Prop :=
  ∀ level, ∀ length ∈ lengthsOn depth list level, length = sizes.getD level 0

/-- A list is even when it has the first size and its items are even under the others. -/
theorem even_succ {sizes : List Nat} {items : List (Nested T depth)} :
    Even (depth + 1) sizes items ↔
      items.length = sizes.headD 0 ∧ ∀ item ∈ items, Even depth sizes.tail item := by
  constructor
  · intro even
    refine ⟨?_, fun item listed level length present => ?_⟩
    · simpa [List.headD_eq_head?_getD, List.head?_eq_getElem?] using
        even 0 items.length (by simp [lengthsOn])
    · simpa using even (level + 1) length (List.mem_flatMap.mpr ⟨item, listed, present⟩)
  · rintro ⟨own, inner⟩ (_ | level) length present
    · obtain rfl := List.mem_singleton.mp present
      simpa [List.headD_eq_head?_getD, List.head?_eq_getElem?] using own
    · obtain ⟨item, listed, present⟩ := List.mem_flatMap.mp present
      simpa using inner item listed level length present

/-- A copy appends the elements from left to right. -/
theorem toList_flatten {axis : Nat} {sizes : List Nat} {list : Nested T depth}
    {start cells : Array T} (run : flatten depth axis sizes list start = .ok cells) :
    cells.toList = start.toList ++ leaves depth list := by
  induction depth generalizing axis sizes start cells with
  | zero =>
      obtain rfl := Except.ok.inj run
      exact Array.toList_push
  | succ depth ih =>
      replace run := (Checked.ite_eq_ok.mp run).2
      induction list generalizing start with
      | nil =>
          obtain rfl := Except.ok.inj run
          simp [leaves]
      | cons item items rest =>
          rw [List.foldlM_cons] at run
          obtain ⟨next, first, others⟩ := Checked.bind_eq_ok.mp run
          rw [rest others, ih first]
          simp [leaves]

/-- What is copied is even. -/
theorem even_of_flatten {axis : Nat} {sizes : List Nat} {list : Nested T depth}
    {start cells : Array T} (run : flatten depth axis sizes list start = .ok cells) :
    Even depth sizes list := by
  induction depth generalizing axis sizes start cells with
  | zero => simp [Even, lengthsOn]
  | succ depth ih =>
      obtain ⟨own, run⟩ := Checked.ite_eq_ok.mp run
      refine even_succ.mpr ⟨own, fun item listed => ?_⟩
      obtain ⟨_, _, copied⟩ := Checked.foldlM_ran run item listed
      exact ih copied

/-- A copy is refused at a list of a wrong length, behind lists that are not empty. -/
theorem raises_flatten (axis : Nat) (sizes : List Nat) (list : Nested T depth) (start : Array T) :
    Checked.Raises (fun fault => ∃ level, ∃ given ∈ lengthsOn depth list level,
      given ≠ sizes.getD level 0 ∧ (∀ above < level, sizes.getD above 0 ≠ 0) ∧
        fault = .listLength (axis + level) (sizes.getD level 0) given)
      (flatten depth axis sizes list start) := by
  induction depth generalizing axis sizes start with
  | zero => exact .ok _
  | succ depth ih =>
      have first : sizes.getD 0 0 = sizes.headD 0 := by cases sizes <;> rfl
      refine .ite (fun own => .foldlM (fun start item listed fault raised => ?_) start)
        fun differs => ?_
      · obtain ⟨level, given, present, wrong, filled, named⟩ :=
          ih (axis + 1) sizes.tail item start fault raised
        refine ⟨level + 1, given, List.mem_flatMap.mpr ⟨item, listed, present⟩, ?_, ?_, ?_⟩
        · simpa using wrong
        · rintro (_ | above) less
          · rw [first, ← own]
            exact (List.length_pos_of_mem listed).ne'
          · simpa using filled above (Nat.lt_of_succ_lt_succ less)
        · rw [named, Nat.add_right_comm]
          simp [Nat.add_assoc]
      · exact ⟨0, List.length list, by simp [lengthsOn], first ▸ differs, by simp, by rw [first]; rfl⟩

/-- The items of a list are what its positions lead to. -/
theorem flatMap_range_getElem? {α β : Type} (items : List α) (image : Option α → List β) :
    ((List.range items.length).flatMap fun position => image items[position]?) =
      items.flatMap fun item => image (some item) := by
  have found : (List.range items.length).map (items[·]?) = items.map some := by
    apply List.ext_getElem <;> simp
  rw [← List.flatMap_map, found, List.flatMap_map]

/-- The elements of an even list are what all its indices lead to. -/
theorem map_get?_all {sizes : List Nat} {list : Nested T depth} (ranked : sizes.length = depth)
    (even : Even depth sizes list) :
    (all sizes).map (get? depth list) = (leaves depth list).map some := by
  induction depth generalizing sizes with
  | zero =>
      obtain rfl := List.length_eq_zero_iff.mp ranked
      rfl
  | succ depth ih =>
      obtain ⟨size, sizes, rfl⟩ := List.exists_cons_of_length_eq_add_one ranked
      obtain ⟨rfl, inner⟩ := even_succ.mp even
      have rest : ∀ item ∈ (show List (Nested T depth) from list),
          (all sizes).map (get? depth item) = (leaves depth item).map some :=
        fun item listed => ih (by simpa using ranked) (inner item listed)
      calc (all (List.length list :: sizes)).map (get? (depth + 1) list)
          = (List.range (List.length list)).flatMap fun first => (all sizes).map fun rest =>
              (show List (Nested T depth) from list)[first]?.bind fun item => get? depth item rest := by
            simp only [all, List.map_flatMap, List.map_map, Function.comp_def, get?]
        _ = List.flatMap (fun item => (all sizes).map (get? depth item)) list :=
            flatMap_range_getElem? list fun found =>
              (all sizes).map fun rest => found.bind fun item => get? depth item rest
        _ = List.flatMap (fun item => (leaves depth item).map some) list := List.flatMap_congr rest
        _ = (leaves (depth + 1) list).map some := List.map_flatMap.symm

/-- An even list has as many elements as the product of the sizes. -/
theorem length_leaves {sizes : List Nat} {list : Nested T depth} (ranked : sizes.length = depth)
    (even : Even depth sizes list) : (leaves depth list).length = sizes.prod := by
  have same := congrArg List.length (map_get?_all ranked even)
  rw [List.length_map, List.length_map, length_all] at same
  exact same.symm

/-- The element at an index stands among the elements at the number of the index. -/
theorem get?_eq_leaf {sizes : List Nat} {list : Nested T depth} (ranked : sizes.length = depth)
    (even : Even depth sizes list) {index : List Nat} (inside : Inside sizes index) :
    get? depth list index = (leaves depth list)[ordinal 0 sizes index]? := by
  have found := congrArg (·[ordinal 0 sizes index]?) (map_get?_all ranked even)
  simp only [List.getElem?_map, getElem?_all inside, Option.map_some] at found
  obtain ⟨element, listed, same⟩ := Option.map_eq_some_iff.mp found.symm
  rw [listed, same]

/-- The indices that lead to an element of an even list are those inside its sizes. -/
theorem inside_of_get? {sizes : List Nat} {list : Nested T depth} (ranked : sizes.length = depth)
    (even : Even depth sizes list) {index : List Nat} {element : T}
    (found : get? depth list index = some element) : Inside sizes index := by
  induction depth generalizing sizes index with
  | zero =>
      obtain rfl := List.length_eq_zero_iff.mp ranked
      cases index with
      | nil => exact .nil
      | cons first rest => simp [get?] at found
  | succ depth ih =>
      obtain ⟨size, sizes, rfl⟩ := List.exists_cons_of_length_eq_add_one ranked
      obtain ⟨own, inner⟩ := even_succ.mp even
      cases index with
      | nil => simp [get?] at found
      | cons first rest =>
          obtain ⟨item, listed, found⟩ := Option.bind_eq_some_iff.mp found
          refine .cons ?_ (ih (by simpa using ranked) (inner item (List.mem_of_getElem? listed)) found)
          rw [← show List.length list = size from own]
          exact (List.getElem?_eq_some_iff.mp listed).1

end Lists

section Measured

variable {pattern : Pattern} {list : Nested T depth}

/-- The size of an axis is the fixed one, or else the measured length. -/
theorem getD_sizesOf {reached : List Nat} {axis : Nat} (below : axis < pattern.length) :
    (sizesOf pattern reached).getD axis 0 = pattern[axis]?.join.getD (reached.getD axis 0) := by
  simp [sizesOf, below]

/-- The size of an axis is the measured length when this fits the pattern. -/
theorem getD_sizesOf_of_fit {reached : List Nat} (fits : FirstFit pattern reached) {axis length : Nat}
    (below : axis < pattern.length) (found : reached[axis]? = some length) :
    (sizesOf pattern reached).getD axis 0 = length := by
  rw [getD_sizesOf below, List.getD_eq_getElem?_getD, found]
  cases entry : pattern[axis]?.join with
  | none => rfl
  | some fixed => exact (fits axis length fixed found (Option.join_eq_some_iff.mp entry)).symm

/-- A level behind sizes that are not 0 was measured: an empty list, which would have ended the
measurement before, has the size 0. -/
theorem lt_length_lengths (ranked : depth = pattern.length) (fits : FirstFit pattern (lengths depth list))
    {level : Nat} (below : level < depth)
    (filled : ∀ above < level, (sizesOf pattern (lengths depth list)).getD above 0 ≠ 0) :
    level < (lengths depth list).length := by
  by_contra short
  have ended : (lengths depth list).length ≤ level := Nat.le_of_not_lt short
  obtain ⟨above, found⟩ := List.mem_iff_getElem?.mp (zero_mem_lengths (ended.trans_lt below))
  have less : above < level := (List.getElem?_eq_some_iff.mp found).1.trans_le ended
  exact filled above less (getD_sizesOf_of_fit fits (ranked ▸ less.trans below) found)

/-- Where a length was measured, the size is the expected one. -/
theorem expected_of_reached {axis length : Nat} (below : axis < pattern.length)
    (reached : (lengths depth list)[axis]? = some length) :
    (sizesOf pattern (lengths depth list)).getD axis 0 = expected pattern list axis := by
  rw [getD_sizesOf below, expected, List.headD_eq_head?_getD, head?_lengthsOn reached,
    List.getD_eq_getElem?_getD, reached]

/-- In an even list all sizes are the expected ones. -/
theorem expected_of_even (even : Even depth (sizesOf pattern (lengths depth list)) list) {axis : Nat}
    (below : axis < pattern.length) :
    (sizesOf pattern (lengths depth list)).getD axis 0 = expected pattern list axis := by
  cases reached : (lengths depth list)[axis]? with
  | some length => exact expected_of_reached below reached
  | none =>
      have common := even axis
      rw [getD_sizesOf below, List.getD_eq_getElem?_getD, reached, Option.getD_none] at common ⊢
      rw [expected]
      cases entry : pattern[axis]?.join with
      | some own => rfl
      | none =>
          cases listed : lengthsOn depth list axis with
          | nil => rfl
          | cons first others =>
              rw [entry] at common
              exact (common first (by simp [listed])).symm

/-- The sizes of an even list are the expected ones, one for each axis of the pattern. -/
theorem sizesOf_eq_expected (even : Even depth (sizesOf pattern (lengths depth list)) list) :
    sizesOf pattern (lengths depth list) = (List.range pattern.length).map (expected pattern list) := by
  refine List.ext_getElem (by simp [sizesOf]) fun axis below _ => ?_
  have fixed : axis < pattern.length := by simpa [sizesOf] using below
  rw [List.getElem_map, List.getElem_range, ← expected_of_even even fixed, List.getElem_eq_getD]

/-- An even list is rectangular. -/
theorem Even.rectangular (even : Even depth (sizesOf pattern (lengths depth list)) list) :
    Rectangular pattern list := by
  refine fun axis => ⟨_, even axis, fun fixed entry => ?_⟩
  obtain ⟨below, _⟩ := List.getElem?_eq_some_iff.mp entry
  rw [getD_sizesOf below, entry]
  rfl

end Measured

end ShapedTensor.Nested

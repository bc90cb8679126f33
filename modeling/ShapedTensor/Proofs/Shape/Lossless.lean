import ShapedTensor.Proofs.Shape.Algebra

namespace ShapedTensor

namespace Axis

/-- Axes of one size join to the same axis in either order. -/
theorem join_comm {left right : Axis} (same : left.size = right.size) :
    left.join right = right.join left := by
  cases left <;> cases right <;> simp_all [join, size]

/-- Axes join in any grouping to the same axis. -/
theorem join_assoc (first second third : Axis) :
    (first.join second).join third = first.join (second.join third) := by
  cases first <;> cases second <;> rfl

/-- Axes of one size join to an axis that is fixed when one of them is. -/
theorem fixedSize?_join {left right : Axis} (same : left.size = right.size) (size : Nat) :
    (left.join right).fixedSize? = some size ↔
      left.fixedSize? = some size ∨ right.fixedSize? = some size := by
  cases left <;> cases right <;> simp_all [join, fixedSize?, Axis.size]

end Axis

namespace Shape

section FreeSizes

/-- A shape has as many free sizes as its pattern has free entries. -/
theorem length_freeSizes (shape : Shape) :
    shape.freeSizes.length = shape.pattern.countP Option.isNone := by
  rcases shape with ⟨axes⟩
  rw [freeSizes, Shape.pattern]
  induction axes with
  | nil => rfl
  | cons axis axes ih => cases axis <;> simp_all [Axis.fixedSize?]

/-- The free axes of a pattern take the free sizes in order. -/
theorem fillFree_freeSizes (shape : Shape) : fillFree shape.pattern shape.freeSizes = shape.axes := by
  rcases shape with ⟨axes⟩
  rw [freeSizes, Shape.pattern]
  induction axes with
  | nil => rfl
  | cons axis axes ih =>
      cases axis with
      | fixed size => exact congrArg (Axis.fixed size :: ·) ih
      | free size => exact congrArg (Axis.free size :: ·) ih

/-- The sizes that free axes take are their sizes. -/
theorem freeSizes_fillFree {pattern : Pattern} {sizes : List Nat}
    (lengths : sizes.length = pattern.countP Option.isNone) :
    (⟨fillFree pattern sizes⟩ : Shape).freeSizes = sizes := by
  rw [freeSizes]
  induction pattern generalizing sizes with
  | nil => exact (List.eq_nil_of_length_eq_zero lengths).symm
  | cons entry pattern ih =>
      cases entry with
      | some size => exact ih lengths
      | none =>
          cases sizes with
          | nil => simp at lengths
          | cons size sizes => exact congrArg (size :: ·) (ih (by simpa using lengths))

/-- The shape of given free sizes under a pattern is the one that has these free sizes and this pattern. -/
theorem ofFreeSizes_eq_ok {pattern : Pattern} {sizes : List Nat} {shape : Shape} :
    ofFreeSizes pattern sizes = .ok shape ↔ shape.freeSizes = sizes ∧ shape.pattern = pattern := by
  rw [ofFreeSizes, Checked.ite_eq_ok, Except.ok.injEq]
  constructor
  · rintro ⟨lengths, rfl⟩
    exact ⟨freeSizes_fillFree lengths, pattern_fillFree pattern sizes⟩
  · rintro ⟨rfl, rfl⟩
    exact ⟨shape.length_freeSizes, congrArg Shape.mk shape.fillFree_freeSizes⟩

end FreeSizes

section Combine

variable {left middle right shape : Shape}

/-- Shapes of the same sizes combine by joining axis with axis. -/
theorem combine_eq_ok : left.combine right = .ok shape ↔
    left.sizes = right.sizes ∧ List.zipWith Axis.join left.axes right.axes = shape.axes := by
  rw [combine, Checked.ite_eq_ok, sameSizes_iff, Except.ok.injEq]
  rcases shape with ⟨axes⟩
  simp only [mk.injEq]

/-- Axes at one place of shapes of the same sizes have one size. -/
theorem size_of_getElem? (same : left.sizes = right.sizes) {place : Nat} {leftAxis rightAxis : Axis}
    (leftFound : left.axes[place]? = some leftAxis) (rightFound : right.axes[place]? = some rightAxis) :
    leftAxis.size = rightAxis.size := by
  have sizes := congrArg (·[place]?) same
  simpa [Shape.sizes, leftFound, rightFound] using sizes

/-- Shapes combine to the same shape in either order. -/
theorem combine_comm (left right shape : Shape) :
    left.combine right = .ok shape ↔ right.combine left = .ok shape := by
  rw [combine_eq_ok, combine_eq_ok, eq_comm (a := left.sizes)]
  refine and_congr_right fun same => ?_
  rw [List.zipWith_comm]
  have joined : List.zipWith (fun axis other => Axis.join other axis) right.axes left.axes =
      List.zipWith Axis.join right.axes left.axes := by
    refine List.ext_getElem (by simp) fun place _ _ => ?_
    rw [List.getElem_zipWith, List.getElem_zipWith]
    exact Axis.join_comm (size_of_getElem? same.symm (List.getElem?_eq_getElem _)
      (List.getElem?_eq_getElem _))
  rw [joined]

/-- Shapes combine in any grouping to the same shape. -/
theorem combine_assoc (left middle right shape : Shape) :
    (∃ joined, left.combine middle = .ok joined ∧ joined.combine right = .ok shape) ↔
      ∃ joined, middle.combine right = .ok joined ∧ left.combine joined = .ok shape := by
  have grouped : List.zipWith Axis.join (List.zipWith Axis.join left.axes middle.axes) right.axes =
      List.zipWith Axis.join left.axes (List.zipWith Axis.join middle.axes right.axes) := by
    refine List.ext_getElem (by simp [Nat.min_assoc]) fun place _ _ => ?_
    simp only [List.getElem_zipWith, Axis.join_assoc]
  constructor
  · rintro ⟨joined, first, second⟩
    obtain ⟨firstSame, sizes⟩ := sizes_of_combine first
    obtain ⟨secondSame, axes⟩ := combine_eq_ok.mp second
    have same : middle.sizes = right.sizes := by rw [← firstSame, ← sizes, secondSame]
    obtain ⟨other, rest⟩ := exists_combine same
    refine ⟨other, rest, combine_eq_ok.mpr ⟨firstSame.trans (sizes_of_combine rest).2.symm, ?_⟩⟩
    rw [← (combine_eq_ok.mp rest).2, ← grouped, (combine_eq_ok.mp first).2, axes]
  · rintro ⟨joined, second, first⟩
    obtain ⟨secondSame, sizes⟩ := sizes_of_combine second
    obtain ⟨firstSame, axes⟩ := combine_eq_ok.mp first
    have same : left.sizes = middle.sizes := firstSame.trans sizes
    obtain ⟨other, start⟩ := exists_combine same
    refine ⟨other, start, combine_eq_ok.mpr ⟨?_, ?_⟩⟩
    · rw [(sizes_of_combine start).2, same, secondSame]
    · rw [← (combine_eq_ok.mp start).2, grouped, (combine_eq_ok.mp second).2, axes]

/-- The combination of two shapes is fixed just where one of them is, to the same size. -/
theorem pattern_of_combine (combined : left.combine right = .ok shape) (axis size : Nat) :
    shape.pattern[axis]? = some (some size) ↔
      left.pattern[axis]? = some (some size) ∨ right.pattern[axis]? = some (some size) := by
  obtain ⟨same, axes⟩ := combine_eq_ok.mp combined
  have lengths : left.axes.length = right.axes.length := by
    simpa [Shape.sizes] using congrArg List.length same
  simp only [Shape.pattern, ← axes, List.getElem?_map, List.getElem?_zipWith]
  cases leftFound : left.axes[axis]? with
  | none =>
      have beyond : right.axes[axis]? = none := by
        rw [List.getElem?_eq_none_iff] at leftFound ⊢
        omega
      simp [beyond]
  | some leftAxis =>
      cases rightFound : right.axes[axis]? with
      | none =>
          rw [List.getElem?_eq_none_iff] at rightFound
          have below := (List.getElem?_eq_some_iff.mp leftFound).1
          omega
      | some rightAxis =>
          simpa using Axis.fixedSize?_join (size_of_getElem? same leftFound rightFound) size

end Combine

/-- Sizes make a shape under a pattern when there is one for each axis and they are the fixed ones where
there are some, and the shape has them. -/
structure TakesSizes (pattern : Pattern) (sizes : List Nat) : Prop where
  accepts : (∃ shape, ofSizes pattern sizes = .ok shape) ↔ sizes.length = pattern.length ∧
    ∀ axis size : Nat, pattern[axis]? = some (some size) → sizes[axis]? = some size
  returns : ∀ shape, ofSizes pattern sizes = .ok shape → shape.sizes = sizes ∧ shape.pattern = pattern

/-- A shape is rebuilt from its sizes, from its free sizes and from the parts of every cut. -/
structure Rebuilt (shape : Shape) : Prop where
  sizes : ofSizes shape.pattern shape.sizes = .ok shape
  freeSizes : ofFreeSizes shape.pattern shape.freeSizes = .ok shape
  first : ∀ count, (shape.splitFirst count).1.concat (shape.splitFirst count).2 = shape
  last : ∀ count, (shape.splitLast count).1.concat (shape.splitLast count).2 = shape
  before : ∀ count, ofSizes (shape.pattern.take count) (shape.sizes.take count) =
    .ok (shape.splitFirst count).1
  behind : ∀ count, ofSizes (shape.pattern.drop count) (shape.sizes.drop count) =
    .ok (shape.splitFirst count).2

/-- Two shapes are put together to the shape of all their sizes under both patterns, and a cut at the
seam, counted from either end, returns them. -/
structure Joined (left right : Shape) : Prop where
  built : ofSizes (left.pattern ++ right.pattern) (left.sizes ++ right.sizes) =
    .ok (left.concat right)
  first : (left.concat right).splitFirst left.rank = (left, right)
  last : (left.concat right).splitLast right.rank = (left, right)

/-- Two shapes combine exactly when their sizes are the same, in either order, to a shape of these sizes
that is fixed just where one of them is. -/
structure Combines (left right : Shape) : Prop where
  accepts : (∃ shape, left.combine right = .ok shape) ↔ left.sizes = right.sizes
  sizes : ∀ shape, left.combine right = .ok shape → shape.sizes = left.sizes
  pattern : ∀ shape, left.combine right = .ok shape → ∀ axis size : Nat,
    shape.pattern[axis]? = some (some size) ↔
      left.pattern[axis]? = some (some size) ∨ right.pattern[axis]? = some (some size)
  comm : ∀ shape, left.combine right = .ok shape ↔ right.combine left = .ok shape

/-- A shape is converted to a pattern of its rank exactly when it has the fixed sizes of the pattern, and
is converted back to itself. -/
structure Converts (shape : Shape) (pattern : Pattern) : Prop where
  accepts : (∃ other, shape.convert pattern = .ok other) ↔ shape.rank = pattern.length ∧
    ∀ axis size : Nat, pattern[axis]? = some (some size) → shape.sizes[axis]? = some size
  returns : ∀ other, shape.convert pattern = .ok other →
    other.sizes = shape.sizes ∧ other.pattern = pattern ∧ other.convert shape.pattern = .ok shape

theorem takesSizes (pattern : Pattern) (sizes : List Nat) : TakesSizes pattern sizes := by
  refine ⟨?_, fun shape => ofSizes_eq_ok.mp⟩
  constructor
  · rintro ⟨shape, built⟩
    have lengths := (Checked.ite_eq_ok.mp built).1
    exact ⟨lengths, (exists_ofSizes_iff lengths).mp ⟨shape, built⟩⟩
  · rintro ⟨lengths, fits⟩
    exact (exists_ofSizes_iff lengths).mpr fits

/-- Every shape is rebuilt. -/
theorem rebuilt (shape : Shape) : shape.Rebuilt where
  sizes := shape.convert_pattern
  freeSizes := ofFreeSizes_eq_ok.mpr ⟨rfl, rfl⟩
  first count := by simp [splitFirst, concat]
  last count := by simp [splitLast, splitFirst, concat]
  before count := ofSizes_eq_ok.mpr ⟨List.map_take, List.map_take⟩
  behind count := ofSizes_eq_ok.mpr ⟨List.map_drop, List.map_drop⟩

/-- Every two shapes are put together without loss. -/
theorem joined (left right : Shape) : left.Joined right where
  built := ofSizes_eq_ok.mpr ⟨List.map_append, List.map_append⟩
  first := by simp [splitFirst, concat, rank]
  last := by simp [splitLast, splitFirst, concat, rank]

/-- Every two shapes of the same sizes combine. -/
theorem combines (left right : Shape) : left.Combines right where
  accepts := ⟨fun ⟨_, combined⟩ => (combine_eq_ok.mp combined).1, exists_combine⟩
  sizes _ combined := (sizes_of_combine combined).2
  pattern _ := pattern_of_combine
  comm := combine_comm left right

theorem converts (shape : Shape) (pattern : Pattern) : shape.Converts pattern := by
  obtain ⟨accepts, returns⟩ := takesSizes pattern shape.sizes
  refine ⟨?_, fun other converted => ?_⟩
  · rwa [sizes_length] at accepts
  · obtain ⟨sizes, patterned⟩ := returns other converted
    exact ⟨sizes, patterned, ofSizes_eq_ok.mpr ⟨sizes.symm, rfl⟩⟩

/-- Shapes come back from their sizes, parts and other patterns, and combine in any order to the same
shape. -/
theorem algebra_lossless (left middle right : Shape) (pattern : Pattern) (sizes : List Nat) :
    TakesSizes pattern sizes ∧ left.Rebuilt ∧ left.Joined right ∧ left.Combines right ∧
      (∀ shape, (∃ joined, left.combine middle = .ok joined ∧ joined.combine right = .ok shape) ↔
        ∃ joined, middle.combine right = .ok joined ∧ left.combine joined = .ok shape) ∧
      left.combine left = .ok left ∧ left.Converts pattern :=
  ⟨takesSizes pattern sizes, left.rebuilt, left.joined right, left.combines right,
    combine_assoc left middle right, left.combine_self, left.converts pattern⟩

/-- A fixed and a free axis combine with their opposites to fixed axes, and the combination is converted
back. -/
theorem algebra_lossless_mixed :
    let left : Shape := ⟨[.fixed 2, .free 3]⟩
    let right : Shape := ⟨[.free 2, .fixed 3]⟩
    left.combine right = .ok ⟨[.fixed 2, .fixed 3]⟩ ∧ right.combine left = .ok ⟨[.fixed 2, .fixed 3]⟩ ∧
      ∃ other, left.convert [none, some 3] = .ok other ∧ other.convert [some 2, none] = .ok left := by
  intro left right
  obtain ⟨_, _, _, combines, _, _, converts⟩ := algebra_lossless left left right [none, some 3] [2, 3]
  have fits : ∀ axis size : Nat, ([none, some 3] : Pattern)[axis]? = some (some size) →
      left.sizes[axis]? = some size := by
    rintro (_ | _ | axis) size fixed
    · cases fixed
    · exact Option.some.inj fixed
    · cases fixed
  obtain ⟨other, converted⟩ := converts.accepts.mpr ⟨rfl, fits⟩
  have combined : left.combine right = .ok ⟨[.fixed 2, .fixed 3]⟩ := rfl
  exact ⟨combined, (combines.comm _).mp combined, other, converted, (converts.returns other converted).2.2⟩

end Shape

end ShapedTensor

import ShapedTensor.MatrixView
import ShapedTensor.Operand
import ShapedTensor.Proofs.Contraction.Shape
import ShapedTensor.Proofs.Run.Faults

namespace ShapedTensor

open Index Checked

variable {T : Type}

/-- The causes for which a product is refused. -/
def Fault.OfProduct : Fault → Prop
  | .contractedShapesDiffer _ _ | .contractedAxesDiffer _ _ _ _ => True
  | .sumOverflow | .productOverflow | .capacityOverflow => True
  | .positionPastEnd _ _ | .sequenceExhausted _ => True
  | _ => False

/-- The refusals of an output: of its sizes, of their number, and of the size of a fixed axis. -/
def Fault.OfOutput : Fault → Prop
  | .outputSizes _ _ | .rankMismatch _ _ | .fixedAxis _ _ => True
  | _ => False

theorem Fault.OfProduct.not_ofOutput {fault : Fault} (cause : fault.OfProduct) : ¬fault.OfOutput := by
  cases fault <;> simp_all [Fault.OfProduct, Fault.OfOutput]

namespace Size

theorem raises_add (left right : Nat) : Raises Fault.OfProduct (add left right) :=
  .ite (fun _ => .ok _) fun _ => trivial

theorem raises_mul (left right : Nat) : Raises Fault.OfProduct (mul left right) :=
  .ite (fun _ => .ok _) fun _ => trivial

theorem raises_product (sizes : List Nat) : Raises Fault.OfProduct (product sizes) :=
  .foldlM (fun total size _ => raises_mul total size) 1

end Size

namespace MatrixLibrary

variable {Grid : Type}

/-- The calls of a library that can fail raise no fault but those of certain causes. -/
structure Raises (library : MatrixLibrary Grid T) (causes : Fault → Prop) : Prop where
  byColumns (length rows columns : Nat) : Checked.Raises causes (library.byColumns length rows columns)
  multiply (target left right : MatrixOver Grid T) :
    Checked.Raises causes (library.multiply target left right)

/-- What raises certain faults raises no others than a larger class of them. -/
theorem Raises.mono {library : MatrixLibrary Grid T} {causes other : Fault → Prop}
    (raises : library.Raises causes) (larger : ∀ fault, causes fault → other fault) :
    library.Raises other where
  byColumns length rows columns := (raises.byColumns length rows columns).mono larger
  multiply target left right := (raises.multiply target left right).mono larger

end MatrixLibrary

section Readings

/-- The place of an index raises nothing but an overflow, whatever the layout. -/
theorem Mapping.raises_offset (mapping : Mapping) (index : List Nat) :
    Raises Fault.OfProduct (mapping.offset index) := by
  have horner (index sizes : List Nat) : Raises Fault.OfProduct (Mapping.horner index sizes) :=
    .foldlM (fun place pair _ => (Size.raises_mul place pair.2).bind fun scaled _ =>
      Size.raises_add scaled pair.1) 0
  rcases mapping with ⟨shape, layout⟩
  cases layout with
  | rowMajor => exact horner index shape.sizes
  | columnMajor => exact horner index.reverse shape.sizes.reverse
  | strided strides =>
      exact .foldlM (fun total pair _ => (Size.raises_mul pair.1 pair.2).bind fun distance _ =>
        Size.raises_add total distance) 0
  | broadcast => exact .ok 0

/-- A cell of a tensor raises nothing but a position past its end. -/
theorem Tensor.raises_cellAt (tensor : Tensor T) (position : Nat) :
    Raises Fault.OfProduct (tensor.cellAt position) := by
  unfold Tensor.cellAt
  split
  · exact .ok _
  · exact .error trivial

/-- A read of a tensor raises nothing but an overflow or a position past its end. -/
theorem Tensor.raises_read (tensor : Tensor T) (index : List Nat) :
    Raises Fault.OfProduct (tensor.read index) :=
  (tensor.mapping.raises_offset index).bind fun place _ => tensor.raises_cellAt place

variable [Element T]

/-- A read through an accessor raises nothing but a position past the end of what it reads. -/
theorem Accessor.raises_read (accessor : Accessor) (handle : Handle T) (position : Nat) :
    Raises Fault.OfProduct (accessor.read handle position) := by
  cases accessor with
  | zero => exact .ok 0
  | plain | conjugating | sequence =>
      rw [Accessor.read]
      split
      · exact .ok _
      · exact .error trivial

/-- A read of an operand raises nothing but an overflow or a position past the end. -/
theorem Operand.raises_read (operand : Operand T) (index : List Nat) :
    Raises Fault.OfProduct (operand.source.read index) := by
  cases operand with
  | ofTensor tensor => exact tensor.raises_read index
  | ofView view =>
      exact (view.mapping.raises_offset index).bind fun place _ =>
        view.accessor.raises_read view.handle place
  | ofZero zero => exact .ok 0

end Readings

/-- The cell of a target raises nothing but an overflow or a position past the end. -/
theorem Target.raises_cell (target : Target) (index : List Nat) :
    Writing.Raises Fault.OfProduct (target.cell index : Writing T Nat) := by
  intro cells after fault raised
  rw [cell_eq] at raised
  refine Writing.Raises.lift ?_ cells after fault raised
  exact (target.mapping.raises_offset index).bind fun place _ => .ite (fun _ => .ok _) fun _ => trivial

/-- An action on a tensor raises what it raises on the cells. -/
theorem Tensor.raises_written {causes : Fault → Prop} {tensor : Tensor T}
    {action : Target → Writing T Unit} (raises : Writing.Raises causes (action tensor.target)) :
    Raises causes (tensor.written action) := by
  rw [Tensor.written]
  cases run : action tensor.target tensor.cells with
  | ok result cells => exact .ok _
  | error fault cells => exact .error (raises tensor.cells cells fault run)

/-- A run into a target of the output sizes raises what its reads raise and what the cells of the
target do. -/
theorem Contraction.raises_run (contraction : Contraction) (update : T → T → T → T)
    {left right : Source T} {target : Target}
    (leftReads : ∀ index, Raises Fault.OfProduct (left.read index))
    (rightReads : ∀ index, Raises Fault.OfProduct (right.read index))
    (outputs : target.shape.sizes = contraction.outputSizes) :
    Writing.Raises Fault.OfProduct (contraction.run update left right target) := by
  rw [run, if_pos outputs]
  refine Odometer.raises_foldM trivial (fun _ position => ?_) ()
  refine (target.raises_cell _).bind fun cell => ?_
  refine (Writing.Raises.lift (leftReads _)).bind fun leftElement => ?_
  refine (Writing.Raises.lift (rightReads _)).bind fun rightElement => ?_
  exact .of_ok fun cells => ⟨_, _, rfl⟩

/-- A plan of as many axes of either operand raises nothing but sizes that differ. -/
theorem Contraction.raises_plan {leftAxes leftSizes rightAxes rightSizes : List Nat}
    (paired : leftAxes.length = rightAxes.length) (leftNamed : Names leftSizes.length leftAxes)
    (rightNamed : Names rightSizes.length rightAxes) :
    Raises Fault.OfProduct (plan leftAxes leftSizes rightAxes rightSizes) := by
  have guard {rank : Nat} {axes : List Nat} (named : Names rank axes) :
      checkAxes rank [] axes = .ok () :=
    checkAxes_eq_ok.mpr ⟨named.1, named.2, by simp⟩
  have fits (pairs : List (Nat × Nat)) :
      Raises Fault.OfProduct (checkPairs leftSizes rightSizes pairs) := by
    induction pairs with
    | nil => exact .ok ()
    | cons pair pairs ih => exact .ite (fun _ => ih) fun _ => trivial
  rw [plan, if_neg (not_not.mpr paired), guard leftNamed, guard rightNamed]
  exact (fits _).bind fun _ _ => .ok _

/-- Shapes that are contracted raise nothing but parts that differ. -/
theorem Shape.raises_contract (left right : Shape) (count : Nat) :
    Raises Fault.OfProduct (left.contract right count) :=
  .ite (fun _ => .ok _) fun _ => trivial

variable [Element T]

theorem Buffer.raises_reserve (count : Nat) : Raises Fault.OfProduct (Buffer.reserve T count) :=
  .ite (fun _ => .ok ()) fun _ => trivial

/-- The tensor of zeros raises nothing but a size past the words or past the room of a buffer. -/
theorem Tensor.raises_zeros (shape : Shape) :
    Raises Fault.OfProduct (Tensor.zeros .growable shape : Except Fault (Tensor T)) := by
  refine (Size.raises_product shape.sizes).bind fun count _ => ?_
  have filled : Raises Fault.OfProduct (Storage.filled .growable count (0 : T)) :=
    (Buffer.raises_reserve count).bind fun _ _ => .ok _
  exact filled.bind fun _ _ => .ok _

/-- The copy of a source finds its own pattern accepted. -/
theorem Source.raises_copy {source : Source T}
    (reads : ∀ index, Inside source.shape.sizes index → Raises Fault.OfProduct (source.read index)) :
    Raises Fault.OfProduct source.copy := by
  have converted := source.shape.convert_pattern
  refine Raises.bind (converted ▸ .ok _) fun shape _ => ?_
  refine (Size.raises_product shape.sizes).bind fun count _ => ?_
  refine (Buffer.raises_reserve count).bind fun _ _ => ?_
  exact (Raises.elements reads).bind fun _ _ => .ok _

namespace Source

section Raising

variable {left right : Source T} (leftReads : ∀ index, Raises Fault.OfProduct (left.read index))
  (rightReads : ∀ index, Raises Fault.OfProduct (right.read index))
include leftReads rightReads

/-- A product over adjacent axes that the operands have finds the sizes of its plan in its output. -/
theorem raises_contractAdjacentWith (update : T → T → T → T) {count : Nat}
    (leftRank : count ≤ left.shape.rank) :
    Raises Fault.OfProduct (left.contractAdjacentWith update count right) := by
  cases joined : left.shape.contract right.shape count with
  | error fault =>
      rw [contractAdjacentWith, joined]
      exact .error (Shape.raises_contract _ _ _ fault joined)
  | ok shape =>
      obtain ⟨outer, inner, last, leftSizes, rightSizes, rfl⟩ := Shape.sizes_of_contract leftRank joined
      rw [contractAdjacentWith_eq leftSizes rightSizes]
      refine (Tensor.raises_zeros _).bind fun output zeros => Tensor.raises_written ?_
      refine Contraction.raises_run _ update leftReads rightReads ?_
      change output.shape.sizes = outer ++ last
      rw [Tensor.shape_zeros zeros, Shape.sizes_kept leftSizes rightSizes]

/-- A product over the first axes finds its plan, the pattern of its output and its sizes accepted. -/
theorem raises_contractLeading (leftRank : 1 ≤ left.shape.rank) (rightRank : 1 ≤ right.shape.rank) :
    Raises Fault.OfProduct (left.contractLeading right) := by
  have named (shape : Shape) (rank : 1 ≤ shape.rank) : Contraction.Names shape.sizes.length [0] := by
    refine ⟨List.nodup_singleton 0, fun axis listed => ?_⟩
    rwa [List.mem_singleton.mp listed, shape.sizes_length]
  refine (Contraction.raises_plan rfl (named _ leftRank) (named _ rightRank)).bind
    fun contraction planned => ?_
  obtain ⟨shaped, shapes⟩ := (Shape.leadingRule leftRank rightRank).shaped contraction planned
  refine Raises.bind (shaped ▸ .ok _) fun shape built => ?_
  obtain rfl := Except.ok.inj (shaped.symm.trans built)
  refine (Tensor.raises_zeros _).bind fun output zeros => Tensor.raises_written ?_
  refine contraction.raises_run Update.add leftReads rightReads ?_
  change output.shape.sizes = contraction.outputSizes
  rw [Tensor.shape_zeros zeros, shapes.sizes]

end Raising

/-- Several products find at every step what a product over first axes does. -/
theorem raises_multilinear {source : Source T} {operands : List (Source T)}
    (reads : ∀ index, Raises Fault.OfProduct (source.read index))
    (operandReads : ∀ operand ∈ operands, ∀ index, Raises Fault.OfProduct (operand.read index))
    (enough : operands.length ≤ source.shape.rank)
    (ranks : ∀ operand ∈ operands, 1 ≤ operand.shape.rank) :
    Raises Fault.OfProduct (source.multilinear operands) := by
  induction operands generalizing source with
  | nil => exact raises_copy fun index _ => reads index
  | cons operand operands ih =>
      have rank : 1 ≤ operand.shape.rank := ranks operand (by simp)
      have start := raises_contractLeading reads (operandReads operand (by simp))
        (le_trans (by simp) enough) rank
      cases operands with
      | nil => exact start
      | cons other operands =>
          refine start.bind fun next contracted => ?_
          exact ih next.raises_read (fun other listed => operandReads other (by simp [listed]))
            (rank_of_contractLeading enough rank contracted)
            fun other listed => ranks other (by simp [listed])

end Source

/-- The size of an axis raises nothing but a position past the last axis. -/
theorem Shape.raises_sizeAt (shape : Shape) (axis : Nat) :
    Raises Fault.OfProduct (shape.sizeAt axis) := by
  unfold Shape.sizeAt
  split
  · exact .ok _
  · exact .error trivial

/-- A product by way of a library raises the causes of products and what the library raises. -/
theorem MatrixLibrary.Raises.product {Grid : Type} {library : MatrixLibrary Grid T}
    {causes : Fault → Prop}
    (raises : library.Raises causes) (own : ∀ fault, fault.OfProduct → causes fault)
    (left right : Tensor T) : Checked.Raises causes (library.product left right) := by
  have sizeAt (shape : Shape) (axis : Nat) : Checked.Raises causes (shape.sizeAt axis) :=
    (shape.raises_sizeAt axis).mono own
  have byRows (cells : Array T) (rows columns : Nat) :
      Checked.Raises causes (library.byRows cells rows columns) :=
    (raises.byColumns cells.size columns rows).bind fun _ _ => .ok _
  have ofTensor (tensor : Tensor T) : Checked.Raises causes (library.ofTensor tensor) :=
    (sizeAt tensor.shape 0).bind fun rows _ => (sizeAt tensor.shape 1).bind fun columns _ =>
      byRows tensor.cells rows columns
  refine ((Shape.raises_contract _ _ _).mono own).bind fun shape _ => ?_
  refine (sizeAt left.shape 0).bind fun rows _ => (sizeAt right.shape 1).bind fun columns _ => ?_
  refine ((Tensor.raises_zeros shape).mono own).bind fun output _ => ?_
  refine (byRows output.cells rows columns).bind fun target _ => ?_
  refine (ofTensor left).bind fun leftMatrix _ => (ofTensor right).bind fun rightMatrix _ => ?_
  exact (raises.multiply target leftMatrix rightMatrix).bind fun _ _ => .ok _

/-- Matrices over strided grids raise nothing but positions past the end of a buffer. -/
theorem MatrixView.raises_library :
    (library : MatrixLibrary StridedGrid T).Raises Fault.OfProduct where
  byColumns _ _ _ := .ok _
  multiply target left right := by
    have cellAt (matrix : MatrixView T) (position : Nat) :
        Raises Fault.OfProduct (matrix.cellAt position) := by
      unfold MatrixOver.cellAt
      split
      · exact .ok _
      · exact .error trivial
    change Raises Fault.OfProduct (MatrixView.multiply target left right)
    rw [MatrixView.multiply, foldM_eq]
    refine .foldlM (fun cells index listed => ?_) target.cells
    -- The target has two sizes, so no index has another number of coordinates.
    obtain ⟨row, _, column, _, rfl⟩ := inside_pair.mp (mem_all.mp listed)
    have entry : Raises Fault.OfProduct (MatrixView.productEntry left right row column) :=
      .foldlM (fun _ _ _ => (cellAt left _).bind fun _ _ => (cellAt right _).bind fun _ _ => .ok _) 0
    exact entry.bind fun _ _ => .ok _

namespace Operand

/-- The products of operands that have the axes over which they run. -/
inductive Product : {α : Type} → Except Fault α → Prop where
  | contractAdjacent {left right : Operand T} {count : Nat} (leftRank : count ≤ left.shape.rank)
      (rightRank : count ≤ right.shape.rank) :
      Product (left.source.contractAdjacent count right.source)
  | dot {left right : Operand T} (leftRank : 1 ≤ left.shape.rank) (rightRank : 1 ≤ right.shape.rank) :
      Product (left.source.dot right.source)
  | doubleDot {left right : Operand T} (leftRank : 2 ≤ left.shape.rank)
      (rightRank : 2 ≤ right.shape.rank) : Product (left.source.doubleDot right.source)
  | zeroDot {zero : ZeroTensor T} {right : Operand T} {count : Nat}
      (zeroRank : count ≤ zero.shape.rank) (rightRank : count ≤ right.shape.rank) :
      Product (zero.contractAdjacent count right.source)
  | denseZeroDot {zero : ZeroTensor T} {right : Operand T} {count : Nat}
      (zeroRank : count ≤ zero.shape.rank) (rightRank : count ≤ right.shape.rank) :
      Product (zero.contractAdjacent count right.source >>= ZeroTensor.toTensor)
  | mul {left right : Operand T} (leftRank : 1 ≤ left.shape.rank) (rightRank : 1 ≤ right.shape.rank) :
      Product (left.mul right)
  | multilinear {first : Operand T} {operands : List (Operand T)}
      (enough : operands.length ≤ first.shape.rank)
      (ranks : ∀ operand ∈ operands, 1 ≤ operand.shape.rank) :
      Product (first.source.multilinear (operands.map source))

/-- A product is refused for its own causes and no others. -/
theorem Product.raises {α : Type} {value : Except Fault α} (product : Product (T := T) value) :
    Raises Fault.OfProduct value := by
  have adjacent (update : T → T → T → T) {count : Nat} (left right : Operand T)
      (leftRank : count ≤ left.shape.rank) :
      Raises Fault.OfProduct (left.source.contractAdjacentWith update count right.source) :=
    Source.raises_contractAdjacentWith left.raises_read right.raises_read update leftRank
  cases product with
  | contractAdjacent leftRank _ => exact adjacent Update.add _ _ leftRank
  | dot leftRank _ => exact adjacent Update.conjAdd _ _ leftRank
  | doubleDot leftRank _ => exact adjacent Update.conjAdd _ _ leftRank
  | zeroDot _ _ => exact (Shape.raises_contract _ _ _).map _
  | denseZeroDot _ _ =>
      exact ((Shape.raises_contract _ _ _).map _).bind fun product _ =>
        Tensor.raises_zeros product.shape
  | @mul left right leftRank _ =>
      -- A zero tensor has a product of its own, on the right only behind a tensor.
      cases left with
      | ofZero zero => exact ((Shape.raises_contract _ _ _).map _).map _
      | ofView view => exact (adjacent Update.add (.ofView view) right leftRank).map _
      | ofTensor tensor =>
          cases right with
          | ofZero zero => exact ((Shape.raises_contract _ _ _).map _).map _
          | ofTensor other =>
              exact (adjacent Update.add (.ofTensor tensor) (.ofTensor other) leftRank).map _
          | ofView view =>
              exact (adjacent Update.add (.ofTensor tensor) (.ofView view) leftRank).map _
  | @multilinear first operands enough ranks =>
      refine Source.raises_multilinear first.raises_read (fun operand listed => ?_)
        (by rwa [List.length_map]) fun operand listed => ?_
      · obtain ⟨own, _, rfl⟩ := List.mem_map.mp listed
        exact own.raises_read
      · obtain ⟨own, member, rfl⟩ := List.mem_map.mp listed
        exact ranks own member

/-- The shapes that operands leave are those of their plans, so no product is refused for the sizes or
pattern of its output. -/
theorem products_shaped :
    (∀ (left right : Shape) (count : Nat), count ≤ left.rank →
      let planned := Contraction.plan (List.range' (left.rank - count) count) left.sizes
        (List.range count) right.sizes
      [∃ shape, left.contract right count = .ok shape, ∃ contraction, planned = .ok contraction,
        ∀ place < count, left.sizes[left.rank - count + place]? = right.sizes[place]?].TFAE ∧
      ∀ contraction, planned = .ok contraction → ∃ shape, left.contract right count = .ok shape ∧
        contraction.Shapes left right shape ∧
        Shape.ofSizes (left.pattern.take (left.rank - count) ++ right.pattern.drop count)
          contraction.outputSizes = .ok shape) ∧
    (∀ (source : Source T) (operands : List (Source T)), operands.length ≤ source.shape.rank →
      (∀ operand ∈ operands, 1 ≤ operand.shape.rank) →
      source.AtEachStep Shape.LeadingRule operands ∧
      ∀ tensor, source.multilinear operands = .ok tensor → tensor.shape =
        operands.foldl (fun shape operand => shape.tail.concat operand.shape.tail) source.shape) ∧
    (∀ (α : Type) (value : Except Fault α), Product (T := T) value → Raises Fault.OfProduct value) ∧
    ∀ (Grid : Type) (library : MatrixLibrary Grid T), library.Raises (¬ ·.OfOutput) →
      ∀ left right : Tensor T, Raises (¬ ·.OfOutput) (library.product left right) := by
  refine ⟨fun left right count enough => ⟨Shape.contract_tfae right enough, ?_⟩,
    fun source operands enough ranks => ?_, fun α value product => product.raises,
    fun Grid library foreign => foreign.product fun _ cause => cause.not_ofOutput⟩
  · intro contraction planned
    have returned := (Shape.contract_tfae right enough).out 0 1
    obtain ⟨shape, joined⟩ := returned.mpr ⟨contraction, planned⟩
    obtain ⟨outer, inner, last, leftSizes, rightSizes, rfl⟩ := Shape.sizes_of_contract enough joined
    rw [Contraction.plan_of_sizes leftSizes rightSizes] at planned
    obtain rfl := Except.ok.inj planned
    have shapes := Contraction.shapes_kept leftSizes rightSizes
    refine ⟨_, Shape.contract_adjacent leftSizes rightSizes, shapes, ?_⟩
    exact Shape.ofSizes_eq_ok.mpr ⟨shapes.sizes, Shape.pattern_kept left right inner.length⟩
  · exact ⟨Source.atEachStep_of_ranks (fun _ _ => Shape.leadingRule) enough ranks,
      fun tensor => Source.shape_of_multilinear enough ranks⟩

open scoped Integer in
/-- Products of matrices with fixed rows and with free columns, two of them refused, and none for its
output. -/
theorem products_shaped_mixed :
    let left : Shape := ⟨[.fixed 2, .free 3]⟩
    let right : Shape := ⟨[.fixed 3, .free 4]⟩
    let tensor : Tensor Int := .ofLiteral [2, 2] #[1, 2, 3, 4]
    let vector : Tensor Int := .ofLiteral [2] #[5, 6]
    let row : Tensor Int := .ofLiteral [1, 2] #[5, 6]
    let short : Operand Int := .ofView (.conjugated (.ofFree [2, 3]) #[1, 2, 3])
    (∃ shape, left.contract right 1 = .ok shape ∧ shape.sizes = [2, 4] ∧
      shape.pattern = [some 2, none]) ∧
    (∃ result, tensor.source.multilinear [vector.source, tensor.source] = .ok result ∧
      result.shape = ⟨[.fixed 2]⟩) ∧
    (∃ fault, (Operand.ofTensor tensor).mul short = .error fault ∧ fault.OfProduct) ∧
    ∃ fault, MatrixView.library.product tensor row = .error fault ∧ ¬fault.OfOutput := by
  intro left right tensor vector row short
  obtain ⟨adjacent, several, refused, byMatrices⟩ := products_shaped (T := Int)
  have planned : ∃ contraction, Contraction.plan [1] [2, 3] [0] [3, 4] = .ok contraction ∧
      contraction.outputSizes = [2, 4] ∧ contraction.freeLeft = [0] ∧ contraction.freeRight = [1] :=
    ⟨_, rfl, rfl, rfl, rfl⟩
  obtain ⟨contraction, planned, outputs, freeLeft, freeRight⟩ := planned
  obtain ⟨shape, joined, shapes, _⟩ :=
    (adjacent left right 1 (by decide)).2 contraction planned
  refine ⟨⟨shape, joined, shapes.sizes.trans outputs, ?_⟩, ?_, ?_, ?_⟩
  · rw [shapes.pattern, freeLeft, freeRight]
    rfl
  · have computed : (match tensor.source.multilinear [vector.source, tensor.source] with
      | .ok result => some result.cells
      | .error _ => none) = some #[125, 182] := by decide +kernel
    split at computed
    · next result contracted =>
        have ranks := several tensor.source [vector.source, tensor.source] (by decide) (by decide)
        exact ⟨result, contracted, ranks.2 result contracted⟩
    · cases computed
  · have computed : (match (Operand.ofTensor tensor).mul short with
      | .ok _ => none
      | .error fault => some fault) = some (.positionPastEnd 3 3) := by decide +kernel
    split at computed
    · cases computed
    · next fault raised =>
        exact ⟨fault, raised, refused _ _ (.mul (by decide) (by decide)) fault raised⟩
  · have foreign : (MatrixView.library : MatrixLibrary StridedGrid Int).Raises (¬ ·.OfOutput) :=
      MatrixView.raises_library.mono fun _ cause => cause.not_ofOutput
    exact ⟨_, rfl, byMatrices _ _ foreign tensor row _ rfl⟩

end Operand

end ShapedTensor

import ShapedTensor.Proofs.Element.Integer
import ShapedTensor.Proofs.Shape.Algebra
import ShapedTensor.Proofs.Source.Alike

namespace ShapedTensor

open Index

variable {T R α : Type}

namespace Source

/-- A source has all its elements when it reads every index of its shape. -/
theorem exists_elements {source : Source T} :
    (∃ cells, source.elements = .ok cells) ↔
      ∀ index, Inside source.shape.sizes index → ∃ element, source.read index = .ok element := by
  constructor
  · rintro ⟨cells, collected⟩ index inside
    obtain ⟨element, read, _⟩ := getElem?_elements collected inside
    exact ⟨element, read⟩
  · intro reads
    have collected (indices : List (List Nat))
        (inside : ∀ index ∈ indices, index ∈ all source.shape.sizes) :
        ∃ elements, List.Forall₂ (fun index element => source.read index = .ok element) indices
          elements := by
      induction indices with
      | nil => exact ⟨[], .nil⟩
      | cons index indices ih =>
          obtain ⟨element, read⟩ := reads index (mem_all.mp (inside index (by simp)))
          obtain ⟨elements, others⟩ := ih fun index listed => inside index (by simp [listed])
          exact ⟨element :: elements, .cons read others⟩
    obtain ⟨elements, found⟩ := collected _ fun _ listed => listed
    exact ⟨elements.toArray, elements_eq_ok.mpr found⟩

/-- The squared lengths sum up over the elements one after the other. -/
theorem sumAbsSq_of_elements [RealElement R] [Magnitude T R] {source : Source T} {cells : Array T}
    (collected : source.elements = .ok cells) :
    source.sumAbsSq =
      .ok (cells.foldl (fun total element => total + Magnitude.absSq element) (0 : R)) := by
  have reads := elements_eq_ok.mp collected
  rw [sumAbsSq, foldM_eq, ← Array.foldl_toList]
  generalize (0 : R) = start
  generalize all source.shape.sizes = indices, cells.toList = elements at reads
  induction reads generalizing start with
  | nil => rfl
  | cons read _ ih =>
      rw [List.foldlM_cons, read]
      exact ih _

end Source

namespace Tensor

variable [Stored T]

/-- A source is copied under its own pattern when it has all its elements and there is room. -/
theorem ofSource_eq_ok {kind : StorageKind} {source : Source T} {tensor : Tensor T} :
    ofSource kind source.shape.pattern source = .ok tensor ↔
      ∃ count cells, source.shape.size = .ok count ∧ Buffer.reserve T count = .ok () ∧
        source.elements = .ok cells ∧ kind.check cells.size = .ok () ∧
        tensor = ⟨source.shape, ⟨kind, cells⟩⟩ := by
  rw [ofSource_eq_ok_convert, Shape.convert_pattern]
  constructor
  · rintro ⟨_, count, cells, same, built⟩
    obtain rfl := Except.ok.inj same
    exact ⟨count, cells, built⟩
  · rintro ⟨count, cells, built⟩
    exact ⟨source.shape, count, cells, rfl, built⟩

end Tensor

/-- A source is like its copy. -/
theorem Source.alike_copy [Stored T] {kind : StorageKind} {source : Source T} {tensor : Tensor T}
    (copied : Tensor.ofSource kind source.shape.pattern source = .ok tensor) :
    source.Alike tensor.source := by
  obtain ⟨_, _, reads⟩ := Tensor.ofSource_reads copied
  obtain ⟨_, _, _, _, _, _, rfl⟩ := Tensor.ofSource_eq_ok.mp copied
  refine ⟨rfl, fun index inside => ?_⟩
  obtain ⟨element, read, ownRead⟩ := reads index inside
  exact read.trans ownRead.symm

/-- The copy of a source has its sum of squared lengths. -/
theorem Source.sumAbsSq_copy [Stored T] [RealElement R] [Magnitude T R] {kind : StorageKind}
    {source : Source T} {tensor : Tensor T}
    (copied : Tensor.ofSource kind source.shape.pattern source = .ok tensor) :
    source.sumAbsSq = .ok (tensor.sumAbsSq : R) := by
  obtain ⟨count, cells, _, _, collected, _, rfl⟩ := Tensor.ofSource_eq_ok.mp copied
  exact sumAbsSq_of_elements collected

/-- A source is copied when it reads every index and its elements have room where they are kept. -/
theorem Source.exists_copy [Stored T] {kind : StorageKind} {source : Source T} :
    (∃ tensor, Tensor.ofSource kind source.shape.pattern source = .ok tensor) ↔
      (∀ index, Inside source.shape.sizes index → ∃ element, source.read index = .ok element) ∧
      ∃ count, source.shape.size = .ok count ∧ Buffer.bytes T count < Buffer.bound ∧
        kind.check count = .ok () := by
  constructor
  · rintro ⟨tensor, copied⟩
    obtain ⟨count, cells, size, reserved, collected, checked, _⟩ := Tensor.ofSource_eq_ok.mp copied
    rw [size_elements_of_size size collected] at checked
    exact ⟨exists_elements.mp ⟨cells, collected⟩, count, size, Buffer.reserve_eq_ok.mp reserved,
      checked⟩
  · rintro ⟨reads, count, size, room, checked⟩
    obtain ⟨cells, collected⟩ := exists_elements.mpr reads
    rw [← size_elements_of_size size collected] at checked
    exact ⟨_, Tensor.ofSource_eq_ok.mpr ⟨count, cells, size, Buffer.reserve_eq_ok.mpr room, collected,
      checked, rfl⟩⟩

namespace Operand

variable [Element T]

section Right

variable {right other : Source T} (alike : right.Alike other)
include alike

theorem inner_of_alike (left : Operand T) : left.inner right = left.inner other := by
  cases left with
  | ofTensor tensor => exact (Source.Alike.refl tensor.source).inner alike
  | ofView view => exact (Source.Alike.refl view.source).inner alike
  | ofZero zero => exact alike.zeroInner zero

theorem add_of_alike (left : Operand T) : left.add right = left.add other := by
  cases left with
  | ofTensor tensor => exact (Source.Alike.refl tensor.source).zipWith alike _
  | ofView view => exact (Source.Alike.refl view.source).zipWith alike _
  | ofZero zero => exact (Source.Alike.refl zero.source).zipWith alike _

theorem sub_of_alike (left : Operand T) : left.sub right = left.sub other := by
  cases left with
  | ofTensor tensor => exact (Source.Alike.refl tensor.source).zipWith alike _
  | ofView view => exact (Source.Alike.refl view.source).zipWith alike _
  | ofZero zero => exact (Source.Alike.refl zero.source).zipWith alike _

/-- A matrix does not tell vectors that are alike. -/
theorem matVec_of_alike (form : MatrixForm) (accumulation : Accumulation T) (matrix : Operand T) :
    matrix.matVec form accumulation right = matrix.matVec form accumulation other := by
  cases matrix with
  | ofTensor tensor => exact (Source.Alike.refl tensor.source).matVec alike form accumulation
  | ofView view => exact (Source.Alike.refl view.source).matVec alike form accumulation
  | ofZero zero => rfl

/-- A bilinear form does not tell vectors that are alike, on either side. -/
theorem bilinear_of_alike {left otherLeft : Source T} (leftAlike : left.Alike otherLeft)
    (matrix : Operand T) : matrix.bilinear left right = matrix.bilinear otherLeft other := by
  cases matrix with
  | ofTensor tensor => exact leftAlike.bilinear alike (.refl tensor.source)
  | ofView view => exact leftAlike.bilinear alike (.refl view.source)
  | ofZero zero => rfl

end Right

/-- An operation on two operands has the same result with either of two operands, in both places. -/
def SameIn (first second : Operand T) (operation : Operand T → Operand T → α) : Prop :=
  ∀ other, operation first other = operation second other ∧
    operation other first = operation other second

/-- Two operands that no operation tells apart, neither by its result or fault nor by the buffer that it
leaves. -/
structure Interchangeable (R : Type) [RealElement R] [Magnitude T R] [ElementText T]
    (first second : Operand T) : Prop where
  contract : ∀ leftAxes rightAxes pattern, first.SameIn second fun left right =>
    left.source.contract leftAxes right.source rightAxes pattern
  contractInto : ∀ update leftAxes rightAxes, first.SameIn second fun left right =>
    left.source.contractInto update leftAxes right.source rightAxes
  contractAdjacent : ∀ count, first.SameIn second fun left right =>
    left.source.contractAdjacent count right.source
  contractAdjacentInto : ∀ update count, first.SameIn second fun left right =>
    left.source.contractAdjacentInto update count right.source
  dot : first.SameIn second fun left right => left.source.dot right.source
  doubleDot : first.SameIn second fun left right => left.source.doubleDot right.source
  /-- The products of a zero tensor over one or more pairs of axes. -/
  zeroDot : ∀ (zero : ZeroTensor T) count,
    zero.contractAdjacent count first.source = zero.contractAdjacent count second.source
  inner : first.SameIn second fun left right => left.inner right.source
  multilinear : ∀ operands, first.source.multilinear operands = second.source.multilinear operands
  multilinearAt : ∀ (source : Source T) before behind,
    source.multilinear (before ++ first.source :: behind) =
      source.multilinear (before ++ second.source :: behind)
  bilinear : ∀ leftVector rightVector,
    first.bilinear leftVector rightVector = second.bilinear leftVector rightVector
  bilinearLeft : ∀ (matrix : Operand T) rightVector,
    matrix.bilinear first.source rightVector = matrix.bilinear second.source rightVector
  bilinearRight : ∀ (matrix : Operand T) leftVector,
    matrix.bilinear leftVector first.source = matrix.bilinear leftVector second.source
  matVec : ∀ form accumulation, first.SameIn second fun matrix vector =>
    matrix.matVec form accumulation vector.source
  add : first.SameIn second fun left right => left.add right.source
  sub : first.SameIn second fun left right => left.sub right.source
  neg : first.map Source.neg = second.map Source.neg
  scale : ∀ factor, first.map (·.scale factor) = second.map (·.scale factor)
  scaleLeft : ∀ factor, first.map (·.scaleLeft factor) = second.map (·.scaleLeft factor)
  unscale : ∀ divisor, first.map (·.unscale divisor) = second.map (·.unscale divisor)
  addTo : ∀ target : Target, target.add first.source = target.add second.source
  subFrom : ∀ target : Target, target.sub first.source = target.sub second.source
  addMultiple : ∀ (target : Target) factor,
    target.addMultiple factor first.source = target.addMultiple factor second.source
  scaleAdd : ∀ (target : Target) factor,
    target.scaleAdd factor first.source = target.scaleAdd factor second.source
  /-- A tensor sums over its cells, a view over its indices. -/
  sumAbsSq : first.sumAbsSq = (second.sumAbsSq : Except Fault R)
  maxAbs : first.maxAbs = (second.maxAbs : Except Fault R)
  equals : first.SameIn second Operand.equals
  text : first.text = second.text

/-- An operation on sources that does not tell sources that are alike has the same result with
either of two operands whose sources are. -/
theorem sameIn_of_alike {first second : Operand T} (alike : first.source.Alike second.source)
    (operation : Source T → Source T → α)
    (congruent : ∀ left otherLeft right otherRight, left.Alike otherLeft → right.Alike otherRight →
      operation left right = operation otherLeft otherRight) :
    first.SameIn second fun left right => operation left.source right.source :=
  fun other => ⟨congruent _ _ _ _ alike (.refl other.source),
    congruent _ _ _ _ (.refl other.source) alike⟩

variable [RealElement R] [Magnitude T R] [ElementText T]

/-- A view and a tensor that are alike and have the same sum of squared lengths are told apart by no
operation. -/
theorem interchangeable_of_alike {view : View T} {tensor : Tensor T}
    (alike : view.source.Alike tensor.source)
    (sum : view.source.sumAbsSq = .ok (tensor.sumAbsSq : R)) :
    Interchangeable R (.ofView view) (.ofTensor tensor) := by
  have alike : (Operand.ofView view).source.Alike (Operand.ofTensor tensor).source := alike
  constructor
  case contract =>
    intro leftAxes rightAxes pattern
    exact sameIn_of_alike alike (fun left right => left.contract leftAxes right rightAxes pattern)
      fun _ _ _ _ left right => left.contract right leftAxes rightAxes pattern
  case contractInto =>
    intro update leftAxes rightAxes
    exact sameIn_of_alike alike (fun left right => left.contractInto update leftAxes right rightAxes)
      fun _ _ _ _ left right => left.contractInto right update leftAxes rightAxes
  case contractAdjacent =>
    intro count
    exact sameIn_of_alike alike (fun left right => left.contractAdjacent count right)
      fun _ _ _ _ left right => left.contractAdjacentWith right Update.add count
  case contractAdjacentInto =>
    intro update count
    exact sameIn_of_alike alike (fun left right => left.contractAdjacentInto update count right)
      fun _ _ _ _ left right => left.contractAdjacentInto right update count
  case dot =>
    exact sameIn_of_alike alike Source.dot
      fun _ _ _ _ left right => left.contractAdjacentWith right Update.conjAdd 1
  case doubleDot =>
    exact sameIn_of_alike alike Source.doubleDot
      fun _ _ _ _ left right => left.contractAdjacentWith right Update.conjAdd 2
  case zeroDot => exact fun zero count => alike.zeroContractAdjacent zero count
  case inner => exact fun other => ⟨alike.inner (.refl other.source), inner_of_alike alike other⟩
  case multilinear =>
    intro operands
    exact alike.multilinear (List.forall₂_same.mpr fun operand _ => .refl operand)
  case multilinearAt =>
    intro source before behind
    refine (Source.Alike.refl source).multilinear ?_
    have same (operands : List (Source T)) : List.Forall₂ Source.Alike operands operands :=
      List.forall₂_same.mpr fun operand _ => .refl operand
    exact List.rel_append (same before) (.cons alike (same behind))
  case bilinear =>
    intro leftVector rightVector
    exact (Source.Alike.refl leftVector).bilinear (.refl rightVector) alike
  case bilinearLeft =>
    exact fun matrix rightVector => bilinear_of_alike (.refl rightVector) alike matrix
  case bilinearRight =>
    exact fun matrix leftVector => bilinear_of_alike alike (.refl leftVector) matrix
  case matVec =>
    intro form accumulation other
    exact ⟨alike.matVec (.refl other.source) form accumulation,
      matVec_of_alike alike form accumulation other⟩
  case add =>
    exact fun other => ⟨alike.zipWith (.refl other.source) (· + ·), add_of_alike alike other⟩
  case sub =>
    exact fun other => ⟨alike.zipWith (.refl other.source) (· - ·), sub_of_alike alike other⟩
  case neg => exact congrArg (Operand.ofTensor <$> ·) (alike.map (- ·))
  case scale => exact fun factor => congrArg (Operand.ofTensor <$> ·) (alike.map (· * factor))
  case scaleLeft => exact fun factor => congrArg (Operand.ofTensor <$> ·) (alike.map (factor * ·))
  case unscale => exact fun divisor => congrArg (Operand.ofTensor <$> ·) (alike.map (· / divisor))
  case addTo => exact fun target => alike.zip target (· + ·)
  case subFrom => exact fun target => alike.zip target (· - ·)
  case addMultiple =>
    exact fun target factor => alike.zip target fun own element => own + factor * element
  case scaleAdd =>
    exact fun target factor => alike.zip target fun own element => factor * own + element
  case sumAbsSq => exact sum
  case maxAbs => exact alike.maxAbs
  case equals =>
    intro other
    cases other with
    | ofTensor other =>
        exact ⟨alike.equals (.refl other.source), (Source.Alike.refl other.source).equals alike⟩
    | ofView other =>
        exact ⟨alike.equals (.refl other.source), (Source.Alike.refl other.source).equals alike⟩
    | ofZero zero => exact ⟨alike.zeroEquals zero, alike.zeroEquals zero⟩
  case text => exact alike.text

end Operand

variable [Element T] [RealElement R] [Magnitude T R] [ElementText T]

/-- A view of any layout and accessor has a copy when it reads every index and its elements have
room, and no operation tells the copy from the view. -/
theorem View.copy_interchangeable (kind : StorageKind) (view : View T) :
    ((∃ tensor, Tensor.ofSource kind view.shape.pattern view.source = .ok tensor) ↔
      (∀ index, Inside view.shape.sizes index → ∃ element, view.read index = .ok element) ∧
      ∃ count, view.shape.size = .ok count ∧ Buffer.bytes T count < Buffer.bound ∧
        kind.check count = .ok ()) ∧
    ∀ tensor, Tensor.ofSource kind view.shape.pattern view.source = .ok tensor →
      Operand.Interchangeable R (.ofView view) (.ofTensor tensor) := by
  have shape : view.source.shape = view.shape := rfl
  refine ⟨Source.exists_copy, fun tensor copied => ?_⟩
  rw [← shape] at copied
  exact Operand.interchangeable_of_alike (Source.alike_copy copied) (Source.sumAbsSq_copy copied)

open scoped Integer in
/-- A conjugated column-major view of six cells is interchangeable with its copy. -/
theorem View.copy_interchangeable_columnMajor :
    let view : View (Complex Int) := ⟨⟨.ofFree [2, 2], .columnMajor⟩, .conjugating,
      .ofCells #[⟨1, 2⟩, ⟨3, 4⟩, ⟨5, 6⟩, ⟨7, 8⟩]⟩
    let tensor : Tensor (Complex Int) := ⟨.ofFree [2, 2], ⟨.growable,
      #[⟨1, -2⟩, ⟨5, -6⟩, ⟨3, -4⟩, ⟨7, -8⟩]⟩⟩
    Tensor.ofSource .growable view.shape.pattern view.source = .ok tensor ∧
      Operand.Interchangeable Int (.ofView view) (.ofTensor tensor) := by
  intro view tensor
  have copied : Tensor.ofSource .growable view.shape.pattern view.source = .ok tensor := rfl
  exact ⟨copied, (copy_interchangeable .growable view).2 tensor copied⟩

end ShapedTensor

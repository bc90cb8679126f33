/-! No law of the arithmetic is assumed here; results on tensors state the laws that they use. -/

namespace ShapedTensor

/-- Elements that can be kept in a buffer, where each takes `width` bytes. -/
class Stored (T : Type) where
  width : Nat

/-- The operations of an element. -/
class Element (T : Type) extends
    Stored T, Zero T, One T, Add T, Sub T, Mul T, Div T, Neg T, BEq T where
  conj : T → T

/-- Elements with an order test and a square root, in which lengths are measured. -/
class RealElement (R : Type) extends Element R where
  less : R → R → Bool
  sqrt : R → R

/-- Elements whose squared length is a real one, and among which the real ones are found. -/
class Magnitude (T : Type) (R : outParam Type) where
  absSq : T → R
  ofReal : R → T

/-- The two texts of an element: the one in a printed tensor and the one in a diagnostic. -/
class ElementText (T : Type) where
  display : T → String
  diagnostic : T → String

end ShapedTensor

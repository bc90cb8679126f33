import ShapedTensor.Element.Real
import ShapedTensor.Text

namespace ShapedTensor

/-- A complex number with parts in `R`. -/
structure Complex (R : Type) where
  re : R
  im : R

namespace Complex

variable {R : Type} [Element R]

def add (left right : Complex R) : Complex R := ⟨left.re + right.re, left.im + right.im⟩

def sub (left right : Complex R) : Complex R := ⟨left.re - right.re, left.im - right.im⟩

def mul (left right : Complex R) : Complex R :=
  ⟨left.re * right.re - left.im * right.im, left.re * right.im + left.im * right.re⟩

def neg (value : Complex R) : Complex R := ⟨-value.re, -value.im⟩

def conj (value : Complex R) : Complex R := ⟨value.re, -value.im⟩

def absSq (value : Complex R) : R := value.re * value.re + value.im * value.im

def div (left right : Complex R) : Complex R :=
  let length := right.re * right.re + right.im * right.im
  ⟨(left.re * right.re + left.im * right.im) / length,
    (left.im * right.re - left.re * right.im) / length⟩

instance : Element (Complex R) where
  width := Stored.width R + Stored.width R
  zero := ⟨0, 0⟩
  one := ⟨1, 0⟩
  add := add
  sub := sub
  mul := mul
  div := div
  neg := neg
  beq left right := left.re == right.re && left.im == right.im
  conj := conj

instance : Magnitude (Complex R) R where
  absSq := absSq
  ofReal value := ⟨value, 0⟩

end Complex

/-- A part is written with a minus only when it is below zero. -/
instance {R : Type} [RealElement R] [ElementText R] : ElementText (Complex R) where
  display value :=
    let re := if RealElement.less value.re 0 then "-" ++ ElementText.display (-value.re)
      else ElementText.display value.re
    let im := if RealElement.less value.im 0 then "-" ++ ElementText.display (-value.im)
      else "+" ++ ElementText.display value.im
    re ++ im ++ "i"
  diagnostic value :=
    Text.record "Complex" [("re", ElementText.diagnostic value.re),
      ("im", ElementText.diagnostic value.im)]

end ShapedTensor

import Mathlib.Data.Int.Sqrt
import ShapedTensor.Element.Complex
import ShapedTensor.Proofs.ZeroTensor.Dense

namespace ShapedTensor.Integer

/-- Integers are elements that take 8 bytes each. -/
scoped instance : Element Int where
  width := 8
  zero := Int.ofNat 0
  one := Int.ofNat 1
  add := Int.add
  sub := Int.sub
  mul := Int.mul
  div := Int.ediv
  neg := Int.neg
  beq left right := decide (left = right)
  conj := id

scoped instance : RealElement Int where
  less left right := decide (left < right)
  sqrt := Int.sqrt

scoped instance : Magnitude Int Int where
  absSq value := Int.mul value value
  ofReal := id

scoped instance : ElementText Int where
  display := Int.repr
  diagnostic := Int.repr

/-- Integers obey the laws of zero. -/
theorem zeroLaws : ZeroLaws Int Int where
  zero_add := Int.zero_add
  add_zero := Int.add_zero
  sub_zero := Int.sub_zero
  zero_sub := Int.zero_sub
  neg_zero := Int.neg_zero
  zero_mul := Int.zero_mul
  mul_zero := Int.mul_zero
  zero_div divisor _ := Int.zero_ediv divisor
  conj_zero := rfl
  absSq_zero := rfl
  length_add_zero := rfl
  sqrt_zero := Int.sqrt_natCast 0
  zero_beq := rfl
  beq_comm _ := decide_eq_decide.mpr eq_comm

end ShapedTensor.Integer

import Mathlib.Algebra.BigOperators.Group.List.Basic
import Mathlib.Algebra.BigOperators.Ring.List
import Mathlib.Algebra.Star.Basic
import Mathlib.Tactic.Ring
import ShapedTensor.Proofs.Element.Integer

namespace ShapedTensor

variable {T : Type}

/-- The laws of a semiring in the arithmetic of elements; a unit is not needed. -/
structure SemiringLaws (T : Type) [Element T] : Prop where
  add_assoc (first second third : T) : first + second + third = first + (second + third)
  add_comm (first second : T) : first + second = second + first
  zero_add (element : T) : 0 + element = element
  mul_assoc (first second third : T) : first * second * third = first * (second * third)
  mul_add (factor first second : T) : factor * (first + second) = factor * first + factor * second
  add_mul (first second factor : T) : (first + second) * factor = first * factor + second * factor
  zero_mul (element : T) : 0 * element = 0
  mul_zero (element : T) : element * 0 = 0

/-- The laws of a semiring whose product commutes. -/
structure CommSemiringLaws (T : Type) [Element T] : Prop extends SemiringLaws T where
  mul_comm (first second : T) : first * second = second * first

/-- The laws of a commutative ring. -/
structure RingLaws (T : Type) [Element T] : Prop extends CommSemiringLaws T where
  one_mul (element : T) : 1 * element = element
  neg_add_cancel (element : T) : -element + element = 0
  sub_eq_add_neg (first second : T) : first - second = first + -second

/-- The laws of a commutative ring with a conjugation. -/
structure ConjLaws (T : Type) [Element T] : Prop extends RingLaws T where
  conj_add (first second : T) :
    Element.conj (first + second) = Element.conj first + Element.conj second
  conj_mul (first second : T) :
    Element.conj (first * second) = Element.conj first * Element.conj second
  conj_conj (element : T) : Element.conj (Element.conj element) = element

section Structures

variable [Element T]

/-- The semiring of elements that obey the laws. -/
@[reducible] def SemiringLaws.toSemiring (laws : SemiringLaws T) : NonUnitalSemiring T where
  add_assoc := laws.add_assoc
  zero_add := laws.zero_add
  add_zero element := (laws.add_comm element 0).trans (laws.zero_add element)
  add_comm := laws.add_comm
  mul_assoc := laws.mul_assoc
  left_distrib := laws.mul_add
  right_distrib := laws.add_mul
  zero_mul := laws.zero_mul
  mul_zero := laws.mul_zero
  nsmul := nsmulRec

/-- The commutative semiring of elements that obey the laws. -/
@[reducible] def CommSemiringLaws.toCommSemiring (laws : CommSemiringLaws T) :
    NonUnitalCommSemiring T where
  toNonUnitalSemiring := laws.toSemiring
  mul_comm := laws.mul_comm

/-- The commutative ring of elements that obey the laws. -/
@[reducible] def RingLaws.toCommRing (laws : RingLaws T) : CommRing T where
  toNonUnitalSemiring := laws.toSemiring
  one_mul := laws.one_mul
  mul_one element := (laws.mul_comm element 1).trans (laws.one_mul element)
  neg_add_cancel := laws.neg_add_cancel
  sub_eq_add_neg := laws.sub_eq_add_neg
  mul_comm := laws.mul_comm
  zsmul := zsmulRec

/-- The ring of elements with their conjugation. -/
@[reducible] def ConjLaws.toStarRing (laws : ConjLaws T) :
    @StarRing T laws.toCommRing.toNonUnitalNonAssocSemiring :=
  letI := laws.toCommRing
  { star := Element.conj
    star_involutive := laws.conj_conj
    star_mul first second := (laws.conj_mul first second).trans (laws.mul_comm _ _)
    star_add := laws.conj_add }

theorem ConjLaws.conj_zero (laws : ConjLaws T) : Element.conj (0 : T) = 0 :=
  letI := laws.toCommRing
  letI := laws.toStarRing
  star_zero T

end Structures

section Sums

variable {ι κ : Type}

/-- A run that adds a term at each step ends with the sum of the terms. -/
theorem foldl_add_sum [AddMonoid T] (items : List ι) (term : ι → T) (own : T) :
    items.foldl (fun own item => own + term item) own = own + (items.map term).sum := by
  induction items generalizing own with
  | nil => exact (add_zero own).symm
  | cons item items ih => rw [List.foldl_cons, ih, List.map_cons, List.sum_cons, add_assoc]

/-- A run that adds a term at each step, from zero, ends with the sum of the terms. -/
theorem foldl_add_sum_zero [AddMonoid T] (items : List ι) (term : ι → T) :
    items.foldl (fun own item => own + term item) 0 = (items.map term).sum :=
  (foldl_add_sum items term 0).trans (zero_add _)

/-- A run that subtracts a term at each step ends with the sum of the terms subtracted. -/
theorem foldl_sub_sum [AddCommGroup T] (items : List ι) (term : ι → T) (own : T) :
    items.foldl (fun own item => own - term item) own = own - (items.map term).sum := by
  induction items generalizing own with
  | nil => exact (sub_zero own).symm
  | cons item items ih => rw [List.foldl_cons, ih, List.map_cons, List.sum_cons, sub_sub]

/-- Two nested sums are exchanged. -/
theorem sum_exchange [AddCommMonoid T] (rows : List ι) (columns : List κ) (term : ι → κ → T) :
    (rows.map fun row => (columns.map (term row)).sum).sum =
      (columns.map fun column => (rows.map (term · column)).sum).sum := by
  induction rows with
  | nil => simp
  | cons row rows ih => simp only [List.map_cons, List.sum_cons, ih, List.sum_map_add]

/-- A sum over the joined lists of some items is the sum over the items of their sums. -/
theorem sum_map_flatMap [AddMonoid T] (items : List ι) (list : ι → List κ) (term : κ → T) :
    ((items.flatMap list).map term).sum = (items.map fun item => ((list item).map term).sum).sum := by
  induction items with
  | nil => rfl
  | cons item items ih =>
      rw [List.flatMap_cons, List.map_append, List.sum_append, ih, List.map_cons, List.sum_cons]

/-- A matrix between two vectors gives one sum, whether it meets its rows or its columns first. -/
theorem sum_bilinear [NonUnitalCommSemiring T] (rows : List ι) (columns : List κ)
    (matrix : ι → κ → T) (left : ι → T) (right : κ → T) :
    (columns.map fun column => (rows.map fun row => matrix row column * left row).sum *
        right column).sum =
      (rows.map fun row => left row *
        (columns.map fun column => matrix row column * right column).sum).sum := by
  simp only [← List.sum_map_mul_right, ← List.sum_map_mul_left]
  rw [sum_exchange]
  simp only [mul_comm (matrix _ _) (left _), mul_assoc]

/-- The conjugated product of a matrix with one vector, against another one, with the sums exchanged. -/
theorem star_sum_exchange [CommRing T] [StarRing T] (rows : List ι) (columns : List κ)
    (matrix : ι → κ → T) (right : κ → T) (left : ι → T) :
    (rows.map fun row => star (columns.map fun column => matrix row column * right column).sum *
        left row).sum =
      (columns.map fun column => star (right column) *
        (rows.map fun row => star (matrix row column) * left row).sum).sum := by
  have conjugated (row : ι) :
      star (columns.map fun column => matrix row column * right column).sum * left row =
        (columns.map fun column => star (right column) * (star (matrix row column) * left row)).sum := by
    rw [← starAddEquiv_apply, map_list_sum, List.map_map, ← List.sum_map_mul_right]
    refine congrArg List.sum (List.map_congr_left fun column _ => ?_)
    rw [Function.comp_apply, starAddEquiv_apply, star_mul']
    ring
  simp only [conjugated, ← List.sum_map_mul_left]
  exact sum_exchange rows columns _

/-- The conjugated sum of products with the left factors conjugated has the factors exchanged. -/
theorem star_sum_star_mul [CommRing T] [StarRing T] (items : List ι) (left right : ι → T) :
    star (items.map fun item => star (left item) * right item).sum =
      (items.map fun item => star (right item) * left item).sum := by
  rw [← starAddEquiv_apply, map_list_sum, List.map_map]
  refine congrArg List.sum (List.map_congr_left fun item _ => ?_)
  rw [Function.comp_apply, starAddEquiv_apply, star_mul', star_star, mul_comm]

end Sums

/-- Complex numbers over a commutative ring form one, with their conjugation. -/
theorem Complex.conjLaws {R : Type} [Element R] (laws : RingLaws R) : ConjLaws (Complex R) := by
  let ring := laws.toCommRing
  have ext {left right : Complex R} (re : left.re = right.re) (im : left.im = right.im) :
      left = right := congrArg₂ Complex.mk re im
  have zero : (0 : Complex R) = ⟨0, 0⟩ := rfl
  have one : (1 : Complex R) = ⟨1, 0⟩ := rfl
  have add (left right : Complex R) : left + right = ⟨left.re + right.re, left.im + right.im⟩ := rfl
  have sub (left right : Complex R) : left - right = ⟨left.re - right.re, left.im - right.im⟩ := rfl
  have neg (value : Complex R) : -value = ⟨-value.re, -value.im⟩ := rfl
  have mul (left right : Complex R) : left * right = ⟨left.re * right.re - left.im * right.im,
    left.re * right.im + left.im * right.re⟩ := rfl
  have conj (value : Complex R) : Element.conj value = ⟨value.re, -value.im⟩ := rfl
  exact {
    add_assoc first second third := by simp only [add, add_assoc]
    add_comm first second := by simp only [add, add_comm]
    zero_add element := by simp only [zero, add, zero_add]
    mul_assoc first second third := by
      simp only [mul]
      exact ext (by ring) (by ring)
    mul_add factor first second := by
      simp only [add, mul]
      exact ext (by ring) (by ring)
    add_mul first second factor := by
      simp only [add, mul]
      exact ext (by ring) (by ring)
    zero_mul element := by
      simp only [zero, mul]
      exact ext (by ring) (by ring)
    mul_zero element := by
      simp only [zero, mul]
      exact ext (by ring) (by ring)
    mul_comm first second := by
      simp only [mul]
      exact ext (by ring) (by ring)
    one_mul element := by
      simp only [one, mul]
      exact ext (by ring) (by ring)
    neg_add_cancel element := by simp only [neg, add, zero, neg_add_cancel]
    sub_eq_add_neg first second := by simp only [neg, add, sub, sub_eq_add_neg]
    conj_add first second := by
      simp only [add, conj]
      exact ext rfl (by ring)
    conj_mul first second := by
      simp only [mul, conj]
      exact ext (by ring) (by ring)
    conj_conj element := by simp only [conj, neg_neg] }

open scoped Integer in
/-- Integers obey the laws of a commutative ring. -/
theorem Integer.ringLaws : RingLaws Int where
  add_assoc := Int.add_assoc
  add_comm := Int.add_comm
  zero_add := Int.zero_add
  mul_assoc := Int.mul_assoc
  mul_add := Int.mul_add
  add_mul := Int.add_mul
  zero_mul := Int.zero_mul
  mul_zero := Int.mul_zero
  mul_comm := Int.mul_comm
  one_mul := Int.one_mul
  neg_add_cancel := Int.add_left_neg
  sub_eq_add_neg _ _ := Int.sub_eq_add_neg

open scoped Integer in
theorem Integer.semiringLaws : SemiringLaws Int := Integer.ringLaws.toSemiringLaws

end ShapedTensor

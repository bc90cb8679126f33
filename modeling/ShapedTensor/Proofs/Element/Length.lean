import Mathlib.Algebra.Order.Ring.Int
import Mathlib.Order.Bounds.Basic
import ShapedTensor.Proofs.Element.Laws

namespace ShapedTensor

variable {T R : Type}

/-- The product of an element with its conjugate is its squared length as an element, and the real elements
are embedded with their zero and their sums. -/
structure LengthLaws (T R : Type) [Element T] [Element R] [Magnitude T R] : Prop where
  conj_mul (element : T) : Element.conj element * element = Magnitude.ofReal (Magnitude.absSq element)
  ofReal_zero : (Magnitude.ofReal (0 : R) : T) = 0
  ofReal_add (first second : R) :
    (Magnitude.ofReal (first + second) : T) = Magnitude.ofReal first + Magnitude.ofReal second

/-- Squared lengths are not negative in a linear order, which is the order test of the real elements and in
which sums are monotone. -/
structure LengthOrder (T R : Type) [RealElement R] [Magnitude T R] [LinearOrder R] : Prop where
  less_iff (first second : R) : RealElement.less first second = true ↔ first < second
  absSq_nonneg (element : T) : 0 ≤ Magnitude.absSq element
  zero_add (length : R) : 0 + length = length
  add_zero (length : R) : length + 0 = length
  add_le_add (first second third fourth : R) :
    first ≤ second → third ≤ fourth → first + third ≤ second + fourth

namespace LengthOrder

variable {ι : Type} [RealElement R] [Magnitude T R] [LinearOrder R] (order : LengthOrder T R)
include order

/-- The greater of two lengths by the order test is their maximum. -/
theorem ite_less (first second : R) :
    (if RealElement.less first second then second else first) = max first second := by
  by_cases less : first < second
  · rw [if_pos ((order.less_iff first second).mpr less), max_eq_right less.le]
  · rw [if_neg (mt (order.less_iff first second).mp less), max_eq_left (not_lt.mp less)]

/-- A running maximum ends in the greatest of its start and of the lengths that it meets. -/
theorem isGreatest_foldl (items : List ι) (length : ι → R) (start : R) :
    IsGreatest {value | value = start ∨ ∃ item ∈ items, length item = value}
      (items.foldl (fun greatest item =>
        if RealElement.less greatest (length item) then length item else greatest) start) := by
  induction items generalizing start with
  | nil => simp
  | cons item items ih =>
      obtain ⟨attained, bound⟩ := ih (max start (length item))
      rw [List.foldl_cons, order.ite_less]
      refine ⟨?_, ?_⟩
      · -- The larger of the start and of the first length is one of these two.
        rcases attained with attained | ⟨other, listed, attained⟩
        · rw [attained]
          rcases max_choice start (length item) with own | own
          · exact .inl own
          · exact .inr ⟨item, by simp, own.symm⟩
        · exact .inr ⟨other, by simp [listed], attained⟩
      · have above := bound (.inl rfl)
        rintro value (rfl | ⟨other, listed, rfl⟩)
        · exact (le_max_left _ _).trans above
        · rcases List.mem_cons.mp listed with rfl | listed
          · exact (le_max_right _ _).trans above
          · exact bound (.inr ⟨other, listed, rfl⟩)

/-- A sum of lengths does not fall below its start. -/
theorem le_foldl_add (items : List ι) (element : ι → T) (start : R) :
    start ≤ items.foldl (fun total item => total + Magnitude.absSq (element item)) start := by
  induction items generalizing start with
  | nil => exact le_rfl
  | cons item items ih =>
      calc start = start + 0 := (order.add_zero start).symm
        _ ≤ start + Magnitude.absSq (element item) :=
            order.add_le_add _ _ _ _ le_rfl (order.absSq_nonneg _)
        _ ≤ _ := ih _

/-- No length exceeds a sum of lengths in which it occurs. -/
theorem absSq_le_foldl_add {items : List ι} {item : ι} (listed : item ∈ items) (element : ι → T)
    {start : R} (positive : 0 ≤ start) :
    Magnitude.absSq (element item) ≤
      items.foldl (fun total item => total + Magnitude.absSq (element item)) start := by
  induction items generalizing start with
  | nil => cases listed
  | cons first items ih =>
      have grown : start + 0 ≤ start + Magnitude.absSq (element first) :=
        order.add_le_add _ _ _ _ le_rfl (order.absSq_nonneg _)
      rcases List.mem_cons.mp listed with rfl | listed
      · calc Magnitude.absSq (element item) = 0 + Magnitude.absSq (element item) :=
              (order.zero_add _).symm
          _ ≤ start + Magnitude.absSq (element item) := order.add_le_add _ _ _ _ positive le_rfl
          _ ≤ _ := order.le_foldl_add items element _
      · rw [order.add_zero] at grown
        exact ih listed (positive.trans grown)

end LengthOrder

theorem Complex.lengthLaws [Element R] (laws : RingLaws R) : LengthLaws (Complex R) R := by
  let ring := laws.toCommRing
  refine ⟨fun element => ?_, rfl, fun first second => ?_⟩
  · change Complex.mk (element.re * element.re - -element.im * element.im)
      (element.re * element.im + -element.im * element.re) =
        ⟨element.re * element.re + element.im * element.im, 0⟩
    exact congrArg₂ Complex.mk (by ring) (by ring)
  · exact congrArg (Complex.mk (first + second)) (add_zero (0 : R)).symm

open scoped Integer in
/-- Complex numbers with integer parts have their squared lengths in the order of the integers. -/
theorem Integer.complexLengthOrder : LengthOrder (Complex Int) Int where
  less_iff _ _ := decide_eq_true_iff
  absSq_nonneg element := Int.add_nonneg (mul_self_nonneg element.re) (mul_self_nonneg element.im)
  zero_add := Int.zero_add
  add_zero := Int.add_zero
  add_le_add _ _ _ _ := Int.add_le_add

end ShapedTensor

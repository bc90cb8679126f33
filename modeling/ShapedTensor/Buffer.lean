import ShapedTensor.Element.Basic
import ShapedTensor.Fault

namespace ShapedTensor.Buffer

/-- The first number of bytes that no buffer has: two to the power of 63. -/
def bound : Nat := 9223372036854775808

/-- The bytes that a number of elements takes. -/
def bytes (T : Type) [Stored T] (count : Nat) : Nat := Stored.width T * count

/-- Refuses a number of elements that no buffer can hold. -/
def reserve (T : Type) [Stored T] (count : Nat) : Except Fault Unit :=
  if bytes T count < bound then .ok () else .error .capacityOverflow

theorem reserve_eq_ok {T : Type} [Stored T] {count : Nat} :
    reserve T count = .ok () ↔ bytes T count < bound := by
  unfold reserve
  split <;> simp_all

end ShapedTensor.Buffer

import ShapedTensor.Fault

/-! Sizes, strides and offsets are words of 64 bits, as builds with overflow checks compute with them. -/

namespace ShapedTensor.Size

/-- The first number that is no size: two to the power of 64. -/
def bound : Nat := 18446744073709551616

def add (left right : Nat) : Except Fault Nat :=
  if left + right < bound then .ok (left + right) else .error .sumOverflow

def mul (left right : Nat) : Except Fault Nat :=
  if left * right < bound then .ok (left * right) else .error .productOverflow

/-- The product of the sizes, from the first to the last. -/
def product (sizes : List Nat) : Except Fault Nat := sizes.foldlM mul 1

theorem add_eq_ok {left right total : Nat} :
    add left right = .ok total ↔ left + right = total ∧ total < bound := by
  unfold add
  split <;> simp_all <;> omega

theorem mul_eq_ok {left right total : Nat} :
    mul left right = .ok total ↔ left * right = total ∧ total < bound := by
  unfold mul
  split <;> simp_all <;> omega

end ShapedTensor.Size

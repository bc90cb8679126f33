/-! A finite datum of a binary format is a whole number of units in the last place. -/

namespace ShapedTensor.Decimal

/-- The widths of a binary format: bits of the significand with the leading one, and of the exponent. -/
structure Format where
  precision : Nat
  exponentBits : Nat

/-- The format of 64 bits. -/
def Format.double : Format := ⟨53, 11⟩

/-- The format of 32 bits. -/
def Format.single : Format := ⟨24, 8⟩

namespace Format

/-- The weight of the last bit of the smallest datum, as a power of two. -/
def lowestExponent (format : Format) : Int :=
  3 - (Nat.pow 2 (format.exponentBits - 1) : Nat) - format.precision

end Format

/-- A datum; a finite one is `significand * 2 ^ exponent` and says whether the data below it are denser. -/
inductive Datum where
  | notNumber
  | infinite (negative : Bool)
  | finite (negative : Bool) (significand : Nat) (exponent : Int) (denserBelow : Bool)

/-- The datum with the given bits. -/
def Format.decode (format : Format) (bits : Nat) : Datum :=
  let fractionBits := format.precision - 1
  let fraction := bits % Nat.pow 2 fractionBits
  let biased := bits / Nat.pow 2 fractionBits % Nat.pow 2 format.exponentBits
  let negative := bits / Nat.pow 2 (fractionBits + format.exponentBits) % 2 == 1
  if biased = Nat.pow 2 format.exponentBits - 1 then
    if fraction = 0 then .infinite negative else .notNumber
  else if biased = 0 then .finite negative fraction format.lowestExponent false
  else
    .finite negative (Nat.pow 2 fractionBits + fraction) (format.lowestExponent + biased - 1)
      (fraction == 0 && biased > 1)

end ShapedTensor.Decimal

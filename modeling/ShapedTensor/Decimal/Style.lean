import ShapedTensor.Decimal.Shortest

namespace ShapedTensor.Decimal

/-- Which decimals `0.d₁d₂…` times ten to a place are written without an exponent, and how whole ones
are marked. -/
structure Style where
  wholeMark : String
  positional : Option (Int × Int)

/-- Printed tensors write every magnitude out and leave whole numbers bare. -/
def Style.printed : Style := ⟨"", none⟩

/-- Diagnostics mark whole numbers and write exponents below `10 ^ -4` and from `10 ^ 16` on. -/
def Style.diagnostic : Style := ⟨".0", some (-3, 16)⟩

namespace Style

/-- The digits around the decimal point. -/
def writePositional (style : Style) (digits : List Char) (place : Int) : String :=
  if place ≤ 0 then "0." ++ String.ofList (List.replicate (-place).toNat '0' ++ digits)
  else if digits.length ≤ place.toNat then
    String.ofList (digits ++ List.replicate (place.toNat - digits.length) '0') ++ style.wholeMark
  else
    String.ofList (digits.take place.toNat) ++ "." ++ String.ofList (digits.drop place.toNat)

/-- One digit before the point, and the exponent after an `e`. -/
def writeExponent (digits : List Char) (place : Int) : String :=
  let exponent := place - 1
  let mark := if exponent < 0 then "e-" else "e"
  let fraction := if digits.length ≤ 1 then "" else "." ++ String.ofList (digits.drop 1)
  String.ofList (digits.take 1) ++ fraction ++ mark ++ exponent.natAbs.repr

/-- The text of a positive numeral. -/
def write (style : Style) (numeral : Numeral) : String :=
  let digits := Nat.toDigits 10 numeral.digits
  let place : Int := digits.length + numeral.power
  match style.positional with
  | none => style.writePositional digits place
  | some (lowest, highest) =>
      if lowest ≤ place && place ≤ highest then style.writePositional digits place
      else writeExponent digits place

def signed (negative : Bool) (text : String) : String := if negative then "-" ++ text else text

/-- The text of a datum. -/
def writeDatum (style : Style) : Datum → String
  | .notNumber => "NaN"
  | .infinite negative => signed negative "inf"
  | .finite negative significand exponent denserBelow =>
      signed negative <|
        if significand = 0 then "0" ++ style.wholeMark
        else style.write (Interval.around significand exponent denserBelow).shortest

end Style

end ShapedTensor.Decimal

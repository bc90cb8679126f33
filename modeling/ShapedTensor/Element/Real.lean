import ShapedTensor.Element.Basic
import ShapedTensor.Decimal.Style

namespace ShapedTensor

instance : Element Float where
  width := 8
  zero := 0.0
  one := 1.0
  add := Float.add
  sub := Float.sub
  mul := Float.mul
  div := Float.div
  neg := Float.neg
  beq := Float.beq
  conj := id

instance : RealElement Float where
  less left right := decide (left < right)
  sqrt := Float.sqrt

instance : Magnitude Float Float where
  absSq value := value * value
  ofReal := id

instance : ElementText Float where
  display value :=
    Decimal.Style.printed.writeDatum (Decimal.Format.double.decode value.toBits.toNat)
  diagnostic value :=
    Decimal.Style.diagnostic.writeDatum (Decimal.Format.double.decode value.toBits.toNat)

instance : Element Float32 where
  width := 4
  zero := 0.0
  one := 1.0
  add := Float32.add
  sub := Float32.sub
  mul := Float32.mul
  div := Float32.div
  neg := Float32.neg
  beq := Float32.beq
  conj := id

instance : RealElement Float32 where
  less left right := decide (left < right)
  sqrt := Float32.sqrt

instance : Magnitude Float32 Float32 where
  absSq value := value * value
  ofReal := id

instance : ElementText Float32 where
  display value :=
    Decimal.Style.printed.writeDatum (Decimal.Format.single.decode value.toBits.toNat)
  diagnostic value :=
    Decimal.Style.diagnostic.writeDatum (Decimal.Format.single.decode value.toBits.toNat)

end ShapedTensor

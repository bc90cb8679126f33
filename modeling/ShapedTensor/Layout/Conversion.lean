import ShapedTensor.Layout.Mapping

namespace ShapedTensor.Mapping

/-- The strided mapping of a packed row-major buffer. -/
def stridedRowMajor (shape : Shape) : Except Fault Mapping := do
  let strides ← Strides.rowMajor shape.sizes
  return ⟨shape, .strided strides⟩

/-- The strided mapping of a packed column-major buffer. -/
def stridedColumnMajor (shape : Shape) : Except Fault Mapping := do
  let strides ← Strides.columnMajor shape.sizes
  return ⟨shape, .strided strides⟩

/-- Whether strides are the packed ones; without axes or elements all strides are. -/
def isPacked (packed : List Nat → Except Fault (List Nat)) (shape : Shape) (strides : List Nat) :
    Except Fault Bool :=
  if shape.rank = 0 then .ok true
  else do
    let size ← shape.size
    if size = 0 then return true
    let expected ← packed shape.sizes
    return strides == expected

/-- The row-major mapping of a shape whose strides are row-major, as checked builds make sure. -/
def rowMajorOfStrides (shape : Shape) (strides : List Nat) : Except Fault Mapping := do
  if ← isPacked Strides.rowMajor shape strides then return ⟨shape, .rowMajor⟩
  else throw (.notRowMajor strides shape)

/-- The column-major mapping of a shape whose strides are column-major, as checked builds make sure. -/
def columnMajorOfStrides (shape : Shape) (strides : List Nat) : Except Fault Mapping := do
  if ← isPacked Strides.columnMajor shape strides then return ⟨shape, .columnMajor⟩
  else throw (.notColumnMajor strides shape)

/-- A column-major mapping read as a row-major one. -/
def rowMajorOfColumnMajor (shape : Shape) : Except Fault Mapping :=
  if shape.rank ≤ 1 then .ok ⟨shape, .rowMajor⟩ else .error (.columnMajorRank shape.rank)

/-- A row-major mapping read as a column-major one. -/
def columnMajorOfRowMajor (shape : Shape) : Except Fault Mapping :=
  if shape.rank ≤ 1 then .ok ⟨shape, .columnMajor⟩ else .error (.rowMajorRank shape.rank)

end ShapedTensor.Mapping

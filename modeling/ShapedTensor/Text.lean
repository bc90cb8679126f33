namespace ShapedTensor.Text

/-- The parts between square brackets. -/
def bracketed (parts : List String) : String :=
  "[" ++ ", ".intercalate parts ++ "]"

/-- A list of numbers between square brackets. -/
def numbers (values : List Nat) : String :=
  bracketed (values.map Nat.repr)

/-- The parts of a tuple. -/
def tuple : List String → String
  | [part] => "(" ++ part ++ ",)"
  | parts => "(" ++ ", ".intercalate parts ++ ")"

/-- A named record with its fields, each written as a name and a value. -/
def record (name : String) (fields : List (String × String)) : String :=
  name ++ " \x7b " ++ ", ".intercalate (fields.map fun field => field.1 ++ ": " ++ field.2) ++ " \x7d"

end ShapedTensor.Text

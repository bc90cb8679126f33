import ShapedTensor.Element.Basic

namespace ShapedTensor.Update

variable {T : Type} [Element T]

def add (own left right : T) : T := own + left * right

def sub (own left right : T) : T := own - left * right

/-- Adds the product with the conjugate of the right element. -/
def addConj (own left right : T) : T := own + left * Element.conj right

/-- Subtracts the product with the conjugate of the right element. -/
def subConj (own left right : T) : T := own - left * Element.conj right

/-- Adds the product with the conjugate of the left element. -/
def conjAdd (own left right : T) : T := own + Element.conj left * right

/-- Adds a multiple of the product. -/
def scaled (factor own left right : T) : T := own + factor * left * right

/-- Adds a multiple of the product with the conjugate of the right element. -/
def scaledConj (factor own left right : T) : T := own + factor * left * Element.conj right

end ShapedTensor.Update

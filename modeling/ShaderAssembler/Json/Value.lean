import ShaderAssembler.Text.Numeral

/-! JSON values. Numbers keep their digits, and object members keep their order, so that a value
says everything about its text that a reader may look at. -/

namespace ShaderAssembler

structure JsonExponent where
  negative : Bool
  first : Fin 10
  rest : List (Fin 10)
  deriving DecidableEq, Repr

structure JsonNumber where
  negative : Bool := false
  whole : Nat
  fraction : List (Fin 10) := []
  exponent : Option JsonExponent := none
  deriving DecidableEq, Repr

/-- A JSON value. The text of a string is `none` if one of its escapes is half of a
surrogate pair: such a string is well-formed, but it is not a text. -/
inductive Json where
  | null
  | bool (value : Bool)
  | number (value : JsonNumber)
  | string (text : Option Text)
  | array (items : List Json)
  | object (members : List (Option Text × Json))
  deriving Repr

namespace Json

def ofText (text : Text) : Json :=
  string (some text)

def ofNat (value : Nat) : Json :=
  number { whole := value }

def ofMembers (members : List (String × Json)) : Json :=
  object (members.map fun member => (some member.1.toList, member.2))

end Json

end ShaderAssembler

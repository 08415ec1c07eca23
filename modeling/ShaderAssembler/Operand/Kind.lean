import ShaderAssembler.Text.Basic

/-! Kinds of operands, in the order that decides which of them can be written to. -/

namespace ShaderAssembler

inductive OperandKind where
  | sgpr
  | specialRegister
  | ttmp
  | zero
  | inlinePositive
  | inlineNegative
  | inlineFloat
  | condition
  | literal
  deriving DecidableEq, Repr

namespace OperandKind

def all : List OperandKind :=
  [sgpr, specialRegister, ttmp, zero, inlinePositive, inlineNegative, inlineFloat, condition,
    literal]

def rank : OperandKind → Nat
  | sgpr => 0
  | specialRegister => 1
  | ttmp => 2
  | zero => 3
  | inlinePositive => 4
  | inlineNegative => 5
  | inlineFloat => 6
  | condition => 7
  | literal => 8

instance : LT OperandKind := ⟨fun left right => left.rank < right.rank⟩

instance : LE OperandKind := ⟨fun left right => left.rank ≤ right.rank⟩

instance (left right : OperandKind) : Decidable (left < right) :=
  inferInstanceAs (Decidable (left.rank < right.rank))

instance (left right : OperandKind) : Decidable (left ≤ right) :=
  inferInstanceAs (Decidable (left.rank ≤ right.rank))

/-- Whether operands of this kind can be a destination: the kinds below the
threshold can. -/
def isRegisterClass (kind threshold : OperandKind) : Bool :=
  kind < threshold

def name : OperandKind → String
  | sgpr => "sgpr"
  | specialRegister => "special_register"
  | ttmp => "ttmp"
  | zero => "zero"
  | inlinePositive => "inline_positive"
  | inlineNegative => "inline_negative"
  | inlineFloat => "inline_float"
  | condition => "condition"
  | literal => "literal"

def ofName? (text : Text) : Option OperandKind :=
  all.find? fun kind => kind.name.toList = text

end OperandKind

end ShaderAssembler

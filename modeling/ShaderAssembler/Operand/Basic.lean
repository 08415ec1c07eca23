import ShaderAssembler.Operand.Kind
import ShaderAssembler.Text.Numeral

/-! Operands of an instruction, the codes that stand for them in a word, and what can be
wrong with the text of one. -/

namespace ShaderAssembler

structure NamedOperand where
  name : Text
  code : UInt32
  kind : OperandKind
  deriving DecidableEq, Repr

inductive RegisterFile where
  | sgpr
  | ttmp
  deriving DecidableEq, Repr

namespace RegisterFile

def name : RegisterFile → String
  | sgpr => "SGPR"
  | ttmp => "TTMP"

def kind : RegisterFile → OperandKind
  | sgpr => .sgpr
  | ttmp => .ttmp

end RegisterFile

/-- The codes of the operands that are spelled by number. Registers have a base code
and a largest index, inline constants a base code, and a literal has one code that
says that its value follows the word. Operands of a kind below `sdstThreshold` can be
a destination. -/
structure OperandCodes where
  sgprBase : UInt32
  sgprMax : UInt32
  ttmpBase : UInt32
  ttmpMax : UInt32
  zero : UInt32
  inlinePositiveBase : UInt32
  inlineNegativeBase : UInt32
  literal : UInt32
  sdstThreshold : OperandKind
  deriving DecidableEq, Repr

namespace OperandCodes

def registerBase (codes : OperandCodes) : RegisterFile → UInt32
  | .sgpr => codes.sgprBase
  | .ttmp => codes.ttmpBase

def registerMax (codes : OperandCodes) : RegisterFile → UInt32
  | .sgpr => codes.sgprMax
  | .ttmp => codes.ttmpMax

end OperandCodes

inductive Operand where
  | named (entry : NamedOperand)
  | register (file : RegisterFile) (index : Nat)
  | zero
  | inlinePositive (value : Nat)
  | inlineNegative (magnitude : Nat)
  | literal (value : UInt32)
  deriving DecidableEq, Repr

def Operand.kind : Operand → OperandKind
  | named entry => entry.kind
  | register file _ => file.kind
  | zero => .zero
  | inlinePositive _ => .inlinePositive
  | inlineNegative _ => .inlineNegative
  | literal _ => .literal

def Operand.literal? : Operand → Option UInt32
  | literal value => some value
  | _ => none

structure ClassifiedOperand where
  operand : Operand
  code : UInt32
  deriving DecidableEq, Repr

namespace ClassifiedOperand

def kind (classified : ClassifiedOperand) : OperandKind :=
  classified.operand.kind

def literal? (classified : ClassifiedOperand) : Option UInt32 :=
  classified.operand.literal?

end ClassifiedOperand

inductive OperandError where
  | malformedRegister (file : RegisterFile) (text : Text)
  | malformedNumber (text : Text)
  | registerOutOfRange (file : RegisterFile) (index : Int)
  | literalOutOfRange (value : Int)
  | codeOverflow (base offset : UInt32)
  deriving DecidableEq, Repr

def OperandError.message : OperandError → String
  | malformedRegister file text =>
      s!"parsing operand ({file.name} value) '{String.ofList text}'"
  | malformedNumber text => s!"parsing operand (literal value) '{String.ofList text}'"
  | registerOutOfRange file index => s!"invalid {file.name} number {index}"
  | literalOutOfRange value => s!"literal value {value} does not fit in 32 bits"
  | codeOverflow base offset => s!"operand code {base} + {offset} overflows"

end ShaderAssembler

import ShaderAssembler.Instruction.Basic
import ShaderAssembler.Operand.Classify

/-! The tables that drive the assembler: its instructions, its named operands, and the codes of
all other operands. -/

namespace ShaderAssembler

structure Tables where
  instructions : List Instruction
  operands : List NamedOperand
  codes : OperandCodes
  deriving DecidableEq, Repr

namespace Tables

def resolve? (tables : Tables) (mnemonic : Text) : Option Instruction :=
  Instruction.resolve? tables.instructions mnemonic

def classify (tables : Tables) (text : Text) : Except OperandError ClassifiedOperand :=
  ShaderAssembler.classify tables.operands tables.codes text

end Tables

end ShaderAssembler

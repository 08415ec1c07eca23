import ShaderAssembler.Encoder.Statement
import ShaderAssembler.Encoder.TwoSource

/-! From machine code back to a two-source instruction and its operands. -/

namespace ShaderAssembler

def BitField.get (field : BitField) (word : UInt32) : UInt32 :=
  UInt32.ofNat ((word.toNat >>> field.lsb.toNat) % (1 <<< field.width.toNat))

namespace OperandCodes

def register? (codes : OperandCodes) (file : RegisterFile) (code : UInt32) : Option Operand :=
  let base := (codes.registerBase file).toNat
  if base ≤ code.toNat ∧ code.toNat ≤ base + (codes.registerMax file).toNat then
    some (.register file (code.toNat - base))
  else none

def constant? (codes : OperandCodes) (code : UInt32) : Option Operand :=
  let positive := codes.inlinePositiveBase.toNat
  let negative := codes.inlineNegativeBase.toNat
  if code = codes.zero then some .zero
  else if positive ≤ code.toNat ∧ code.toNat < positive + 64 then
    some (.inlinePositive (code.toNat - positive + 1))
  else if negative ≤ code.toNat ∧ code.toNat < negative + 16 then
    some (.inlineNegative (code.toNat - negative + 1))
  else none

end OperandCodes

def Tables.operandOf? (tables : Tables) (literal : Option UInt32) (code : UInt32) :
    Option Operand :=
  if code = tables.codes.literal then literal.map .literal
  else
    (tables.codes.register? .sgpr code).or <|
      (tables.codes.register? .ttmp code).or <|
        (tables.codes.constant? code).or <|
          (tables.operands.find? fun entry => entry.code = code).map .named

namespace TwoSource

def opcodeBits (word : UInt32) : UInt32 :=
  word &&& 0xFF800000

/-- The instruction that machine code stands for. A literal belongs to the sources, never
to the destination. -/
def Statement.ofCode? (tables : Tables) (code : MachineCode) : Option Statement := do
  let instruction ← tables.instructions.find? fun instruction =>
    instruction.family = .sop2 ∧ instruction.baseOpcode = opcodeBits code.word
  let destination ← tables.operandOf? none (sdst.get code.word)
  let source1 ← tables.operandOf? code.literal (ssrc1.get code.word)
  let source0 ← tables.operandOf? code.literal (ssrc0.get code.word)
  return { mnemonic := instruction.mnemonic, destination, source1, source0 }

end TwoSource

end ShaderAssembler

import ShaderAssembler.Operand.Spelling

/-! A two-source instruction with its operands, apart from any text of it. -/

namespace ShaderAssembler

namespace TwoSource

structure Statement where
  mnemonic : Text
  destination : Operand
  source1 : Operand
  source0 : Operand
  deriving DecidableEq, Repr

def Statement.text (statement : Statement) : Text :=
  statement.mnemonic ++ ' ' :: statement.destination.spell ++
    ',' :: ' ' :: statement.source1.spell ++ ',' :: ' ' :: statement.source0.spell

end TwoSource

end ShaderAssembler

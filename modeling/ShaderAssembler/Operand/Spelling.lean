import ShaderAssembler.Operand.Basic

/-! The canonical spelling of an operand. -/

namespace ShaderAssembler

def RegisterFile.letter : RegisterFile → Char
  | sgpr => 's'
  | ttmp => 't'

def Operand.spell : Operand → Text
  | named entry => entry.name
  | register file index => file.letter :: decimal index
  | zero => ['0']
  | inlinePositive value => decimal value
  | inlineNegative magnitude => '-' :: decimal magnitude
  | literal value => decimal value.toNat

end ShaderAssembler

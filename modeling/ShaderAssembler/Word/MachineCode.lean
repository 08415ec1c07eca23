import ShaderAssembler.Text.Basic

/-! What an instruction becomes: a word, and a literal behind it if an operand needs one. -/

namespace ShaderAssembler

structure MachineCode where
  word : UInt32
  literal : Option UInt32
  deriving DecidableEq, Repr

def wordBytes (word : UInt32) : List UInt8 :=
  [word.toUInt8, (word >>> 8).toUInt8, (word >>> 16).toUInt8, (word >>> 24).toUInt8]

namespace MachineCode

def words (code : MachineCode) : List UInt32 :=
  code.word :: code.literal.toList

def bytes (code : MachineCode) : List UInt8 :=
  code.words.flatMap wordBytes

end MachineCode

end ShaderAssembler

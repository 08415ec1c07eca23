import ShaderAssembler.Instruction.Basic

/-! Where the scalar and vector families keep their opcode in the word, beside the bits that
mark the family. An opcode too large for its place loses its high bits. -/

namespace ShaderAssembler

namespace Opcode

def sop2 (opcode : UInt32) : UInt32 :=
  ((0b10 : UInt32) <<< 30) ||| ((opcode &&& 0x7F) <<< 23)

def sopk (opcode : UInt32) : UInt32 :=
  ((0b1011 : UInt32) <<< 28) ||| ((opcode &&& 0x1F) <<< 23)

def sop1 (opcode : UInt32) : UInt32 :=
  ((0b101111101 : UInt32) <<< 23) ||| ((opcode &&& 0xFF) <<< 8)

def sopc (opcode : UInt32) : UInt32 :=
  ((0b101111110 : UInt32) <<< 23) ||| ((opcode &&& 0x7F) <<< 16)

def sopp (opcode : UInt32) : UInt32 :=
  ((0b101111111 : UInt32) <<< 23) ||| ((opcode &&& 0x7F) <<< 16)

def vop2 (opcode : UInt32) : UInt32 :=
  (opcode &&& 0x3F) <<< 25

end Opcode

end ShaderAssembler

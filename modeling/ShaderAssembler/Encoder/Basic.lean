import ShaderAssembler.Encoder.Error
import ShaderAssembler.Log
import ShaderAssembler.Tables.Basic
import ShaderAssembler.Word.MachineCode

/-! An encoder turns the instructions of one family into machine code. -/

namespace ShaderAssembler

/-- The encoder of a family. It is given the tables, the instruction and the text behind the
mnemonic, and its answer depends on nothing else: an encoder keeps no state from one instruction to
the next. -/
structure Encoder where
  family : Family
  encode : Tables → Instruction → Text → Logged (Except EncodeError MachineCode)

def Encoder.find? (encoders : List Encoder) (family : Family) : Option Encoder :=
  encoders.find? fun encoder => encoder.family = family

end ShaderAssembler

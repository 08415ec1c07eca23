import ShaderAssembler.Disassembly.Statement
import ShaderAssembler.File

/-! Cutting binary into machine code. Each word tells by its source fields whether a literal
follows. -/

namespace ShaderAssembler

def wordOfBytes (first second third fourth : UInt8) : UInt32 :=
  first.toUInt32 ||| (second.toUInt32 <<< 8) ||| (third.toUInt32 <<< 16) |||
    (fourth.toUInt32 <<< 24)

namespace TwoSource

def literalCode : UInt32 := 255

def takesLiteral (word : UInt32) : Bool :=
  ssrc0.get word = literalCode ∨ ssrc1.get word = literalCode

/-- Reads binary to its end. There is no result if it breaks off inside a word. -/
def readBinary? : Bytes → Option (List MachineCode)
  | [] => some []
  | a :: b :: c :: d :: rest =>
      let word := wordOfBytes a b c d
      if takesLiteral word then
        match rest with
        | e :: f :: g :: h :: rest =>
            (readBinary? rest).map ({ word, literal := some (wordOfBytes e f g h) } :: ·)
        | _ => none
      else (readBinary? rest).map ({ word, literal := none } :: ·)
  | _ => none

end TwoSource

end ShaderAssembler

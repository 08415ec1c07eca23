import ShaderAssembler.Assembler.Config
import ShaderAssembler.Encoder.TwoSource
import ShaderAssembler.Tables.SouthernIslands

/-! An assembler: its tables, its settings and its encoders, and what it makes of a single line. -/

namespace ShaderAssembler

inductive LineError where
  | unrecognized (mnemonic : Text)
  | unsupported (mnemonic : Text)
  | encode (mnemonic : Text) (cause : EncodeError)
  deriving DecidableEq, Repr

namespace LineError

def message : LineError → String
  | unrecognized mnemonic => s!"unrecognized instruction '{String.ofList mnemonic}'"
  | unsupported mnemonic =>
      s!"unsupported encoding type for instruction '{String.ofList mnemonic}'"
  | encode mnemonic cause => s!"{String.ofList mnemonic}: {cause.message}"

def recoverable : LineError → Bool
  | unrecognized _ => true
  | unsupported _ => true
  | encode _ _ => false

end LineError

structure Assembled where
  mnemonic : Text
  code : MachineCode
  deriving DecidableEq, Repr

structure Assembler where
  tables : Tables := .southernIslands
  config : AssemblerConfig := {}
  registered : List Encoder := []

namespace Assembler

def register (assembler : Assembler) (encoder : Encoder) : Assembler :=
  { assembler with registered := encoder :: assembler.registered }

def registerAll (assembler : Assembler) (encoders : List Encoder) : Assembler :=
  encoders.foldl register assembler

def encoders (assembler : Assembler) : List Encoder :=
  assembler.registered ++ [TwoSource.encoder assembler.config.strictOperands]

def encoderFor (assembler : Assembler) (family : Family) : Option Encoder :=
  Encoder.find? assembler.encoders family

def encodeInstruction (assembler : Assembler) (instruction : Instruction) (operands : Text) :
    Logged (Except LineError Assembled) :=
  match assembler.encoderFor instruction.family with
  | none => pure (.error (.unsupported instruction.mnemonic))
  | some encoder => do
      match ← encoder.encode assembler.tables instruction operands with
      | .error cause => pure (.error (.encode instruction.mnemonic cause))
      | .ok code =>
          Logged.emit [.encoded instruction.mnemonic code.word code.literal.isSome]
          pure (.ok { mnemonic := instruction.mnemonic, code })

/-- Splits a line into its mnemonic and the text behind it. There is no mnemonic if the
line holds no field, or if its first field is only the end of a line. -/
def splitLine (line : Text) : Option (Text × Text) :=
  match line.stripComment.takeField with
  | none => none
  | some (field, operands) =>
      let mnemonic := field.trimLineEnd
      if mnemonic.isEmpty then none else some (mnemonic, operands)

def assembleLine (assembler : Assembler) (line : Text) :
    Logged (Option (Except LineError Assembled)) :=
  match splitLine line with
  | none => pure none
  | some (mnemonic, operands) =>
      match assembler.tables.resolve? mnemonic with
      | none => pure (some (.error (.unrecognized mnemonic)))
      | some instruction => some <$> assembler.encodeInstruction instruction operands

end Assembler

end ShaderAssembler

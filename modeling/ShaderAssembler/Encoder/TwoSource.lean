import ShaderAssembler.Encoder.Basic
import ShaderAssembler.Text.Field
import ShaderAssembler.Word.Packing

/-! The encoding of scalar instructions with a destination and two sources. The operands are
written in the order destination, second source, first source. -/

namespace ShaderAssembler

namespace TwoSource

def sdst : BitField := { name := "SDST", lsb := 16, width := 7 }

def ssrc1 : BitField := { name := "SSRC1", lsb := 8, width := 8 }

def ssrc0 : BitField := { name := "SSRC0", lsb := 0, width := 8 }

structure Slots where
  destination : Text
  source1 : Text
  source0 : Text
  deriving DecidableEq, Repr

/-- Takes the operand of a slot from the front of a text, and gives what follows it. The
operand must not be blank. -/
def takeSlot (field : BitField) (text : Text) : Except EncodeError (Text × Text) :=
  match text.takeField with
  | none => .error (.missingOperand field.name)
  | some (operand, rest) =>
      if operand.trimLineEnd.isEmpty then .error (.missingOperand field.name)
      else .ok (operand.trimLineEnd, rest)

/-- Takes the operands one by one. If `strict`, no other field may follow them that is not
blank. -/
def Slots.read (strict : Bool) (operands : Text) : Except EncodeError Slots := do
  let (destination, rest) ← takeSlot sdst operands
  let (source1, rest) ← takeSlot ssrc1 rest
  let (source0, rest) ← takeSlot ssrc0 rest
  match strict, (rest.fields.map Text.trimLineEnd).find? (!·.isEmpty) with
  | true, some extra => .error (.trailingOperand extra)
  | _, _ => .ok { destination, source1, source0 }

def classifySlot (tables : Tables) (field : BitField) (text : Text) :
    Except EncodeError ClassifiedOperand :=
  (tables.classify text).mapError (.operand field.name)

def packDestination (tables : Tables) (text : Text) (packing : Packing) :
    Except EncodeError Packing := do
  let destination ← classifySlot tables sdst text
  if destination.kind.isRegisterClass tables.codes.sdstThreshold then
    Packing.proceed (packing.merge sdst destination.code)
  else .error (.invalidDestination text)

def packSource (tables : Tables) (field : BitField) (text : Text) (packing : Packing) :
    Except EncodeError Packing := do
  let source ← classifySlot tables field text
  let withLiteral ← match source.literal? with
    | some value => Packing.proceed (packing.setLiteral value)
    | none => .ok packing
  Packing.proceed (withLiteral.merge field source.code)

def pack (strict : Bool) (tables : Tables) (baseOpcode : UInt32) (operands : Text) :
    Except EncodeError MachineCode := do
  let slots ← Slots.read strict operands
  let packing ← packDestination tables slots.destination (Packing.start baseOpcode)
  let packing ← packSource tables ssrc1 slots.source1 packing
  let packing ← packSource tables ssrc0 slots.source0 packing
  return packing.finish

def encode (strict : Bool) (tables : Tables) (instruction : Instruction) (operands : Text) :
    Logged (Except EncodeError MachineCode) :=
  match pack strict tables instruction.baseOpcode operands with
  | .error cause => { value := .error cause, events := [] }
  | .ok code => { value := .ok code, events := [.packed instruction.mnemonic code.word] }

def encoder (strict : Bool) : Encoder where
  family := .sop2
  encode := encode strict

end TwoSource

end ShaderAssembler

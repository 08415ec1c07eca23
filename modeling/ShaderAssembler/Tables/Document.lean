import ShaderAssembler.Json.Parser
import ShaderAssembler.Json.Printer
import ShaderAssembler.Json.Record
import ShaderAssembler.Tables.SouthernIslands
import ShaderAssembler.Tables.Validation

/-! Tables as JSON documents. A document may leave out sections and codes, and then those of the
built-in tables are used. -/

namespace ShaderAssembler

namespace OperandKind

def toJson (kind : OperandKind) : Json :=
  .ofText kind.name.toList

def ofJson? (json : Json) : Option OperandKind :=
  json.choice?.bind ofName?

end OperandKind

namespace Family

def toJson (family : Family) : Json :=
  .ofText family.name.toList

def ofJson? (json : Json) : Option Family :=
  json.choice?.bind ofName?

end Family

namespace Instruction

def toJson (instruction : Instruction) : Json :=
  .ofMembers
    [ ("mnemonic", .ofText instruction.mnemonic),
      ("family", instruction.family.toJson),
      ("base_opcode", .ofNat instruction.baseOpcode.toNat) ]

def ofJson? (json : Json) : Option Instruction := do
  let record ← json.record? ["mnemonic", "family", "base_opcode"]
  let mnemonic ← Json.required? record "mnemonic" Json.text?
  let family ← Json.required? record "family" Family.ofJson?
  let baseOpcode ← Json.required? record "base_opcode" Json.word?
  return { mnemonic, family, baseOpcode }

end Instruction

namespace NamedOperand

def toJson (entry : NamedOperand) : Json :=
  .ofMembers
    [ ("name", .ofText entry.name),
      ("code", .ofNat entry.code.toNat),
      ("kind", entry.kind.toJson) ]

def ofJson? (json : Json) : Option NamedOperand := do
  let record ← json.record? ["name", "code", "kind"]
  let name ← Json.required? record "name" Json.text?
  let code ← Json.required? record "code" Json.word?
  let kind ← Json.required? record "kind" OperandKind.ofJson?
  return { name, code, kind }

end NamedOperand

namespace OperandCodes

def toJson (codes : OperandCodes) : Json :=
  .ofMembers
    [ ("sgpr_base", .ofNat codes.sgprBase.toNat),
      ("sgpr_max", .ofNat codes.sgprMax.toNat),
      ("ttmp_base", .ofNat codes.ttmpBase.toNat),
      ("ttmp_max", .ofNat codes.ttmpMax.toNat),
      ("zero", .ofNat codes.zero.toNat),
      ("inline_positive_base", .ofNat codes.inlinePositiveBase.toNat),
      ("inline_negative_base", .ofNat codes.inlineNegativeBase.toNat),
      ("literal", .ofNat codes.literal.toNat),
      ("sdst_threshold", codes.sdstThreshold.toJson) ]

def memberNames : List String :=
  [ "sgpr_base", "sgpr_max", "ttmp_base", "ttmp_max", "zero", "inline_positive_base",
    "inline_negative_base", "literal", "sdst_threshold" ]

def ofJson? (missing : OperandCodes) (json : Json) : Option OperandCodes := do
  let record ← json.record? memberNames
  let word (name : String) (code : UInt32) := Json.optional? record name Json.word? code
  let sgprBase ← word "sgpr_base" missing.sgprBase
  let sgprMax ← word "sgpr_max" missing.sgprMax
  let ttmpBase ← word "ttmp_base" missing.ttmpBase
  let ttmpMax ← word "ttmp_max" missing.ttmpMax
  let zero ← word "zero" missing.zero
  let inlinePositiveBase ← word "inline_positive_base" missing.inlinePositiveBase
  let inlineNegativeBase ← word "inline_negative_base" missing.inlineNegativeBase
  let literal ← word "literal" missing.literal
  let sdstThreshold ←
    Json.optional? record "sdst_threshold" OperandKind.ofJson? missing.sdstThreshold
  return {
    sgprBase, sgprMax, ttmpBase, ttmpMax, zero, inlinePositiveBase, inlineNegativeBase, literal,
    sdstThreshold }

end OperandCodes

namespace Tables

def toJson (tables : Tables) : Json :=
  .ofMembers
    [ ("instructions", .array (tables.instructions.map Instruction.toJson)),
      ("operands", .array (tables.operands.map NamedOperand.toJson)),
      ("codes", tables.codes.toJson) ]

/-- Reads tables; what is left out is taken from `missing`. -/
def ofJson? (missing : Tables) (json : Json) : Option Tables := do
  let record ← json.record? ["instructions", "operands", "codes"]
  let instructions ← Json.optional? record "instructions" (Json.list? Instruction.ofJson?)
    missing.instructions
  let operands ← Json.optional? record "operands" (Json.list? NamedOperand.ofJson?)
    missing.operands
  let codes ← Json.optional? record "codes" (OperandCodes.ofJson? missing.codes) missing.codes
  return { instructions, operands, codes }

def dump (tables : Tables) : Text :=
  tables.toJson.pretty

def parse? (document : Text) : Option Tables :=
  (Json.parse? document).bind (ofJson? southernIslands)

/-- Reads a document. The whole of it has to be well-formed before the tables in it are
validated. -/
def load (document : Text) : Logged (Except TableError Tables) :=
  match parse? document with
  | none => { value := .error .malformed, events := [] }
  | some tables => (·.map fun _ => tables) <$> tables.validate

def ofFile (path : String) (contents : Except FileFault Bytes) :
    Logged (Except TableError Tables) :=
  match contents.bind Text.ofBytes with
  | .error fault => pure (.error (.unreadable path fault))
  | .ok document => load document

end Tables

end ShaderAssembler

import ShaderAssembler.Log
import ShaderAssembler.Tables.Basic
import ShaderAssembler.Tables.Error

/-! Which tables can be used: every code of an unnamed operand has to fit its field, and no two
instructions may share a mnemonic. Named operands that can never match are only logged. -/

namespace ShaderAssembler

namespace OperandCodes

/-- The largest code of each group of operands, with the largest that its field can
hold. Registers have to fit the destination field, which is a bit narrower. -/
def reaches (codes : OperandCodes) : List (String × Nat × Nat) :=
  [ ("sgpr_base + sgpr_max", codes.sgprBase.toNat + codes.sgprMax.toNat, 127),
    ("ttmp_base + ttmp_max", codes.ttmpBase.toNat + codes.ttmpMax.toNat, 127),
    ("zero", codes.zero.toNat, 255),
    ("inline_positive_base + 63", codes.inlinePositiveBase.toNat + 63, 255),
    ("inline_negative_base + 15", codes.inlineNegativeBase.toNat + 15, 255),
    ("literal", codes.literal.toNat, 255) ]

def validate (codes : OperandCodes) : Except TableError Unit :=
  match codes.reaches.find? fun (_, value, limit) => value > limit with
  | some (name, value, limit) => .error (.codeRange name value limit)
  | none => .ok ()

end OperandCodes

def firstRepeated? (seen : List Text) : List Text → Option Text
  | [] => none
  | first :: rest => if first ∈ seen then some first else firstRepeated? (first :: seen) rest

namespace Tables

/-- The pairs of positions of which the earlier name starts the later one, so that the
later entry never matches. -/
def shadowedPairs (operands : List NamedOperand) : List (Nat × Nat) :=
  operands.zipIdx.flatMap fun (shadowing, i) =>
    (operands.zipIdx.drop (i + 1)).filterMap fun (shadowed, j) =>
      if shadowing.name.isPrefixOf shadowed.name then some (i, j) else none

def shadowEvents (operands : List NamedOperand) : List LogEvent :=
  (shadowedPairs operands).filterMap fun (i, j) => do
    let shadowing ← operands[i]?
    let shadowed ← operands[j]?
    return .operandShadowed shadowing.name shadowed.name

def fault? (tables : Tables) : Option TableError :=
  match tables.codes.validate with
  | .error fault => some fault
  | .ok () =>
      (firstRepeated? [] (tables.instructions.map Instruction.mnemonic)).map .duplicateMnemonic

def validate (tables : Tables) : Logged (Except TableError Unit) :=
  match tables.fault? with
  | some fault => { value := .error fault, events := [] }
  | none => { value := .ok (), events := shadowEvents tables.operands }

end Tables

end ShaderAssembler

import ShaderAssembler.Operand.Basic
import ShaderAssembler.Word.BitField

/-! What can keep an instruction from being encoded. -/

namespace ShaderAssembler

inductive EncodeError where
  | missingOperand (slot : String)
  | trailingOperand (text : Text)
  | operand (slot : String) (cause : OperandError)
  | invalidDestination (text : Text)
  | duplicateLiteral
  | fieldOutsideWord (field : BitField)
  | codeTooLarge (field : BitField) (code : UInt32)
  deriving DecidableEq, Repr

def EncodeError.message : EncodeError → String
  | missingOperand slot => s!"missing {slot} operand"
  | trailingOperand text => s!"unexpected trailing operand '{String.ofList text}'"
  | operand slot cause => s!"{slot}: {cause.message}"
  | invalidDestination text => s!"incorrect value for SDST operand '{String.ofList text}'"
  | duplicateLiteral => "at most one literal constant can be used"
  | fieldOutsideWord field =>
      s!"{field.name} field (bit {field.lsb}, width {field.width}) " ++
        "lies outside the instruction word"
  | codeTooLarge field code =>
      s!"code {String.ofList (hexShort code.toNat)} does not fit " ++
        s!"the {field.width}-bit {field.name} field"

end ShaderAssembler

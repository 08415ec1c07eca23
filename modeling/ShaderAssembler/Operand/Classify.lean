import ShaderAssembler.Operand.Basic

/-! Reading the text of an operand. Named operands come first and match as a prefix of the
text, then registers, and whatever else is left has to be a number. -/

namespace ShaderAssembler

namespace OperandCodes

def atOffset (operand : Operand) (base : UInt32) (offset : Nat) :
    Except OperandError ClassifiedOperand :=
  if base.toNat + offset < UInt32.size then .ok { operand, code := base + UInt32.ofNat offset }
  else .error (.codeOverflow base (UInt32.ofNat offset))

/-- The register with a given index. An index has to fit in a byte, whatever the largest
index of its file is. -/
def classifyIndex (codes : OperandCodes) (file : RegisterFile) (index : Int) :
    Except OperandError ClassifiedOperand :=
  if 0 ≤ index ∧ index ≤ 255 ∧ index ≤ (codes.registerMax file).toNat then
    atOffset (.register file index.toNat) (codes.registerBase file) index.toNat
  else .error (.registerOutOfRange file index)

def classifyRegister (codes : OperandCodes) (file : RegisterFile) (text digits : Text) :
    Except OperandError ClassifiedOperand :=
  match readInt64? 10 digits with
  | none => .error (.malformedRegister file text)
  | some index => codes.classifyIndex file index

/-- The operand of a number. Small numbers have codes of their own; any other has to fit
in a word, signed or unsigned, and follows the instruction as a literal. -/
def classifyValue (codes : OperandCodes) (value : Int) : Except OperandError ClassifiedOperand :=
  if value = 0 then .ok { operand := .zero, code := codes.zero }
  else if 1 ≤ value ∧ value ≤ 64 then
    atOffset (.inlinePositive value.toNat) codes.inlinePositiveBase (value.toNat - 1)
  else if -16 ≤ value ∧ value ≤ -1 then
    atOffset (.inlineNegative value.natAbs) codes.inlineNegativeBase (value.natAbs - 1)
  else if -0x80000000 ≤ value ∧ value ≤ 0xFFFFFFFF then
    .ok { operand := .literal (UInt32.ofInt value), code := codes.literal }
  else .error (.literalOutOfRange value)

def readNumber? : Text → Option Int
  | '0' :: 'x' :: digits => readInt64? 16 digits
  | digits => readInt64? 10 digits

def classifyNumber (codes : OperandCodes) (text : Text) : Except OperandError ClassifiedOperand :=
  match readNumber? text with
  | none => .error (.malformedNumber text)
  | some value => codes.classifyValue value

end OperandCodes

def NamedOperand.find? (entries : List NamedOperand) (text : Text) : Option NamedOperand :=
  entries.find? fun entry => entry.name.isPrefixOf text

def RegisterFile.ofLetter? (letter : Char) : Option RegisterFile :=
  if letter = 's' ∨ letter = 'S' then some .sgpr
  else if letter = 't' ∨ letter = 'T' then some .ttmp
  else none

def OperandCodes.classifyUnnamed (codes : OperandCodes) (text : Text) :
    Except OperandError ClassifiedOperand :=
  match text with
  | [] => codes.classifyNumber text
  | letter :: digits =>
      match RegisterFile.ofLetter? letter with
      | some file => codes.classifyRegister file text digits
      | none => codes.classifyNumber text

def classify (entries : List NamedOperand) (codes : OperandCodes) (text : Text) :
    Except OperandError ClassifiedOperand :=
  match NamedOperand.find? entries text with
  | some entry => .ok { operand := .named entry, code := entry.code }
  | none => codes.classifyUnnamed text

end ShaderAssembler

import ShaderAssembler.Text.Basic

/-! Instructions by mnemonic, and the families that share a way to be encoded. -/

namespace ShaderAssembler

inductive Family where
  | sop2
  | sopk
  | sop1
  | sopc
  | sopp
  | smrd
  | vop2
  | vop1
  | vopc
  | vop3
  | vintrp
  | ds
  | mubuf
  | mtbuf
  | mimg
  | exp
  deriving DecidableEq, Repr

namespace Family

def all : List Family :=
  [sop2, sopk, sop1, sopc, sopp, smrd, vop2, vop1, vopc, vop3, vintrp, ds, mubuf, mtbuf, mimg, exp]

def name : Family → String
  | sop2 => "sop2"
  | sopk => "sopk"
  | sop1 => "sop1"
  | sopc => "sopc"
  | sopp => "sopp"
  | smrd => "smrd"
  | vop2 => "vop2"
  | vop1 => "vop1"
  | vopc => "vopc"
  | vop3 => "vop3"
  | vintrp => "vintrp"
  | ds => "ds"
  | mubuf => "mubuf"
  | mtbuf => "mtbuf"
  | mimg => "mimg"
  | exp => "exp"

def ofName? (text : Text) : Option Family :=
  all.find? fun family => family.name.toList = text

end Family

/-- An instruction, with the word that it has before any operand is filled in. -/
structure Instruction where
  mnemonic : Text
  family : Family
  baseOpcode : UInt32
  deriving DecidableEq, Repr

def Instruction.resolve? (instructions : List Instruction) (mnemonic : Text) :
    Option Instruction :=
  instructions.find? fun instruction => instruction.mnemonic = mnemonic

end ShaderAssembler

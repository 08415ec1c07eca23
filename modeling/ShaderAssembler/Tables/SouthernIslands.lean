import ShaderAssembler.Instruction.Opcode
import ShaderAssembler.Tables.Basic

/-! The tables of the Southern Islands generation, which are used unless others are given. Only
its two-source scalar instructions can be encoded; the others are listed so that they are
recognized. -/

namespace ShaderAssembler

namespace SouthernIslands

def instruction (family : Family) (opcode : UInt32 → UInt32) (number : UInt32)
    (mnemonic : String) : Instruction :=
  { mnemonic := mnemonic.toList, family, baseOpcode := opcode number }

def scalarTwoSource : UInt32 → String → Instruction :=
  instruction .sop2 Opcode.sop2

def instructions : List Instruction :=
  [ scalarTwoSource 0 "s_add_u32",
    scalarTwoSource 1 "s_sub_u32",
    scalarTwoSource 2 "s_add_i32",
    scalarTwoSource 3 "s_sub_i32",
    scalarTwoSource 4 "s_addc_u32",
    scalarTwoSource 5 "s_subb_u32",
    scalarTwoSource 6 "s_min_i32",
    scalarTwoSource 7 "s_min_u32",
    scalarTwoSource 8 "s_max_i32",
    scalarTwoSource 9 "s_max_u32",
    scalarTwoSource 10 "s_cselect_b32",
    scalarTwoSource 11 "s_cselect_b64",
    scalarTwoSource 14 "s_and_b32",
    scalarTwoSource 15 "s_and_b64",
    scalarTwoSource 16 "s_or_b32",
    scalarTwoSource 17 "s_or_b64",
    scalarTwoSource 18 "s_xor_b32",
    scalarTwoSource 19 "s_xor_b64",
    scalarTwoSource 20 "s_andn2_b32",
    scalarTwoSource 21 "s_andn2_b64",
    scalarTwoSource 22 "s_orn2_b32",
    scalarTwoSource 23 "s_orn2_b64",
    scalarTwoSource 24 "s_nand_b32",
    scalarTwoSource 25 "s_nand_b64",
    scalarTwoSource 26 "s_nor_b32",
    scalarTwoSource 27 "s_nor_b64",
    scalarTwoSource 28 "s_xnor_b32",
    scalarTwoSource 29 "s_xnor_b64",
    scalarTwoSource 30 "s_lshl_b32",
    scalarTwoSource 31 "s_lshl_b64",
    scalarTwoSource 32 "s_lshr_b32",
    scalarTwoSource 33 "s_lshr_b64",
    scalarTwoSource 34 "s_ashr_i32",
    scalarTwoSource 35 "s_ashr_i64",
    scalarTwoSource 36 "s_bfm_b32",
    scalarTwoSource 37 "s_bfm_b64",
    scalarTwoSource 38 "s_mul_i32",
    scalarTwoSource 39 "s_bfe_u32",
    scalarTwoSource 40 "s_bfe_i32",
    scalarTwoSource 41 "s_bfe_u64",
    scalarTwoSource 42 "s_bfe_i64",
    scalarTwoSource 43 "s_cbranch_g_fork",
    scalarTwoSource 44 "s_absdiff_i32",
    instruction .sopk Opcode.sopk 0 "s_movk_i32",
    instruction .sop1 Opcode.sop1 3 "s_mov_b32",
    instruction .sop1 Opcode.sop1 4 "s_mov_b64",
    instruction .sopc Opcode.sopc 0 "s_cmp_eq_i32",
    instruction .sopp Opcode.sopp 0 "s_nop",
    instruction .sopp Opcode.sopp 1 "s_endpgm",
    instruction .sopp Opcode.sopp 12 "s_waitcnt",
    instruction .vop2 Opcode.vop2 3 "v_add_f32",
    instruction .vop2 Opcode.vop2 8 "v_mul_f32"
  ]

def operand (kind : OperandKind) (code : UInt32) (name : String) : NamedOperand :=
  { name := name.toList, code, kind }

def operands : List NamedOperand :=
  [ operand .specialRegister 106 "vcc_lo",
    operand .specialRegister 107 "vcc_hi",
    operand .specialRegister 108 "tba_lo",
    operand .specialRegister 109 "tba_hi",
    operand .specialRegister 110 "tma_lo",
    operand .specialRegister 111 "tma_hi",
    operand .specialRegister 124 "m0",
    operand .specialRegister 126 "exec_lo",
    operand .specialRegister 127 "exec_hi",
    operand .inlineFloat 240 "0.5",
    operand .inlineFloat 241 "-0.5",
    operand .inlineFloat 242 "1.0",
    operand .inlineFloat 243 "-1.0",
    operand .inlineFloat 244 "2.0",
    operand .inlineFloat 245 "-2.0",
    operand .inlineFloat 246 "4.0",
    operand .inlineFloat 247 "-4.0",
    operand .condition 251 "vccz",
    operand .condition 252 "execz",
    operand .condition 253 "scc"
  ]

def codes : OperandCodes where
  sgprBase := 0
  sgprMax := 103
  ttmpBase := 112
  ttmpMax := 11
  zero := 128
  inlinePositiveBase := 129
  inlineNegativeBase := 193
  literal := 255
  sdstThreshold := .zero

end SouthernIslands

def Tables.southernIslands : Tables where
  instructions := SouthernIslands.instructions
  operands := SouthernIslands.operands
  codes := SouthernIslands.codes

end ShaderAssembler

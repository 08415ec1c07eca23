import ShaderAssembler.Proofs.BitField
import ShaderAssembler.Proofs.Line
import ShaderAssembler.Proofs.OperandCode

/-! Disassembly undoes assembly with the built-in tables: from the machine code of a line one
gets back its mnemonic and its operands, whatever the spelling of the line was. -/

namespace ShaderAssembler

namespace TwoSource

variable {tables : Tables} {operands : Operands} {baseOpcode : UInt32}

theorem word_machineCode (baseOpcode : UInt32) (operands : Operands) :
    (operands.machineCode baseOpcode).word =
      baseOpcode ||| (operands.destination.code <<< sdst.lsb.toUInt32) |||
        (operands.source1.code <<< ssrc1.lsb.toUInt32) |||
        (operands.source0.code <<< ssrc0.lsb.toUInt32) :=
  congrArg MachineCode.word (finish_eq_machineCode baseOpcode operands).symm

theorem opcodeBits_machineCode (opcode : opcodeBits baseOpcode = baseOpcode)
    (fit : operands.Fit tables) :
    opcodeBits (operands.machineCode baseOpcode).word = baseOpcode := by
  rw [word_machineCode, opcodeBits_placed rfl (by decide) fit.source0Code,
    opcodeBits_placed rfl (by decide) fit.source1Code,
    opcodeBits_placed rfl (by decide) fit.destinationCode, opcode]

theorem sdst_machineCode (opcode : opcodeBits baseOpcode = baseOpcode) (fit : operands.Fit tables) :
    sdst.get (operands.machineCode baseOpcode).word = operands.destination.code := by
  rw [word_machineCode, BitField.get_placed_apart rfl (by decide) fit.source0Code,
    BitField.get_placed_apart rfl (by decide) fit.source1Code,
    BitField.get_placed rfl fit.destinationCode, get_opcode (by decide) opcode,
    UInt32.zero_or]

theorem ssrc1_machineCode (opcode : opcodeBits baseOpcode = baseOpcode)
    (fit : operands.Fit tables) :
    ssrc1.get (operands.machineCode baseOpcode).word = operands.source1.code := by
  rw [word_machineCode, BitField.get_placed_apart rfl (by decide) fit.source0Code,
    BitField.get_placed rfl fit.source1Code,
    BitField.get_placed_apart rfl (by decide) fit.destinationCode,
    get_opcode (by decide) opcode, UInt32.zero_or]

theorem ssrc0_machineCode (opcode : opcodeBits baseOpcode = baseOpcode)
    (fit : operands.Fit tables) :
    ssrc0.get (operands.machineCode baseOpcode).word = operands.source0.code := by
  rw [word_machineCode, BitField.get_placed rfl fit.source0Code,
    BitField.get_placed_apart rfl (by decide) fit.source1Code,
    BitField.get_placed_apart rfl (by decide) fit.destinationCode,
    get_opcode (by decide) opcode, UInt32.zero_or]

structure Operands.Known (tables : Tables) (operands : Operands) : Prop where
  destination : tables.Knows operands.destination
  source1 : tables.Knows operands.source1
  source0 : tables.Knows operands.source0

theorem Slots.Spell.known {slots : Slots} (spell : slots.Spell tables operands) :
    operands.Known tables :=
  ⟨Tables.classify_known spell.destination, Tables.classify_known spell.source1,
    Tables.classify_known spell.source0⟩

end TwoSource

namespace SouthernIslands

open TwoSource

theorem southernIslands_codes : Tables.southernIslands.codes = codes := rfl

/-- The opcodes of the two-source instructions leave the operand fields free, and tell the
instructions apart. -/
theorem scalar_opcode : ∀ instruction ∈ instructions, instruction.family = .sop2 →
    opcodeBits instruction.baseOpcode = instruction.baseOpcode ∧
      Tables.southernIslands.instructions.find? (fun other =>
        other.family = .sop2 ∧ other.baseOpcode = instruction.baseOpcode) = some instruction := by
  decide +kernel

theorem ofCode?_machineCode {instruction : Instruction} (listed : instruction ∈ instructions)
    (encodable : instruction.family = .sop2) {operands : Operands}
    (known : operands.Known .southernIslands) (fit : operands.Fit .southernIslands) :
    Statement.ofCode? .southernIslands (operands.machineCode instruction.baseOpcode) =
      some { mnemonic := instruction.mnemonic,
             destination := operands.destination.operand,
             source1 := operands.source1.operand,
             source0 := operands.source0.operand } := by
  obtain ⟨opcode, found⟩ := scalar_opcode instruction listed encodable
  have literal := fit.literal_eq_some_iff instruction.baseOpcode
  have destination := operandOf?_codeOf known.destination.has none
    fun value isLiteral => absurd isLiteral (fit.destination_ne_literal value)
  have source1 := operandOf?_codeOf known.source1.has _
    fun value isLiteral => (literal value).mpr (Or.inl isLiteral)
  have source0 := operandOf?_codeOf known.source0.has _
    fun value isLiteral => (literal value).mpr (Or.inr isLiteral)
  simp only [Statement.ofCode?, opcodeBits_machineCode opcode fit, sdst_machineCode opcode fit,
    ssrc1_machineCode opcode fit, ssrc0_machineCode opcode fit, found, known.destination.code,
    known.source1.code, known.source0.code, southernIslands_codes, destination, source1, source0]
  rfl

end SouthernIslands

namespace Assembler

open TwoSource

theorem ofCode?_of_assembled {config : AssemblerConfig} {line : Text} {assembled : Assembled}
    (accepted : (({ config } : Assembler).assembleLine line).value = some (.ok assembled)) :
    ∃ statement, Statement.ofCode? .southernIslands assembled.code = some statement ∧
      statement.mnemonic = assembled.mnemonic ∧
      Tables.southernIslands.spelledOperands line =
        [.ok statement.destination, .ok statement.source1, .ok statement.source0] := by
  obtain ⟨token, fields, instruction, slots, operands, shape, _, resolved, encodable, read, spell,
    fit, rfl⟩ := (value_assembleLine_eq_ok_iff rfl line assembled).mp accepted
  exact ⟨_, SouthernIslands.ofCode?_machineCode (Tables.mem_of_resolve? resolved) encodable
    spell.known fit, rfl, Tables.spelledOperands_of_slots shape read spell⟩

/-- Disassembly undoes assembly, so lines with the same machine code have the same mnemonic and
the same operands. -/
theorem disassembly_undoes_assembly (config : AssemblerConfig) (line : Text)
    (assembled : Assembled)
    (accepted : (({ config } : Assembler).assembleLine line).value = some (.ok assembled)) :
    (∃ statement, Statement.ofCode? .southernIslands assembled.code = some statement ∧
      statement.mnemonic = assembled.mnemonic ∧
      Tables.southernIslands.spelledOperands line =
        [.ok statement.destination, .ok statement.source1, .ok statement.source0]) ∧
      ∀ (otherConfig : AssemblerConfig) (otherLine : Text) (other : Assembled),
        (({ config := otherConfig } : Assembler).assembleLine otherLine).value = some (.ok other) →
        other.code = assembled.code →
          other.mnemonic = assembled.mnemonic ∧
            Tables.southernIslands.spelledOperands otherLine =
              Tables.southernIslands.spelledOperands line := by
  obtain ⟨statement, decoded, mnemonic, spelled⟩ := ofCode?_of_assembled accepted
  refine ⟨⟨statement, decoded, mnemonic, spelled⟩, ?_⟩
  intro otherConfig otherLine other otherAccepted same
  obtain ⟨otherStatement, otherDecoded, otherMnemonic, otherSpelled⟩ :=
    ofCode?_of_assembled otherAccepted
  have equal : otherStatement = statement := by
    rw [same, decoded] at otherDecoded
    exact (Option.some.inj otherDecoded).symm
  subst equal
  exact ⟨otherMnemonic.symm.trans mnemonic, otherSpelled.trans spelled.symm⟩

theorem disassembly_undoes_assembly_spellings :
    (({} : Assembler).assembleLine "s_add_u32 s5, s3, 1000".toList).value =
        some (.ok ⟨"s_add_u32".toList, ⟨0x800503FF, some 1000⟩⟩) ∧
      (({ config := { strictOperands := false } } : Assembler).assembleLine
        "s_add_u32 S5,,s+3\t0x3E8 s7 ; sum\n".toList).value =
          some (.ok ⟨"s_add_u32".toList, ⟨0x800503FF, some 1000⟩⟩) ∧
      (∃ statement, Statement.ofCode? .southernIslands ⟨0x800503FF, some 1000⟩ = some statement ∧
        statement.mnemonic = "s_add_u32".toList ∧
        Tables.southernIslands.spelledOperands "s_add_u32 s5, s3, 1000".toList =
          [.ok statement.destination, .ok statement.source1, .ok statement.source0]) ∧
      Tables.southernIslands.spelledOperands "s_add_u32 S5,,s+3\t0x3E8 s7 ; sum\n".toList =
        Tables.southernIslands.spelledOperands "s_add_u32 s5, s3, 1000".toList := by
  have accepted : (({} : Assembler).assembleLine "s_add_u32 s5, s3, 1000".toList).value =
      some (.ok ⟨"s_add_u32".toList, ⟨0x800503FF, some 1000⟩⟩) := by
    with_unfolding_all rfl
  have otherAccepted : (({ config := { strictOperands := false } } : Assembler).assembleLine
      "s_add_u32 S5,,s+3\t0x3E8 s7 ; sum\n".toList).value =
      some (.ok ⟨"s_add_u32".toList, ⟨0x800503FF, some 1000⟩⟩) := by
    with_unfolding_all rfl
  have undone := disassembly_undoes_assembly _ _ _ accepted
  exact ⟨accepted, otherAccepted, undone.1, (undone.2 _ _ _ otherAccepted rfl).2⟩

end Assembler

end ShaderAssembler

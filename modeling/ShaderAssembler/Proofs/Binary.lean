import ShaderAssembler.Disassembly.Binary
import ShaderAssembler.Proofs.Disassembly
import ShaderAssembler.Proofs.Source

/-! The binary of a source text can be cut into its instructions again, because the source fields
of each word tell whether a literal follows it. -/

namespace ShaderAssembler

theorem testBit_byte (word shift : UInt32) (bound : shift.toNat + 8 ≤ 32) (bit : Nat) :
    ((word >>> shift).toUInt8.toUInt32 <<< shift).toNat.testBit bit =
      (decide (shift.toNat ≤ bit ∧ bit < shift.toNat + 8) && word.toNat.testBit bit) := by
  have inWord : shift.toNat % 32 = shift.toNat := Nat.mod_eq_of_lt (by omega)
  rw [UInt32.toNat_shiftLeft, UInt8.toNat_toUInt32, UInt32.toNat_toUInt8, UInt32.toNat_shiftRight,
    inWord, Nat.testBit_mod_two_pow, Nat.testBit_shiftLeft, Nat.testBit_mod_two_pow,
    Nat.testBit_shiftRight]
  by_cases inside : shift.toNat ≤ bit ∧ bit < shift.toNat + 8
  · have place : shift.toNat + (bit - shift.toNat) = bit := by omega
    simp [inside, place, show bit < 32 by omega, show bit - shift.toNat < 8 by omega]
  · by_cases above : shift.toNat ≤ bit
    · simp [inside, show ¬bit - shift.toNat < 8 by omega]
    · simp [above]

theorem wordOfBytes_wordBytes (word : UInt32) :
    wordOfBytes word.toUInt8 (word >>> 8).toUInt8 (word >>> 16).toUInt8 (word >>> 24).toUInt8 =
      word := by
  apply UInt32.toNat_inj.mp
  apply Nat.eq_of_testBit_eq
  intro bit
  have lowest := testBit_byte word 0 (by decide) bit
  rw [UInt32.shiftRight_zero, UInt32.shiftLeft_zero] at lowest
  rw [wordOfBytes, UInt32.toNat_or, UInt32.toNat_or, UInt32.toNat_or, Nat.testBit_or,
    Nat.testBit_or, Nat.testBit_or, lowest, testBit_byte word 8 (by decide),
    testBit_byte word 16 (by decide), testBit_byte word 24 (by decide)]
  cases set : word.toNat.testBit bit with
  | false => simp
  | true =>
      have inWord : bit < 32 := by
        have reached := Nat.ge_two_pow_of_testBit set
        exact (Nat.pow_lt_pow_iff_right (by omega)).mp (Nat.lt_of_le_of_lt reached word.toNat_lt)
      simp only [Bool.and_true, ← Bool.decide_or, decide_eq_true_eq, UInt32.reduceToNat]
      omega

namespace TwoSource

/-- The word tells whether a literal follows it. -/
def Delimited (code : MachineCode) : Prop :=
  takesLiteral code.word = code.literal.isSome

theorem readBinary?_short {a b c d : UInt8} (short : takesLiteral (wordOfBytes a b c d) = false)
    (rest : Bytes) :
    readBinary? (a :: b :: c :: d :: rest) =
      (readBinary? rest).map ({ word := wordOfBytes a b c d, literal := none } :: ·) := by
  rw [readBinary?.eq_def]
  simp [short]

theorem readBinary?_long {a b c d : UInt8} (long : takesLiteral (wordOfBytes a b c d) = true)
    (e f g h : UInt8) (rest : Bytes) :
    readBinary? (a :: b :: c :: d :: e :: f :: g :: h :: rest) =
      (readBinary? rest).map
        ({ word := wordOfBytes a b c d, literal := some (wordOfBytes e f g h) } :: ·) := by
  rw [readBinary?.eq_def]
  simp [long]

theorem readBinary?_append {code : MachineCode} (delimited : Delimited code) (rest : Bytes) :
    readBinary? (code.bytes ++ rest) = (readBinary? rest).map (code :: ·) := by
  obtain ⟨word, literal⟩ := code
  have whole := wordOfBytes_wordBytes word
  cases literal with
  | none =>
      have short : takesLiteral word = false := delimited
      have read := readBinary?_short (by rw [whole]; exact short) rest
      rw [whole] at read
      exact read
  | some value =>
      have long : takesLiteral word = true := delimited
      have read := readBinary?_long (by rw [whole]; exact long) value.toUInt8
        (value >>> 8).toUInt8 (value >>> 16).toUInt8 (value >>> 24).toUInt8 rest
      rw [whole, wordOfBytes_wordBytes value] at read
      exact read

theorem readBinary?_flatMap_bytes (codes : List MachineCode)
    (delimited : ∀ code ∈ codes, Delimited code) :
    readBinary? (codes.flatMap MachineCode.bytes) = some codes := by
  induction codes with
  | nil => simp [readBinary?]
  | cons code rest ih =>
      rw [List.flatMap_cons, readBinary?_append (delimited code (by simp)),
        ih fun other member => delimited other (List.mem_cons_of_mem _ member)]
      rfl

theorem takesLiteral_machineCode {operands : Operands} {baseOpcode : UInt32}
    (opcode : opcodeBits baseOpcode = baseOpcode) (known : operands.Known .southernIslands)
    (fit : operands.Fit .southernIslands) : Delimited (operands.machineCode baseOpcode) := by
  have source1 := SouthernIslands.codeOf_eq_literal_iff known.source1.has
  have source0 := SouthernIslands.codeOf_eq_literal_iff known.source0.has
  have placeholder : literalCode = SouthernIslands.codes.literal := rfl
  rw [Delimited, takesLiteral, ssrc1_machineCode opcode fit, ssrc0_machineCode opcode fit,
    known.source1.code, known.source0.code, SouthernIslands.southernIslands_codes, placeholder]
  simp only [source1, source0, Operands.machineCode, ClassifiedOperand.literal?]
  cases operands.source1.operand.literal? <;> cases operands.source0.operand.literal? <;> rfl

end TwoSource

namespace Assembler

open TwoSource

theorem delimited_of_assembled {config : AssemblerConfig} {line : Text} {assembled : Assembled}
    (accepted : (({ config } : Assembler).assembleLine line).value = some (.ok assembled)) :
    Delimited assembled.code := by
  obtain ⟨token, fields, instruction, slots, operands, _, _, resolved, encodable, _, spell, fit,
    rfl⟩ := (value_assembleLine_eq_ok_iff rfl line assembled).mp accepted
  have opcode := (SouthernIslands.scalar_opcode instruction (Tables.mem_of_resolve? resolved)
    encodable).1
  exact takesLiteral_machineCode opcode spell.known fit

/-- The binary of a source text is read to its end, and gives the machine code of the lines that
assembled, in order. -/
theorem readBinary?_binary (config : AssemblerConfig) (text : Text) :
    let reports := (({ config } : Assembler).assembleSource text).value
    readBinary? (Listing.binary reports) =
      some ((Listing.succeeded reports).map fun (_, assembled) => assembled.code) := by
  intro reports
  have delimited : ∀ code ∈ (Listing.succeeded reports).map fun (_, assembled) => assembled.code,
      Delimited code := by
    intro code member
    obtain ⟨⟨number, assembled⟩, listed, rfl⟩ := List.mem_map.mp member
    obtain ⟨_, line, _, _, result⟩ := assembleLine_of_mem (Listing.mem_succeeded_iff.mp listed)
    exact delimited_of_assembled result
  rw [← readBinary?_flatMap_bytes _ delimited, List.flatMap_map, Listing.binary,
    Listing.assembled_eq_map_succeeded, List.flatMap_map]

/-- An instruction with a literal, a line that fails, and an instruction without one. -/
theorem readBinary?_binary_literal :
    let text : Text := "s_add_u32 s5, s3, 1000\nbogus\ns_add_u32 s5, s3, 42\n".toList
    let reports := (({ config := {} } : Assembler).assembleSource text).value
    let bytes : Bytes := [0xff, 0x03, 0x05, 0x80, 0xe8, 0x03, 0x00, 0x00, 0xaa, 0x03, 0x05, 0x80]
    let long : MachineCode := { word := 0x800503ff, literal := some 1000 }
    let short : MachineCode := { word := 0x800503aa, literal := none }
    reports.map LineReport.result =
        [.ok ⟨"s_add_u32".toList, long⟩, .error (.unrecognized "bogus".toList),
          .ok ⟨"s_add_u32".toList, short⟩] ∧
      Listing.binary reports = bytes ∧ readBinary? bytes = some [long, short] := by
  intro text reports bytes long short
  have results : reports.map LineReport.result =
      [.ok ⟨"s_add_u32".toList, long⟩, .error (.unrecognized "bogus".toList),
        .ok ⟨"s_add_u32".toList, short⟩] := by
    decide +kernel
  have binary : Listing.binary reports = bytes := by decide +kernel
  have codes : ((Listing.succeeded reports).map fun (_, assembled) => assembled.code) =
      [long, short] := by
    decide +kernel
  have read := readBinary?_binary {} text
  rw [← codes, ← binary]
  exact ⟨results, rfl, read⟩

end Assembler

end ShaderAssembler

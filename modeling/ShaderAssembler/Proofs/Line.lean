import ShaderAssembler.Assembler.Basic
import ShaderAssembler.Proofs.TwoSource

/-! What an assembler makes of a line, told by the fields of the line: when the line is skipped,
and when it becomes machine code. -/

namespace ShaderAssembler

theorem Tables.mem_of_resolve? {tables : Tables} {mnemonic : Text} {instruction : Instruction}
    (resolved : tables.resolve? mnemonic = some instruction) :
    instruction ∈ tables.instructions :=
  List.mem_of_find?_eq_some resolved

theorem Tables.mnemonic_of_resolve? {tables : Tables} {mnemonic : Text} {instruction : Instruction}
    (resolved : tables.resolve? mnemonic = some instruction) : instruction.mnemonic = mnemonic := by
  simpa using List.find?_some resolved

def Tables.spelledOperands (tables : Tables) (line : Text) : List (Except OperandError Operand) :=
  ((line.stripComment.fields.drop 1).take 3).map fun field =>
    (tables.classify field.trimLineEnd).map ClassifiedOperand.operand

theorem Tables.spelledOperands_of_slots {tables : Tables} {line token : Text} {fields : List Text}
    {strict : Bool} {slots : TwoSource.Slots} {operands : TwoSource.Operands}
    (shape : line.stripComment.fields = token :: fields)
    (read : TwoSource.Slots.ofFields strict fields = .ok slots)
    (spell : slots.Spell tables operands) :
    tables.spelledOperands line =
      [.ok operands.destination.operand, .ok operands.source1.operand,
        .ok operands.source0.operand] := by
  obtain ⟨first, second, third, more, rfl, rfl, _, _⟩ :=
    (TwoSource.Slots.ofFields_eq_ok_iff _ _ _).mp read
  simp [Tables.spelledOperands, shape, spell.destination, spell.source1, spell.source0, Except.map]

namespace Assembler

theorem splitLine_eq_some_iff (line mnemonic operands : Text) :
    splitLine line = some (mnemonic, operands) ↔
      ∃ token, line.stripComment.takeField = some (token, operands) ∧
        mnemonic = token.trimLineEnd ∧ mnemonic ≠ [] := by
  unfold splitLine
  cases line.stripComment.takeField with
  | none => simp
  | some taken =>
      obtain ⟨token, rest⟩ := taken
      simp only [List.isEmpty_iff, Option.some.injEq, Prod.mk.injEq]
      split
      · rename_i blank
        simp only [reduceCtorEq, false_iff, not_exists]
        rintro _ ⟨⟨rfl, rfl⟩, rfl, nonblank⟩
        exact nonblank blank
      · rename_i nonblank
        simp only [Option.some.injEq, Prod.mk.injEq]
        constructor
        · rintro ⟨rfl, rfl⟩
          exact ⟨token, ⟨rfl, rfl⟩, rfl, nonblank⟩
        · rintro ⟨_, ⟨rfl, rfl⟩, rfl, _⟩
          exact ⟨rfl, rfl⟩

theorem splitLine_eq_none_iff (line : Text) :
    splitLine line = none ↔
      ∀ token, line.stripComment.fields.head? = some token → token.trimLineEnd = [] := by
  unfold splitLine
  cases taken : line.stripComment.takeField with
  | none => simp [Text.fields_of_takeField_none taken]
  | some split =>
      rw [Text.fields_of_takeField taken]
      simp

theorem value_assembleLine_eq_none_iff (assembler : Assembler) (line : Text) :
    (assembler.assembleLine line).value = none ↔
      ∀ token, line.stripComment.fields.head? = some token → token.trimLineEnd = [] := by
  rw [← splitLine_eq_none_iff, assembleLine]
  cases splitLine line with
  | none => simp
  | some split =>
      simp only [reduceCtorEq, iff_false]
      cases assembler.tables.resolve? split.1 <;> simp

theorem encoderFor_of_unregistered {assembler : Assembler}
    (unregistered : assembler.registered = []) (family : Family) :
    assembler.encoderFor family =
      if family = .sop2 then some (TwoSource.encoder assembler.config.strictOperands) else none := by
  simp only [encoderFor, encoders, unregistered, List.nil_append, Encoder.find?]
  by_cases same : family = .sop2
  · simp [same, TwoSource.encoder]
  · simp [same, TwoSource.encoder, Ne.symm same]

theorem value_encodeInstruction (assembler : Assembler) (instruction : Instruction)
    (operands : Text) :
    (assembler.encodeInstruction instruction operands).value =
      (assembler.encoderFor instruction.family).elim
        (.error (.unsupported instruction.mnemonic)) fun encoder =>
          ((encoder.encode assembler.tables instruction operands).value.map
            (Assembled.mk instruction.mnemonic)).mapError (.encode instruction.mnemonic) := by
  rw [encodeInstruction]
  cases assembler.encoderFor instruction.family with
  | none => rfl
  | some encoder =>
      rw [Logged.value_bind, Option.elim_some]
      cases (encoder.encode assembler.tables instruction operands).value with
      | error cause => rfl
      | ok code => rfl

theorem mnemonic_encodeInstruction {assembler : Assembler} {instruction : Instruction}
    {operands : Text} {assembled : Assembled}
    (encoded : (assembler.encodeInstruction instruction operands).value = .ok assembled) :
    assembled.mnemonic = instruction.mnemonic := by
  rw [value_encodeInstruction] at encoded
  cases chosen : assembler.encoderFor instruction.family with
  | none => simp [chosen] at encoded
  | some encoder =>
      rw [chosen, Option.elim_some] at encoded
      cases outcome : (encoder.encode assembler.tables instruction operands).value with
      | error cause => simp [outcome, Except.map, Except.mapError] at encoded
      | ok code =>
          simp only [outcome, Except.map, Except.mapError, Except.ok.injEq] at encoded
          rw [← encoded]

theorem value_encodeInstruction_of_unregistered {assembler : Assembler}
    (unregistered : assembler.registered = []) (instruction : Instruction) (operands : Text) :
    (assembler.encodeInstruction instruction operands).value =
      if instruction.family = .sop2 then
        ((TwoSource.pack assembler.config.strictOperands assembler.tables instruction.baseOpcode
          operands).map (Assembled.mk instruction.mnemonic)).mapError (.encode instruction.mnemonic)
      else .error (.unsupported instruction.mnemonic) := by
  rw [value_encodeInstruction, encoderFor_of_unregistered unregistered]
  by_cases encodable : instruction.family = .sop2
  · rw [if_pos encodable, if_pos encodable, Option.elim_some, TwoSource.encoder,
      TwoSource.value_encode]
  · rw [if_neg encodable, if_neg encodable, Option.elim_none]

theorem value_encodeInstruction_eq_ok_iff {assembler : Assembler}
    (unregistered : assembler.registered = []) (instruction : Instruction) (operands : Text)
    (assembled : Assembled) :
    (assembler.encodeInstruction instruction operands).value = .ok assembled ↔
      instruction.family = .sop2 ∧
        TwoSource.pack assembler.config.strictOperands assembler.tables instruction.baseOpcode
          operands = .ok assembled.code ∧
        assembled.mnemonic = instruction.mnemonic := by
  rw [value_encodeInstruction_of_unregistered unregistered]
  by_cases encodable : instruction.family = .sop2
  · rw [if_pos encodable]
    cases TwoSource.pack assembler.config.strictOperands assembler.tables instruction.baseOpcode
      operands with
    | error cause => simp [Except.map, Except.mapError]
    | ok code =>
        obtain ⟨mnemonic, assembledCode⟩ := assembled
        simp [Except.map, Except.mapError, encodable, and_comm, eq_comm]
  · simp [encodable]

theorem value_encodeInstruction_eq_encode_error_iff {assembler : Assembler}
    (unregistered : assembler.registered = []) (instruction : Instruction)
    (operands mnemonic : Text) (cause : EncodeError) :
    (assembler.encodeInstruction instruction operands).value = .error (.encode mnemonic cause) ↔
      instruction.family = .sop2 ∧ instruction.mnemonic = mnemonic ∧
        TwoSource.pack assembler.config.strictOperands assembler.tables instruction.baseOpcode
          operands = .error cause := by
  rw [value_encodeInstruction_of_unregistered unregistered]
  by_cases encodable : instruction.family = .sop2
  · rw [if_pos encodable]
    cases TwoSource.pack assembler.config.strictOperands assembler.tables instruction.baseOpcode
      operands with
    | error => simp [Except.map, Except.mapError, encodable]
    | ok code => simp [Except.map, Except.mapError]
  · simp [encodable]

/-- A line with a mnemonic gives a result: the mnemonic is looked up, and the instruction that it
names is encoded. -/
theorem value_assembleLine_eq_some_iff (assembler : Assembler) (line : Text)
    (result : Except LineError Assembled) :
    (assembler.assembleLine line).value = some result ↔
      ∃ token operands,
        line.stripComment.takeField = some (token, operands) ∧ token.trimLineEnd ≠ [] ∧
        ((assembler.tables.resolve? token.trimLineEnd = none ∧
            result = .error (.unrecognized token.trimLineEnd)) ∨
          ∃ instruction, assembler.tables.resolve? token.trimLineEnd = some instruction ∧
            (assembler.encodeInstruction instruction operands).value = result) := by
  rw [assembleLine]
  constructor
  · intro found
    cases split : splitLine line with
    | none => simp [split] at found
    | some parts =>
        obtain ⟨mnemonic, operands⟩ := parts
        obtain ⟨token, taken, rfl, nonblank⟩ := (splitLine_eq_some_iff _ _ _).mp split
        refine ⟨token, operands, taken, nonblank, ?_⟩
        simp only [split] at found
        cases resolved : assembler.tables.resolve? token.trimLineEnd with
        | none =>
            rw [resolved] at found
            exact Or.inl ⟨rfl, (Option.some.inj found).symm⟩
        | some instruction =>
            simp only [resolved, Logged.value_map, Option.some.injEq] at found
            exact Or.inr ⟨instruction, rfl, found⟩
  · rintro ⟨token, operands, taken, nonblank, outcome⟩
    have split := (splitLine_eq_some_iff line _ operands).mpr ⟨token, taken, rfl, nonblank⟩
    rcases outcome with ⟨unresolved, rfl⟩ | ⟨instruction, resolved, rfl⟩
    · simp only [split, unresolved, Logged.value_pure]
    · simp only [split, resolved, Logged.value_map]

theorem value_assembleLine_eq_ok_iff {assembler : Assembler}
    (unregistered : assembler.registered = []) (line : Text) (assembled : Assembled) :
    (assembler.assembleLine line).value = some (.ok assembled) ↔
      ∃ token fields instruction slots operands,
        line.stripComment.fields = token :: fields ∧ token.trimLineEnd ≠ [] ∧
        assembler.tables.resolve? token.trimLineEnd = some instruction ∧
        instruction.family = .sop2 ∧
        TwoSource.Slots.ofFields assembler.config.strictOperands fields = .ok slots ∧
        slots.Spell assembler.tables operands ∧ operands.Fit assembler.tables ∧
        assembled = ⟨instruction.mnemonic, operands.machineCode instruction.baseOpcode⟩ := by
  simp only [value_assembleLine_eq_some_iff, value_encodeInstruction_eq_ok_iff unregistered,
    TwoSource.pack_eq_ok_iff]
  constructor
  · rintro ⟨token, rest, taken, nonblank, ⟨_, failed⟩ | ⟨instruction, resolved, encodable,
      ⟨slots, operands, read, spell, fit, code⟩, named⟩⟩
    · cases failed
    · refine ⟨token, rest.fields, instruction, slots, operands, Text.fields_of_takeField taken,
        nonblank, resolved, encodable, read, spell, fit, ?_⟩
      rw [← code, ← named]
  · rintro ⟨token, fields, instruction, slots, operands, shape, nonblank, resolved, encodable, read,
      spell, fit, rfl⟩
    obtain ⟨rest, taken, rfl⟩ := (Text.fields_eq_cons_iff _ _ _).mp shape
    exact ⟨token, rest, taken, nonblank, Or.inr ⟨instruction, resolved, encodable,
      ⟨slots, operands, read, spell, fit, rfl⟩, rfl⟩⟩

theorem value_assembleLine_eq_encode_error_iff {assembler : Assembler}
    (unregistered : assembler.registered = []) (line mnemonic : Text) (cause : EncodeError) :
    (assembler.assembleLine line).value = some (.error (.encode mnemonic cause)) ↔
      ∃ token operands instruction,
        line.stripComment.takeField = some (token, operands) ∧ token.trimLineEnd ≠ [] ∧
        assembler.tables.resolve? token.trimLineEnd = some instruction ∧
        instruction.family = .sop2 ∧ instruction.mnemonic = mnemonic ∧
        TwoSource.pack assembler.config.strictOperands assembler.tables instruction.baseOpcode
          operands = .error cause := by
  simp only [value_assembleLine_eq_some_iff,
    value_encodeInstruction_eq_encode_error_iff unregistered]
  constructor
  · rintro ⟨token, operands, taken, nonblank, ⟨_, failed⟩ | ⟨instruction, resolved, failed⟩⟩
    · cases failed
    · exact ⟨token, operands, instruction, taken, nonblank, resolved, failed⟩
  · rintro ⟨token, operands, instruction, taken, nonblank, resolved, failed⟩
    exact ⟨token, operands, taken, nonblank, Or.inr ⟨instruction, resolved, failed⟩⟩

end Assembler

end ShaderAssembler

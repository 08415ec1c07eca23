import ShaderAssembler.Proofs.Registration
import ShaderAssembler.Proofs.TableFaults
import ShaderAssembler.Proofs.TextLines

/-! Instructions that a line can name. The name of an instruction is cut from a line at delimiters
and before the comment, so an instruction is never reached if these are part of its mnemonic. A
mnemonic may end like a line, for only one end of a line is taken off. -/

namespace ShaderAssembler

namespace Text

/-- A text that can stand as the first field of a line. -/
def IsToken (text : Text) : Prop :=
  text ≠ [] ∧ ∀ character ∈ text, character ∉ [',', ' ', '\t', ';']

theorem isToken_iff (text : Text) : text.IsToken ↔ text ≠ [] ∧ text.Solid ∧ ';' ∉ text := by
  refine and_congr_right fun _ => ?_
  constructor
  · intro plain
    refine ⟨fun character member delimiter => plain character member ?_, fun member => ?_⟩
    · exact List.mem_append_left [';'] delimiter
    · exact plain ';' member (by simp)
  · rintro ⟨solid, noComment⟩ character member broken
    rcases List.mem_append.mp (show character ∈ fieldDelimiters ++ [';'] from broken) with
      delimiter | mark
    · exact solid character member delimiter
    · rw [List.mem_singleton.mp mark] at member
      exact noComment member

end Text

def resolvedMnemonic? : Except LineError Assembled → Option Text
  | .ok assembled => some assembled.mnemonic
  | .error (.unsupported mnemonic) => some mnemonic
  | .error (.encode mnemonic _) => some mnemonic
  | .error (.unrecognized _) => none

namespace Tables

def withInstruction (tables : Tables) (place : Nat) (entry : Instruction) : Tables :=
  { tables with
    instructions := tables.instructions.take place ++ entry :: tables.instructions.drop place }

theorem value_validate_withInstruction {tables : Tables}
    (accepted : tables.validate.value = .ok ()) (place : Nat) {entry : Instruction}
    (unused : ∀ other ∈ tables.instructions, other.mnemonic ≠ entry.mnemonic) :
    (tables.withInstruction place entry).validate.value = .ok () := by
  rw [value_validate_eq_ok_iff] at accepted ⊢
  have order : (tables.withInstruction place entry).instructions.Perm
      (entry :: tables.instructions) := by
    have moved : (tables.withInstruction place entry).instructions.Perm
        (entry :: (tables.instructions.take place ++ tables.instructions.drop place)) :=
      List.perm_middle
    rwa [List.take_append_drop] at moved
  refine ⟨accepted.1, (order.map Instruction.mnemonic).nodup_iff.mpr ?_⟩
  rw [List.map_cons, List.nodup_cons]
  refine ⟨?_, accepted.2⟩
  rw [List.mem_map]
  rintro ⟨other, listed, same⟩
  exact unused other listed same

theorem resolve?_withInstruction (tables : Tables) (place : Nat) {entry : Instruction}
    {mnemonic : Text} (different : entry.mnemonic ≠ mnemonic) :
    (tables.withInstruction place entry).resolve? mnemonic = tables.resolve? mnemonic := by
  rw [resolve?, resolve?, withInstruction, Instruction.resolve?, Instruction.resolve?,
    List.find?_append, List.find?_cons_of_neg (by simpa using different), ← List.find?_append,
    List.take_append_drop]

theorem names_of_isToken {tables : Tables} {instruction : Instruction}
    (resolved : tables.resolve? instruction.mnemonic = some instruction)
    (token : instruction.mnemonic.IsToken) :
    tables.Names (instruction.mnemonic ++ ['\r', '\n']) instruction [] := by
  obtain ⟨nonempty, solid, noComment⟩ := (Text.isToken_iff _).mp token
  have codeOnly : ';' ∉ instruction.mnemonic ++ ['\r', '\n'] := by
    simpa using noComment
  have solidLine : (instruction.mnemonic ++ ['\r', '\n']).Solid :=
    List.forall_mem_append.mpr ⟨solid, by simp [Text.fieldDelimiters]⟩
  refine ⟨instruction.mnemonic ++ ['\r', '\n'], ?_, ?_, ?_⟩
  · rw [Text.stripComment_eq_self codeOnly]
    exact ⟨[], [], by simp, by simp, by simp, solidLine, Or.inl ⟨rfl, rfl⟩⟩
  · rwa [Text.trimLineEnd_append_return]
  · rwa [Text.trimLineEnd_append_return]

end Tables

namespace Assembler

theorem isToken_of_splitLine {line mnemonic operands : Text}
    (split : splitLine line = some (mnemonic, operands)) : mnemonic.IsToken := by
  obtain ⟨token, taken, rfl, nonblank⟩ := (splitLine_eq_some_iff line mnemonic operands).mp split
  obtain ⟨_, _, _, _, _, solid, _⟩ := Text.firstField_of_takeField taken
  obtain ⟨_, _, noComment, _⟩ := Text.exists_comment line
  rw [Text.isToken_iff]
  refine ⟨nonblank, fun character member => ?_, fun member => noComment ?_⟩
  · exact solid character (Text.trimLineEnd_subset token member)
  · exact (Text.takeField_field taken).2 (Text.trimLineEnd_subset token member)

theorem isToken_of_names {tables : Tables} {line operands : Text} {instruction : Instruction}
    (names : tables.Names line instruction operands) : instruction.mnemonic.IsToken := by
  obtain ⟨mnemonic, split, resolved⟩ := splitLine_of_names names
  rw [Tables.mnemonic_of_resolve? resolved]
  exact isToken_of_splitLine split

theorem resolvedMnemonic?_result (encoder : Encoder) (tables : Tables) (instruction : Instruction)
    (operands : Text) :
    resolvedMnemonic? (encoder.result tables instruction operands) = some instruction.mnemonic := by
  rw [Encoder.result]
  cases (encoder.encode tables instruction operands).value <;> rfl

theorem exists_result_of_names {assembler : Assembler} {line operands : Text}
    {instruction : Instruction} (names : assembler.tables.Names line instruction operands) :
    ∃ result, (assembler.assembleLine line).value = some result ∧
      resolvedMnemonic? result = some instruction.mnemonic := by
  refine ⟨_, value_assembleLine_of_names names, ?_⟩
  cases assembler.encoderFor instruction.family with
  | none => rfl
  | some encoder => exact resolvedMnemonic?_result encoder _ instruction operands

theorem exists_names_of_result {assembler : Assembler} {line mnemonic : Text}
    {result : Except LineError Assembled}
    (assembled : (assembler.assembleLine line).value = some result)
    (told : resolvedMnemonic? result = some mnemonic) :
    ∃ instruction operands, assembler.tables.Names line instruction operands ∧
      instruction.mnemonic = mnemonic := by
  obtain ⟨token, operands, taken, nonblank, ⟨_, rfl⟩ | ⟨instruction, resolved, _⟩⟩ :=
    (value_assembleLine_eq_some_iff assembler line result).mp assembled
  · cases told
  · have names : assembler.tables.Names line instruction operands :=
      ⟨token, Text.firstField_of_takeField taken, nonblank, resolved⟩
    obtain ⟨other, same, otherTold⟩ := exists_result_of_names names
    rw [assembled, Option.some.injEq] at same
    rw [same, otherTold, Option.some.injEq] at told
    exact ⟨instruction, operands, names, told⟩

theorem resolvedMnemonic?_eq_iff_names {assembler : Assembler} {entry : Instruction}
    (resolved : assembler.tables.resolve? entry.mnemonic = some entry) {line : Text}
    {result : Except LineError Assembled}
    (assembled : (assembler.assembleLine line).value = some result) :
    resolvedMnemonic? result = some entry.mnemonic ↔
      ∃ operands, assembler.tables.Names line entry operands := by
  constructor
  · intro told
    obtain ⟨instruction, operands, names, same⟩ := exists_names_of_result assembled told
    obtain ⟨token, first, nonblank, found⟩ := names
    have spelled : entry.mnemonic = token.trimLineEnd :=
      same.symm.trans (Tables.mnemonic_of_resolve? found)
    rw [spelled] at resolved
    exact ⟨operands, token, first, nonblank, resolved⟩
  · rintro ⟨operands, names⟩
    obtain ⟨other, same, told⟩ := exists_result_of_names names
    rw [assembled, Option.some.injEq] at same
    rw [same, told]

theorem assembleLine_withInstruction {tables : Tables} {entry : Instruction}
    (dead : ¬ entry.mnemonic.IsToken) (place : Nat) (config : AssemblerConfig) (line : Text) :
    assembleLine { tables := tables.withInstruction place entry, config } line =
      assembleLine { tables, config } line := by
  have encoded (instruction : Instruction) (operands : Text) :
      encodeInstruction { tables := tables.withInstruction place entry, config } instruction
        operands = encodeInstruction { tables, config } instruction operands := by
    apply Tables.encodeInstruction_congr
    · exact fun _ => rfl
    · rfl
  rw [assembleLine, assembleLine]
  cases split : splitLine line with
  | none => rfl
  | some parts =>
      have different : entry.mnemonic ≠ parts.1 := by
        intro same
        exact dead (same ▸ isToken_of_splitLine split)
      simp only [tables.resolve?_withInstruction place different, encoded]

/-- A line can reach an instruction exactly if its mnemonic is a token. Other instructions pass
validation, too, but no line is assembled differently because of them. -/
theorem instruction_reachable_iff (tables : Tables) (accepted : tables.validate.value = .ok ()) :
    (∀ entry ∈ tables.instructions, ∀ config registered,
      let assembler : Assembler := { tables, config, registered }
      ((∃ line result, (assembler.assembleLine line).value = some result ∧
        resolvedMnemonic? result = some entry.mnemonic) ↔ entry.mnemonic.IsToken) ∧
      ∀ line result, (assembler.assembleLine line).value = some result →
        (resolvedMnemonic? result = some entry.mnemonic ↔
          ∃ operands, tables.Names line entry operands)) ∧
    ∀ place entry, (∀ other ∈ tables.instructions, other.mnemonic ≠ entry.mnemonic) →
      ¬ entry.mnemonic.IsToken →
        (tables.withInstruction place entry).validate.value = .ok () ∧
          ∀ config line,
            assembleLine { tables := tables.withInstruction place entry, config } line =
              assembleLine { tables, config } line := by
  have distinct := ((Tables.value_validate_eq_ok_iff tables).mp accepted).2
  refine ⟨?_, ?_⟩
  · intro entry listed config registered assembler
    have resolved : assembler.tables.resolve? entry.mnemonic = some entry :=
      Tables.resolve?_of_nodup distinct listed
    refine ⟨⟨?_, ?_⟩, fun line result => resolvedMnemonic?_eq_iff_names resolved⟩
    · rintro ⟨line, result, assembled, told⟩
      obtain ⟨operands, names⟩ := (resolvedMnemonic?_eq_iff_names resolved assembled).mp told
      exact isToken_of_names names
    · intro token
      exact ⟨_, exists_result_of_names (Tables.names_of_isToken resolved token)⟩
  · intro place entry unused dead
    exact ⟨Tables.value_validate_withInstruction accepted place unused,
      assembleLine_withInstruction dead place⟩

theorem instruction_reachable_iff_line_ends :
    let live : Instruction := ⟨"add\r\n".toList, .sop2, 0⟩
    let dead : Instruction := ⟨"add;".toList, .sop2, 1⟩
    let blank : Instruction := ⟨[], .vop2, 2⟩
    let tables : Tables := ⟨[dead, live], [], SouthernIslands.codes⟩
    let assembler : Assembler := { tables }
    let line : Text := "add\r\n\r\n s0 ; s1".toList
    tables.validate.value = .ok () ∧
      (∃ line result, (assembler.assembleLine line).value = some result ∧
        resolvedMnemonic? result = some live.mnemonic) ∧
      (¬ ∃ line result, (assembler.assembleLine line).value = some result ∧
        resolvedMnemonic? result = some dead.mnemonic) ∧
      (assembler.assembleLine line).value =
        some (.error (.encode live.mnemonic (.missingOperand TwoSource.ssrc1.name))) ∧
      (∃ operands, tables.Names line live operands) ∧
      (tables.withInstruction 1 blank).validate.value = .ok () ∧
      ∀ config line, assembleLine { tables := tables.withInstruction 1 blank, config } line =
        assembleLine { tables, config } line := by
  intro live dead blank tables assembler line
  have accepted : tables.validate.value = .ok () := by decide +kernel
  have assembled : (assembler.assembleLine line).value =
      some (.error (.encode live.mnemonic (.missingOperand TwoSource.ssrc1.name))) := by
    decide +kernel
  obtain ⟨reachable, unreached⟩ := instruction_reachable_iff tables accepted
  obtain ⟨liveReached, liveNamed⟩ := reachable live (by simp [tables]) {} []
  obtain ⟨deadReached, _⟩ := reachable dead (by simp [tables]) {} []
  have liveToken : live.mnemonic.IsToken := ⟨by decide, by simp [live]⟩
  have deadToken : ¬ dead.mnemonic.IsToken := fun token => token.2 ';' (by simp [dead]) (by simp)
  have unused : ∀ other ∈ tables.instructions, other.mnemonic ≠ blank.mnemonic := by
    simp [tables, live, dead, blank]
  have blankToken : ¬ blank.mnemonic.IsToken := fun token => token.1 rfl
  exact ⟨accepted, liveReached.mpr liveToken, fun reached => deadToken (deadReached.mp reached),
    assembled, (liveNamed line _ assembled).mp rfl, unreached 1 blank unused blankToken⟩

end Assembler

end ShaderAssembler

import ShaderAssembler.Proofs.Concatenation
import ShaderAssembler.Proofs.Line

/-! The log of a run. It tells what the reports tell, in the same order: two events for a line that
assembled, and one for a line that failed. -/

namespace ShaderAssembler

inductive LogValue where
  | text (value : Text)
  | word (value : UInt32)
  | flag (value : Bool)
  | number (value : Nat)
  deriving DecidableEq, Repr

structure LogEntry where
  level : LogLevel
  message : String
  fields : List (String × LogValue)
  deriving DecidableEq, Repr

def LogEvent.fields : LogEvent → List (String × LogValue)
  | packed mnemonic word => [("mnemonic", .text mnemonic), ("word", .word word)]
  | encoded mnemonic word hasLiteral =>
      [("mnemonic", .text mnemonic), ("word", .word word), ("literal", .flag hasLiteral)]
  | lineSkipped line _ => [("line", .number line)]
  | lineFailed line _ => [("line", .number line)]
  | operandShadowed shadowing shadowed =>
      [("shadowing", .text shadowing), ("shadowed", .text shadowed)]

def LogEvent.entry (event : LogEvent) : LogEntry where
  level := event.level
  message := event.message
  fields := event.fields

def Assembled.entries (assembled : Assembled) : List LogEntry :=
  [ { level := .trace
      message := "sop2"
      fields := [("mnemonic", .text assembled.mnemonic), ("word", .word assembled.code.word)] },
    { level := .debug
      message := "encoded"
      fields :=
        [ ("mnemonic", .text assembled.mnemonic), ("word", .word assembled.code.word),
          ("literal", .flag assembled.code.literal.isSome) ] } ]

def LineError.entry (line : Nat) (cause : LineError) : LogEntry where
  level := if cause.recoverable then .warn else .error
  message := cause.message
  fields := [("line", .number line)]

/-- What the log has to tell about a line with a report. -/
def LineReport.entries (report : LineReport) : List LogEntry :=
  match report.result with
  | .ok assembled => assembled.entries
  | .error cause => [cause.entry report.line]

theorem LineReport.entry_events {line : Nat} {cause : LineError} :
    (LineReport.events { line, result := .error cause }).map LogEvent.entry =
      [cause.entry line] := by
  simp only [events, LineError.entry]
  by_cases recoverable : cause.recoverable = true
  · rw [if_pos recoverable, if_pos recoverable]
    rfl
  · rw [if_neg recoverable, if_neg recoverable]
    rfl

theorem TwoSource.encode_cases (strict : Bool) (tables : Tables) (instruction : Instruction)
    (operands : Text) :
    (∃ cause, encode strict tables instruction operands = ⟨.error cause, []⟩) ∨
      ∃ code, encode strict tables instruction operands =
        ⟨.ok code, [.packed instruction.mnemonic code.word]⟩ := by
  rw [encode]
  cases pack strict tables instruction.baseOpcode operands with
  | error cause => exact Or.inl ⟨cause, rfl⟩
  | ok code => exact Or.inr ⟨code, rfl⟩

def assembledEntries : Option (Except LineError Assembled) → List LogEntry
  | some (.ok assembled) => assembled.entries
  | _ => []

theorem assembledEntries_of_not_assembled {value : Option (Except LineError Assembled)}
    (notAssembled : ∀ assembled, value ≠ some (.ok assembled)) : assembledEntries value = [] := by
  unfold assembledEntries
  split
  · rename_i assembled
    exact absurd rfl (notAssembled assembled)
  · rfl

theorem LineReport.assembledEntries_append (line : Nat) (result : Except LineError Assembled) :
    assembledEntries (some result) ++
        (LineReport.events { line, result }).map LogEvent.entry =
      LineReport.entries { line, result } := by
  cases result with
  | ok assembled => exact List.append_nil _
  | error cause => exact entry_events

namespace Assembler

theorem events_assembleLines_cons (assembler : Assembler) (line : Nat) (text : Text)
    (rest : List Text) :
    (assembler.assembleLines line (text :: rest)).events =
      (assembler.assembleLine text).events ++
        match (assembler.assembleLine text).value with
        | none => (assembler.assembleLines (line + 1) rest).events
        | some result =>
            LineReport.events { line, result } ++
              if assembler.config.stopOnError && LineReport.isFatal { line, result } then []
              else (assembler.assembleLines (line + 1) rest).events := by
  rw [assembleLines, Logged.events_bind]
  cases (assembler.assembleLine text).value with
  | none => rfl
  | some result =>
      simp only [Logged.events_bind]
      split <;> rfl

section BuiltInEncoder

variable {assembler : Assembler} (unregistered : assembler.registered = [])
include unregistered

theorem entries_encodeInstruction (instruction : Instruction) (operands : Text) :
    (assembler.encodeInstruction instruction operands).events.map LogEvent.entry =
      assembledEntries (some (assembler.encodeInstruction instruction operands).value) := by
  rw [encodeInstruction, encoderFor_of_unregistered unregistered]
  by_cases encodable : instruction.family = .sop2
  · rw [if_pos encodable]
    rcases TwoSource.encode_cases assembler.config.strictOperands assembler.tables instruction
      operands with ⟨cause, failed⟩ | ⟨code, packed⟩
    · simp only [TwoSource.encoder, Logged.events_bind, Logged.value_bind, failed]
      rfl
    · simp only [TwoSource.encoder, Logged.events_bind, Logged.value_bind, packed]
      rfl
  · rw [if_neg encodable]
    rfl

theorem entries_assembleLine (line : Text) :
    (assembler.assembleLine line).events.map LogEvent.entry =
      assembledEntries (assembler.assembleLine line).value := by
  rw [assembleLine]
  cases splitLine line with
  | none => rfl
  | some parts =>
      cases resolved : assembler.tables.resolve? parts.1 with
      | none =>
          simp only [resolved]
          rfl
      | some instruction =>
          simp only [resolved, Logged.events_map, Logged.value_map]
          exact entries_encodeInstruction unregistered instruction parts.2

theorem entries_assembleLines (line : Nat) (texts : List Text) :
    (assembler.assembleLines line texts).events.map LogEvent.entry =
      (assembler.assembleLines line texts).value.flatMap LineReport.entries := by
  induction texts generalizing line with
  | nil => rfl
  | cons text rest ih =>
      rw [events_assembleLines_cons, value_assembleLines_cons, List.map_append,
        entries_assembleLine unregistered text]
      cases (assembler.assembleLine text).value with
      | none => exact ih (line + 1)
      | some result =>
          simp only [List.map_append]
          rw [← List.append_assoc, LineReport.assembledEntries_append]
          split
          · simp
          · rw [List.flatMap_cons, ih]

end BuiltInEncoder

/-- The log of a run tells what its reports tell: nothing is logged for a line without a report, for
a line behind the end of the run, or by an encoder that fails. -/
theorem log_tells_reports (tables : Tables) (config : AssemblerConfig) (text : Text) :
    let assembler : Assembler := { tables, config }
    let run := assembler.assembleSource text
    run.events.map LogEvent.entry = run.value.flatMap LineReport.entries ∧
      (∀ line, (∀ assembled, (assembler.assembleLine line).value ≠ some (.ok assembled)) →
        (assembler.assembleLine line).events = []) ∧
      (∀ before after, text.lines = before ++ after →
        assembler.stopsAfter (assembler.assembleLines 1 before).value = true →
          run.events = (assembler.assembleLines 1 before).events) ∧
      ∀ strict instruction operands cause,
        (TwoSource.encode strict tables instruction operands).value = .error cause →
          (TwoSource.encode strict tables instruction operands).events = [] := by
  intro assembler run
  have unregistered : assembler.registered = [] := rfl
  refine ⟨entries_assembleLines unregistered 1 text.lines, ?_, ?_, ?_⟩
  · intro line notAssembled
    have entries := entries_assembleLine unregistered line
    rw [assembledEntries_of_not_assembled notAssembled] at entries
    exact List.map_eq_nil_iff.mp entries
  · intro before after split stops
    have same := assembleLines_append_of_stop stops after
    rw [← split] at same
    exact congrArg Logged.events same
  · intro strict instruction operands cause failed
    rcases TwoSource.encode_cases strict tables instruction operands with
      ⟨_, same⟩ | ⟨code, same⟩
    · rw [same]
    · rw [same] at failed
      cases failed

theorem log_tells_reports_stopped_run :
    let add : Instruction := ⟨"s_add_u32".toList, .sop2, 0x80000000⟩
    let tables : Tables := ⟨[add], [], SouthernIslands.codes⟩
    let config : AssemblerConfig := { stopOnError := true }
    let assembler : Assembler := { tables, config }
    let source : Text := "s_add_u32 s5, s3, 1000\n\nbogus\ns_add_u32 s0\nbogus".toList
    let upToStop : List Text := source.lines.take 4
    (assembler.assembleSource source).events.map LogEvent.entry =
        [ ⟨.trace, "sop2", [("mnemonic", .text add.mnemonic), ("word", .word 0x800503FF)]⟩,
          ⟨.debug, "encoded", [("mnemonic", .text add.mnemonic), ("word", .word 0x800503FF),
            ("literal", .flag true)]⟩,
          ⟨.warn, "unrecognized instruction 'bogus'", [("line", .number 3)]⟩,
          ⟨.error, "s_add_u32: missing SSRC1 operand", [("line", .number 4)]⟩ ] ∧
      (assembler.assembleLine "; nothing".toList).events = [] ∧
      assembler.stopsAfter (assembler.assembleLines 1 upToStop).value = true ∧
      (assembler.assembleSource source).events = (assembler.assembleLines 1 upToStop).events ∧
      (TwoSource.encode true tables add "s0".toList).value = .error (.missingOperand "SSRC1") ∧
      (TwoSource.encode true tables add "s0".toList).events = [] := by
  intro add tables config assembler source upToStop
  obtain ⟨told, silent, stopped, failing⟩ := log_tells_reports tables config source
  have stops : assembler.stopsAfter (assembler.assembleLines 1 upToStop).value = true := by
    decide +kernel
  have failed : (TwoSource.encode true tables add "s0".toList).value =
      .error (.missingOperand "SSRC1") := by
    decide +kernel
  have skipped : (assembler.assembleLine "; nothing".toList).value = none := by
    with_unfolding_all rfl
  have notAssembled (assembled : Assembled) :
      (assembler.assembleLine "; nothing".toList).value ≠ some (.ok assembled) := by
    rw [skipped]
    simp
  exact ⟨told.trans (by decide +kernel), silent _ notAssembled, stops,
    stopped upToStop (source.lines.drop 4) (List.take_append_drop 4 _).symm stops, failed,
    failing _ _ _ _ failed⟩

end Assembler

end ShaderAssembler

import ShaderAssembler.Proofs.Line
import ShaderAssembler.Proofs.Spacing

/-! Encoders that are registered. Of the encoders of a family the latest one is used, and the others
have no bearing on the instructions of the family. -/

namespace ShaderAssembler

namespace Text

def FirstField (text field rest : Text) : Prop :=
  ∃ leading behind, text = leading ++ (field ++ behind) ∧
    (∀ character ∈ leading, character ∈ fieldDelimiters) ∧ field ≠ [] ∧ field.Solid ∧
    (behind = [] ∧ rest = [] ∨ ∃ delimiter ∈ fieldDelimiters, behind = delimiter :: rest)

theorem firstField_of_takeField {text field rest : Text}
    (taken : takeField text = some (field, rest)) : FirstField text field rest := by
  induction text with
  | nil => simp [takeField_nil] at taken
  | cons first tail ih =>
      by_cases cut : first ∈ fieldDelimiters
      · rw [takeField_delimiter cut] at taken
        obtain ⟨leading, behind, shape, blank, facts⟩ := ih taken
        refine ⟨first :: leading, behind, by rw [shape, List.cons_append], ?_, facts⟩
        exact List.forall_mem_cons.mpr ⟨cut, blank⟩
      · rw [takeField_character cut, Option.some.injEq, Prod.mk.injEq] at taken
        obtain ⟨rfl, rfl⟩ := taken
        refine ⟨[], tail.dropWhile (· ∉ fieldDelimiters), ?_, by simp, List.cons_ne_nil _ _,
          solid_takeWhile cut tail, ?_⟩
        · rw [List.nil_append, List.cons_append, List.takeWhile_append_dropWhile]
        · cases dropped : tail.dropWhile (· ∉ fieldDelimiters) with
          | nil => exact Or.inl ⟨rfl, rfl⟩
          | cons delimiter more => exact Or.inr ⟨delimiter, delimiter_of_dropWhile dropped, rfl⟩

theorem FirstField.takeField_eq {text field rest : Text} (first : FirstField text field rest) :
    takeField text = some (field, rest) := by
  obtain ⟨leading, behind, rfl, blank, nonempty, solid, ends⟩ := first
  induction leading with
  | nil =>
      obtain ⟨character, more, rfl⟩ := List.exists_cons_of_ne_nil nonempty
      obtain ⟨inField, moreSolid⟩ := List.forall_mem_cons.mp solid
      have passed : ∀ other ∈ more, decide (other ∉ fieldDelimiters) = true := by
        simpa using moreSolid
      rw [List.nil_append, List.cons_append, takeField_character inField,
        List.takeWhile_append_of_pos passed, List.dropWhile_append_of_pos passed]
      rcases ends with ⟨rfl, rfl⟩ | ⟨delimiter, isDelimiter, rfl⟩
      · simp
      · simp [isDelimiter]
  | cons delimiter leading ih =>
      obtain ⟨isDelimiter, others⟩ := List.forall_mem_cons.mp blank
      rw [List.cons_append, takeField_delimiter isDelimiter]
      exact ih others

end Text

/-- The line names the instruction, and these are the operands behind its name. -/
def Tables.Names (tables : Tables) (line : Text) (instruction : Instruction) (operands : Text) :
    Prop :=
  ∃ token, Text.FirstField line.stripComment token operands ∧ token.trimLineEnd ≠ [] ∧
    tables.resolve? token.trimLineEnd = some instruction

def Encoder.result (encoder : Encoder) (tables : Tables) (instruction : Instruction)
    (operands : Text) : Except LineError Assembled :=
  ((encoder.encode tables instruction operands).value.map
    (Assembled.mk instruction.mnemonic)).mapError (.encode instruction.mnemonic)

namespace Assembler

theorem encoderFor_register (assembler : Assembler) (encoder : Encoder) (family : Family) :
    (assembler.register encoder).encoderFor family =
      if encoder.family = family then some encoder else assembler.encoderFor family := by
  rw [encoderFor, encoders, register, Encoder.find?, List.cons_append, List.find?_cons]
  by_cases same : encoder.family = family
  · simp [same]
  · simp [same, encoderFor, encoders, Encoder.find?]

theorem tables_registerAll (assembler : Assembler) (history : List Encoder) :
    (assembler.registerAll history).tables = assembler.tables := by
  induction history generalizing assembler with
  | nil => rfl
  | cons encoder rest ih => exact ih (assembler.register encoder)

theorem encoderFor_registerAll_congr {left right : Assembler}
    (same : ∀ family, left.encoderFor family = right.encoderFor family) (history : List Encoder)
    (family : Family) :
    (left.registerAll history).encoderFor family =
      (right.registerAll history).encoderFor family := by
  induction history generalizing left right with
  | nil => exact same family
  | cons encoder rest ih =>
      apply ih
      intro other
      rw [encoderFor_register, encoderFor_register, same]

theorem encoderFor_registerAll_of_ne {family : Family} {history : List Encoder}
    (others : ∀ encoder ∈ history, encoder.family ≠ family) (assembler : Assembler) :
    (assembler.registerAll history).encoderFor family = assembler.encoderFor family := by
  induction history generalizing assembler with
  | nil => rfl
  | cons encoder rest ih =>
      obtain ⟨different, others⟩ := List.forall_mem_cons.mp others
      have step := encoderFor_register assembler encoder family
      rw [if_neg different] at step
      exact (ih others (assembler.register encoder)).trans step

theorem encoderFor_latest {family : Family} {encoder : Encoder} {earlier later : List Encoder}
    (own : encoder.family = family) (others : ∀ other ∈ later, other.family ≠ family)
    (assembler : Assembler) :
    (assembler.registerAll (earlier ++ encoder :: later)).encoderFor family = some encoder := by
  rw [registerAll, List.foldl_append, List.foldl_cons, ← registerAll, ← registerAll,
    encoderFor_registerAll_of_ne others, encoderFor_register, if_pos own]

theorem splitLine_of_names {tables : Tables} {line operands : Text} {instruction : Instruction}
    (names : tables.Names line instruction operands) :
    ∃ mnemonic, splitLine line = some (mnemonic, operands) ∧
      tables.resolve? mnemonic = some instruction := by
  obtain ⟨token, first, nonblank, resolved⟩ := names
  exact ⟨_, (splitLine_eq_some_iff ..).mpr ⟨token, first.takeField_eq, rfl, nonblank⟩, resolved⟩

theorem names_of_splitLine {tables : Tables} {line mnemonic operands : Text}
    {instruction : Instruction} (split : splitLine line = some (mnemonic, operands))
    (resolved : tables.resolve? mnemonic = some instruction) :
    tables.Names line instruction operands := by
  obtain ⟨token, taken, rfl, nonblank⟩ := (splitLine_eq_some_iff ..).mp split
  exact ⟨token, Text.firstField_of_takeField taken, nonblank, resolved⟩

theorem value_assembleLine_of_names {assembler : Assembler} {line operands : Text}
    {instruction : Instruction} (names : assembler.tables.Names line instruction operands) :
    (assembler.assembleLine line).value =
      some ((assembler.encoderFor instruction.family).elim
        (.error (.unsupported instruction.mnemonic))
        (·.result assembler.tables instruction operands)) := by
  obtain ⟨mnemonic, split, resolved⟩ := splitLine_of_names names
  simp only [assembleLine, split, resolved, Logged.value_map, value_encodeInstruction,
    Encoder.result]

theorem assembleLine_congr_encoderFor {left right : Assembler}
    (sameTables : left.tables = right.tables) {line : Text}
    (same : ∀ instruction operands, left.tables.Names line instruction operands →
      left.encoderFor instruction.family = right.encoderFor instruction.family) :
    left.assembleLine line = right.assembleLine line := by
  rw [assembleLine, assembleLine, ← sameTables]
  cases split : splitLine line with
  | none => rfl
  | some parts =>
      obtain ⟨mnemonic, operands⟩ := parts
      cases resolved : left.tables.resolve? mnemonic with
      | none => simp only [resolved]
      | some instruction =>
          have chosen := same instruction operands (names_of_splitLine split resolved)
          have encoded : left.encodeInstruction instruction operands =
              right.encodeInstruction instruction operands := by
            rw [encodeInstruction, encodeInstruction, chosen, sameTables]
          simp only [resolved, encoded]

theorem registrations_commute (assembler : Assembler) {first second : Encoder}
    (different : first.family ≠ second.family) (later : List Encoder) (line : Text) :
    (assembler.registerAll (first :: second :: later)).assembleLine line =
      (assembler.registerAll (second :: first :: later)).assembleLine line := by
  refine assembleLine_congr_encoderFor ?_ fun instruction _ _ => ?_
  · rw [tables_registerAll, tables_registerAll]
  · refine encoderFor_registerAll_congr (fun family => ?_) later _
    simp only [encoderFor_register]
    by_cases own : second.family = family
    · rw [if_pos own, if_neg (own ▸ different), if_pos own]
    · rw [if_neg own, if_neg own]

/-- A line is encoded by the latest encoder of its family, and the built-in encoder counts as the
earliest. The encoder gets what follows the one delimiter behind the name of the instruction. -/
theorem latest_registration_encodes (tables : Tables) (config : AssemblerConfig)
    (history : List Encoder) :
    let assembler := ({ tables, config } : Assembler).registerAll history
    (∀ line instruction operands, tables.Names line instruction operands →
      (∀ earlier encoder later, history = earlier ++ encoder :: later →
        encoder.family = instruction.family →
        (∀ other ∈ later, other.family ≠ instruction.family) →
          (assembler.assembleLine line).value =
            some (encoder.result tables instruction operands)) ∧
      ((∀ other ∈ history, other.family ≠ instruction.family) →
        (assembler.assembleLine line).value =
          some (if instruction.family = .sop2 then
              (TwoSource.encoder config.strictOperands).result tables instruction operands
            else .error (.unsupported instruction.mnemonic)))) ∧
      (∀ encoder line,
        (∀ instruction operands, tables.Names line instruction operands →
          instruction.family ≠ encoder.family) →
        (assembler.register encoder).assembleLine line = assembler.assembleLine line) ∧
      ∀ first second later line, first.family ≠ second.family →
        (assembler.registerAll (first :: second :: later)).assembleLine line =
          (assembler.registerAll (second :: first :: later)).assembleLine line := by
  intro assembler
  have sameTables : assembler.tables = tables := tables_registerAll ..
  refine ⟨?_, ?_, ?_⟩
  · intro line instruction operands names
    rw [← sameTables] at names
    rw [value_assembleLine_of_names names, sameTables]
    refine ⟨?_, ?_⟩
    · rintro earlier encoder later rfl own others
      rw [encoderFor_latest own others, Option.elim_some]
    · intro others
      rw [encoderFor_registerAll_of_ne others, encoderFor_of_unregistered rfl]
      split <;> rfl
  · intro encoder line otherFamily
    have unchanged : (assembler.register encoder).tables = assembler.tables := rfl
    refine assembleLine_congr_encoderFor unchanged fun instruction operands names => ?_
    rw [unchanged, sameTables] at names
    rw [encoderFor_register, if_neg (otherFamily instruction operands names).symm]
  · intro first second later line different
    exact registrations_commute assembler different later line

theorem latest_registration_encodes_second_of_three :
    let stop : Instruction := ⟨"s_endpgm".toList, .sopp, 0xBF810000⟩
    let tables : Tables := ⟨[stop], [], SouthernIslands.codes⟩
    let measuring (family : Family) (unit : UInt32) : Encoder :=
      { family
        encode := fun _ instruction operands =>
          pure (.ok ⟨instruction.baseOpcode + unit * UInt32.ofNat operands.length, none⟩) }
    let history := [measuring .sopp 1, measuring .sopp 16, measuring .vop2 1]
    let assembler := ({ tables } : Assembler).registerAll history
    let line : Text := "\ts_endpgm ,a b;end".toList
    tables.Names line stop ",a b".toList ∧
      (assembler.assembleLine line).value = some (.ok ⟨stop.mnemonic, ⟨0xBF810040, none⟩⟩) ∧
      (assembler.register (measuring .sop2 1)).assembleLine line = assembler.assembleLine line := by
  intro stop tables measuring history assembler line
  have split : splitLine line = some (stop.mnemonic, ",a b".toList) := by decide +kernel
  have names : tables.Names line stop ",a b".toList := names_of_splitLine split (by decide +kernel)
  obtain ⟨encodes, frame, _⟩ := latest_registration_encodes tables {} history
  have latest := (encodes line stop _ names).1 [measuring .sopp 1] (measuring .sopp 16)
    [measuring .vop2 1] rfl rfl (by simp [measuring, stop])
  refine ⟨names, latest, frame (measuring .sop2 1) line ?_⟩
  intro instruction operands other
  obtain ⟨_, _, _, resolved⟩ := other
  obtain rfl : instruction = stop := List.mem_singleton.mp (Tables.mem_of_resolve? resolved)
  simp [stop, measuring]

end Assembler

end ShaderAssembler

import ShaderAssembler.Proofs.LineWords

/-! The operand texts that can be encoded, and the words that they become. Nothing is assumed about
the tables: codes may be of any size, and the base word may hold bits of the operand fields. -/

namespace ShaderAssembler

namespace TwoSource

/-- The operands that the fields of a text spell, with all that they need to be encoded. -/
structure Accepted (strict : Bool) (tables : Tables) (fields : List Text)
    (operands : Operands) : Prop where
  enough : 3 ≤ fields.length
  present : ∀ position < 3, Text.wordAt fields position ≠ []
  nothingBehind : strict = true → ∀ field ∈ fields.drop 3, field.trimLineEnd = []
  destination : tables.classify (Text.wordAt fields 0) = .ok operands.destination
  source1 : tables.classify (Text.wordAt fields 1) = .ok operands.source1
  source0 : tables.classify (Text.wordAt fields 2) = .ok operands.source0
  writable : operands.destination.kind < tables.codes.sdstThreshold
  destinationCode : operands.destination.code.toNat ≤ 127
  source1Code : operands.source1.code.toNat ≤ 255
  source0Code : operands.source0.code.toNat ≤ 255
  oneLiteral : ∀ first second,
    ¬ (operands.source1.operand = .literal first ∧ operands.source0.operand = .literal second)

theorem oneLiteral_iff (operands : Operands) :
    (operands.source0.literal? = none ∨ operands.source1.literal? = none) ↔
      ∀ first second, ¬ (operands.source1.operand = .literal first ∧
        operands.source0.operand = .literal second) := by
  simp only [← ClassifiedOperand.literal?_eq_some_iff]
  cases operands.source1.literal? with
  | none => simp
  | some first => cases operands.source0.literal? <;> simp

theorem accepted_iff (strict : Bool) (tables : Tables) (fields : List Text)
    (operands : Operands) :
    Accepted strict tables fields operands ↔
      ∃ slots, Slots.ofFields strict fields = .ok slots ∧ slots.Spell tables operands ∧
        operands.Fit tables := by
  simp only [Slots.ofFields_eq_ok_iff]
  constructor
  · intro accepted
    obtain ⟨first, second, third, more, rfl⟩ : ∃ first second third more,
        fields = first :: second :: third :: more := by
      have enough := accepted.enough
      rcases fields with _ | ⟨first, _ | ⟨second, _ | ⟨third, more⟩⟩⟩
      · simp at enough
      · simp at enough
      · simp at enough
      · exact ⟨first, second, third, more, rfl⟩
    refine ⟨_, ⟨first, second, third, more, rfl, rfl, ?_, accepted.nothingBehind⟩, ?_, ?_⟩
    · exact ⟨accepted.present 0 (by omega), accepted.present 1 (by omega),
        accepted.present 2 (by omega)⟩
    · exact ⟨accepted.destination, accepted.source1, accepted.source0⟩
    · exact ⟨accepted.writable, UInt32.le_iff_toNat_le.mpr accepted.destinationCode,
        UInt32.le_iff_toNat_le.mpr accepted.source1Code,
        UInt32.le_iff_toNat_le.mpr accepted.source0Code,
        (oneLiteral_iff operands).mpr accepted.oneLiteral⟩
  · rintro ⟨slots, ⟨first, second, third, more, rfl, rfl, present, nothingBehind⟩, spell, fit⟩
    refine
      { enough := by simp
        present := ?_
        nothingBehind
        destination := spell.destination
        source1 := spell.source1
        source0 := spell.source0
        writable := fit.destinationClass
        destinationCode := UInt32.le_iff_toNat_le.mp fit.destinationCode
        source1Code := UInt32.le_iff_toNat_le.mp fit.source1Code
        source0Code := UInt32.le_iff_toNat_le.mp fit.source0Code
        oneLiteral := (oneLiteral_iff operands).mp fit.oneLiteral }
    intro position bound
    rcases (by omega : position = 0 ∨ position = 1 ∨ position = 2) with rfl | rfl | rfl
    · exact present.1
    · exact present.2.1
    · exact present.2.2

theorem Accepted.fit {strict : Bool} {tables : Tables} {fields : List Text} {operands : Operands}
    (accepted : Accepted strict tables fields operands) : operands.Fit tables := by
  obtain ⟨_, _, _, fit⟩ := (accepted_iff _ _ _ _).mp accepted
  exact fit

theorem Accepted.literal_kept {strict : Bool} {tables : Tables} {fields : List Text}
    {operands : Operands} (accepted : Accepted strict tables fields operands)
    {position : Nat} (bound : position < 3) {classified : ClassifiedOperand}
    (spelled : tables.classify (Text.wordAt fields position) = .ok classified) {value : UInt32}
    (isLiteral : classified.operand = .literal value) (baseOpcode : UInt32) :
    (operands.machineCode baseOpcode).literal = some value := by
  rw [accepted.fit.literal_eq_some_iff]
  rcases (by omega : position = 0 ∨ position = 1 ∨ position = 2) with rfl | rfl | rfl
  · rw [accepted.destination, Except.ok.injEq] at spelled
    subst spelled
    exact absurd isLiteral (accepted.fit.destination_ne_literal value)
  · rw [accepted.source1, Except.ok.injEq] at spelled
    subst spelled
    exact Or.inl isLiteral
  · rw [accepted.source0, Except.ok.injEq] at spelled
    subst spelled
    exact Or.inr isLiteral

theorem eq_machineCode_iff {tables : Tables} {operands : Operands} (fit : operands.Fit tables)
    (baseOpcode : UInt32) (code : MachineCode) :
    code = operands.machineCode baseOpcode ↔
      code.word = baseOpcode ||| (operands.destination.code <<< 16) |||
          (operands.source1.code <<< 8) ||| operands.source0.code ∧
        ∀ value, code.literal = some value ↔
          operands.source1.operand = .literal value ∨
            operands.source0.operand = .literal value := by
  simp only [← fit.literal_eq_some_iff baseOpcode]
  constructor
  · rintro rfl
    exact ⟨rfl, fun _ => Iff.rfl⟩
  · rintro ⟨word, literal⟩
    obtain ⟨codeWord, codeLiteral⟩ := code
    have sameLiteral : codeLiteral = (operands.machineCode baseOpcode).literal :=
      Option.ext literal
    rw [sameLiteral, show codeWord = (operands.machineCode baseOpcode).word from word]

/-- An operand text is encoded exactly if its operands are acceptable, and then the word and the
literal are made of them. A destination is never a literal, so no literal is lost. -/
theorem encode_accepts_exactly (strict : Bool) (tables : Tables) (instruction : Instruction)
    (text : Text) :
    let result := (encode strict tables instruction text).value
    ((∃ code, result = .ok code) ↔ ∃ operands, Accepted strict tables text.fields operands) ∧
      (∀ code, result = .ok code ↔
        ∃ operands, Accepted strict tables text.fields operands ∧
          code.word = instruction.baseOpcode ||| (operands.destination.code <<< 16) |||
            (operands.source1.code <<< 8) ||| operands.source0.code ∧
          ∀ value, code.literal = some value ↔
            operands.source1.operand = .literal value ∨
              operands.source0.operand = .literal value) ∧
      (∀ operands, Accepted strict tables text.fields operands →
        ∀ value, operands.destination.operand ≠ .literal value) ∧
      ∀ code, result = .ok code →
        ∀ position < 3, ∀ classified value,
          tables.classify (Text.wordAt text.fields position) = .ok classified →
            classified.operand = .literal value → code.literal = some value := by
  intro result
  have packed (code : MachineCode) :
      result = .ok code ↔ ∃ operands, Accepted strict tables text.fields operands ∧
        code = operands.machineCode instruction.baseOpcode := by
    simp only [result, value_encode, pack_eq_ok_iff, accepted_iff]
    constructor
    · rintro ⟨slots, operands, read, spell, fit, same⟩
      exact ⟨operands, ⟨slots, read, spell, fit⟩, same⟩
    · rintro ⟨operands, ⟨slots, read, spell, fit⟩, same⟩
      exact ⟨slots, operands, read, spell, fit, same⟩
  refine ⟨?_, ?_, fun operands accepted => accepted.fit.destination_ne_literal, ?_⟩
  · constructor
    · rintro ⟨code, succeeded⟩
      obtain ⟨operands, accepted, _⟩ := (packed code).mp succeeded
      exact ⟨operands, accepted⟩
    · rintro ⟨operands, accepted⟩
      exact ⟨_, (packed _).mpr ⟨operands, accepted, rfl⟩⟩
  · intro code
    rw [packed]
    refine exists_congr fun operands => and_congr_right fun accepted => ?_
    exact eq_machineCode_iff accepted.fit instruction.baseOpcode code
  · intro code succeeded position bound classified value spelled isLiteral
    obtain ⟨operands, accepted, rfl⟩ := (packed code).mp succeeded
    exact accepted.literal_kept bound spelled isLiteral instruction.baseOpcode

theorem encode_accepts_exactly_occupied_fields :
    let add : Instruction := ⟨"s_add_u32".toList, .sop2, 0x80010180⟩
    let tables : Tables :=
      ⟨[add], [⟨"wide".toList, 0xFFFFFFFF, .sgpr⟩],
        { SouthernIslands.codes with sdstThreshold := .literal }⟩
    let text : Text := " s5,\ts3 -17\r\n".toList
    let code : MachineCode := ⟨0x800503FF, some 0xFFFFFFEF⟩
    (encode true tables add text).value = .ok code ∧
      (∃ operands, Accepted true tables text.fields operands ∧
        operands.destination.operand ≠ .literal 0xFFFFFFEF) ∧
      tables.classify (Text.wordAt text.fields 2) = .ok ⟨.literal 0xFFFFFFEF, 255⟩ ∧
      code.literal = some 0xFFFFFFEF := by
  intro add tables text code
  obtain ⟨succeeds, _, noLiteral, kept⟩ := encode_accepts_exactly true tables add text
  have encoded : (encode true tables add text).value = .ok code := by decide +kernel
  have spelled : tables.classify (Text.wordAt text.fields 2) = .ok ⟨.literal 0xFFFFFFEF, 255⟩ := by
    decide +kernel
  obtain ⟨operands, accepted⟩ := succeeds.mp ⟨code, encoded⟩
  exact ⟨encoded, ⟨operands, accepted, noLiteral operands accepted _⟩, spelled,
    kept code encoded 2 (by omega) _ _ spelled rfl⟩

end TwoSource

end ShaderAssembler

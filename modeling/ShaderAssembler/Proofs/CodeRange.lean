import ShaderAssembler.Proofs.OperandCode
import ShaderAssembler.Proofs.Refusal
import ShaderAssembler.Proofs.TableDocument

/-! Valid tables and the fields of a word. With tables that pass validation only the code of a named
operand can be too large for its field, unless the tables let a constant be a destination. -/

namespace ShaderAssembler

namespace OperandCodes

theorem validate_eq_ok_iff_reaches (codes : OperandCodes) :
    codes.validate = .ok () ↔ ∀ reach ∈ codes.reaches, reach.2.1 ≤ reach.2.2 := by
  unfold validate
  split
  · rename_i name value limit found
    have large : value > limit := by simpa using List.find?_some found
    simp only [reduceCtorEq, false_iff, not_forall]
    exact ⟨(name, value, limit), List.mem_of_find?_eq_some found, Nat.not_le.mpr large⟩
  · rename_i found
    simpa [List.find?_eq_none] using found

theorem validate_eq_ok_iff (codes : OperandCodes) : codes.validate = .ok () ↔ codes.InRange := by
  rw [validate_eq_ok_iff_reaches]
  simp only [reaches, List.forall_mem_cons, List.not_mem_nil, false_implies, implies_true, and_true]
  constructor
  · rintro ⟨sgpr, ttmp, zero, inlinePositive, inlineNegative, literal⟩
    refine ⟨?_, zero, inlinePositive, inlineNegative, literal⟩
    intro file
    cases file with
    | sgpr => exact sgpr
    | ttmp => exact ttmp
  · intro inRange
    exact ⟨inRange.register .sgpr, inRange.register .ttmp, inRange.zero, inRange.inlinePositive,
      inRange.inlineNegative, inRange.literal⟩

namespace InRange

variable {codes : OperandCodes} (inRange : codes.InRange)
include inRange

theorem classifyIndex_ne_codeOverflow (file : RegisterFile) (index : Int) (base offset : UInt32) :
    codes.classifyIndex file index ≠ .error (.codeOverflow base offset) := by
  have highest := inRange.register file
  rw [classifyIndex]
  split
  · rw [atOffset_of_byte (by omega)]
    simp
  · simp

theorem classifyValue_ne_codeOverflow (value : Int) (base offset : UInt32) :
    codes.classifyValue value ≠ .error (.codeOverflow base offset) := by
  have positive := inRange.inlinePositive
  have negative := inRange.inlineNegative
  rw [classifyValue]
  split
  · simp
  · split
    · rw [atOffset_of_byte (by omega)]
      simp
    · split
      · rw [atOffset_of_byte (by omega)]
        simp
      · split
        · simp
        · simp

end InRange

end OperandCodes

namespace Tables

theorem inRange_of_validate {tables : Tables} (accepted : tables.validate.value = .ok ()) :
    tables.codes.InRange := by
  rw [value_validate, fault?] at accepted
  apply (OperandCodes.validate_eq_ok_iff _).mp
  cases valid : tables.codes.validate with
  | ok => rfl
  | error fault => simp [valid] at accepted

theorem entry_of_named {tables : Tables} {text : Text} {classified : ClassifiedOperand}
    (spelled : tables.classify text = .ok classified) {entry : NamedOperand}
    (named : classified.operand = .named entry) :
    entry ∈ tables.operands ∧ classified.code = entry.code := by
  obtain ⟨has, code⟩ := classify_known spelled
  rw [named] at has code
  exact ⟨has, code⟩

variable {tables : Tables} (inRange : tables.codes.InRange) {text : Text}
include inRange

theorem classify_ne_codeOverflow (base offset : UInt32) :
    tables.classify text ≠ .error (.codeOverflow base offset) := by
  rcases tables.classify_cases text with
    ⟨entry, _, same⟩ | ⟨file, index, same⟩ | ⟨file, same⟩ | ⟨value, same⟩ | same
  · simp [same]
  · rw [same]
    exact inRange.classifyIndex_ne_codeOverflow file index base offset
  · simp [same]
  · rw [same]
    exact inRange.classifyValue_ne_codeOverflow value base offset
  · simp [same]

theorem named_of_source_too_large {classified : ClassifiedOperand}
    (spelled : tables.classify text = .ok classified) (large : 255 < classified.code.toNat) :
    ∃ entry, classified.operand = .named entry := by
  by_contra unnamed
  rw [not_exists] at unnamed
  have known := classify_known spelled
  have small := inRange.codeOf_le known.has unnamed
  rw [← known.code] at small
  omega

theorem named_or_constant_of_destination_too_large {classified : ClassifiedOperand}
    (spelled : tables.classify text = .ok classified)
    (writable : classified.kind < tables.codes.sdstThreshold)
    (large : 127 < classified.code.toNat) :
    (∃ entry, classified.operand = .named entry) ∨
      (.zero < tables.codes.sdstThreshold ∧
        classified.kind ∈ [.zero, .inlinePositive, .inlineNegative]) := by
  obtain ⟨operand, code⟩ := classified
  have known := classify_known spelled
  cases operand with
  | named entry => exact Or.inl ⟨entry, rfl⟩
  | register file index =>
      have small := inRange.registerCode_le known.has
      rw [← known.code] at small
      omega
  | zero => exact Or.inr ⟨writable, by simp [ClassifiedOperand.kind, Operand.kind]⟩
  | inlinePositive value =>
      have above : 4 < tables.codes.sdstThreshold.rank := writable
      exact Or.inr ⟨show 3 < _ by omega, by simp [ClassifiedOperand.kind, Operand.kind]⟩
  | inlineNegative magnitude =>
      have above : 5 < tables.codes.sdstThreshold.rank := writable
      exact Or.inr ⟨show 3 < _ by omega, by simp [ClassifiedOperand.kind, Operand.kind]⟩
  | literal value => exact absurd writable (OperandKind.not_literal_lt _)

end Tables

namespace TwoSource

def operandPlaces : List (BitField × Nat × Nat) :=
  [(sdst, 0, 127), (ssrc1, 1, 255), (ssrc0, 2, 255)]

variable {strict : Bool} {tables : Tables} {baseOpcode : UInt32} {operands : Text}

theorem refused_of_pack {cause : EncodeError}
    (failed : pack strict tables baseOpcode operands = .error cause)
    (noneMissing : ∀ slot, cause ≠ .missingOperand slot)
    (noneTrailing : ∀ extra, cause ≠ .trailingOperand extra) :
    ∃ slots, Slots.ofFields strict operands.fields = .ok slots ∧ slots.Refused tables cause := by
  rcases (pack_eq_error_iff _ _ _ _ _).mp failed with unread | refused
  · rcases Slots.ofFields_error_cases unread with ⟨slot, same⟩ | ⟨extra, same⟩
    · exact absurd same (noneMissing slot)
    · exact absurd same (noneTrailing extra)
  · exact refused

theorem pack_ne_fieldOutsideWord (field : BitField) :
    pack strict tables baseOpcode operands ≠ .error (.fieldOutsideWord field) := by
  intro failed
  obtain ⟨slots, _, refused⟩ := refused_of_pack failed (by simp) (by simp)
  cases refused with
  | destination fault => cases fault
  | source1 _ _ _ fault => cases fault
  | source0 _ _ _ _ _ fault => cases fault

theorem exists_classify_error {slot : String} {fault : OperandError}
    (failed : pack strict tables baseOpcode operands = .error (.operand slot fault)) :
    ∃ text, tables.classify text = .error fault := by
  obtain ⟨slots, _, refused⟩ := refused_of_pack failed (by simp) (by simp)
  cases refused with
  | destination fault =>
      cases fault with
      | operand malformed => exact ⟨_, malformed⟩
  | source1 _ _ _ fault =>
      cases fault with
      | operand malformed => exact ⟨_, malformed⟩
  | source0 _ _ _ _ _ fault =>
      cases fault with
      | operand malformed => exact ⟨_, malformed⟩

theorem exists_operand_too_large {field : BitField} {code : UInt32}
    (failed : pack strict tables baseOpcode operands = .error (.codeTooLarge field code)) :
    ∃ position limit text operand, (field, position, limit) ∈ operandPlaces ∧
      operands.fields[position]? = some text ∧
      tables.classify text.trimLineEnd = .ok ⟨operand, code⟩ ∧ limit < code.toNat ∧
      (field = sdst → operand.kind < tables.codes.sdstThreshold) := by
  obtain ⟨slots, read, refused⟩ := refused_of_pack failed (by simp) (by simp)
  obtain ⟨first, second, third, more, shape, rfl, _, _⟩ := (Slots.ofFields_eq_ok_iff _ _ _).mp read
  rw [shape]
  cases refused with
  | destination fault =>
      cases fault with
      | @tooLarge destination spelled writable large =>
          exact ⟨0, 127, first, destination.operand, by simp [operandPlaces], rfl, spelled,
            large, fun _ => writable⟩
  | source1 _ _ _ fault =>
      cases fault with
      | @tooLarge source spelled _ large =>
          exact ⟨1, 255, second, source.operand, by simp [operandPlaces], rfl, spelled,
            large, by simp [ssrc1, sdst]⟩
  | source0 _ _ _ _ _ fault =>
      cases fault with
      | @tooLarge source spelled _ large =>
          exact ⟨2, 255, third, source.operand, by simp [operandPlaces], rfl, spelled,
            large, by simp [ssrc0, sdst]⟩

theorem mem_operandPlaces_cases {field : BitField} {position limit : Nat}
    (place : (field, position, limit) ∈ operandPlaces) :
    (field = sdst ∧ limit = 127) ∨ (field ≠ sdst ∧ limit = 255) := by
  simp only [operandPlaces, List.mem_cons, Prod.mk.injEq, List.not_mem_nil, or_false] at place
  rcases place with ⟨rfl, _, rfl⟩ | ⟨rfl, _, rfl⟩ | ⟨rfl, _, rfl⟩
  · exact Or.inl ⟨rfl, rfl⟩
  · exact Or.inr ⟨by decide, rfl⟩
  · exact Or.inr ⟨by decide, rfl⟩

theorem named_or_constant_of_too_large (inRange : tables.codes.InRange) {field : BitField}
    {position limit : Nat} (place : (field, position, limit) ∈ operandPlaces) {text : Text}
    {operand : Operand} {code : UInt32} (spelled : tables.classify text = .ok ⟨operand, code⟩)
    (large : limit < code.toNat)
    (writable : field = sdst → operand.kind < tables.codes.sdstThreshold) :
    (∃ entry ∈ tables.operands, operand = .named entry ∧ code = entry.code) ∨
      (field = sdst ∧ .zero < tables.codes.sdstThreshold ∧
        operand.kind ∈ [.zero, .inlinePositive, .inlineNegative]) := by
  have listed (named : ∃ entry, operand = .named entry) :
      ∃ entry ∈ tables.operands, operand = .named entry ∧ code = entry.code := by
    obtain ⟨entry, same⟩ := named
    obtain ⟨member, sameCode⟩ := Tables.entry_of_named spelled same
    exact ⟨entry, member, same, sameCode⟩
  rcases mem_operandPlaces_cases place with ⟨isDestination, rfl⟩ | ⟨_, rfl⟩
  · rcases Tables.named_or_constant_of_destination_too_large inRange spelled
      (writable isDestination) large with named | constant
    · exact Or.inl (listed named)
    · exact Or.inr ⟨isDestination, constant⟩
  · exact Or.inl (listed (Tables.named_of_source_too_large inRange spelled large))

/-- With valid tables no code leaves a word or runs over, and a code is too large for its field only
if it is the code of a name, or of a constant that the tables let be a destination. -/
theorem encode_overflow_of_valid (tables : Tables) (accepted : tables.validate.value = .ok ())
    (strict : Bool) (instruction : Instruction) (operands : Text) :
    let result := (encode strict tables instruction operands).value
    (∀ field, result ≠ .error (.fieldOutsideWord field)) ∧
      (∀ slot base offset, result ≠ .error (.operand slot (.codeOverflow base offset))) ∧
      (∀ field code, result = .error (.codeTooLarge field code) →
        ∃ position limit text operand, (field, position, limit) ∈ operandPlaces ∧
          operands.fields[position]? = some text ∧
          tables.classify text.trimLineEnd = .ok ⟨operand, code⟩ ∧
          ((∃ entry ∈ tables.operands, operand = .named entry ∧ code = entry.code ∧
              limit < entry.code.toNat) ∨
            (field = sdst ∧ .zero < tables.codes.sdstThreshold ∧
              operand.kind < tables.codes.sdstThreshold ∧
              operand.kind ∈ [.zero, .inlinePositive, .inlineNegative]))) ∧
      (tables.codes.sdstThreshold ≤ .zero → (∀ entry ∈ tables.operands, entry.code ≤ 255) →
        (∀ entry ∈ tables.operands, entry.kind < tables.codes.sdstThreshold → entry.code ≤ 127) →
          ∀ field code, result ≠ .error (.codeTooLarge field code)) := by
  intro result
  have inRange := Tables.inRange_of_validate accepted
  have packed : result = pack strict tables instruction.baseOpcode operands := value_encode ..
  rw [packed]
  refine ⟨pack_ne_fieldOutsideWord, ?_, ?_, ?_⟩
  · intro slot base offset failed
    obtain ⟨text, overflow⟩ := exists_classify_error failed
    exact Tables.classify_ne_codeOverflow inRange base offset overflow
  · intro field code failed
    obtain ⟨position, limit, text, operand, place, found, spelled, large, writable⟩ :=
      exists_operand_too_large failed
    refine ⟨position, limit, text, operand, place, found, spelled, ?_⟩
    rcases named_or_constant_of_too_large inRange place spelled large writable with
      ⟨entry, listed, named, rfl⟩ | ⟨isDestination, later, constant⟩
    · exact Or.inl ⟨entry, listed, named, rfl, large⟩
    · exact Or.inr ⟨isDestination, later, writable isDestination, constant⟩
  · intro threshold sourceCodes destinationCodes field code failed
    obtain ⟨position, limit, text, operand, place, found, spelled, large, writable⟩ :=
      exists_operand_too_large failed
    rcases named_or_constant_of_too_large inRange place spelled large writable with
      ⟨entry, listed, rfl, rfl⟩ | ⟨_, later, _⟩
    · rcases mem_operandPlaces_cases place with ⟨isDestination, rfl⟩ | ⟨_, rfl⟩
      · have small := destinationCodes entry listed (writable isDestination)
        exact absurd (UInt32.le_iff_toNat_le.mp small) (Nat.not_le.mpr large)
      · have small := sourceCodes entry listed
        exact absurd (UInt32.le_iff_toNat_le.mp small) (Nat.not_le.mpr large)
    · exact absurd threshold (Nat.not_le.mpr later)

theorem encode_overflow_of_valid_zero_destination :
    let add : Instruction := ⟨"s_add_u32".toList, .sop2, 0x80000000⟩
    let tables : OperandKind → Tables := fun sdstThreshold =>
      ⟨[add], SouthernIslands.operands, { SouthernIslands.codes with sdstThreshold }⟩
    let loose := tables .inlinePositive
    let tight := tables .zero
    loose.validate.value = .ok () ∧
      (encode true loose add "0, s0, s1".toList).value = .error (.codeTooLarge sdst 128) ∧
      (∃ text ∈ Text.fields "0, s0, s1".toList, ∃ operand,
        loose.classify text.trimLineEnd = .ok ⟨operand, 128⟩ ∧
          ((∃ entry ∈ loose.operands, operand = .named entry) ∨
            operand.kind ∈ [.zero, .inlinePositive, .inlineNegative])) ∧
      tight.validate.value = .ok () ∧
      ∀ field code, (encode true tight add "exec_hi, 64, -16".toList).value ≠
        .error (.codeTooLarge field code) := by
  intro add tables loose tight
  have looseValid : loose.validate.value = .ok () := by decide +kernel
  have tightValid : tight.validate.value = .ok () := by decide +kernel
  have failed : (encode true loose add "0, s0, s1".toList).value =
      .error (.codeTooLarge sdst 128) := by
    with_unfolding_all rfl
  obtain ⟨position, limit, text, operand, _, found, spelled, cause⟩ :=
    (encode_overflow_of_valid loose looseValid true add _).2.2.1 sdst 128 failed
  refine ⟨looseValid, failed, ⟨text, List.mem_of_getElem? found, operand, spelled, ?_⟩,
    tightValid, ?_⟩
  · rcases cause with ⟨entry, listed, named, _⟩ | ⟨_, _, _, constant⟩
    · exact Or.inl ⟨entry, listed, named⟩
    · exact Or.inr constant
  · exact (encode_overflow_of_valid tight tightValid true add _).2.2.2
      (by decide) (by decide +kernel) (by decide +kernel)

end TwoSource

end ShaderAssembler

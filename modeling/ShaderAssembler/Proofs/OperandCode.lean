import ShaderAssembler.Disassembly.Binary
import ShaderAssembler.Tables.SouthernIslands

/-! The codes of operands. Whatever text is classified, the operand is one that the tables have,
and its code is the one that belongs to it. In the built-in tables no two operands share a code,
so the operand can be found from its code. -/

namespace ShaderAssembler

def OperandCodes.codeOf (codes : OperandCodes) : Operand → UInt32
  | .named entry => entry.code
  | .register file index => codes.registerBase file + UInt32.ofNat index
  | .zero => codes.zero
  | .inlinePositive value => codes.inlinePositiveBase + UInt32.ofNat (value - 1)
  | .inlineNegative magnitude => codes.inlineNegativeBase + UInt32.ofNat (magnitude - 1)
  | .literal _ => codes.literal

def Tables.Has (tables : Tables) : Operand → Prop
  | .named entry => entry ∈ tables.operands
  | .register file index => index ≤ (tables.codes.registerMax file).toNat
  | .zero => True
  | .inlinePositive value => 1 ≤ value ∧ value ≤ 64
  | .inlineNegative magnitude => 1 ≤ magnitude ∧ magnitude ≤ 16
  | .literal _ => True

structure Tables.Knows (tables : Tables) (classified : ClassifiedOperand) : Prop where
  has : tables.Has classified.operand
  code : classified.code = tables.codes.codeOf classified.operand

namespace OperandCodes

theorem atOffset_eq_ok_iff (operand : Operand) (base : UInt32) (offset : Nat)
    (classified : ClassifiedOperand) :
    atOffset operand base offset = .ok classified ↔
      base.toNat + offset < UInt32.size ∧ classified = ⟨operand, base + UInt32.ofNat offset⟩ := by
  unfold atOffset
  by_cases fits : base.toNat + offset < UInt32.size
  · rw [if_pos fits]
    constructor
    · intro same
      exact ⟨fits, (Except.ok.inj same).symm⟩
    · rintro ⟨_, rfl⟩
      rfl
  · rw [if_neg fits]
    constructor
    · intro same
      exact nomatch same
    · rintro ⟨small, _⟩
      exact absurd small fits

theorem lt_size_of_byte {offset : Nat} (byte : offset ≤ 255) : offset < UInt32.size :=
  Nat.lt_of_le_of_lt byte (by decide)

theorem atOffset_of_byte {operand : Operand} {base : UInt32} {offset : Nat}
    (byte : base.toNat + offset ≤ 255) :
    atOffset operand base offset = .ok ⟨operand, base + UInt32.ofNat offset⟩ := by
  exact (atOffset_eq_ok_iff _ _ _ _).mpr ⟨lt_size_of_byte byte, rfl⟩

theorem toNat_add_ofNat_of_lt {base : UInt32} {offset : Nat}
    (fits : base.toNat + offset < UInt32.size) :
    (base + UInt32.ofNat offset).toNat = base.toNat + offset := by
  rw [UInt32.toNat_add, UInt32.toNat_ofNat']
  change base.toNat + offset < 4294967296 at fits
  omega

theorem toNat_add_ofNat {base : UInt32} {offset : Nat} (byte : base.toNat + offset ≤ 255) :
    (base + UInt32.ofNat offset).toNat = base.toNat + offset :=
  toNat_add_ofNat_of_lt (lt_size_of_byte byte)

theorem classifyIndex_known (tables : Tables) {file : RegisterFile} {index : Int}
    {classified : ClassifiedOperand}
    (found : tables.codes.classifyIndex file index = .ok classified) :
    tables.Knows classified := by
  simp only [classifyIndex] at found
  split at found
  · rename_i bounds
    obtain ⟨_, rfl⟩ := (atOffset_eq_ok_iff _ _ _ _).mp found
    exact ⟨by simp only [Tables.Has]; omega, rfl⟩
  · simp at found

theorem classifyValue_known (tables : Tables) {value : Int} {classified : ClassifiedOperand}
    (found : tables.codes.classifyValue value = .ok classified) : tables.Knows classified := by
  simp only [classifyValue] at found
  split at found
  · obtain rfl := Except.ok.inj found
    exact ⟨trivial, rfl⟩
  · split at found
    · obtain ⟨_, rfl⟩ := (atOffset_eq_ok_iff _ _ _ _).mp found
      exact ⟨by simp only [Tables.Has]; omega, rfl⟩
    · split at found
      · obtain ⟨_, rfl⟩ := (atOffset_eq_ok_iff _ _ _ _).mp found
        exact ⟨by simp only [Tables.Has]; omega, rfl⟩
      · split at found
        · obtain rfl := Except.ok.inj found
          exact ⟨trivial, rfl⟩
        · simp at found

end OperandCodes

namespace Tables

/-- A text is a name, or is read as a register or a number, or makes no sense as the one that it
starts like. -/
theorem classify_cases (tables : Tables) (text : Text) :
    (∃ entry ∈ tables.operands, tables.classify text = .ok ⟨.named entry, entry.code⟩) ∨
      (∃ file index, tables.classify text = tables.codes.classifyIndex file index) ∨
      (∃ file, tables.classify text = .error (.malformedRegister file text)) ∨
      (∃ value, tables.classify text = tables.codes.classifyValue value) ∨
      tables.classify text = .error (.malformedNumber text) := by
  have ofNumber (number : tables.classify text = tables.codes.classifyNumber text) :
      (∃ value, tables.classify text = tables.codes.classifyValue value) ∨
        tables.classify text = .error (.malformedNumber text) := by
    rw [number, OperandCodes.classifyNumber]
    cases readNumber : OperandCodes.readNumber? text with
    | none => exact Or.inr rfl
    | some value => exact Or.inl ⟨value, rfl⟩
  cases named : NamedOperand.find? tables.operands text with
  | some entry =>
      have found : tables.classify text = .ok ⟨.named entry, entry.code⟩ := by
        rw [classify, ShaderAssembler.classify, named]
      exact Or.inl ⟨entry, List.mem_of_find?_eq_some named, found⟩
  | none =>
      have unnamed : tables.classify text = tables.codes.classifyUnnamed text := by
        rw [classify, ShaderAssembler.classify, named]
      right
      cases text with
      | nil => exact Or.inr (Or.inr (ofNumber unnamed))
      | cons letter digits =>
          rw [OperandCodes.classifyUnnamed] at unnamed
          cases isRegister : RegisterFile.ofLetter? letter with
          | none =>
              rw [isRegister] at unnamed
              exact Or.inr (Or.inr (ofNumber unnamed))
          | some file =>
              rw [isRegister] at unnamed
              simp only [OperandCodes.classifyRegister] at unnamed
              cases readIndex : readInt64? 10 digits with
              | none =>
                  rw [readIndex] at unnamed
                  exact Or.inr (Or.inl ⟨file, unnamed⟩)
              | some index =>
                  rw [readIndex] at unnamed
                  exact Or.inl ⟨file, index, unnamed⟩

theorem classify_known {tables : Tables} {text : Text} {classified : ClassifiedOperand}
    (found : tables.classify text = .ok classified) : tables.Knows classified := by
  rcases tables.classify_cases text with
    ⟨entry, listed, same⟩ | ⟨file, index, same⟩ | ⟨file, same⟩ | ⟨value, same⟩ | same
  · obtain rfl := Except.ok.inj (same.symm.trans found)
    exact ⟨listed, rfl⟩
  · exact OperandCodes.classifyIndex_known tables (same.symm.trans found)
  · cases same.symm.trans found
  · exact OperandCodes.classifyValue_known tables (same.symm.trans found)
  · cases same.symm.trans found

end Tables

/-- The codes that can be reached from the bases fit their fields. Registers can be destinations, so
they have to fit the narrower field. -/
structure OperandCodes.InRange (codes : OperandCodes) : Prop where
  register : ∀ file, (codes.registerBase file).toNat + (codes.registerMax file).toNat ≤ 127
  zero : codes.zero.toNat ≤ 255
  inlinePositive : codes.inlinePositiveBase.toNat + 63 ≤ 255
  inlineNegative : codes.inlineNegativeBase.toNat + 15 ≤ 255
  literal : codes.literal.toNat ≤ 255

namespace OperandCodes.InRange

variable {tables : Tables} (inRange : tables.codes.InRange)
include inRange

theorem registerCode_le {file : RegisterFile} {index : Nat}
    (has : tables.Has (.register file index)) :
    (tables.codes.codeOf (.register file index)).toNat ≤ 127 := by
  have highest := inRange.register file
  have bound : index ≤ (tables.codes.registerMax file).toNat := has
  rw [codeOf, toNat_add_ofNat (by omega)]
  omega

theorem codeOf_le {operand : Operand} (has : tables.Has operand)
    (unnamed : ∀ entry, operand ≠ .named entry) : (tables.codes.codeOf operand).toNat ≤ 255 := by
  cases operand with
  | named entry => exact absurd rfl (unnamed entry)
  | register file index => exact Nat.le_trans (inRange.registerCode_le has) (by omega)
  | zero => exact inRange.zero
  | inlinePositive value =>
      have highest := inRange.inlinePositive
      have upper : value ≤ 64 := has.2
      rw [codeOf, toNat_add_ofNat (by omega)]
      omega
  | inlineNegative magnitude =>
      have highest := inRange.inlineNegative
      have upper : magnitude ≤ 16 := has.2
      rw [codeOf, toNat_add_ofNat (by omega)]
      omega
  | literal value => exact inRange.literal

end OperandCodes.InRange

namespace SouthernIslands

theorem codes_inRange : Tables.southernIslands.codes.InRange where
  register file := by cases file <;> decide
  zero := by decide
  inlinePositive := by decide
  inlineNegative := by decide
  literal := by decide

theorem toNat_registerCode {file : RegisterFile} {index : Nat}
    (bound : index ≤ (codes.registerMax file).toNat) :
    (codes.codeOf (.register file index)).toNat = (codes.registerBase file).toNat + index := by
  have highest : (codes.registerBase file).toNat + (codes.registerMax file).toNat ≤ 127 :=
    codes_inRange.register file
  exact OperandCodes.toNat_add_ofNat (by omega)

theorem toNat_positiveCode {value : Nat} (lower : 1 ≤ value) (upper : value ≤ 64) :
    (codes.codeOf (.inlinePositive value)).toNat = 128 + value := by
  have base : codes.inlinePositiveBase.toNat = 129 := rfl
  rw [OperandCodes.codeOf, OperandCodes.toNat_add_ofNat (by omega), base]
  omega

theorem toNat_negativeCode {magnitude : Nat} (lower : 1 ≤ magnitude) (upper : magnitude ≤ 16) :
    (codes.codeOf (.inlineNegative magnitude)).toNat = 192 + magnitude := by
  have base : codes.inlineNegativeBase.toNat = 193 := rfl
  rw [OperandCodes.codeOf, OperandCodes.toNat_add_ofNat (by omega), base]
  omega

theorem named_code_le : ∀ entry ∈ operands, entry.code.toNat ≤ 255 ∧
    (entry.kind = .specialRegister → entry.code.toNat ≤ 127) := by
  decide +kernel

theorem registerCode_le {file : RegisterFile} {index : Nat}
    (bound : index ≤ (codes.registerMax file).toNat) :
    (codes.codeOf (.register file index)).toNat ≤ 127 :=
  codes_inRange.registerCode_le bound

theorem code_le {operand : Operand} (has : Tables.southernIslands.Has operand) :
    codes.codeOf operand ≤ 255 := by
  apply UInt32.le_iff_toNat_le.mpr
  change (Tables.southernIslands.codes.codeOf operand).toNat ≤ 255
  by_cases named : ∃ entry, operand = .named entry
  · obtain ⟨entry, rfl⟩ := named
    exact (named_code_le entry has).1
  · exact codes_inRange.codeOf_le has fun entry same => named ⟨entry, same⟩

theorem operandOf?_of_ne_literal {code : UInt32} (different : code ≠ codes.literal)
    (literal : Option UInt32) :
    Tables.southernIslands.operandOf? literal code =
      (codes.register? .sgpr code).or ((codes.register? .ttmp code).or
        ((codes.constant? code).or
          ((operands.find? fun entry => entry.code = code).map .named))) :=
  if_neg different

/-- The codes of the named operands are their own: no register, no constant, no literal and no
other name has them. -/
theorem named_code : ∀ entry ∈ operands,
    entry.code ≠ codes.literal ∧ codes.register? .sgpr entry.code = none ∧
      codes.register? .ttmp entry.code = none ∧ codes.constant? entry.code = none ∧
      operands.find? (fun other => other.code = entry.code) = some entry := by
  decide +kernel

theorem ne_literal_of_toNat {code : UInt32} (below : code.toNat < 255) : code ≠ codes.literal := by
  rintro rfl
  simp [codes] at below

theorem register?_eq_some {file : RegisterFile} {index : Nat} {code : UInt32}
    (value : code.toNat = (codes.registerBase file).toNat + index)
    (bound : index ≤ (codes.registerMax file).toNat) :
    codes.register? file code = some (.register file index) := by
  have inside : (codes.registerBase file).toNat ≤ code.toNat ∧
      code.toNat ≤ (codes.registerBase file).toNat + (codes.registerMax file).toNat := by omega
  rw [OperandCodes.register?, if_pos inside, value, Nat.add_sub_cancel_left]

theorem register?_eq_none {file : RegisterFile} {code : UInt32}
    (outside : code.toNat < (codes.registerBase file).toNat ∨
      (codes.registerBase file).toNat + (codes.registerMax file).toNat < code.toNat) :
    codes.register? file code = none := by
  rw [OperandCodes.register?, if_neg (by omega)]

theorem constant?_positive {value : Nat} (lower : 1 ≤ value) (upper : value ≤ 64) {code : UInt32}
    (shifted : code.toNat = 128 + value) : codes.constant? code = some (.inlinePositive value) := by
  have base : codes.inlinePositiveBase.toNat = 129 := rfl
  have nonzero : code ≠ codes.zero := by
    rintro rfl
    simp [codes] at shifted
    omega
  have offset : code.toNat - 129 + 1 = value := by omega
  rw [OperandCodes.constant?, if_neg nonzero, if_pos (by omega), base, offset]

theorem constant?_negative {magnitude : Nat} (lower : 1 ≤ magnitude) (upper : magnitude ≤ 16)
    {code : UInt32} (shifted : code.toNat = 192 + magnitude) :
    codes.constant? code = some (.inlineNegative magnitude) := by
  have positive : codes.inlinePositiveBase.toNat = 129 := rfl
  have negative : codes.inlineNegativeBase.toNat = 193 := rfl
  have nonzero : code ≠ codes.zero := by
    rintro rfl
    simp [codes] at shifted
    omega
  have offset : code.toNat - 193 + 1 = magnitude := by omega
  rw [OperandCodes.constant?, if_neg nonzero, if_neg (by omega), if_pos (by omega), negative,
    offset]

theorem operandOf?_codeOf {operand : Operand} (has : Tables.southernIslands.Has operand)
    (literal : Option UInt32) (held : ∀ value, operand = .literal value → literal = some value) :
    Tables.southernIslands.operandOf? literal (codes.codeOf operand) = some operand := by
  have sgprBase : (codes.registerBase .sgpr).toNat = 0 := rfl
  have sgprMax : (codes.registerMax .sgpr).toNat = 103 := rfl
  have ttmpBase : (codes.registerBase .ttmp).toNat = 112 := rfl
  have ttmpMax : (codes.registerMax .ttmp).toNat = 11 := rfl
  cases operand with
  | named entry =>
      obtain ⟨different, noSgpr, noTtmp, noConstant, found⟩ := named_code entry has
      rw [OperandCodes.codeOf, operandOf?_of_ne_literal different, noSgpr, noTtmp, noConstant, found]
      rfl
  | register file index =>
      have bound : index ≤ (codes.registerMax file).toNat := has
      have value := toNat_registerCode bound
      cases file with
      | sgpr =>
          rw [operandOf?_of_ne_literal (ne_literal_of_toNat (by omega)),
            register?_eq_some value bound, Option.some_or]
      | ttmp =>
          rw [operandOf?_of_ne_literal (ne_literal_of_toNat (by omega)),
            register?_eq_none (Or.inr (by omega)), register?_eq_some value bound, Option.none_or,
            Option.some_or]
  | zero => rfl
  | inlinePositive value =>
      obtain ⟨lower, upper⟩ := has
      have shifted := toNat_positiveCode lower upper
      rw [operandOf?_of_ne_literal (ne_literal_of_toNat (by omega)),
        register?_eq_none (Or.inr (by omega)), register?_eq_none (Or.inr (by omega)),
        constant?_positive lower upper shifted]
      rfl
  | inlineNegative magnitude =>
      obtain ⟨lower, upper⟩ := has
      have shifted := toNat_negativeCode lower upper
      rw [operandOf?_of_ne_literal (ne_literal_of_toNat (by omega)),
        register?_eq_none (Or.inr (by omega)), register?_eq_none (Or.inr (by omega)),
        constant?_negative lower upper shifted]
      rfl
  | literal value =>
      rw [held value rfl]
      rfl

theorem codeOf_eq_literal_iff {operand : Operand} (has : Tables.southernIslands.Has operand) :
    codes.codeOf operand = codes.literal ↔ operand.literal? ≠ none := by
  constructor
  · intro same notLiteral
    have found := operandOf?_codeOf has none fun value equal => by
      simp [equal, Operand.literal?] at notLiteral
    have missing : Tables.southernIslands.operandOf? none codes.literal = none := rfl
    rw [same, missing] at found
    exact nomatch found
  · intro isLiteral
    cases operand with
    | literal => rfl
    | _ => exact absurd rfl isLiteral

end SouthernIslands

end ShaderAssembler

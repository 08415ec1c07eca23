import ShaderAssembler.Encoder.Statement
import ShaderAssembler.Proofs.Line
import ShaderAssembler.Proofs.Numeral
import ShaderAssembler.Proofs.OperandGrammar

/-! Canonical spelling. With the built-in tables every operand is read back from its canonical
spelling, and every instruction from its canonical line. -/

namespace ShaderAssembler

namespace Text

def breaks : List Char :=
  fieldDelimiters ++ [';', '\n', '\r']

structure IsWord (text : Text) : Prop where
  nonempty : text ≠ []
  plain : ∀ character ∈ text, character ∉ breaks

instance (text : Text) : Decidable text.IsWord :=
  decidable_of_iff (text ≠ [] ∧ text.all (· ∉ breaks) = true)
    ⟨fun word => ⟨word.1, by simpa using word.2⟩,
      fun word => ⟨word.nonempty, by simpa using word.plain⟩⟩

theorem IsWord.solid {text : Text} (word : text.IsWord) : text.Solid := by
  intro character member delimiter
  exact word.plain character member (List.mem_append_left _ delimiter)

theorem IsWord.fields {text : Text} (word : text.IsWord) : text.fields = [text] :=
  fields_solid word.nonempty word.solid

theorem IsWord.trimLineEnd {text : Text} (word : text.IsWord) : text.trimLineEnd = text := by
  apply trimLineEnd_eq_self
  intro character member
  have plain := word.plain character member
  constructor
  · rintro rfl
    exact plain (by decide)
  · rintro rfl
    exact plain (by decide)

theorem IsWord.noComment {text : Text} (word : text.IsWord) : ';' ∉ text :=
  fun member => word.plain ';' member (by decide)

theorem isDigit_of_mem_breaks : ∀ character ∈ breaks, character.isDigit = false := by
  have none : breaks.all (!·.isDigit) = true := by decide
  simpa using none

theorem isWord_of_digits {digits : Text} (nonempty : digits ≠ [])
    (digit : ∀ character ∈ digits, character.isDigit = true) : digits.IsWord := by
  refine ⟨nonempty, ?_⟩
  intro character member excluded
  have notDigit := isDigit_of_mem_breaks character excluded
  rw [digit character member] at notDigit
  exact nomatch notDigit

theorem IsWord.cons {first : Char} {rest : Text} (plain : first ∉ breaks) (word : rest.IsWord) :
    IsWord (first :: rest) := by
  refine ⟨by simp, ?_⟩
  intro character member
  rcases List.mem_cons.mp member with rfl | inRest
  · exact plain
  · exact word.plain character inRest

end Text

theorem TwoSource.Statement.fields_text {statement : TwoSource.Statement}
    (mnemonic : statement.mnemonic.IsWord) (destination : statement.destination.spell.IsWord)
    (source1 : statement.source1.spell.IsWord) (source0 : statement.source0.spell.IsWord) :
    statement.text.stripComment.fields =
      [statement.mnemonic, statement.destination.spell, statement.source1.spell,
        statement.source0.spell] := by
  have noComment : ';' ∉ statement.text := by
    simp [Statement.text, mnemonic.noComment, destination.noComment, source1.noComment,
      source0.noComment]
  have comma : ',' ∈ Text.fieldDelimiters := by decide
  have space : ' ' ∈ Text.fieldDelimiters := by decide
  rw [Text.stripComment_eq_self noComment, Statement.text]
  simp only [List.append_assoc, List.cons_append, Text.fields_append_delimiter comma,
    Text.fields_append_delimiter space, Text.fields_delimiter space, mnemonic.fields,
    destination.fields, source1.fields, source0.fields, List.nil_append]

namespace SouthernIslands

/-- Whether a text is spelled like a number or a register: a digit, a sign or the letter of a
register file, and only digits behind it. -/
def isNumbered : Text → Bool
  | [] => false
  | first :: rest => (['s', 't', '-'].contains first || first.isDigit) && rest.all Char.isDigit

theorem isNumbered_of_append {left right : Text} (nonempty : left ≠ [])
    (numbered : isNumbered (left ++ right) = true) : isNumbered left = true := by
  cases left with
  | nil => exact absurd rfl nonempty
  | cons first rest =>
      rw [List.cons_append, isNumbered, List.all_append, Bool.and_eq_true, Bool.and_eq_true]
        at numbered
      rw [isNumbered, Bool.and_eq_true]
      exact ⟨numbered.1, numbered.2.1⟩

theorem name_not_numbered : ∀ entry ∈ operands,
    entry.name ≠ [] ∧ isNumbered entry.name = false := by
  decide +kernel

theorem unnamed_of_numbered {text : Text} (numbered : isNumbered text = true) :
    Unnamed operands text := by
  rintro entry member ⟨rest, rfl⟩
  obtain ⟨nonempty, notNumbered⟩ := name_not_numbered entry member
  rw [isNumbered_of_append nonempty numbered] at notNumbered
  exact nomatch notNumbered

theorem find?_name : ∀ entry ∈ operands, NamedOperand.find? operands entry.name = some entry := by
  decide +kernel

theorem all_isDigit_decimal (value : Nat) : (decimal value).all Char.isDigit = true := by
  rw [List.all_eq_true]
  exact fun _ member => isDigit_of_mem_decimal member

theorem isNumbered_decimal (value : Nat) : isNumbered (decimal value) = true := by
  have digits := all_isDigit_decimal value
  cases spelled : decimal value with
  | nil => exact absurd spelled (decimal_ne_nil value)
  | cons first rest =>
      rw [spelled, List.all_cons, Bool.and_eq_true] at digits
      rw [isNumbered, digits.1, digits.2, Bool.or_true, Bool.and_true]

theorem isNumbered_cons {first : Char} (letter : ['s', 't', '-'].contains first = true)
    (value : Nat) : isNumbered (first :: decimal value) = true := by
  rw [isNumbered, letter, all_isDigit_decimal, Bool.true_or, Bool.and_true]

theorem readNumber?_decimal {value : Nat} (small : value < 2 ^ 63) :
    OperandCodes.readNumber? (decimal value) = some (value : Int) := by
  unfold OperandCodes.readNumber?
  split
  · rename_i shape
    have digit := isDigit_of_mem_decimal (show 'x' ∈ decimal value by simp [shape])
    exact absurd digit (by decide)
  · exact readInt64?_decimal small

theorem readNumber?_negative {value : Nat} (small : value ≤ 2 ^ 63) :
    OperandCodes.readNumber? ('-' :: decimal value) = some (-(value : Int)) :=
  readInt64?_negative small

theorem classify_numbered {text : Text} (numbered : isNumbered text = true) :
    Tables.southernIslands.classify text = codes.classifyUnnamed text :=
  classify_of_unnamed (unnamed_of_numbered numbered) codes

theorem classify_number {first : Char} {rest : Text} {value : Int}
    (numbered : isNumbered (first :: rest) = true) (notRegister : RegisterFile.ofLetter? first = none)
    (read : OperandCodes.readNumber? (first :: rest) = some value) :
    Tables.southernIslands.classify (first :: rest) = codes.classifyValue value := by
  rw [classify_numbered numbered]
  simp only [OperandCodes.classifyUnnamed, notRegister, OperandCodes.classifyNumber, read]

theorem ofLetter?_digit {first : Char} (digit : first.isDigit = true) :
    RegisterFile.ofLetter? first = none := by
  unfold RegisterFile.ofLetter?
  rw [if_neg, if_neg]
  · rintro (rfl | rfl) <;> exact absurd digit (by decide)
  · rintro (rfl | rfl) <;> exact absurd digit (by decide)

theorem classify_decimal {value : Nat} (small : value < 2 ^ 63) :
    Tables.southernIslands.classify (decimal value) = codes.classifyValue value := by
  have numbered := isNumbered_decimal value
  have read := readNumber?_decimal small
  cases spelled : decimal value with
  | nil => exact absurd spelled (decimal_ne_nil value)
  | cons first rest =>
      have digit := isDigit_of_mem_decimal (show first ∈ decimal value by simp [spelled])
      rw [spelled] at numbered read
      exact classify_number numbered (ofLetter?_digit digit) read

theorem classify_negative {value : Nat} (small : value ≤ 2 ^ 63) :
    Tables.southernIslands.classify ('-' :: decimal value) = codes.classifyValue (-(value : Int)) :=
  classify_number (isNumbered_cons (by decide) value) (by decide) (readNumber?_negative small)

theorem classify_register {file : RegisterFile} {index : Nat}
    (bound : index ≤ (codes.registerMax file).toNat) :
    Tables.southernIslands.classify (file.letter :: decimal index) =
      .ok ⟨.register file index, codes.codeOf (.register file index)⟩ := by
  have limit : (codes.registerMax file).toNat ≤ 103 := by cases file <;> decide
  have byte : (codes.registerBase file).toNat + index ≤ 255 := by
    have base : (codes.registerBase file).toNat ≤ 112 := by cases file <;> decide
    omega
  have letter : RegisterFile.ofLetter? file.letter = some file := by cases file <;> rfl
  have read : readInt64? 10 (decimal index) = some (index : Int) := readInt64?_decimal (by omega)
  have inside : (0 : Int) ≤ index ∧ (index : Int) ≤ 255 ∧
      (index : Int) ≤ (codes.registerMax file).toNat := by omega
  rw [classify_numbered (isNumbered_cons (by cases file <;> decide) index)]
  simp only [OperandCodes.classifyUnnamed, letter, OperandCodes.classifyRegister, read,
    OperandCodes.classifyIndex, inside, and_self, if_true, Int.toNat_natCast]
  exact OperandCodes.atOffset_of_byte byte

/-- The operands that can stand as a source. A literal is one only if it is too large for an
inline constant. -/
structure IsSource (operand : Operand) : Prop where
  has : Tables.southernIslands.Has operand
  large : ∀ value, operand = .literal value → 65 ≤ value.toNat

theorem classify_spell {operand : Operand} (source : IsSource operand) :
    Tables.southernIslands.classify operand.spell = .ok ⟨operand, codes.codeOf operand⟩ := by
  obtain ⟨has, large⟩ := source
  cases operand with
  | named entry =>
      have found : NamedOperand.find? Tables.southernIslands.operands entry.name = some entry :=
        find?_name entry has
      simp only [Operand.spell, Tables.classify, classify, found]
      rfl
  | register file index => exact classify_register has
  | zero => rfl
  | inlinePositive value =>
      obtain ⟨lower, upper⟩ := has
      have byte : codes.inlinePositiveBase.toNat + ((value : Int).toNat - 1) ≤ 255 := by
        have base : codes.inlinePositiveBase.toNat = 129 := rfl
        omega
      rw [Operand.spell, classify_decimal (by omega), OperandCodes.classifyValue,
        if_neg (by omega), if_pos (by omega)]
      exact OperandCodes.atOffset_of_byte byte
  | inlineNegative magnitude =>
      obtain ⟨lower, upper⟩ := has
      have byte : codes.inlineNegativeBase.toNat + ((-(magnitude : Int)).natAbs - 1) ≤ 255 := by
        have base : codes.inlineNegativeBase.toNat = 193 := rfl
        omega
      rw [Operand.spell, classify_negative (by omega), OperandCodes.classifyValue,
        if_neg (by omega), if_neg (by omega), if_pos (by omega)]
      rw [OperandCodes.atOffset_of_byte byte, Int.natAbs_neg, Int.natAbs_natCast]
      rfl
  | literal value =>
      have lower := large value rfl
      have upper := value.toNat_lt
      have same : UInt32.ofInt (value.toNat : Int) = value := by
        have reduced : ((value.toNat : Int) % 2 ^ 32).toNat = value.toNat := by omega
        rw [UInt32.ofInt, reduced, UInt32.ofNat_toNat]
      rw [Operand.spell, classify_decimal (by omega), OperandCodes.classifyValue,
        if_neg (by omega), if_neg (by omega), if_neg (by omega), if_pos (by omega), same]
      rfl

theorem isWord_name : ∀ entry ∈ operands, entry.name.IsWord := by
  decide +kernel

theorem isWord_mnemonic : ∀ instruction ∈ instructions, instruction.mnemonic.IsWord := by
  decide +kernel

theorem isWord_decimal (value : Nat) : (decimal value).IsWord :=
  Text.isWord_of_digits (decimal_ne_nil value) fun _ member => isDigit_of_mem_decimal member

theorem isWord_spell {operand : Operand} (has : Tables.southernIslands.Has operand) :
    operand.spell.IsWord := by
  cases operand with
  | named entry => exact isWord_name entry has
  | register file index => exact Text.IsWord.cons (by cases file <;> decide) (isWord_decimal index)
  | zero => exact isWord_decimal 0
  | inlinePositive value => exact isWord_decimal value
  | inlineNegative magnitude => exact Text.IsWord.cons (by decide) (isWord_decimal magnitude)
  | literal value => exact isWord_decimal value.toNat

theorem resolve?_mnemonic : ∀ instruction ∈ instructions,
    Tables.southernIslands.resolve? instruction.mnemonic = some instruction := by
  decide +kernel

def IsDestination : Operand → Prop
  | .named entry => entry ∈ operands ∧ entry.kind = .specialRegister
  | .register file index => index ≤ (codes.registerMax file).toNat
  | _ => False

theorem IsDestination.isSource {operand : Operand} (destination : IsDestination operand) :
    IsSource operand := by
  cases operand with
  | named entry => exact ⟨destination.1, nofun⟩
  | register file index => exact ⟨destination, nofun⟩
  | _ => exact destination.elim

theorem IsDestination.kind_lt {operand : Operand} (destination : IsDestination operand) :
    operand.kind < codes.sdstThreshold := by
  cases operand with
  | named entry =>
      rw [Operand.kind, destination.2]
      decide
  | register file index =>
      change file.kind < codes.sdstThreshold
      cases file <;> decide
  | _ => exact destination.elim

theorem IsDestination.code_le {operand : Operand} (destination : IsDestination operand) :
    codes.codeOf operand ≤ 127 := by
  apply UInt32.le_iff_toNat_le.mpr
  change (codes.codeOf operand).toNat ≤ 127
  cases operand with
  | named entry => exact (named_code_le entry destination.1).2 destination.2
  | register file index => exact registerCode_le destination
  | _ => exact destination.elim

structure WellFormed (instruction : Instruction) (statement : TwoSource.Statement) : Prop where
  listed : instruction ∈ instructions
  encodable : instruction.family = .sop2
  mnemonic : statement.mnemonic = instruction.mnemonic
  destination : IsDestination statement.destination
  source1 : IsSource statement.source1
  source0 : IsSource statement.source0
  oneLiteral : statement.source1.literal? = none ∨ statement.source0.literal? = none

def operandsOf (statement : TwoSource.Statement) : TwoSource.Operands where
  destination := ⟨statement.destination, codes.codeOf statement.destination⟩
  source1 := ⟨statement.source1, codes.codeOf statement.source1⟩
  source0 := ⟨statement.source0, codes.codeOf statement.source0⟩

variable {instruction : Instruction} {statement : TwoSource.Statement}

theorem WellFormed.fit (wellFormed : WellFormed instruction statement) :
    (operandsOf statement).Fit .southernIslands where
  destinationClass := wellFormed.destination.kind_lt
  destinationCode := wellFormed.destination.code_le
  source1Code := code_le wellFormed.source1.has
  source0Code := code_le wellFormed.source0.has
  oneLiteral := wellFormed.oneLiteral.symm

theorem WellFormed.isWord_mnemonic (wellFormed : WellFormed instruction statement) :
    statement.mnemonic.IsWord := by
  rw [wellFormed.mnemonic]
  exact SouthernIslands.isWord_mnemonic instruction wellFormed.listed

theorem WellFormed.fields (wellFormed : WellFormed instruction statement) :
    statement.text.stripComment.fields =
      [statement.mnemonic, statement.destination.spell, statement.source1.spell,
        statement.source0.spell] := by
  apply TwoSource.Statement.fields_text wellFormed.isWord_mnemonic
  · exact isWord_spell wellFormed.destination.isSource.has
  · exact isWord_spell wellFormed.source1.has
  · exact isWord_spell wellFormed.source0.has

theorem WellFormed.read (wellFormed : WellFormed instruction statement) (strict : Bool) :
    TwoSource.Slots.ofFields strict
        [statement.destination.spell, statement.source1.spell, statement.source0.spell] =
      .ok ⟨statement.destination.spell, statement.source1.spell, statement.source0.spell⟩ := by
  have destination := isWord_spell wellFormed.destination.isSource.has
  have source1 := isWord_spell wellFormed.source1.has
  have source0 := isWord_spell wellFormed.source0.has
  refine (TwoSource.Slots.ofFields_eq_ok_iff _ _ _).mpr ⟨_, _, _, [], rfl, ?_, ?_, nofun⟩
  · rw [destination.trimLineEnd, source1.trimLineEnd, source0.trimLineEnd]
  · exact ⟨destination.nonempty, source1.nonempty, source0.nonempty⟩

theorem WellFormed.spell (wellFormed : WellFormed instruction statement) :
    TwoSource.Slots.Spell .southernIslands
      ⟨statement.destination.spell, statement.source1.spell, statement.source0.spell⟩
      (operandsOf statement) where
  destination := classify_spell wellFormed.destination.isSource
  source1 := classify_spell wellFormed.source1
  source0 := classify_spell wellFormed.source0

end SouthernIslands

namespace Assembler

open TwoSource SouthernIslands

/-- The canonical line of every well-formed instruction is assembled, whatever the settings are,
and its operands are read back. -/
theorem assembles_canonical_line (config : AssemblerConfig) (instruction : Instruction)
    (statement : Statement) (wellFormed : WellFormed instruction statement) :
    (({ config } : Assembler).assembleLine statement.text).value =
      some (.ok
        { mnemonic := instruction.mnemonic,
          code :=
            { word := instruction.baseOpcode ||| (codes.codeOf statement.destination <<< 16) |||
                (codes.codeOf statement.source1 <<< 8) ||| codes.codeOf statement.source0,
              literal := statement.source1.literal?.or statement.source0.literal? } }) ∧
      (∀ value, statement.source1.literal?.or statement.source0.literal? = some value ↔
        statement.source1 = .literal value ∨ statement.source0 = .literal value) ∧
      statement.text.stripComment.fields =
        [statement.mnemonic, statement.destination.spell, statement.source1.spell,
          statement.source0.spell] ∧
      Tables.southernIslands.spelledOperands statement.text =
        [.ok statement.destination, .ok statement.source1, .ok statement.source0] := by
  have read := wellFormed.read config.strictOperands
  have spell := wellFormed.spell
  refine ⟨?_, wellFormed.fit.literal_eq_some_iff instruction.baseOpcode, wellFormed.fields, ?_⟩
  · refine (value_assembleLine_eq_ok_iff rfl _ _).mpr ⟨_, _, instruction, _, _, wellFormed.fields,
      ?_, ?_, wellFormed.encodable, read, spell, wellFormed.fit, rfl⟩
    · rw [wellFormed.isWord_mnemonic.trimLineEnd]
      exact wellFormed.isWord_mnemonic.nonempty
    · rw [wellFormed.isWord_mnemonic.trimLineEnd, wellFormed.mnemonic]
      exact resolve?_mnemonic instruction wellFormed.listed
  · exact Tables.spelledOperands_of_slots wellFormed.fields read spell

theorem assembles_canonical_line_literal :
    WellFormed (scalarTwoSource 0 "s_add_u32")
        ⟨"s_add_u32".toList, .register .ttmp 11, .inlineNegative 16, .literal 0xFFFFFFFF⟩ ∧
      ∀ config : AssemblerConfig,
        (({ config } : Assembler).assembleLine "s_add_u32 t11, -16, 4294967295".toList).value =
          some (.ok ⟨"s_add_u32".toList, ⟨0x807BD0FF, some 0xFFFFFFFF⟩⟩) := by
  have wellFormed : WellFormed (scalarTwoSource 0 "s_add_u32")
      ⟨"s_add_u32".toList, .register .ttmp 11, .inlineNegative 16, .literal 0xFFFFFFFF⟩ :=
    { listed := by decide
      encodable := rfl
      mnemonic := rfl
      destination := Nat.le_refl 11
      source1 := ⟨⟨by decide, by decide⟩, nofun⟩
      source0 := ⟨trivial, by rintro _ ⟨⟩; decide⟩
      oneLiteral := Or.inl rfl }
  exact ⟨wellFormed, fun config => (assembles_canonical_line config _ _ wellFormed).1⟩

end Assembler

end ShaderAssembler

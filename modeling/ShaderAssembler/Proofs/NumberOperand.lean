import ShaderAssembler.Proofs.OperandGrammar

/-! What numbers stand for as operands: which texts spell a number, and the constant or the literal
that it becomes. -/

namespace ShaderAssembler

/-- The text is left to be read as a number. -/
structure NumberPlace (entries : List NamedOperand) (text : Text) : Prop where
  unnamed : Unnamed entries text
  noLetter : ∀ (file : RegisterFile), ∀ letter ∈ file.letters, text.head? ≠ some letter

inductive SpellsNumber : Text → Int → Prop
  | decimal {text : Text} {value : Int} : SpellsInteger 10 text value → SpellsNumber text value
  | hexadecimal {digits : Text} {value : Int} :
      SpellsInteger 16 digits value → SpellsNumber ('0' :: 'x' :: digits) value

inductive NumberOperand (codes : OperandCodes) (text : Text) (value : Int) :
    Except OperandError ClassifiedOperand → Prop
  | outside64 : ¬ IsInt64 value → NumberOperand codes text value (.error (.malformedNumber text))
  | outside32 :
      IsInt64 value → ¬ (-0x80000000 ≤ value ∧ value ≤ 0xFFFFFFFF) →
        NumberOperand codes text value (.error (.literalOutOfRange value))
  | zero : value = 0 → NumberOperand codes text value (.ok ⟨.zero, codes.zero⟩)
  | inlinePositive {result : Except OperandError ClassifiedOperand} :
      1 ≤ value → value ≤ 64 →
        CodeAbove (.inlinePositive value.toNat) codes.inlinePositiveBase (value - 1).toNat result →
          NumberOperand codes text value result
  | inlineNegative {result : Except OperandError ClassifiedOperand} :
      -16 ≤ value → value ≤ -1 →
        CodeAbove (.inlineNegative (-value).toNat) codes.inlineNegativeBase (-value - 1).toNat
          result →
          NumberOperand codes text value result
  | literal {bits : UInt32} :
      -0x80000000 ≤ value → value ≤ 0xFFFFFFFF → ¬ (-16 ≤ value ∧ value ≤ 64) →
        (bits.toNat : Int) = value % UInt32.size →
          NumberOperand codes text value (.ok ⟨.literal bits, codes.literal⟩)

theorem NumberPlace.classify {entries : List NamedOperand} {text : Text}
    (place : NumberPlace entries text) (codes : OperandCodes) :
    classify entries codes text = codes.classifyNumber text := by
  rw [classify_of_unnamed place.unnamed]
  cases text with
  | nil => rfl
  | cons letter digits =>
      have noFile : RegisterFile.ofLetter? letter = none := by
        rw [Option.eq_none_iff_forall_ne_some]
        intro file isLetter
        exact place.noLetter file letter ((RegisterFile.ofLetter?_eq_some_iff _ _).mp isLetter) rfl
      rw [OperandCodes.classifyUnnamed, noFile]

theorem numberPlace_cons {entries : List NamedOperand} {first : Char} {rest : Text}
    (unnamed : Unnamed entries (first :: rest)) (noFile : RegisterFile.ofLetter? first = none) :
    NumberPlace entries (first :: rest) := by
  refine ⟨unnamed, ?_⟩
  intro file letter isLetter same
  obtain rfl : first = letter := Option.some.inj same
  rw [(RegisterFile.ofLetter?_eq_some_iff _ _).mpr isLetter] at noFile
  cases noFile

theorem not_spellsInteger_hexMark (digits : Text) (value : Int) :
    ¬ SpellsInteger 10 ('0' :: 'x' :: digits) value := by
  rw [← readInteger?_eq_some_iff]
  have notDecimal : readInteger? 10 ('0' :: 'x' :: digits) = none := rfl
  rw [notDecimal]
  simp

theorem spellsNumber_hexadecimal_iff (digits : Text) (value : Int) :
    SpellsNumber ('0' :: 'x' :: digits) value ↔ SpellsInteger 16 digits value := by
  constructor
  · intro spelled
    cases spelled with
    | decimal spelled => exact absurd spelled (not_spellsInteger_hexMark digits value)
    | hexadecimal spelled => exact spelled
  · exact .hexadecimal

theorem SpellsNumber.unique {text : Text} {left right : Int} (first : SpellsNumber text left)
    (second : SpellsNumber text right) : left = right := by
  cases first with
  | decimal first =>
      cases second with
      | decimal second => exact first.unique second
      | hexadecimal => exact absurd first (not_spellsInteger_hexMark _ _)
  | hexadecimal first => exact first.unique ((spellsNumber_hexadecimal_iff _ _).mp second)

namespace OperandCodes

theorem readNumber?_eq_some_iff (text : Text) (value : Int) :
    readNumber? text = some value ↔ SpellsNumber text value ∧ IsInt64 value := by
  unfold readNumber?
  split
  · rw [readInt64?_eq_some_iff, spellsNumber_hexadecimal_iff]
  · rename_i notHexadecimal
    rw [readInt64?_eq_some_iff]
    refine and_congr_left fun _ => ⟨.decimal, ?_⟩
    intro spelled
    cases spelled with
    | decimal spelled => exact spelled
    | hexadecimal spelled => exact absurd rfl (notHexadecimal _)

theorem readNumber?_eq_none_iff (text : Text) :
    readNumber? text = none ↔ ∀ value, SpellsNumber text value → ¬ IsInt64 value := by
  simp only [Option.eq_none_iff_forall_ne_some, ne_eq, readNumber?_eq_some_iff, not_and]

theorem toNat_ofInt (value : Int) : ((UInt32.ofInt value).toNat : Int) = value % UInt32.size := by
  have size : (UInt32.size : Int) = 4294967296 := rfl
  rw [UInt32.ofInt, UInt32.toNat_ofNat', size]
  omega

theorem classifyValue_of_positive {value : Int} (lower : 1 ≤ value) (upper : value ≤ 64)
    (codes : OperandCodes) :
    codes.classifyValue value =
      atOffset (.inlinePositive value.toNat) codes.inlinePositiveBase (value - 1).toNat := by
  have offset : value.toNat - 1 = (value - 1).toNat := by omega
  rw [classifyValue, if_neg (by omega), if_pos ⟨lower, upper⟩, offset]

theorem classifyValue_of_negative {value : Int} (lower : -16 ≤ value) (upper : value ≤ -1)
    (codes : OperandCodes) :
    codes.classifyValue value =
      atOffset (.inlineNegative (-value).toNat) codes.inlineNegativeBase (-value - 1).toNat := by
  have magnitude : value.natAbs = (-value).toNat := by omega
  have offset : (-value).toNat - 1 = (-value - 1).toNat := by omega
  rw [classifyValue, if_neg (by omega), if_neg (by omega), if_pos ⟨lower, upper⟩, magnitude,
    offset]

theorem classifyValue_of_large {value : Int} (large : ¬ (-16 ≤ value ∧ value ≤ 64))
    (codes : OperandCodes) :
    codes.classifyValue value =
      if -0x80000000 ≤ value ∧ value ≤ 0xFFFFFFFF then
        .ok ⟨.literal (UInt32.ofInt value), codes.literal⟩
      else .error (.literalOutOfRange value) := by
  rw [classifyValue, if_neg (by omega), if_neg (by omega), if_neg (by omega)]

theorem numberOperand_classifyValue (codes : OperandCodes) (text : Text) {value : Int}
    (isInt64 : IsInt64 value) : NumberOperand codes text value (codes.classifyValue value) := by
  by_cases large : -16 ≤ value ∧ value ≤ 64
  · rcases (by omega : value = 0 ∨ 1 ≤ value ∨ value ≤ -1) with isZero | positive | negative
    · rw [classifyValue, if_pos isZero]
      exact .zero isZero
    · refine .inlinePositive positive large.2 ((atOffset_eq_iff _ _ ?_ _).mp ?_)
      · exact lt_size_of_byte (by omega)
      · exact (classifyValue_of_positive positive large.2 codes).symm
    · refine .inlineNegative large.1 negative ((atOffset_eq_iff _ _ ?_ _).mp ?_)
      · exact lt_size_of_byte (by omega)
      · exact (classifyValue_of_negative large.1 negative codes).symm
  · rw [classifyValue_of_large large]
    split
    · rename_i inWord
      exact .literal inWord.1 inWord.2 large (toNat_ofInt value)
    · rename_i outside
      exact .outside32 isInt64 outside

theorem classifyValue_eq_of_numberOperand {codes : OperandCodes} {text : Text} {value : Int}
    (isInt64 : IsInt64 value) {result : Except OperandError ClassifiedOperand}
    (stands : NumberOperand codes text value result) : codes.classifyValue value = result := by
  cases stands with
  | outside64 outside => exact absurd isInt64 outside
  | outside32 _ outside => rw [classifyValue_of_large (by omega), if_neg outside]
  | zero isZero => rw [classifyValue, if_pos isZero]
  | inlinePositive lower upper above =>
      rw [classifyValue_of_positive lower upper]
      exact (atOffset_eq_iff _ _ (lt_size_of_byte (by omega)) _).mpr above
  | inlineNegative lower upper above =>
      rw [classifyValue_of_negative lower upper]
      exact (atOffset_eq_iff _ _ (lt_size_of_byte (by omega)) _).mpr above
  | @literal bits lower upper large exact =>
      have same : UInt32.ofInt value = bits := by
        apply UInt32.toNat_inj.mp
        have worth := toNat_ofInt value
        omega
      rw [classifyValue_of_large large, if_pos ⟨lower, upper⟩, same]

theorem numberOperand_iff_malformed {codes : OperandCodes} {text : Text} {value : Int}
    (outside : ¬ IsInt64 value) (result : Except OperandError ClassifiedOperand) :
    NumberOperand codes text value result ↔ result = .error (.malformedNumber text) := by
  constructor
  · intro stands
    unfold IsInt64 at outside
    cases stands with
    | outside64 => rfl
    | outside32 isInt64 => exact absurd isInt64 outside
    | zero isZero => omega
    | inlinePositive lower upper => omega
    | inlineNegative lower upper => omega
    | literal lower upper => omega
  · rintro rfl
    exact .outside64 outside

theorem classifyNumber_eq_iff (codes : OperandCodes) {text : Text} {value : Int}
    (spelled : SpellsNumber text value) (result : Except OperandError ClassifiedOperand) :
    codes.classifyNumber text = result ↔ NumberOperand codes text value result := by
  rw [classifyNumber]
  by_cases isInt64 : IsInt64 value
  · rw [(readNumber?_eq_some_iff text value).mpr ⟨spelled, isInt64⟩]
    constructor
    · rintro rfl
      exact numberOperand_classifyValue codes text isInt64
    · exact classifyValue_eq_of_numberOperand isInt64
  · have unread : readNumber? text = none := by
      rw [readNumber?_eq_none_iff]
      intro other otherSpelled
      rw [otherSpelled.unique spelled]
      exact isInt64
    rw [unread, numberOperand_iff_malformed isInt64]
    exact eq_comm

theorem classifyNumber_of_not_spelled {text : Text} (noNumber : ∀ value, ¬ SpellsNumber text value)
    (codes : OperandCodes) : codes.classifyNumber text = .error (.malformedNumber text) := by
  have unread : readNumber? text = none :=
    (readNumber?_eq_none_iff text).mpr fun value spelled => absurd spelled (noNumber value)
  rw [classifyNumber, unread]

end OperandCodes

/-- A text that is left to be a number stands for the number that it spells, and is malformed if it
spells none. So the radix of a spelling does not matter. -/
theorem classify_number_exactly (entries : List NamedOperand) (codes : OperandCodes) (text : Text)
    (place : NumberPlace entries text) :
    (∀ value, SpellsNumber text value → ∀ result,
      classify entries codes text = result ↔ NumberOperand codes text value result) ∧
      ((∀ value, ¬ SpellsNumber text value) →
        classify entries codes text = .error (.malformedNumber text)) ∧
      ∀ other value, NumberPlace entries other → SpellsNumber text value →
        SpellsNumber other value → IsInt64 value →
          classify entries codes other = classify entries codes text := by
  refine ⟨?_, ?_, ?_⟩
  · intro value spelled result
    rw [place.classify]
    exact codes.classifyNumber_eq_iff spelled result
  · intro noNumber
    rw [place.classify]
    exact OperandCodes.classifyNumber_of_not_spelled noNumber codes
  · intro other value otherPlace spelled otherSpelled isInt64
    have read := (OperandCodes.readNumber?_eq_some_iff text value).mpr ⟨spelled, isInt64⟩
    have otherRead :=
      (OperandCodes.readNumber?_eq_some_iff other value).mpr ⟨otherSpelled, isInt64⟩
    rw [place.classify, otherPlace.classify, OperandCodes.classifyNumber,
      OperandCodes.classifyNumber, read, otherRead]

theorem classify_number_exactly_signed_hexadecimal :
    let entries : List NamedOperand := [⟨"vcc_lo".toList, 106, .specialRegister⟩]
    let codes := { SouthernIslands.codes with inlineNegativeBase := 0xFFFFFFF0 }
    let hexadecimal : Text := '0' :: 'x' :: "-0010".toList
    let signed : Text := '-' :: "00016".toList
    let unfinished : Text := '0' :: 'x' :: "+".toList
    SpellsNumber hexadecimal (-16) ∧ SpellsNumber signed (-16) ∧
      classify entries codes hexadecimal = .ok ⟨.inlineNegative 16, 0xFFFFFFFF⟩ ∧
      classify entries codes signed = classify entries codes hexadecimal ∧
      classify entries codes unfinished = .error (.malformedNumber unfinished) := by
  intro entries codes hexadecimal signed unfinished
  have hexadecimalPlace : NumberPlace entries hexadecimal := numberPlace_cons (by decide) rfl
  have signedPlace : NumberPlace entries signed := numberPlace_cons (by decide) rfl
  have unfinishedPlace : NumberPlace entries unfinished := numberPlace_cons (by decide) rfl
  have hexadecimalSpelled : SpellsNumber hexadecimal (-16) :=
    .hexadecimal ((readInteger?_eq_some_iff 16 _ _).mp (by decide))
  have signedSpelled : SpellsNumber signed (-16) :=
    .decimal ((readInteger?_eq_some_iff 10 _ _).mp (by decide))
  have noNumber (value : Int) : ¬ SpellsNumber ('0' :: 'x' :: "+".toList) value := by
    have unread : readInteger? 16 "+".toList = none := by decide
    rw [spellsNumber_hexadecimal_iff, ← readInteger?_eq_some_iff, unread]
    simp
  obtain ⟨stands, _, alike⟩ := classify_number_exactly entries codes hexadecimal hexadecimalPlace
  have malformed := (classify_number_exactly entries codes unfinished unfinishedPlace).2.1 noNumber
  refine ⟨hexadecimalSpelled, signedSpelled, (stands _ hexadecimalSpelled _).mpr ?_, ?_, malformed⟩
  · exact .inlineNegative (by decide) (by decide) (.fits (by decide))
  · exact alike signed (-16) signedPlace hexadecimalSpelled signedSpelled (by decide)

end ShaderAssembler

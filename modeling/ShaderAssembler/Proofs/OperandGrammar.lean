import ShaderAssembler.Proofs.NumeralGrammar
import ShaderAssembler.Proofs.OperandCode
import ShaderAssembler.Proofs.TextBytes

/-! The grammar of operands that are spelled by number, and what registers stand for. It is said here
without the functions that read them. -/

namespace ShaderAssembler

def Unnamed (entries : List NamedOperand) (text : Text) : Prop :=
  ∀ entry ∈ entries, ¬ entry.name <+: text

instance (entries : List NamedOperand) (text : Text) : Decidable (Unnamed entries text) :=
  inferInstanceAs (Decidable (∀ entry ∈ entries, ¬ entry.name <+: text))

def RegisterFile.letters : RegisterFile → List Char
  | sgpr => ['s', 'S']
  | ttmp => ['t', 'T']

/-- The operand has the code that lies `offset` above `base`, if there is such a code. -/
inductive CodeAbove (operand : Operand) (base : UInt32) (offset : Nat) :
    Except OperandError ClassifiedOperand → Prop
  | fits {code : UInt32} :
      code.toNat = base.toNat + offset → CodeAbove operand base offset (.ok ⟨operand, code⟩)
  | overflow {amount : UInt32} :
      UInt32.size ≤ base.toNat + offset → amount.toNat = offset →
        CodeAbove operand base offset (.error (.codeOverflow base amount))

theorem classify_of_unnamed {entries : List NamedOperand} {text : Text}
    (unnamed : Unnamed entries text) (codes : OperandCodes) :
    classify entries codes text = codes.classifyUnnamed text := by
  have notFound : NamedOperand.find? entries text = none := by
    simpa only [NamedOperand.find?, List.find?_eq_none, List.isPrefixOf_iff_prefix,
      Unnamed] using unnamed
  rw [classify, notFound]

theorem RegisterFile.ofLetter?_eq_some_iff (letter : Char) (file : RegisterFile) :
    ofLetter? letter = some file ↔ letter ∈ file.letters := by
  unfold ofLetter?
  split
  · rename_i isScalar
    cases file with
    | sgpr => simpa [letters] using isScalar
    | ttmp => rcases isScalar with rfl | rfl <;> decide
  · rename_i notScalar
    split
    · rename_i isTemporary
      cases file with
      | sgpr => rcases isTemporary with rfl | rfl <;> decide
      | ttmp => simpa [letters] using isTemporary
    · rename_i notTemporary
      cases file with
      | sgpr => simpa [letters] using notScalar
      | ttmp => simpa [letters] using notTemporary

namespace OperandCodes

theorem atOffset_eq_iff (operand : Operand) (base : UInt32) {offset : Nat}
    (small : offset < UInt32.size) (result : Except OperandError ClassifiedOperand) :
    atOffset operand base offset = result ↔ CodeAbove operand base offset result := by
  rw [atOffset]
  constructor
  · rintro rfl
    split
    · rename_i fits
      exact .fits (toNat_add_ofNat_of_lt fits)
    · rename_i large
      exact .overflow (Nat.le_of_not_lt large) (UInt32.toNat_ofNat_of_lt' small)
  · intro above
    cases above with
    | @fits code exact =>
        have fits : base.toNat + offset < UInt32.size := exact ▸ code.toNat_lt
        have same : base + UInt32.ofNat offset = code := by
          apply UInt32.toNat_inj.mp
          rw [toNat_add_ofNat_of_lt fits, exact]
        rw [if_pos fits, same]
    | @overflow amount large exact =>
        rw [if_neg (Nat.not_lt.mpr large), ← exact, UInt32.ofNat_toNat]

theorem classifyIndex_of_le {index : Int} {file : RegisterFile} {codes : OperandCodes}
    (lower : 0 ≤ index) (upper : index ≤ (min (codes.registerMax file).toNat 255 : Nat)) :
    codes.classifyIndex file index =
      atOffset (.register file index.toNat) (codes.registerBase file) index.toNat := by
  rw [classifyIndex, if_pos (by omega)]

theorem classifyIndex_cases (codes : OperandCodes) (file : RegisterFile) (index : Int) :
    codes.classifyIndex file index = .error (.registerOutOfRange file index) ∨
      (∃ offset,
        codes.classifyIndex file index = .error (.codeOverflow (codes.registerBase file) offset)) ∨
      ∃ code, codes.classifyIndex file index = .ok ⟨.register file index.toNat, code⟩ := by
  rw [classifyIndex]
  split
  · rw [atOffset]
    split
    · exact Or.inr (Or.inr ⟨_, rfl⟩)
    · exact Or.inr (Or.inl ⟨_, rfl⟩)
  · exact Or.inl rfl

theorem classifyIndex_eq_outOfRange_iff (codes : OperandCodes) (file : RegisterFile) (index : Int) :
    codes.classifyIndex file index = .error (.registerOutOfRange file index) ↔
      index < 0 ∨ (min (codes.registerMax file).toNat 255 : Nat) < index := by
  constructor
  · intro refused
    by_contra inside
    rw [classifyIndex_of_le (by omega) (by omega), atOffset_eq_iff _ _
      (lt_size_of_byte (by omega))] at refused
    cases refused
  · intro outside
    rw [classifyIndex, if_neg (by omega)]

theorem classifyIndex_eq_codeOverflow_iff {index : Int} {file : RegisterFile} {codes : OperandCodes}
    (lower : 0 ≤ index) (upper : index ≤ (min (codes.registerMax file).toNat 255 : Nat))
    (offset : UInt32) :
    codes.classifyIndex file index = .error (.codeOverflow (codes.registerBase file) offset) ↔
      UInt32.size ≤ (codes.registerBase file).toNat + index ∧ offset.toNat = index := by
  rw [classifyIndex_of_le lower upper, atOffset_eq_iff _ _ (lt_size_of_byte (by omega))]
  constructor
  · rintro (_ | ⟨large, exact⟩)
    omega
  · rintro ⟨large, exact⟩
    exact .overflow (by omega) (by omega)

theorem classifyIndex_eq_ok_iff {index : Int} {file : RegisterFile} {codes : OperandCodes}
    (lower : 0 ≤ index) (upper : index ≤ (min (codes.registerMax file).toNat 255 : Nat))
    (code : UInt32) :
    codes.classifyIndex file index = .ok ⟨.register file index.toNat, code⟩ ↔
      code.toNat = (codes.registerBase file).toNat + index := by
  rw [classifyIndex_of_le lower upper, atOffset_eq_iff _ _ (lt_size_of_byte (by omega))]
  constructor
  · rintro (exact | _)
    omega
  · intro exact
    exact .fits (by omega)

theorem classifyRegister_eq_malformed_iff (codes : OperandCodes) (file : RegisterFile)
    (text digits : Text) :
    codes.classifyRegister file text digits = .error (.malformedRegister file text) ↔
      ∀ index, SpellsInteger 10 digits index → ¬ IsInt64 index := by
  rw [← readInt64?_eq_none_iff, classifyRegister]
  cases readInt64? 10 digits with
  | none => simp
  | some index =>
      rcases codes.classifyIndex_cases file index with same | ⟨_, same⟩ | ⟨_, same⟩
      · simp [same]
      · simp [same]
      · simp [same]

theorem classifyRegister_cases (codes : OperandCodes) (file : RegisterFile) (text digits : Text) :
    codes.classifyRegister file text digits = .error (.malformedRegister file text) ∨
      ∃ index, codes.classifyRegister file text digits = codes.classifyIndex file index := by
  rw [classifyRegister]
  cases readInt64? 10 digits with
  | none => exact Or.inl rfl
  | some index => exact Or.inr ⟨index, rfl⟩

end OperandCodes

theorem classify_of_letter {file : RegisterFile} {letter : Char} {digits : Text}
    (isLetter : letter ∈ file.letters) {entries : List NamedOperand}
    (unnamed : Unnamed entries (letter :: digits)) (codes : OperandCodes) :
    classify entries codes (letter :: digits) =
      codes.classifyRegister file (letter :: digits) digits := by
  rw [classify_of_unnamed unnamed, OperandCodes.classifyUnnamed,
    (RegisterFile.ofLetter?_eq_some_iff _ _).mpr isLetter]

theorem RegisterFile.length_utf8_of_mem_letters {file : RegisterFile} {letter : Char}
    (isLetter : letter ∈ file.letters) : (String.utf8EncodeChar letter).length = 1 := by
  cases file with
  | sgpr =>
      simp only [letters, List.mem_cons, List.not_mem_nil, or_false] at isLetter
      rcases isLetter with rfl | rfl <;> decide
  | ttmp =>
      simp only [letters, List.mem_cons, List.not_mem_nil, or_false] at isLetter
      rcases isLetter with rfl | rfl <;> decide

/-- A text that starts with the letter of a register file can be cut behind that letter, and stands
for the register whose index follows. It is never read as a number. -/
theorem classify_register_exactly (entries : List NamedOperand) (codes : OperandCodes)
    (file : RegisterFile) (letter : Char) (digits : Text) (isLetter : letter ∈ file.letters)
    (unnamed : Unnamed entries (letter :: digits)) :
    let text : Text := letter :: digits
    let result := classify entries codes text
    let base := codes.registerBase file
    let limit := min (codes.registerMax file).toNat 255
    Text.ofBytes (text.toBytes.drop 1) = .ok digits ∧
      (result = .error (.malformedRegister file text) ↔
        ∀ index, SpellsInteger 10 digits index → ¬ IsInt64 index) ∧
      (∀ index, SpellsInteger 10 digits index → IsInt64 index →
        (result = .error (.registerOutOfRange file index) ↔ index < 0 ∨ limit < index) ∧
        (0 ≤ index → index ≤ limit →
          (∀ offset, result = .error (.codeOverflow base offset) ↔
            UInt32.size ≤ base.toNat + index ∧ offset.toNat = index) ∧
          ∀ code, result = .ok ⟨.register file index.toNat, code⟩ ↔
            code.toNat = base.toNat + index)) ∧
      (result = .error (.malformedRegister file text) ∨
        (∃ index, result = .error (.registerOutOfRange file index)) ∨
        (∃ offset, result = .error (.codeOverflow base offset)) ∨
        ∃ index code, result = .ok ⟨.register file index, code⟩) := by
  intro text result base limit
  have same : result = codes.classifyRegister file text digits :=
    classify_of_letter isLetter unnamed codes
  refine ⟨Text.ofBytes_drop_one (RegisterFile.length_utf8_of_mem_letters isLetter), ?_, ?_, ?_⟩
  · rw [same]
    exact codes.classifyRegister_eq_malformed_iff file text digits
  · intro index spelled isInt64
    have read := (readInt64?_eq_some_iff 10 digits index).mpr ⟨spelled, isInt64⟩
    have ofIndex : result = codes.classifyIndex file index := by
      rw [same, OperandCodes.classifyRegister, read]
    rw [ofIndex]
    refine ⟨codes.classifyIndex_eq_outOfRange_iff file index, ?_⟩
    intro lower upper
    exact ⟨OperandCodes.classifyIndex_eq_codeOverflow_iff lower upper,
      OperandCodes.classifyIndex_eq_ok_iff lower upper⟩
  · rcases codes.classifyRegister_cases file text digits with malformed | ⟨index, ofIndex⟩
    · exact Or.inl (same.trans malformed)
    · rw [same, ofIndex]
      rcases codes.classifyIndex_cases file index with refused | ⟨offset, overflow⟩ | ⟨code, found⟩
      · exact Or.inr (Or.inl ⟨index, refused⟩)
      · exact Or.inr (Or.inr (Or.inl ⟨offset, overflow⟩))
      · exact Or.inr (Or.inr (Or.inr ⟨index.toNat, code, found⟩))

theorem classify_register_exactly_unbounded_file :
    let codes := { SouthernIslands.codes with ttmpBase := 0xFFFFFFF8, ttmpMax := 0xFFFFFFFF }
    let result := fun text : Text => classify [] codes text
    result "T+007".toList = .ok ⟨.register .ttmp 7, 0xFFFFFFFF⟩ ∧
      result "t8".toList = .error (.codeOverflow 0xFFFFFFF8 8) ∧
      result "t256".toList = .error (.registerOutOfRange .ttmp 256) ∧
      result "té5".toList = .error (.malformedRegister .ttmp "té5".toList) := by
  intro codes result
  have spells {digits : Text} {index : Int} (read : readInt64? 10 digits = some index) :=
    (readInt64?_eq_some_iff 10 digits index).mp read
  have upper := classify_register_exactly [] codes .ttmp 'T'
  have lower := classify_register_exactly [] codes .ttmp 't'
  have seven := spells (show readInt64? 10 "+007".toList = some 7 by decide)
  have eight := spells (show readInt64? 10 "8".toList = some 8 by decide)
  have large := spells (show readInt64? 10 "256".toList = some 256 by decide)
  have noIndex := (readInt64?_eq_none_iff 10 "é5".toList).mp (by decide)
  obtain ⟨_, _, ofSeven, _⟩ := upper "+007".toList (by decide) (by decide)
  obtain ⟨_, _, ofEight, _⟩ := lower "8".toList (by decide) (by decide)
  obtain ⟨_, _, ofLarge, _⟩ := lower "256".toList (by decide) (by decide)
  obtain ⟨_, malformed, _⟩ := lower "é5".toList (by decide) (by decide)
  exact ⟨((ofSeven 7 seven.1 seven.2).2 (by decide) (by decide)).2 0xFFFFFFFF |>.mpr (by decide),
    ((ofEight 8 eight.1 eight.2).2 (by decide) (by decide)).1 8 |>.mpr (by decide),
    (ofLarge 256 large.1 large.2).1.mpr (by decide), malformed.mpr noIndex⟩

end ShaderAssembler

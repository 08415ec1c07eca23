import ShaderAssembler.Proofs.Refusal
import ShaderAssembler.Proofs.Spacing

/-! Strict and lenient reading of operands. They differ only if a word stands behind the operands:
strict reading refuses the line, and lenient reading takes it as if it ended before the word. -/

namespace ShaderAssembler

namespace Text

theorem firstWord?_eq_some_iff (fields : List Text) (word : Text) :
    firstWord? fields = some word ↔
      ∃ blanks field rest, fields = blanks ++ field :: rest ∧
        (∀ blank ∈ blanks, blank.trimLineEnd = []) ∧ field.trimLineEnd = word ∧ word ≠ [] := by
  rw [firstWord?]
  constructor
  · intro found
    obtain ⟨nonempty, before, after, shape, none⟩ := List.find?_eq_some_iff_append.mp found
    obtain ⟨blanks, others, rfl, rfl, later⟩ := List.map_eq_append_iff.mp shape
    obtain ⟨field, rest, rfl, rfl, rfl⟩ := List.map_eq_cons_iff.mp later
    refine ⟨blanks, field, rest, rfl, ?_, rfl, by simpa using nonempty⟩
    intro blank member
    simpa using none _ (List.mem_map_of_mem member)
  · rintro ⟨blanks, field, rest, rfl, none, rfl, nonempty⟩
    apply List.find?_eq_some_iff_append.mpr
    refine ⟨by simpa using nonempty, blanks.map trimLineEnd, rest.map trimLineEnd, by simp, ?_⟩
    simpa using none

theorem Spaced.mem_cases {fields : List Text} {text : Text} (spaced : Spaced fields text)
    {character : Char} (member : character ∈ text) :
    character ∈ fieldDelimiters ∨ ∃ field ∈ fields, character ∈ field := by
  induction spaced with
  | nil => cases member
  | delimiter isDelimiter _ ih =>
      rcases List.mem_cons.mp member with rfl | later
      · exact Or.inl isDelimiter
      · exact ih later
  | last => exact Or.inr ⟨_, List.mem_singleton_self _, member⟩
  | field _ _ isDelimiter _ ih =>
      rcases List.mem_append.mp member with inField | later
      · exact Or.inr ⟨_, List.mem_cons_self, inField⟩
      · rcases List.mem_cons.mp later with rfl | after
        · exact Or.inl isDelimiter
        · rcases ih after with cut | ⟨other, among, inside⟩
          · exact Or.inl cut
          · exact Or.inr ⟨other, List.mem_cons_of_mem _ among, inside⟩

theorem spaced_intercalate {fields : List Text}
    (areFields : ∀ field ∈ fields, field ≠ [] ∧ field.Solid) :
    Spaced fields ([' '].intercalate fields) := by
  induction fields with
  | nil => exact .nil
  | cons first rest ih =>
      obtain ⟨⟨nonempty, solid⟩, others⟩ := List.forall_mem_cons.mp areFields
      cases rest with
      | nil =>
          rw [List.intercalate_singleton]
          exact .last nonempty solid
      | cons second more =>
          rw [List.intercalate_cons_cons, List.append_assoc]
          exact .field nonempty solid (by decide) (ih others)

theorem fields_intercalate {line : Text} {fields : List Text}
    (subset : fields ⊆ line.stripComment.fields) :
    Text.fields (stripComment ([' '].intercalate fields)) = fields := by
  obtain ⟨_, _, noComment, _⟩ := exists_comment line
  have ofLine := (spaced_fields line.stripComment).of_mem
  have spaced : Spaced fields ([' '].intercalate fields) :=
    spaced_intercalate fun field member => ⟨(ofLine field (subset member)).1,
      (ofLine field (subset member)).2.1⟩
  refine (written_iff fields _).mp ⟨_, [], (List.append_nil _).symm, spaced, ?_, Or.inl rfl⟩
  intro mark
  rcases spaced.mem_cases mark with isDelimiter | ⟨field, member, inField⟩
  · revert isDelimiter
    decide
  · exact noComment ((ofLine field (subset member)).2.2 inField)

end Text

namespace TwoSource

theorem Slots.ofFields_lenient (fields : List Text) :
    Slots.ofFields false fields = Slots.ofFields true (fields.take 3) := by
  have within (position : Nat) (small : position < 3) :
      Text.wordAt (fields.take 3) position = Text.wordAt fields position := by
    rw [Text.wordAt, Text.wordAt, List.getD_eq_getElem?_getD, List.getD_eq_getElem?_getD,
      List.getElem?_take_of_lt small]
  have nothing : (fields.take 3).tail.tail.tail = [] := by
    simp [← List.drop_one, List.drop_take]
  rw [Slots.ofFields_eq, Slots.ofFields_eq, nothing, within 0 (by omega), within 1 (by omega),
    within 2 (by omega)]
  rfl

theorem Slots.ofFields_eq_trailing_iff (fields : List Text) (extra : Text) :
    Slots.ofFields true fields = .error (.trailingOperand extra) ↔
      ∃ destination source1 source0 more,
        fields = destination :: source1 :: source0 :: more ∧
          (destination.trimLineEnd ≠ [] ∧ source1.trimLineEnd ≠ [] ∧ source0.trimLineEnd ≠ []) ∧
          Text.firstWord? more = some extra := by
  rw [Slots.ofFields_eq]
  constructor
  · intro refused
    split_ifs at refused with missing missing1 missing0
    · cases refused
    · cases refused
    · cases refused
    · -- The first place that a short list lacks counts as blank.
      rcases fields with _ | ⟨destination, _ | ⟨source1, _ | ⟨source0, more⟩⟩⟩
      · exact absurd rfl missing
      · exact absurd rfl missing1
      · exact absurd rfl missing0
      · refine ⟨destination, source1, source0, more, rfl, ?_, ?_⟩
        · simpa [Text.wordAt] using And.intro missing (And.intro missing1 missing0)
        · simp only [List.tail_cons] at refused
          cases found : Text.firstWord? more with
          | none => simp [found] at refused
          | some word => simpa [found] using refused
  · rintro ⟨destination, source1, source0, more, rfl, ⟨text, text1, text0⟩, found⟩
    simp [Text.wordAt, text, text1, text0, found]

theorem Slots.ofFields_strict_or_trailing (fields : List Text) :
    Slots.ofFields true fields = Slots.ofFields false fields ∨
      ∃ extra, Slots.ofFields true fields = .error (.trailingOperand extra) := by
  rw [Slots.ofFields_eq true, Slots.ofFields_eq false]
  cases Text.firstWord? fields.tail.tail.tail with
  | none => exact Or.inl rfl
  | some extra =>
      split_ifs
      · exact Or.inl rfl
      · exact Or.inl rfl
      · exact Or.inl rfl
      · exact Or.inr ⟨extra, rfl⟩

theorem Slots.Refused.ne_trailing {tables : Tables} {slots : Slots} {cause : EncodeError}
    (refused : slots.Refused tables cause) (extra : Text) : cause ≠ .trailingOperand extra := by
  rintro rfl
  cases refused with
  | destination fault => cases fault
  | source1 _ _ _ fault => cases fault
  | source0 _ _ _ _ _ fault => cases fault

theorem pack_eq_trailing_iff (strict : Bool) (tables : Tables) (baseOpcode : UInt32)
    (operands extra : Text) :
    pack strict tables baseOpcode operands = .error (.trailingOperand extra) ↔
      Slots.ofFields strict operands.fields = .error (.trailingOperand extra) := by
  rw [pack_eq_error_iff]
  refine or_iff_left ?_
  rintro ⟨slots, _, refused⟩
  exact refused.ne_trailing extra rfl

end TwoSource

/-- The line names an instruction with two sources and holds its three operands, and `extra` is the
first word behind them. -/
def Tables.TrailingWord (tables : Tables) (line mnemonic extra : Text) : Prop :=
  ∃ token destination source1 source0 blanks field rest instruction,
    line.stripComment.fields =
      token :: destination :: source1 :: source0 :: (blanks ++ field :: rest) ∧
    token.trimLineEnd ≠ [] ∧ tables.resolve? token.trimLineEnd = some instruction ∧
    instruction.family = .sop2 ∧ instruction.mnemonic = mnemonic ∧
    (destination.trimLineEnd ≠ [] ∧ source1.trimLineEnd ≠ [] ∧ source0.trimLineEnd ≠ []) ∧
    (∀ blank ∈ blanks, blank.trimLineEnd = []) ∧ field.trimLineEnd = extra ∧ extra ≠ []

namespace Assembler

theorem value_assembleLine_eq_trailing_iff {assembler : Assembler}
    (unregistered : assembler.registered = []) (strict : assembler.config.strictOperands = true)
    (line mnemonic extra : Text) :
    (assembler.assembleLine line).value =
        some (.error (.encode mnemonic (.trailingOperand extra))) ↔
      assembler.tables.TrailingWord line mnemonic extra := by
  simp only [value_assembleLine_eq_encode_error_iff unregistered, strict,
    TwoSource.pack_eq_trailing_iff, TwoSource.Slots.ofFields_eq_trailing_iff,
    Text.firstWord?_eq_some_iff]
  constructor
  · rintro ⟨token, operands, instruction, taken, nonblank, resolved, encodable, named, destination,
      source1, source0, _, shape, present, blanks, field, rest, rfl, word⟩
    refine ⟨token, destination, source1, source0, blanks, field, rest, instruction, ?_, nonblank,
      resolved, encodable, named, present, word⟩
    rw [Text.fields_of_takeField taken, shape]
  · rintro ⟨token, destination, source1, source0, blanks, field, rest, instruction, shape, nonblank,
      resolved, encodable, named, present, word⟩
    obtain ⟨operands, taken, following⟩ := (Text.fields_eq_cons_iff _ _ _).mp shape
    exact ⟨token, operands, instruction, taken, nonblank, resolved, encodable, named, destination,
      source1, source0, _, following, present, blanks, field, rest, rfl, word⟩

theorem value_assembleLine_of_trailing {assembler : Assembler}
    (unregistered : assembler.registered = []) {line extra : Text} {instruction : Instruction}
    (nonblank : Text.wordAt line.stripComment.fields 0 ≠ [])
    (resolved : assembler.tables.resolve? (Text.wordAt line.stripComment.fields 0) =
      some instruction)
    (encodable : instruction.family = .sop2)
    (trailing : TwoSource.Slots.ofFields assembler.config.strictOperands
      line.stripComment.fields.tail = .error (.trailingOperand extra)) :
    (assembler.assembleLine line).value =
      some (.error (.encode instruction.mnemonic (.trailingOperand extra))) := by
  cases shape : line.stripComment.fields with
  | nil => exact absurd (shape ▸ Text.wordAt_nil 0) nonblank
  | cons token fields =>
      obtain ⟨operands, taken, rfl⟩ := (Text.fields_eq_cons_iff _ _ _).mp shape
      rw [shape] at nonblank resolved trailing
      exact (value_assembleLine_eq_encode_error_iff unregistered ..).mpr ⟨token, operands,
        instruction, taken, nonblank, resolved, encodable, rfl,
        (TwoSource.pack_eq_trailing_iff ..).mpr trailing⟩

/-- Lenient reading gives what strict reading gives, unless strict reading finds a word behind the
operands. In any case it gives what strict reading gives for the first four fields alone. -/
theorem lenient_reading (tables : Tables) (stopOnError : Bool) (line : Text) :
    let strict : Assembler := { tables, config := { stopOnError, strictOperands := true } }
    let lenient : Assembler := { tables, config := { stopOnError, strictOperands := false } }
    ((∀ mnemonic extra, (strict.assembleLine line).value ≠
        some (.error (.encode mnemonic (.trailingOperand extra)))) →
      lenient.assembleLine line = strict.assembleLine line) ∧
    (∀ mnemonic extra,
      (strict.assembleLine line).value =
          some (.error (.encode mnemonic (.trailingOperand extra))) ↔
        tables.TrailingWord line mnemonic extra) ∧
    lenient.assembleLine line =
      strict.assembleLine ([' '].intercalate (line.stripComment.fields.take 4)) := by
  intro strict lenient
  have strictBuiltIn : strict.registered = [] := rfl
  have lenientBuiltIn : lenient.registered = [] := rfl
  refine ⟨?_, value_assembleLine_eq_trailing_iff strictBuiltIn rfl line, ?_⟩
  · intro accepted
    refine assembleLine_congr_slots lenientBuiltIn strictBuiltIn rfl rfl ?_
    intro nonblank instruction resolved encodable
    rcases TwoSource.Slots.ofFields_strict_or_trailing line.stripComment.fields.tail with
      same | ⟨extra, trailing⟩
    · exact same.symm
    · exact absurd
        (value_assembleLine_of_trailing strictBuiltIn nonblank resolved encodable trailing)
        (accepted instruction.mnemonic extra)
  · have fields := Text.fields_intercalate (List.take_subset 4 line.stripComment.fields)
    refine assembleLine_congr_slots lenientBuiltIn strictBuiltIn rfl ?_ ?_
    · rw [fields]
      cases line.stripComment.fields <;> rfl
    · intro _ _ _ _
      rw [fields, ← List.drop_one, ← List.drop_one, List.drop_take]
      exact TwoSource.Slots.ofFields_lenient _

theorem lenient_reading_sixth_field :
    let add : Instruction := ⟨"s_add_u32".toList, .sop2, 0x80000000⟩
    let tables : Tables := ⟨[add], [], SouthernIslands.codes⟩
    let strict : Assembler := { tables }
    let lenient : Assembler := { tables, config := { strictOperands := false } }
    let line : Text := "s_add_u32 s0, 100, 200, \r, s3 s4 ; sum".toList
    let short : Text := "s_add_u32 s0, 7".toList
    tables.TrailingWord line add.mnemonic "s3".toList ∧
      (strict.assembleLine line).value =
        some (.error (.encode add.mnemonic (.trailingOperand "s3".toList))) ∧
      lenient.assembleLine line = strict.assembleLine "s_add_u32 s0 100 200".toList ∧
      (strict.assembleLine short).value =
        some (.error (.encode add.mnemonic (.missingOperand "SSRC0"))) ∧
      lenient.assembleLine short = strict.assembleLine short := by
  intro add tables strict lenient line short
  have fields : line.stripComment.fields =
      ["s_add_u32".toList, "s0".toList, "100".toList, "200".toList, "\r".toList, "s3".toList,
        "s4".toList] := by
    with_unfolding_all rfl
  have trailing : tables.TrailingWord line add.mnemonic "s3".toList :=
    ⟨"s_add_u32".toList, "s0".toList, "100".toList, "200".toList, ["\r".toList], "s3".toList,
      ["s4".toList], add, fields, by decide, by decide, rfl, rfl, by decide, by decide, rfl,
      by decide⟩
  have missing : (strict.assembleLine short).value =
      some (.error (.encode add.mnemonic (.missingOperand "SSRC0"))) := by
    decide +kernel
  obtain ⟨_, refuses, taken⟩ := lenient_reading tables false line
  rw [fields] at taken
  refine ⟨trailing, (refuses _ _).mpr trailing, taken, missing, ?_⟩
  apply (lenient_reading tables false short).1
  intro mnemonic extra refused
  have impossible := missing.symm.trans refused
  simp at impossible

end Assembler

end ShaderAssembler

import ShaderAssembler.Proofs.Line

/-! What a line says is told by its words: its fields without the ends of lines on them, and without
the blank ones at the end. -/

namespace ShaderAssembler

namespace Text

/-- The word at a position is the field there without its line end. Behind the last field all
words are blank. -/
def wordAt (fields : List Text) (position : Nat) : Text :=
  (fields.getD position []).trimLineEnd

def SameWords (left right : List Text) : Prop :=
  ∀ position, wordAt left position = wordAt right position

theorem wordAt_nil (position : Nat) : wordAt [] position = [] := rfl

theorem wordAt_zero (first : Text) (rest : List Text) :
    wordAt (first :: rest) 0 = first.trimLineEnd := rfl

theorem wordAt_tail (fields : List Text) (position : Nat) :
    wordAt fields.tail position = wordAt fields (position + 1) := by
  cases fields <;> rfl

theorem SameWords.tail {left right : List Text} (same : SameWords left right) :
    SameWords left.tail right.tail := by
  intro position
  rw [wordAt_tail, wordAt_tail, same]

theorem SameWords.append {left right : List Text} (same : SameWords left right)
    (fields : List Text) : SameWords (fields ++ left) (fields ++ right) := by
  induction fields with
  | nil => exact same
  | cons first rest ih =>
      intro position
      cases position with
      | zero => rfl
      | succ position => exact ih position

def firstWord? (fields : List Text) : Option Text :=
  (fields.map trimLineEnd).find? (!·.isEmpty)

theorem firstWord?_eq (fields : List Text) :
    firstWord? fields =
      if (wordAt fields 0).isEmpty then firstWord? fields.tail else some (wordAt fields 0) := by
  cases fields with
  | nil => rfl
  | cons first rest =>
      rw [firstWord?, List.map_cons, List.find?_cons, wordAt_zero]
      by_cases blank : first.trimLineEnd.isEmpty = true
      · simp [blank, firstWord?]
      · simp [blank]

theorem SameWords.firstWord? {left right : List Text} (same : SameWords left right) :
    firstWord? left = firstWord? right := by
  obtain ⟨bound, leftBound, rightBound⟩ : ∃ bound, left.length ≤ bound ∧ right.length ≤ bound :=
    ⟨max left.length right.length, le_max_left .., le_max_right ..⟩
  induction bound generalizing left right with
  | zero => rw [List.eq_nil_of_length_eq_zero (by omega : left.length = 0),
      List.eq_nil_of_length_eq_zero (by omega : right.length = 0)]
  | succ bound ih =>
      have rest := ih same.tail (by rw [List.length_tail]; omega) (by rw [List.length_tail]; omega)
      rw [firstWord?_eq left, firstWord?_eq right, same 0, rest]

end Text

namespace TwoSource

theorem firstSlot_bind {α : Type} (field : BitField) (fields : List Text)
    (next : Text × List Text → Except EncodeError α) :
    (firstSlot field fields >>= next) =
      if (Text.wordAt fields 0).isEmpty then .error (.missingOperand field.name)
      else next (Text.wordAt fields 0, fields.tail) := by
  cases fields with
  | nil => rfl
  | cons first rest =>
      rw [firstSlot, Text.wordAt_zero, List.tail_cons]
      split <;> rfl

theorem Slots.ofFields_eq (strict : Bool) (fields : List Text) :
    Slots.ofFields strict fields =
      if (Text.wordAt fields 0).isEmpty then .error (.missingOperand sdst.name)
      else if (Text.wordAt fields 1).isEmpty then .error (.missingOperand ssrc1.name)
      else if (Text.wordAt fields 2).isEmpty then .error (.missingOperand ssrc0.name)
      else
        match strict, Text.firstWord? fields.tail.tail.tail with
        | true, some extra => .error (.trailingOperand extra)
        | _, _ =>
            .ok ⟨Text.wordAt fields 0, Text.wordAt fields 1, Text.wordAt fields 2⟩ := by
  simp only [Slots.ofFields, firstSlot_bind, Text.wordAt_tail, Nat.zero_add]
  rfl

theorem Slots.ofFields_congr {left right : List Text} (same : Text.SameWords left right)
    (strict : Bool) : Slots.ofFields strict left = Slots.ofFields strict right := by
  rw [Slots.ofFields_eq, Slots.ofFields_eq, same 0, same 1, same 2,
    same.tail.tail.tail.firstWord?]

theorem pack_congr {leftStrict rightStrict : Bool} {left right : Text}
    (same : Slots.ofFields leftStrict left.fields = Slots.ofFields rightStrict right.fields)
    (tables : Tables) (baseOpcode : UInt32) :
    pack leftStrict tables baseOpcode left = pack rightStrict tables baseOpcode right := by
  simp only [pack, Slots.read_eq_ofFields, same]

end TwoSource

namespace Assembler

theorem encodeInstruction_congr {first second : Assembler} (firstBuiltIn : first.registered = [])
    (secondBuiltIn : second.registered = []) (sameTables : first.tables = second.tables)
    {instruction : Instruction} {left right : Text}
    (same : instruction.family = .sop2 →
      TwoSource.Slots.ofFields first.config.strictOperands left.fields =
        TwoSource.Slots.ofFields second.config.strictOperands right.fields) :
    first.encodeInstruction instruction left = second.encodeInstruction instruction right := by
  rw [encodeInstruction, encodeInstruction, encoderFor_of_unregistered firstBuiltIn,
    encoderFor_of_unregistered secondBuiltIn, sameTables]
  by_cases scalar : instruction.family = .sop2
  · rw [if_pos scalar, if_pos scalar]
    simp only [TwoSource.encoder, TwoSource.encode, TwoSource.pack_congr (same scalar)]
  · rw [if_neg scalar, if_neg scalar]

theorem splitLine_fields (line : Text) :
    (splitLine line).map (fun (mnemonic, operands) => (mnemonic, operands.fields)) =
      if (Text.wordAt line.stripComment.fields 0).isEmpty then none
      else some (Text.wordAt line.stripComment.fields 0, line.stripComment.fields.tail) := by
  unfold splitLine
  cases taken : line.stripComment.takeField with
  | none => simp [Text.fields_of_takeField_none taken, Text.wordAt_nil]
  | some parts =>
      rw [Text.fields_of_takeField taken, Text.wordAt_zero]
      simp only [List.tail_cons]
      split <;> rfl

/-- What a line assembles to is decided by its first word and by the operands that are found behind
it, and these are looked for only if the word is the name of an instruction that takes them. -/
theorem assembleLine_congr_slots {first second : Assembler} (firstBuiltIn : first.registered = [])
    (secondBuiltIn : second.registered = []) (sameTables : first.tables = second.tables)
    {left right : Text}
    (sameWord : Text.wordAt left.stripComment.fields 0 = Text.wordAt right.stripComment.fields 0)
    (sameSlots : Text.wordAt left.stripComment.fields 0 ≠ [] → ∀ instruction,
      first.tables.resolve? (Text.wordAt left.stripComment.fields 0) = some instruction →
        instruction.family = .sop2 →
          TwoSource.Slots.ofFields first.config.strictOperands left.stripComment.fields.tail =
            TwoSource.Slots.ofFields second.config.strictOperands
              right.stripComment.fields.tail) :
    first.assembleLine left = second.assembleLine right := by
  have leftParts := splitLine_fields left
  have rightParts := splitLine_fields right
  rw [← sameWord] at rightParts
  rw [assembleLine, assembleLine]
  by_cases blank : (Text.wordAt left.stripComment.fields 0).isEmpty = true
  · rw [if_pos blank, Option.map_eq_none_iff] at leftParts rightParts
    rw [leftParts, rightParts]
  · rw [if_neg blank, Option.map_eq_some_iff] at leftParts rightParts
    obtain ⟨⟨mnemonic, leftOperands⟩, leftSplit, leftShape⟩ := leftParts
    obtain ⟨⟨mnemonic', rightOperands⟩, rightSplit, rightShape⟩ := rightParts
    simp only [Prod.mk.injEq] at leftShape rightShape
    obtain rfl : mnemonic = mnemonic' := leftShape.1.trans rightShape.1.symm
    simp only [leftSplit, rightSplit, ← sameTables]
    cases resolved : first.tables.resolve? mnemonic with
    | none => rfl
    | some instruction =>
        have operands : instruction.family = .sop2 →
            TwoSource.Slots.ofFields first.config.strictOperands leftOperands.fields =
              TwoSource.Slots.ofFields second.config.strictOperands rightOperands.fields := by
          rw [leftShape.2, rightShape.2]
          exact sameSlots (by simpa using blank) instruction (leftShape.1 ▸ resolved)
        simp only [encodeInstruction_congr firstBuiltIn secondBuiltIn sameTables operands]

theorem assembleLine_congr {assembler : Assembler} (unregistered : assembler.registered = [])
    {left right : Text}
    (same : Text.SameWords left.stripComment.fields right.stripComment.fields) :
    assembler.assembleLine left = assembler.assembleLine right :=
  assembleLine_congr_slots unregistered unregistered rfl (same 0) fun _ _ _ _ =>
    TwoSource.Slots.ofFields_congr same.tail _

end Assembler

end ShaderAssembler

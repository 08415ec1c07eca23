import ShaderAssembler.Proofs.BitField
import ShaderAssembler.Proofs.LineWords

/-! What the two-source encoder refuses. The operands are packed one after the other, so the error of
an operand text is the fault of its first operand that has one. -/

namespace ShaderAssembler

theorem bind_eq_error_iff {ε α β : Type} {first : Except ε α} {next : α → Except ε β} {cause : ε} :
    (first >>= next) = .error cause ↔
      first = .error cause ∨ ∃ value, first = .ok value ∧ next value = .error cause := by
  cases first <;> simp [bind, Except.bind]

namespace TwoSource

theorem classifySlot_eq_error_iff (tables : Tables) (field : BitField) (text : Text)
    (cause : EncodeError) :
    classifySlot tables field text = .error cause ↔
      ∃ fault, tables.classify text = .error fault ∧ cause = .operand field.name fault := by
  unfold classifySlot
  cases tables.classify text <;> simp [Except.mapError, eq_comm]

theorem merge_eq_error_iff {field : BitField} (inWord : field.inWord = true) (packing : Packing)
    (code : UInt32) (cause : EncodeError) :
    Packing.proceed (packing.merge field code) = .error cause ↔
      2 ^ field.width.toNat ≤ code.toNat ∧ cause = .codeTooLarge field code := by
  rw [Packing.merge, dif_pos inWord, ← BitField.max_lt_iff inWord]
  by_cases large : code > field.max (BitField.width_lt_of_inWord inWord)
  · simp [Packing.proceed, large, eq_comm]
  · simp [Packing.proceed, large]

theorem setLiteral_eq_error_iff (packing : Packing) (value : UInt32) (cause : EncodeError) :
    Packing.proceed (packing.setLiteral value) = .error cause ↔
      packing.literal ≠ none ∧ cause = .duplicateLiteral := by
  unfold Packing.setLiteral
  cases packing.literal <;> simp [Packing.proceed, eq_comm]

inductive DestinationFault (tables : Tables) (text : Text) : EncodeError → Prop
  | operand {fault : OperandError} :
      tables.classify text = .error fault →
        DestinationFault tables text (.operand sdst.name fault)
  | notWritable {destination : ClassifiedOperand} :
      tables.classify text = .ok destination →
        ¬ destination.kind < tables.codes.sdstThreshold →
          DestinationFault tables text (.invalidDestination text)
  | tooLarge {destination : ClassifiedOperand} :
      tables.classify text = .ok destination →
        destination.kind < tables.codes.sdstThreshold →
          2 ^ sdst.width.toNat ≤ destination.code.toNat →
            DestinationFault tables text (.codeTooLarge sdst destination.code)

theorem packDestination_eq_error_iff (tables : Tables) (text : Text) (packing : Packing)
    (cause : EncodeError) :
    packDestination tables text packing = .error cause ↔ DestinationFault tables text cause := by
  simp only [packDestination, bind_eq_error_iff, classifySlot_eq_error_iff, classifySlot_eq_ok_iff,
    OperandKind.isRegisterClass, decide_eq_true_eq]
  constructor
  · rintro (⟨fault, malformed, rfl⟩ | ⟨destination, spelled, refused⟩)
    · exact .operand malformed
    · split at refused
      · rename_i writable
        obtain ⟨large, rfl⟩ := (merge_eq_error_iff rfl _ _ _).mp refused
        exact .tooLarge spelled writable large
      · rename_i unwritable
        obtain rfl := Except.error.inj refused
        exact .notWritable spelled unwritable
  · intro fault
    cases fault with
    | operand malformed => exact Or.inl ⟨_, malformed, rfl⟩
    | notWritable spelled unwritable =>
        refine Or.inr ⟨_, spelled, ?_⟩
        rw [if_neg unwritable]
    | tooLarge spelled writable large =>
        refine Or.inr ⟨_, spelled, ?_⟩
        rw [if_pos writable]
        exact (merge_eq_error_iff rfl _ _ _).mpr ⟨large, rfl⟩

inductive SourceFault (tables : Tables) (earlier : Option UInt32) (field : BitField) (text : Text) :
    EncodeError → Prop
  | operand {fault : OperandError} :
      tables.classify text = .error fault →
        SourceFault tables earlier field text (.operand field.name fault)
  | secondLiteral {source : ClassifiedOperand} :
      tables.classify text = .ok source → source.literal? ≠ none → earlier ≠ none →
        SourceFault tables earlier field text .duplicateLiteral
  | tooLarge {source : ClassifiedOperand} :
      tables.classify text = .ok source → (source.literal? = none ∨ earlier = none) →
        2 ^ field.width.toNat ≤ source.code.toNat →
          SourceFault tables earlier field text (.codeTooLarge field source.code)

theorem packSource_eq_error_iff (tables : Tables) {field : BitField} (inWord : field.inWord = true)
    (text : Text) (packing : Packing) (cause : EncodeError) :
    packSource tables field text packing = .error cause ↔
      SourceFault tables packing.literal field text cause := by
  simp only [packSource, bind_eq_error_iff, classifySlot_eq_error_iff, classifySlot_eq_ok_iff]
  constructor
  · rintro (⟨fault, malformed, rfl⟩ | ⟨source, spelled, refused⟩)
    · exact .operand malformed
    · cases isLiteral : source.literal? with
      | none =>
          rw [isLiteral] at refused
          obtain ⟨large, rfl⟩ := (merge_eq_error_iff inWord packing _ _).mp refused
          exact .tooLarge spelled (Or.inl isLiteral) large
      | some value =>
          rw [isLiteral] at refused
          rcases bind_eq_error_iff.mp refused with unset | ⟨_, free, unmerged⟩
          · obtain ⟨taken, rfl⟩ := (setLiteral_eq_error_iff _ _ _).mp unset
            exact .secondLiteral spelled (by simp [isLiteral]) taken
          · obtain ⟨large, rfl⟩ := (merge_eq_error_iff inWord _ _ _).mp unmerged
            exact .tooLarge spelled (Or.inr ((setLiteral_eq_ok_iff _ _ _).mp free).1) large
  · intro fault
    cases fault with
    | operand malformed => exact Or.inl ⟨_, malformed, rfl⟩
    | secondLiteral spelled isLiteral taken =>
        refine Or.inr ⟨_, spelled, ?_⟩
        obtain ⟨value, literal⟩ := Option.ne_none_iff_exists'.mp isLiteral
        rw [literal]
        exact bind_eq_error_iff.mpr (Or.inl ((setLiteral_eq_error_iff _ _ _).mpr ⟨taken, rfl⟩))
    | @tooLarge source spelled free large =>
        have refused (packed : Packing) :
            Packing.proceed (packed.merge field source.code) =
              .error (.codeTooLarge field source.code) :=
          (merge_eq_error_iff inWord _ _ _).mpr ⟨large, rfl⟩
        refine Or.inr ⟨source, spelled, ?_⟩
        cases isLiteral : source.literal? with
        | none => exact refused packing
        | some value =>
            have slotFree : packing.literal = none := by simpa [isLiteral] using free
            have placed := (setLiteral_eq_ok_iff packing _ value).mpr ⟨slotFree, rfl⟩
            exact bind_eq_error_iff.mpr (Or.inr ⟨_, placed, refused _⟩)

/-- Operand texts that cannot be packed. A fault counts only if the operands before it have none. -/
inductive Slots.Refused (tables : Tables) (slots : Slots) : EncodeError → Prop
  | destination {cause : EncodeError} :
      DestinationFault tables slots.destination cause → slots.Refused tables cause
  | source1 {destination : ClassifiedOperand} {cause : EncodeError} :
      tables.classify slots.destination = .ok destination →
        destination.kind < tables.codes.sdstThreshold → destination.code ≤ sdst.max →
          SourceFault tables none ssrc1 slots.source1 cause → slots.Refused tables cause
  | source0 {destination source1 : ClassifiedOperand} {cause : EncodeError} :
      tables.classify slots.destination = .ok destination →
        destination.kind < tables.codes.sdstThreshold → destination.code ≤ sdst.max →
          tables.classify slots.source1 = .ok source1 → source1.code ≤ ssrc1.max →
            SourceFault tables source1.literal? ssrc0 slots.source0 cause →
              slots.Refused tables cause

theorem pack_eq_error_iff (strict : Bool) (tables : Tables) (baseOpcode : UInt32) (operands : Text)
    (cause : EncodeError) :
    pack strict tables baseOpcode operands = .error cause ↔
      Slots.ofFields strict operands.fields = .error cause ∨
        ∃ slots, Slots.ofFields strict operands.fields = .ok slots ∧
          slots.Refused tables cause := by
  simp only [pack, bind_eq_error_iff, Slots.read_eq_ofFields, packDestination_eq_error_iff,
    packDestination_eq_ok_iff, packSource_eq_error_iff tables (rfl : ssrc1.inWord = true),
    packSource_eq_error_iff tables (rfl : ssrc0.inWord = true),
    packSource_eq_ok_iff tables (rfl : ssrc1.inWord = true)]
  refine or_congr_right (exists_congr fun slots => and_congr_right fun _ => ?_)
  constructor
  · rintro (fault | ⟨_, ⟨destination, spelled, writable, fits, rfl⟩, fault | ⟨_, ⟨source1, spelled1,
      _, fits1, rfl⟩, fault | ⟨_, _, finished⟩⟩⟩)
    · exact .destination fault
    · exact .source1 spelled writable fits fault
    · exact .source0 spelled writable fits spelled1 fits1 fault
    · cases finished
  · intro refused
    cases refused with
    | destination fault => exact Or.inl fault
    | source1 spelled writable fits fault =>
        exact Or.inr ⟨_, ⟨_, spelled, writable, fits, rfl⟩, Or.inl fault⟩
    | source0 spelled writable fits spelled1 fits1 fault =>
        exact Or.inr ⟨_, ⟨_, spelled, writable, fits, rfl⟩,
          Or.inr ⟨_, ⟨_, spelled1, Or.inr rfl, fits1, rfl⟩, Or.inl fault⟩⟩

theorem Slots.ofFields_error_cases {strict : Bool} {fields : List Text} {cause : EncodeError}
    (failed : Slots.ofFields strict fields = .error cause) :
    (∃ slot, cause = .missingOperand slot) ∨ ∃ extra, cause = .trailingOperand extra := by
  rw [Slots.ofFields_eq] at failed
  split at failed
  · exact Or.inl ⟨_, (Except.error.inj failed).symm⟩
  · split at failed
    · exact Or.inl ⟨_, (Except.error.inj failed).symm⟩
    · split at failed
      · exact Or.inl ⟨_, (Except.error.inj failed).symm⟩
      · split at failed
        · exact Or.inr ⟨_, (Except.error.inj failed).symm⟩
        · cases failed

end TwoSource

end ShaderAssembler

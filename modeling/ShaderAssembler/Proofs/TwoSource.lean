import ShaderAssembler.Encoder.TwoSource
import ShaderAssembler.Proofs.Field

/-! What the two-source encoder makes of an operand text. Taking the operands one by one gives
what the list of all fields gives, and a word is packed exactly when three operands are there,
each is a known one, and all of them fit together. -/

namespace ShaderAssembler

theorem bind_eq_ok_iff {ε α β : Type} {first : Except ε α} {next : α → Except ε β} {result : β} :
    (first >>= next) = .ok result ↔ ∃ value, first = .ok value ∧ next value = .ok result := by
  cases first <;> simp [bind, Except.bind]

theorem ClassifiedOperand.literal?_eq_some_iff (classified : ClassifiedOperand) (value : UInt32) :
    classified.literal? = some value ↔ classified.operand = .literal value := by
  rw [literal?]
  cases classified.operand <;> simp [Operand.literal?]

theorem OperandKind.not_literal_lt (threshold : OperandKind) : ¬ .literal < threshold := by
  cases threshold <;> decide

namespace TwoSource

def firstSlot (field : BitField) : List Text → Except EncodeError (Text × List Text)
  | [] => .error (.missingOperand field.name)
  | operand :: rest =>
      if operand.trimLineEnd.isEmpty then .error (.missingOperand field.name)
      else .ok (operand.trimLineEnd, rest)

def Slots.ofFields (strict : Bool) (fields : List Text) : Except EncodeError Slots := do
  let (destination, rest) ← firstSlot sdst fields
  let (source1, rest) ← firstSlot ssrc1 rest
  let (source0, rest) ← firstSlot ssrc0 rest
  match strict, (rest.map Text.trimLineEnd).find? (!·.isEmpty) with
  | true, some extra => .error (.trailingOperand extra)
  | _, _ => .ok { destination, source1, source0 }

theorem takeSlot_fields (field : BitField) (text : Text) :
    firstSlot field text.fields =
      (takeSlot field text).map fun (slot, rest) => (slot, rest.fields) := by
  unfold takeSlot
  cases taken : text.takeField with
  | none =>
      rw [Text.fields_of_takeField_none taken]
      rfl
  | some split =>
      rw [Text.fields_of_takeField taken]
      simp only [firstSlot]
      split <;> rfl

/-- Operands that are taken one by one are the first ones of the list of fields. -/
theorem Slots.read_eq_ofFields (strict : Bool) (operands : Text) :
    Slots.read strict operands = Slots.ofFields strict operands.fields := by
  unfold Slots.read Slots.ofFields
  rw [takeSlot_fields]
  cases takeSlot sdst operands with
  | error => rfl
  | ok first =>
      simp only [Except.map, bind, Except.bind]
      rw [takeSlot_fields]
      cases takeSlot ssrc1 first.2 with
      | error => rfl
      | ok second =>
          simp only [Except.map]
          rw [takeSlot_fields]
          cases takeSlot ssrc0 second.2 with
          | error => rfl
          | ok third => rfl

theorem firstSlot_eq_ok_iff (field : BitField) (fields rest : List Text) (slot : Text) :
    firstSlot field fields = .ok (slot, rest) ↔
      ∃ operand, fields = operand :: rest ∧ slot = operand.trimLineEnd ∧ slot ≠ [] := by
  cases fields with
  | nil => simp [firstSlot]
  | cons operand tail =>
      simp only [firstSlot, List.isEmpty_iff]
      split
      · rename_i blank
        simp only [List.cons.injEq, reduceCtorEq, false_iff, not_exists]
        rintro _ ⟨⟨rfl, rfl⟩, rfl, nonblank⟩
        exact nonblank blank
      · rename_i nonblank
        simp only [Except.ok.injEq, Prod.mk.injEq, List.cons.injEq]
        constructor
        · rintro ⟨rfl, rfl⟩
          exact ⟨operand, ⟨rfl, rfl⟩, rfl, nonblank⟩
        · rintro ⟨_, ⟨rfl, rfl⟩, rfl, _⟩
          exact ⟨rfl, rfl⟩

theorem trailing_eq_ok_iff (strict : Bool) (more : List Text) (taken slots : Slots) :
    (match strict, (more.map Text.trimLineEnd).find? (!·.isEmpty) with
      | true, some extra => Except.error (EncodeError.trailingOperand extra)
      | _, _ => Except.ok taken) = Except.ok slots ↔
      slots = taken ∧ (strict = true → ∀ field ∈ more, field.trimLineEnd = []) := by
  cases found : (more.map Text.trimLineEnd).find? (!·.isEmpty) with
  | none =>
      have blank : ∀ field ∈ more, field.trimLineEnd = [] := by
        simpa [List.find?_eq_none] using found
      cases strict <;> exact ⟨fun same => ⟨(Except.ok.inj same).symm, fun _ => blank⟩,
        fun same => congrArg Except.ok same.1.symm⟩
  | some extra =>
      have member := List.mem_of_find?_eq_some found
      obtain ⟨field, present, rfl⟩ := List.mem_map.mp member
      have nonblank : field.trimLineEnd ≠ [] := by simpa using List.find?_some found
      cases strict with
      | false =>
          exact ⟨fun same => ⟨(Except.ok.inj same).symm, nofun⟩,
            fun same => congrArg Except.ok same.1.symm⟩
      | true =>
          simp only [reduceCtorEq, true_implies, false_iff, not_and]
          intro _ blank
          exact nonblank (blank field present)

theorem Slots.ofFields_eq_ok_iff (strict : Bool) (fields : List Text) (slots : Slots) :
    Slots.ofFields strict fields = .ok slots ↔
      ∃ destination source1 source0 more,
        fields = destination :: source1 :: source0 :: more ∧
        slots = ⟨destination.trimLineEnd, source1.trimLineEnd, source0.trimLineEnd⟩ ∧
        (slots.destination ≠ [] ∧ slots.source1 ≠ [] ∧ slots.source0 ≠ []) ∧
        (strict = true → ∀ field ∈ more, field.trimLineEnd = []) := by
  simp only [Slots.ofFields, bind_eq_ok_iff, Prod.exists, firstSlot_eq_ok_iff, trailing_eq_ok_iff]
  constructor
  · rintro ⟨_, _, ⟨first, shape, rfl, firstText⟩, _, _, ⟨second, rfl, rfl, secondText⟩, _, more,
      ⟨third, rfl, rfl, thirdText⟩, rfl, blank⟩
    exact ⟨first, second, third, more, shape, rfl, ⟨firstText, secondText, thirdText⟩, blank⟩
  · rintro ⟨first, second, third, more, shape, rfl, ⟨firstText, secondText, thirdText⟩, blank⟩
    exact ⟨_, _, ⟨first, shape, rfl, firstText⟩, _, _, ⟨second, rfl, rfl, secondText⟩, _, more,
      ⟨third, rfl, rfl, thirdText⟩, rfl, blank⟩

structure Operands where
  destination : ClassifiedOperand
  source1 : ClassifiedOperand
  source0 : ClassifiedOperand

structure Slots.Spell (tables : Tables) (slots : Slots) (operands : Operands) : Prop where
  destination : tables.classify slots.destination = .ok operands.destination
  source1 : tables.classify slots.source1 = .ok operands.source1
  source0 : tables.classify slots.source0 = .ok operands.source0

/-- The operands fit into a word together: the destination can be written to, each code fits
its field, and at most one source is a literal. -/
structure Operands.Fit (tables : Tables) (operands : Operands) : Prop where
  destinationClass : operands.destination.kind < tables.codes.sdstThreshold
  destinationCode : operands.destination.code ≤ sdst.max
  source1Code : operands.source1.code ≤ ssrc1.max
  source0Code : operands.source0.code ≤ ssrc0.max
  oneLiteral : operands.source0.literal? = none ∨ operands.source1.literal? = none

def Operands.machineCode (baseOpcode : UInt32) (operands : Operands) : MachineCode where
  word := baseOpcode ||| (operands.destination.code <<< 16) ||| (operands.source1.code <<< 8) |||
    operands.source0.code
  literal := operands.source1.literal?.or operands.source0.literal?

theorem Operands.Fit.literal_eq_some_iff {tables : Tables} {operands : Operands}
    (fit : operands.Fit tables) (baseOpcode value : UInt32) :
    (operands.machineCode baseOpcode).literal = some value ↔
      operands.source1.operand = .literal value ∨ operands.source0.operand = .literal value := by
  rw [← ClassifiedOperand.literal?_eq_some_iff, ← ClassifiedOperand.literal?_eq_some_iff,
    machineCode]
  rcases fit.oneLiteral with absent | absent <;> simp [absent]

theorem Operands.Fit.destination_ne_literal {tables : Tables} {operands : Operands}
    (fit : operands.Fit tables) (value : UInt32) :
    operands.destination.operand ≠ .literal value := by
  intro isLiteral
  have writable := fit.destinationClass
  rw [ClassifiedOperand.kind, isLiteral] at writable
  exact OperandKind.not_literal_lt _ writable

theorem classifySlot_eq_ok_iff (tables : Tables) (field : BitField) (text : Text)
    (classified : ClassifiedOperand) :
    classifySlot tables field text = .ok classified ↔ tables.classify text = .ok classified := by
  unfold classifySlot
  cases tables.classify text <;> simp [Except.mapError]

theorem merge_eq_ok_iff {field : BitField} (inWord : field.inWord = true)
    (packing packed : Packing) (code : UInt32) :
    Packing.proceed (packing.merge field code) = .ok packed ↔
      code ≤ field.max (BitField.width_lt_of_inWord inWord) ∧
        packed = { packing with word := packing.word ||| (code <<< field.lsb.toUInt32) } := by
  rw [Packing.merge, dif_pos inWord]
  by_cases large : code > field.max (BitField.width_lt_of_inWord inWord)
  · simp [Packing.proceed, large, UInt32.not_le.mpr large]
  · simp [Packing.proceed, large, UInt32.not_lt.mp large, eq_comm]

theorem packDestination_eq_ok_iff (tables : Tables) (text : Text) (packing packed : Packing) :
    packDestination tables text packing = .ok packed ↔
      ∃ destination, tables.classify text = .ok destination ∧
        destination.kind < tables.codes.sdstThreshold ∧ destination.code ≤ sdst.max ∧
        packed = { packing with word := packing.word ||| (destination.code <<< 16) } := by
  simp only [packDestination, bind_eq_ok_iff, classifySlot_eq_ok_iff]
  refine exists_congr fun destination => and_congr_right fun _ => ?_
  by_cases class' : destination.kind < tables.codes.sdstThreshold
  · simp only [OperandKind.isRegisterClass, class', decide_true, if_true, true_and]
    exact merge_eq_ok_iff rfl packing packed destination.code
  · simp [OperandKind.isRegisterClass, class']

theorem setLiteral_eq_ok_iff (packing packed : Packing) (value : UInt32) :
    Packing.proceed (packing.setLiteral value) = .ok packed ↔
      packing.literal = none ∧ packed = { packing with literal := some value } := by
  unfold Packing.setLiteral
  cases packing.literal <;> simp [Packing.proceed, eq_comm]

theorem packSource_eq_ok_iff (tables : Tables) {field : BitField} (inWord : field.inWord = true)
    (text : Text) (packing packed : Packing) :
    packSource tables field text packing = .ok packed ↔
      ∃ source, tables.classify text = .ok source ∧
        (source.literal? = none ∨ packing.literal = none) ∧
        source.code ≤ field.max (BitField.width_lt_of_inWord inWord) ∧
        packed = { word := packing.word ||| (source.code <<< field.lsb.toUInt32),
                   literal := packing.literal.or source.literal? } := by
  simp only [packSource, bind_eq_ok_iff, classifySlot_eq_ok_iff]
  refine exists_congr fun source => and_congr_right fun _ => ?_
  cases source.literal? with
  | none => simp [bind_eq_ok_iff, merge_eq_ok_iff inWord]
  | some value =>
      simp only [bind_eq_ok_iff, setLiteral_eq_ok_iff, merge_eq_ok_iff inWord, reduceCtorEq,
        false_or]
      constructor
      · rintro ⟨_, ⟨free, rfl⟩, fits, rfl⟩
        exact ⟨free, fits, by rw [free, Option.none_or]⟩
      · rintro ⟨free, fits, rfl⟩
        exact ⟨_, ⟨free, rfl⟩, fits, by rw [free, Option.none_or]⟩

theorem finish_eq_machineCode (baseOpcode : UInt32) (operands : Operands) :
    Packing.finish
      { word := baseOpcode ||| (operands.destination.code <<< 16) |||
          (operands.source1.code <<< ssrc1.lsb.toUInt32) |||
          (operands.source0.code <<< ssrc0.lsb.toUInt32),
        literal := (none.or operands.source1.literal?).or operands.source0.literal? } =
      operands.machineCode baseOpcode := by
  have unshifted : operands.source0.code <<< ssrc0.lsb.toUInt32 = operands.source0.code :=
    UInt32.shiftLeft_zero
  rw [unshifted, Option.none_or]
  rfl

theorem pack_eq_ok_iff (strict : Bool) (tables : Tables) (baseOpcode : UInt32) (text : Text)
    (code : MachineCode) :
    pack strict tables baseOpcode text = .ok code ↔
      ∃ slots operands, Slots.ofFields strict text.fields = .ok slots ∧
        slots.Spell tables operands ∧ operands.Fit tables ∧
        code = operands.machineCode baseOpcode := by
  simp only [pack, bind_eq_ok_iff, Slots.read_eq_ofFields, packDestination_eq_ok_iff,
    packSource_eq_ok_iff tables (rfl : ssrc1.inWord = true),
    packSource_eq_ok_iff tables (rfl : ssrc0.inWord = true)]
  constructor
  · rintro ⟨slots, read, _, ⟨destination, spelled, writable, fits, rfl⟩,
      _, ⟨source1, spelled1, _, fits1, rfl⟩, _, ⟨source0, spelled0, free, fits0, rfl⟩, finished⟩
    refine ⟨slots, ⟨destination, source1, source0⟩, read, ⟨spelled, spelled1, spelled0⟩,
      ⟨writable, fits, fits1, fits0, free⟩, ?_⟩
    rw [← finish_eq_machineCode]
    exact (Except.ok.inj finished).symm
  · rintro ⟨slots, ⟨destination, source1, source0⟩, read, spell, fit, rfl⟩
    rw [← finish_eq_machineCode]
    exact ⟨slots, read, _, ⟨destination, spell.destination, fit.destinationClass,
      fit.destinationCode, rfl⟩, _, ⟨source1, spell.source1, Or.inr rfl, fit.source1Code, rfl⟩, _,
      ⟨source0, spell.source0, fit.oneLiteral, fit.source0Code, rfl⟩, rfl⟩

theorem value_encode (strict : Bool) (tables : Tables) (instruction : Instruction)
    (operands : Text) :
    (encode strict tables instruction operands).value =
      pack strict tables instruction.baseOpcode operands := by
  unfold encode
  split <;> rename_i packed <;> rw [packed]

end TwoSource

end ShaderAssembler

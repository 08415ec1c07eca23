import Mathlib.Data.List.Find
import Mathlib.Data.List.Nodup
import ShaderAssembler.Proofs.CodeRange
import ShaderAssembler.Proofs.Source

/-! The order of the tables. Both tables are searched for the first entry that matches, so their
order can matter only where two entries match the same text. Valid tables have no two instructions
of that kind, and two names that start one text start each other. -/

namespace ShaderAssembler

theorem firstRepeated?_cons (seen : List Text) (first : Text) (rest : List Text) :
    firstRepeated? seen (first :: rest) =
      if first ∈ seen then some first else firstRepeated? (first :: seen) rest :=
  rfl

theorem firstRepeated?_eq_none_iff (seen texts : List Text) :
    firstRepeated? seen texts = none ↔ texts.Nodup ∧ ∀ text ∈ texts, text ∉ seen := by
  induction texts generalizing seen with
  | nil => exact ⟨fun _ => ⟨List.nodup_nil, by simp⟩, fun _ => rfl⟩
  | cons first rest ih =>
      rw [firstRepeated?_cons, List.nodup_cons, List.forall_mem_cons]
      by_cases repeated : first ∈ seen
      · simp [repeated]
      · rw [if_neg repeated, ih]
        constructor
        · rintro ⟨distinct, fresh⟩
          refine ⟨⟨fun again => ?_, distinct⟩, repeated, ?_⟩
          · exact fresh first again List.mem_cons_self
          · intro text member known
            exact fresh text member (List.mem_cons_of_mem first known)
        · rintro ⟨⟨once, distinct⟩, _, fresh⟩
          refine ⟨distinct, ?_⟩
          intro text member known
          rcases List.mem_cons.mp known with rfl | earlier
          · exact once member
          · exact fresh text member earlier

namespace Tables

theorem value_validate_eq_ok_iff (tables : Tables) :
    tables.validate.value = .ok () ↔
      tables.codes.InRange ∧ (tables.instructions.map Instruction.mnemonic).Nodup := by
  have distinct := firstRepeated?_eq_none_iff [] (tables.instructions.map Instruction.mnemonic)
  simp only [List.not_mem_nil, not_false_eq_true, implies_true, and_true] at distinct
  rw [value_validate, fault?, ← OperandCodes.validate_eq_ok_iff, ← distinct]
  cases tables.codes.validate with
  | error fault => simp
  | ok =>
      cases firstRepeated? [] (tables.instructions.map Instruction.mnemonic) with
      | none => simp
      | some mnemonic => simp

section

variable {left right : Tables} (classify : ∀ text, left.classify text = right.classify text)
  (sdstThreshold : left.codes.sdstThreshold = right.codes.sdstThreshold)
include classify sdstThreshold

theorem pack_congr (strict : Bool) (baseOpcode : UInt32) (operands : Text) :
    TwoSource.pack strict left baseOpcode operands =
      TwoSource.pack strict right baseOpcode operands := by
  simp only [TwoSource.pack, TwoSource.packDestination, TwoSource.packSource,
    TwoSource.classifySlot, classify, sdstThreshold]

theorem encodeInstruction_congr (config : AssemblerConfig) (instruction : Instruction)
    (operands : Text) :
    Assembler.encodeInstruction { tables := left, config } instruction operands =
      Assembler.encodeInstruction { tables := right, config } instruction operands := by
  rw [Assembler.encodeInstruction, Assembler.encodeInstruction,
    Assembler.encoderFor_of_unregistered rfl, Assembler.encoderFor_of_unregistered rfl]
  by_cases scalar : instruction.family = .sop2
  · simp only [scalar, if_true, TwoSource.encoder, TwoSource.encode,
      pack_congr classify sdstThreshold]
  · rw [if_neg scalar]

end

/-- Tables that no assembler can tell apart. -/
structure Alike (left right : Tables) : Prop where
  resolve? : ∀ mnemonic, left.resolve? mnemonic = right.resolve? mnemonic
  classify : ∀ text, left.classify text = right.classify text
  sdstThreshold : left.codes.sdstThreshold = right.codes.sdstThreshold

namespace Alike

variable {left right : Tables} (alike : left.Alike right)
include alike

theorem assembleLine (config : AssemblerConfig) (line : Text) :
    Assembler.assembleLine { tables := left, config } line =
      Assembler.assembleLine { tables := right, config } line := by
  rw [Assembler.assembleLine, Assembler.assembleLine]
  simp only [alike.resolve?, encodeInstruction_congr alike.classify alike.sdstThreshold]

theorem assembleLines (config : AssemblerConfig) (line : Nat) (texts : List Text) :
    Assembler.assembleLines { tables := left, config } line texts =
      Assembler.assembleLines { tables := right, config } line texts := by
  induction texts generalizing line with
  | nil => rfl
  | cons text rest ih =>
      rw [Assembler.assembleLines, Assembler.assembleLines, alike.assembleLine]
      simp only [ih]

end Alike

structure Reordered (tables other : Tables) : Prop where
  instructions : tables.instructions.Perm other.instructions
  operands : tables.operands.Perm other.operands
  codes : tables.codes = other.codes

theorem Reordered.value_validate {tables other : Tables} (reordered : tables.Reordered other)
    (accepted : tables.validate.value = .ok ()) : other.validate.value = .ok () := by
  rw [value_validate_eq_ok_iff] at accepted ⊢
  obtain ⟨inRange, distinct⟩ := accepted
  rw [reordered.codes] at inRange
  exact ⟨inRange, (reordered.instructions.map _).nodup_iff.mp distinct⟩

theorem Reordered.resolve? {tables other : Tables} (reordered : tables.Reordered other)
    (distinct : (tables.instructions.map Instruction.mnemonic).Nodup) (mnemonic : Text) :
    tables.resolve? mnemonic = other.resolve? mnemonic := by
  apply List.find?_eq_find?_of_perm reordered.instructions
  rintro first ⟨firstMember, firstNamed⟩ second ⟨secondMember, secondNamed⟩
  rw [decide_eq_true_eq] at firstNamed secondNamed
  exact List.inj_on_of_nodup_map distinct firstMember secondMember
    (firstNamed.trans secondNamed.symm)

def Unambiguous (operands : List NamedOperand) : Prop :=
  ∀ i j : Fin operands.length, i ≠ j → ¬ (operands.get i).name <+: (operands.get j).name

theorem Unambiguous.eq_of_name {operands : List NamedOperand} (unambiguous : Unambiguous operands)
    {first second : NamedOperand} (firstMember : first ∈ operands)
    (secondMember : second ∈ operands) (starts : first.name <+: second.name) : first = second := by
  obtain ⟨i, rfl⟩ := List.get_of_mem firstMember
  obtain ⟨j, rfl⟩ := List.get_of_mem secondMember
  by_cases same : i = j
  · rw [same]
  · exact absurd starts (unambiguous i j same)

theorem Reordered.classify {tables other : Tables} (reordered : tables.Reordered other)
    (unambiguous : Unambiguous tables.operands) (text : Text) :
    tables.classify text = other.classify text := by
  have found :
      NamedOperand.find? tables.operands text = NamedOperand.find? other.operands text := by
    apply List.find?_eq_find?_of_perm reordered.operands
    rintro first ⟨firstMember, firstStarts⟩ second ⟨secondMember, secondStarts⟩
    rw [List.isPrefixOf_iff_prefix] at firstStarts secondStarts
    -- Of two names that start the text the shorter one starts the longer one.
    rcases List.prefix_or_prefix_of_prefix firstStarts secondStarts with starts | starts
    · exact unambiguous.eq_of_name firstMember secondMember starts
    · exact (unambiguous.eq_of_name secondMember firstMember starts).symm
  rw [Tables.classify, Tables.classify, ShaderAssembler.classify, ShaderAssembler.classify, found,
    reordered.codes]

theorem Reordered.alike {tables other : Tables} (reordered : tables.Reordered other)
    (accepted : tables.validate.value = .ok ()) (unambiguous : Unambiguous tables.operands) :
    tables.Alike other where
  resolve? := reordered.resolve? ((value_validate_eq_ok_iff tables).mp accepted).2
  classify := reordered.classify unambiguous
  sdstThreshold := by rw [reordered.codes]

end Tables

namespace Assembler

/-- If no name starts another one, valid tables can be reordered: they stay valid, and every run
makes the same reports and the same log. -/
theorem assembleSource_reordered (tables : Tables) (accepted : tables.validate.value = .ok ())
    (unambiguous : Tables.Unambiguous tables.operands) (other : Tables)
    (reordered : tables.Reordered other) :
    other.validate.value = .ok () ∧
      ∀ (config : AssemblerConfig) (source : Text),
        assembleSource { tables, config } source =
          assembleSource { tables := other, config } source := by
  refine ⟨reordered.value_validate accepted, ?_⟩
  intro config source
  have alike := reordered.alike accepted unambiguous
  exact alike.assembleLines config 1 source.lines

theorem assembleSource_reordered_reversed :
    let tables := Tables.southernIslands
    let other : Tables :=
      { tables with
        instructions := tables.instructions.reverse, operands := tables.operands.reverse }
    tables ≠ other ∧ tables.validate.value = .ok () ∧ Tables.Unambiguous tables.operands ∧
      tables.Reordered other ∧ other.validate.value = .ok () ∧
      ∀ (config : AssemblerConfig) (source : Text),
        assembleSource { tables, config } source =
          assembleSource { tables := other, config } source := by
  intro tables other
  have accepted : tables.validate.value = .ok () := by decide +kernel
  have unambiguous : Tables.Unambiguous tables.operands := by
    unfold Tables.Unambiguous
    decide +kernel
  have reordered : tables.Reordered other :=
    ⟨(List.reverse_perm _).symm, (List.reverse_perm _).symm, rfl⟩
  exact ⟨by decide +kernel, accepted, unambiguous, reordered,
    assembleSource_reordered tables accepted unambiguous other reordered⟩

end Assembler

end ShaderAssembler

import Mathlib.Data.List.Forall2
import ShaderAssembler.Proofs.ShadowedOperands
import ShaderAssembler.Proofs.TableOrder

/-! What validation says about tables: which tables it accepts, which of several faults it reports,
and what it logs. -/

namespace ShaderAssembler

def WithinLimits (bounds : List (String × Nat × Nat)) : Prop :=
  ∀ bound ∈ bounds, bound.2.1 ≤ bound.2.2

instance (bounds : List (String × Nat × Nat)) : Decidable (WithinLimits bounds) :=
  inferInstanceAs (Decidable (∀ bound ∈ bounds, bound.2.1 ≤ bound.2.2))

def FirstRepeated (texts : List Text) (text : Text) : Prop :=
  ∃ earlier later, texts = earlier ++ text :: later ∧ text ∈ earlier ∧ earlier.Nodup

theorem firstRepeated?_eq_some_iff (seen texts : List Text) (text : Text) :
    firstRepeated? seen texts = some text ↔
      ∃ earlier later, texts = earlier ++ text :: later ∧ (text ∈ earlier ∨ text ∈ seen) ∧
        earlier.Nodup ∧ ∀ other ∈ earlier, other ∉ seen := by
  induction texts generalizing seen with
  | nil =>
      have found : firstRepeated? seen [] = none := rfl
      simp [found]
  | cons first rest ih =>
      rw [firstRepeated?_cons]
      by_cases repeated : first ∈ seen
      · rw [if_pos repeated, Option.some.injEq]
        constructor
        · rintro rfl
          exact ⟨[], rest, rfl, Or.inr repeated, List.nodup_nil, by simp⟩
        · rintro ⟨earlier, later, shape, _, _, fresh⟩
          cases earlier with
          | nil => exact (List.cons.inj shape).1
          | cons other more =>
              rw [List.cons_append, List.cons.injEq] at shape
              exact absurd (shape.1 ▸ repeated) (fresh other List.mem_cons_self)
      · rw [if_neg repeated, ih]
        constructor
        · rintro ⟨earlier, later, rfl, again, distinct, fresh⟩
          refine ⟨first :: earlier, later, rfl, ?_, List.nodup_cons.mpr ⟨?_, distinct⟩, ?_⟩
          · simpa only [List.mem_cons, or_assoc, or_left_comm] using again
          · exact fun member => fresh first member List.mem_cons_self
          · exact List.forall_mem_cons.mpr ⟨repeated, fun other member known =>
              fresh other member (List.mem_cons_of_mem first known)⟩
        · rintro ⟨earlier, later, shape, again, distinct, fresh⟩
          cases earlier with
          | nil =>
              rw [List.nil_append, List.cons.injEq] at shape
              exact absurd (by simpa [shape.1] using again) repeated
          | cons other more =>
              rw [List.cons_append, List.cons.injEq] at shape
              obtain ⟨rfl, rfl⟩ := shape
              obtain ⟨once, distinct⟩ := List.nodup_cons.mp distinct
              obtain ⟨_, fresh⟩ := List.forall_mem_cons.mp fresh
              refine ⟨more, later, rfl, ?_, distinct, ?_⟩
              · simpa only [List.mem_cons, or_assoc, or_left_comm] using again
              · intro later member known
                rcases List.mem_cons.mp known with rfl | before
                · exact once member
                · exact fresh later member before

theorem forall₂_filterMap {α β : Type} {relation : α → β → Prop} {image? : α → Option β}
    {entries : List α}
    (related : ∀ entry ∈ entries, ∃ image, image? entry = some image ∧ relation entry image) :
    List.Forall₂ relation entries (entries.filterMap image?) := by
  induction entries with
  | nil => exact .nil
  | cons first rest ih =>
      obtain ⟨⟨image, found, holds⟩, others⟩ := List.forall_mem_cons.mp related
      rw [List.filterMap_cons_some found]
      exact .cons holds (ih others)

namespace OperandCodes

theorem validate_eq_codeRange_iff (codes : OperandCodes) (name : String) (reached limit : Nat) :
    codes.validate = .error (.codeRange name reached limit) ↔
      ∃ earlier later, codes.reaches = earlier ++ (name, reached, limit) :: later ∧
        limit < reached ∧ WithinLimits earlier := by
  constructor
  · intro failed
    unfold validate at failed
    split at failed
    · rename_i found
      rw [Except.error.injEq, TableError.codeRange.injEq] at failed
      obtain ⟨rfl, rfl, rfl⟩ := failed
      obtain ⟨large, earlier, later, shape, fits⟩ := List.find?_eq_some_iff_append.mp found
      exact ⟨earlier, later, shape, by simpa using large, by simpa [WithinLimits] using fits⟩
    · cases failed
  · rintro ⟨earlier, later, shape, large, fits⟩
    rw [validate, shape, List.find?_append, List.find?_eq_none.mpr, Option.none_or,
      List.find?_cons_of_pos]
    · simpa using large
    · simpa [WithinLimits] using fits

theorem validate_ne_duplicateMnemonic (codes : OperandCodes) (mnemonic : Text) :
    codes.validate ≠ .error (.duplicateMnemonic mnemonic) := by
  unfold validate
  split <;> simp

end OperandCodes

namespace Tables

theorem resolve?_of_nodup {tables : Tables}
    (distinct : (tables.instructions.map Instruction.mnemonic).Nodup) {entry : Instruction}
    (listed : entry ∈ tables.instructions) : tables.resolve? entry.mnemonic = some entry := by
  cases found : tables.resolve? entry.mnemonic with
  | none =>
      have different := List.find?_eq_none.mp found entry listed
      simp at different
  | some other =>
      have same := List.inj_on_of_nodup_map distinct (mem_of_resolve? found) listed
        (mnemonic_of_resolve? found)
      rw [same]

/-- One event for each shadowed pair, with the names at its two positions. -/
theorem forall₂_shadowEvents (operands : List NamedOperand) :
    List.Forall₂ (fun pair event => ∃ earlier later, operands[pair.1]? = some earlier ∧
      operands[pair.2]? = some later ∧ event = .operandShadowed earlier.name later.name)
      (shadowedPairs operands) (shadowEvents operands) := by
  refine forall₂_filterMap ?_
  rintro ⟨i, j⟩ shadowed
  obtain ⟨_, earlier, later, first, second, _⟩ := (mem_shadowedPairs_iff operands i j).mp shadowed
  exact ⟨_, by simp [first, second], earlier, later, first, second, rfl⟩

theorem value_validate_eq_codeRange_iff (tables : Tables) (name : String) (reached limit : Nat) :
    tables.validate.value = .error (.codeRange name reached limit) ↔
      tables.codes.validate = .error (.codeRange name reached limit) := by
  rw [value_validate, fault?]
  cases tables.codes.validate with
  | error fault => simp
  | ok => cases firstRepeated? [] (tables.instructions.map Instruction.mnemonic) <;> simp

theorem value_validate_eq_duplicateMnemonic_iff (tables : Tables) (mnemonic : Text) :
    tables.validate.value = .error (.duplicateMnemonic mnemonic) ↔
      tables.codes.validate = .ok () ∧
        FirstRepeated (tables.instructions.map Instruction.mnemonic) mnemonic := by
  have repeated := firstRepeated?_eq_some_iff [] (tables.instructions.map Instruction.mnemonic)
    mnemonic
  simp only [List.not_mem_nil, or_false, not_false_eq_true, implies_true, and_true] at repeated
  rw [FirstRepeated, ← repeated, value_validate, fault?]
  cases valid : tables.codes.validate with
  | error fault =>
      have notRepeated := OperandCodes.validate_ne_duplicateMnemonic tables.codes mnemonic
      simpa [valid] using notRepeated
  | ok => cases firstRepeated? [] (tables.instructions.map Instruction.mnemonic) <;> simp

theorem events_validate_of_ok {tables : Tables} (accepted : tables.validate.value = .ok ()) :
    tables.validate.events = shadowEvents tables.operands := by
  rw [value_validate] at accepted
  rw [validate]
  cases found : tables.fault? with
  | none => rfl
  | some fault => simp [found] at accepted

theorem events_validate_of_error {tables : Tables} {fault : TableError}
    (refused : tables.validate.value = .error fault) : tables.validate.events = [] := by
  rw [value_validate] at refused
  rw [validate]
  cases found : tables.fault? with
  | none => simp [found] at refused
  | some fault => rfl

/-- Tables are accepted if all codes fit and no mnemonic comes twice. If not, the first code that is
too large is reported, and if there is none, the first mnemonic that has come before. Accepted tables
know each instruction by its mnemonic, and only they are searched for shadowed operands. -/
theorem validate_exactly (tables : Tables) :
    let codes := tables.codes
    let bounds : List (String × Nat × Nat) :=
      [("sgpr_base + sgpr_max", codes.sgprBase.toNat + codes.sgprMax.toNat, 127),
        ("ttmp_base + ttmp_max", codes.ttmpBase.toNat + codes.ttmpMax.toNat, 127),
        ("zero", codes.zero.toNat, 255),
        ("inline_positive_base + 63", codes.inlinePositiveBase.toNat + 63, 255),
        ("inline_negative_base + 15", codes.inlineNegativeBase.toNat + 15, 255),
        ("literal", codes.literal.toNat, 255)]
    let mnemonics := tables.instructions.map Instruction.mnemonic
    let outcome := tables.validate
    (outcome.value = .ok () ↔ WithinLimits bounds ∧ mnemonics.Nodup) ∧
      (∀ name reached limit, outcome.value = .error (.codeRange name reached limit) ↔
        ∃ earlier later, bounds = earlier ++ (name, reached, limit) :: later ∧ limit < reached ∧
          WithinLimits earlier) ∧
      (∀ mnemonic, outcome.value = .error (.duplicateMnemonic mnemonic) ↔
        WithinLimits bounds ∧ FirstRepeated mnemonics mnemonic) ∧
      (outcome.value = .ok () →
        (∀ entry ∈ tables.instructions,
          Instruction.resolve? tables.instructions entry.mnemonic = some entry) ∧
        List.Forall₂ (fun pair event => ∃ earlier later, tables.operands[pair.1]? = some earlier ∧
          tables.operands[pair.2]? = some later ∧
          event = .operandShadowed earlier.name later.name)
          (shadowedPairs tables.operands) outcome.events) ∧
      ∀ fault, outcome.value = .error fault → outcome.events = [] := by
  intro codes bounds mnemonics outcome
  have fits : codes.validate = .ok () ↔ WithinLimits bounds := codes.validate_eq_ok_iff_reaches
  refine ⟨?_, ?_, ?_, ?_, ?_⟩
  · rw [value_validate_eq_ok_iff, ← OperandCodes.validate_eq_ok_iff, fits]
  · intro name reached limit
    rw [value_validate_eq_codeRange_iff]
    exact codes.validate_eq_codeRange_iff name reached limit
  · intro mnemonic
    rw [value_validate_eq_duplicateMnemonic_iff, fits]
  · intro accepted
    have distinct := ((value_validate_eq_ok_iff tables).mp accepted).2
    refine ⟨fun entry listed => resolve?_of_nodup distinct listed, ?_⟩
    rw [events_validate_of_ok accepted]
    exact forall₂_shadowEvents tables.operands
  · intro fault refused
    exact events_validate_of_error refused

theorem validate_exactly_several_faults :
    let add : Instruction := ⟨"s_add_u32".toList, .sop2, 0x80000000⟩
    let sub : Instruction := ⟨"s_sub_u32".toList, .sop2, 0x80800000⟩
    let vcc : NamedOperand := ⟨"vcc".toList, 106, .specialRegister⟩
    let high : NamedOperand := ⟨"vcc_hi".toList, 107, .specialRegister⟩
    let large : OperandCodes :=
      { SouthernIslands.codes with ttmpBase := 0xFFFFFFFF, ttmpMax := 0xFFFFFFFF, zero := 256 }
    let wide : Tables := ⟨[add, add], [vcc, high], large⟩
    let twice : Tables := ⟨[add, sub, sub, add], [vcc, high], SouthernIslands.codes⟩
    let valid : Tables := ⟨[add, sub], [vcc, high], SouthernIslands.codes⟩
    wide.validate.value = .error (.codeRange "ttmp_base + ttmp_max" 8589934590 127) ∧
      wide.validate.events = [] ∧
      twice.validate.value = .error (.duplicateMnemonic sub.mnemonic) ∧
      valid.validate.value = .ok () ∧ valid.resolve? sub.mnemonic = some sub ∧
      valid.validate.events = [.operandShadowed vcc.name high.name] := by
  intro add sub vcc high large wide twice valid
  have reached : large.ttmpBase.toNat + large.ttmpMax.toNat = 8589934590 := by decide
  have tooLarge : wide.validate.value =
      .error (.codeRange "ttmp_base + ttmp_max" 8589934590 127) := by
    rw [← reached]
    exact ((validate_exactly wide).2.1 _ _ _).mpr
      ⟨[("sgpr_base + sgpr_max", 103, 127)], _, rfl, by decide, by decide⟩
  have repeated : twice.validate.value = .error (.duplicateMnemonic sub.mnemonic) :=
    ((validate_exactly twice).2.2.1 sub.mnemonic).mpr
      ⟨by decide, [add.mnemonic, sub.mnemonic], [add.mnemonic], rfl, by simp, by decide⟩
  have accepted : valid.validate.value = .ok () :=
    (validate_exactly valid).1.mpr ⟨by decide, by decide⟩
  obtain ⟨resolves, logged⟩ := (validate_exactly valid).2.2.2.1 accepted
  refine ⟨tooLarge, (validate_exactly wide).2.2.2.2 _ tooLarge, repeated, accepted,
    resolves sub (by simp [valid]), ?_⟩
  have pairs : shadowedPairs valid.operands = [(0, 1)] := by decide +kernel
  rw [pairs, List.forall₂_cons_left_iff] at logged
  obtain ⟨event, rest, ⟨earlier, later, first, second, rfl⟩, nothing, shape⟩ := logged
  obtain rfl : vcc = earlier := Option.some.inj first
  obtain rfl : high = later := Option.some.inj second
  rw [shape, List.forall₂_nil_left_iff.mp nothing]

end Tables

end ShaderAssembler

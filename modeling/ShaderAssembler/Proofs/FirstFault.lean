import ShaderAssembler.Proofs.BitField
import ShaderAssembler.Proofs.CodeRange

/-! All that can be wrong with an operand text. Each fault is told for itself, as if it were the
only one, and the encoder reports the first of them. -/

namespace ShaderAssembler

theorem OperandKind.not_lt (kind threshold : OperandKind) : ¬ kind < threshold ↔ threshold ≤ kind :=
  Nat.not_lt

theorem head?_append_eq_some_iff {α : Type} (left right : List α) (first : α) :
    (left ++ right).head? = some first ↔
      left.head? = some first ∨ left = [] ∧ right.head? = some first := by
  cases left <;> simp

namespace TwoSource

def missingFaults (field : BitField) (word : Text) : List EncodeError :=
  if word = [] then [.missingOperand field.name] else []

def trailingFaults (strict : Bool) (behind : List Text) : List EncodeError :=
  if strict then ((behind.map Text.trimLineEnd).filter (!·.isEmpty)).map .trailingOperand else []

def operandFaults (tables : Tables) (field : BitField) (word : Text) : List EncodeError :=
  match tables.classify word with
  | .error fault => [.operand field.name fault]
  | .ok _ => []

def kindFaults (tables : Tables) (word : Text) : List EncodeError :=
  match tables.classify word with
  | .error _ => []
  | .ok destination =>
      if tables.codes.sdstThreshold ≤ destination.kind then [.invalidDestination word] else []

def codeFaults (tables : Tables) (field : BitField) (word : Text) : List EncodeError :=
  match tables.classify word with
  | .error _ => []
  | .ok classified =>
      if 2 ^ field.width.toNat ≤ classified.code.toNat then
        [.codeTooLarge field classified.code]
      else []

def literalFaults (tables : Tables) (word1 word0 : Text) : List EncodeError :=
  match tables.classify word1, tables.classify word0 with
  | .ok source1, .ok source0 =>
      if source1.literal?.isSome ∧ source0.literal?.isSome then [.duplicateLiteral] else []
  | _, _ => []

def readFaults (strict : Bool) (fields : List Text) : List EncodeError :=
  missingFaults sdst (Text.wordAt fields 0) ++ missingFaults ssrc1 (Text.wordAt fields 1) ++
    missingFaults ssrc0 (Text.wordAt fields 2) ++ trailingFaults strict (fields.drop 3)

def destinationFaults (tables : Tables) (word : Text) : List EncodeError :=
  operandFaults tables sdst word ++ kindFaults tables word ++ codeFaults tables sdst word

def sourceFaults (tables : Tables) (word1 word0 : Text) : List EncodeError :=
  operandFaults tables ssrc1 word1 ++ codeFaults tables ssrc1 word1 ++
    (operandFaults tables ssrc0 word0 ++ literalFaults tables word1 word0 ++
      codeFaults tables ssrc0 word0)

/-- The faults of an operand text with these fields, in the order in which they count. None of them
depends on whether there are others. -/
def faults (strict : Bool) (tables : Tables) (fields : List Text) : List EncodeError :=
  readFaults strict fields ++ (destinationFaults tables (Text.wordAt fields 0) ++
    sourceFaults tables (Text.wordAt fields 1) (Text.wordAt fields 2))

theorem head?_missingFaults_append (field : BitField) (word : Text) (later : List EncodeError) :
    (missingFaults field word ++ later).head? =
      if word.isEmpty then some (.missingOperand field.name) else later.head? := by
  by_cases blank : word = []
  · simp [missingFaults, blank]
  · simp [missingFaults, blank]

theorem head?_trailingFaults (strict : Bool) (behind : List Text) :
    (trailingFaults strict behind).head? =
      if strict then (Text.firstWord? behind).map .trailingOperand else none := by
  cases strict with
  | false => rfl
  | true => simp [trailingFaults, Text.firstWord?, List.head?_filter]

theorem Slots.ofFields_eq_readFaults (strict : Bool) (fields : List Text) :
    Slots.ofFields strict fields =
      (readFaults strict fields).head?.elim
        (.ok ⟨Text.wordAt fields 0, Text.wordAt fields 1, Text.wordAt fields 2⟩) .error := by
  have behind : fields.tail.tail.tail = fields.drop 3 := by
    simp only [← List.drop_one, List.drop_drop]
  rw [Slots.ofFields_eq, readFaults, behind, List.append_assoc, List.append_assoc,
    head?_missingFaults_append, head?_missingFaults_append, head?_missingFaults_append,
    head?_trailingFaults]
  split_ifs
  · rfl
  · rfl
  · rfl
  · rename_i reads
    rw [reads]
    cases Text.firstWord? (fields.drop 3) <;> rfl
  · rename_i skips
    rw [Bool.not_eq_true] at skips
    rw [skips]
    rfl

theorem destinationFault_iff (tables : Tables) (word : Text) (cause : EncodeError) :
    DestinationFault tables word cause ↔ (destinationFaults tables word).head? = some cause := by
  rw [destinationFaults, operandFaults, kindFaults, codeFaults]
  constructor
  · intro fault
    cases fault with
    | operand malformed => simp [malformed]
    | notWritable spelled unwritable => simp [spelled, ← OperandKind.not_lt, unwritable]
    | tooLarge spelled writable large => simp [spelled, ← OperandKind.not_lt, writable, large]
  · cases spelled : tables.classify word with
    | error fault =>
        intro first
        obtain rfl : _ = cause := Option.some.inj first
        exact .operand spelled
    | ok destination =>
        simp only [← OperandKind.not_lt]
        by_cases writable : destination.kind < tables.codes.sdstThreshold
        · by_cases large : 2 ^ sdst.width.toNat ≤ destination.code.toNat
          · simp only [writable, large, not_true_eq_false, if_false, if_true, List.nil_append,
              List.head?_cons, Option.some.injEq]
            rintro rfl
            exact .tooLarge spelled writable large
          · simp [writable, large]
        · simp only [writable, not_false_eq_true, if_true, List.nil_append, List.cons_append,
            List.head?_cons, Option.some.injEq]
          rintro rfl
          exact .notWritable spelled writable

theorem destinationFaults_eq_nil_iff (tables : Tables) (word : Text) :
    destinationFaults tables word = [] ↔
      ∃ destination, tables.classify word = .ok destination ∧
        destination.kind < tables.codes.sdstThreshold ∧ destination.code ≤ sdst.max := by
  rw [destinationFaults, operandFaults, kindFaults, codeFaults]
  cases tables.classify word with
  | error fault => simp
  | ok destination =>
      have fits := BitField.le_max_iff (rfl : sdst.inWord = true) destination.code
      simp [← OperandKind.not_lt, fits]

theorem sourceFault_iff (tables : Tables) (earlier : Option UInt32) (field : BitField) (word : Text)
    (clash : List EncodeError)
    (clashes : ∀ source, tables.classify word = .ok source →
      clash = if source.literal?.isSome ∧ earlier.isSome then [.duplicateLiteral] else [])
    (cause : EncodeError) :
    SourceFault tables earlier field word cause ↔
      (operandFaults tables field word ++ clash ++ codeFaults tables field word).head? =
        some cause := by
  rw [operandFaults, codeFaults]
  constructor
  · intro fault
    cases fault with
    | operand malformed => simp [malformed]
    | @secondLiteral source spelled isLiteral taken =>
        rw [clashes source spelled]
        simp [spelled, Option.isSome_iff_ne_none, isLiteral, taken]
    | @tooLarge source spelled free large =>
        rw [clashes source spelled, if_neg (by rcases free with same | same <;> simp [same])]
        simp [spelled, large]
  · cases spelled : tables.classify word with
    | error fault =>
        intro first
        obtain rfl : _ = cause := Option.some.inj first
        exact .operand spelled
    | ok source =>
        rw [clashes source spelled]
        by_cases second : source.literal?.isSome ∧ earlier.isSome
        · rw [if_pos second]
          intro first
          obtain rfl : .duplicateLiteral = cause := Option.some.inj first
          exact .secondLiteral spelled (Option.isSome_iff_ne_none.mp second.1)
            (Option.isSome_iff_ne_none.mp second.2)
        · rw [if_neg second]
          by_cases large : 2 ^ field.width.toNat ≤ source.code.toNat
          · simp only [large, if_true, List.nil_append, List.head?_cons, Option.some.injEq]
            rintro rfl
            refine .tooLarge spelled ?_ large
            simpa using not_and_or.mp second
          · simp [large]

theorem source1Faults_eq_nil_iff (tables : Tables) (word : Text) :
    operandFaults tables ssrc1 word ++ codeFaults tables ssrc1 word = [] ↔
      ∃ source, tables.classify word = .ok source ∧ source.code ≤ ssrc1.max := by
  rw [operandFaults, codeFaults]
  cases tables.classify word with
  | error fault => simp
  | ok source =>
      have fits := BitField.le_max_iff (rfl : ssrc1.inWord = true) source.code
      simp [fits]

theorem refused_iff (tables : Tables) (slots : Slots) (cause : EncodeError) :
    slots.Refused tables cause ↔
      (destinationFaults tables slots.destination ++
        sourceFaults tables slots.source1 slots.source0).head? = some cause := by
  have ofSource1 := sourceFault_iff tables none ssrc1 slots.source1 [] (fun _ _ => by simp) cause
  rw [List.append_nil] at ofSource1
  have ofSource0 {source1 : ClassifiedOperand}
      (spelled1 : tables.classify slots.source1 = .ok source1) :=
    sourceFault_iff tables source1.literal? ssrc0 slots.source0
      (literalFaults tables slots.source1 slots.source0)
      (fun _ spelled0 => by simp only [literalFaults, spelled1, spelled0, and_comm]) cause
  rw [sourceFaults, head?_append_eq_some_iff, head?_append_eq_some_iff, ← destinationFault_iff,
    destinationFaults_eq_nil_iff, ← ofSource1, source1Faults_eq_nil_iff]
  constructor
  · intro refused
    cases refused with
    | destination fault => exact Or.inl fault
    | source1 spelled writable fits fault =>
        exact Or.inr ⟨⟨_, spelled, writable, fits⟩, Or.inl fault⟩
    | source0 spelled writable fits spelled1 fits1 fault =>
        exact Or.inr ⟨⟨_, spelled, writable, fits⟩,
          Or.inr ⟨⟨_, spelled1, fits1⟩, (ofSource0 spelled1).mp fault⟩⟩
  · rintro (fault | ⟨⟨_, spelled, writable, fits⟩, fault | ⟨⟨_, spelled1, fits1⟩, first⟩⟩)
    · exact .destination fault
    · exact .source1 spelled writable fits fault
    · exact .source0 spelled writable fits spelled1 fits1 ((ofSource0 spelled1).mpr first)

theorem pack_eq_error_iff_faults (strict : Bool) (tables : Tables) (baseOpcode : UInt32)
    (operands : Text) (cause : EncodeError) :
    pack strict tables baseOpcode operands = .error cause ↔
      (faults strict tables operands.fields).head? = some cause := by
  rw [pack_eq_error_iff, faults, head?_append_eq_some_iff, Slots.ofFields_eq_readFaults]
  cases shape : readFaults strict operands.fields with
  | nil => simp [refused_iff]
  | cons first rest => simp

/-- An operand text is refused with the first of its faults, whatever the instruction and the
tables are, and it is encoded if it has none. -/
theorem encode_reports_first_fault (strict : Bool) (tables : Tables) (instruction : Instruction)
    (text : Text) :
    let result := (encode strict tables instruction text).value
    (∀ cause, result = .error cause ↔ (faults strict tables text.fields).head? = some cause) ∧
      ((∃ code, result = .ok code) ↔ faults strict tables text.fields = []) ∧
      ∀ field, result ≠ .error (.fieldOutsideWord field) := by
  intro result
  have packed : result = pack strict tables instruction.baseOpcode text := value_encode ..
  have refused (cause : EncodeError) :
      result = .error cause ↔ (faults strict tables text.fields).head? = some cause := by
    rw [packed, pack_eq_error_iff_faults]
  refine ⟨refused, ?_, ?_⟩
  · rw [← List.head?_eq_none_iff, Option.eq_none_iff_forall_ne_some]
    simp only [ne_eq, ← refused]
    cases result with
    | error cause => simp
    | ok code => simp
  · rw [packed]
    exact pack_ne_fieldOutsideWord

example :
    faults true ⟨[], [⟨"scc".toList, 253, .condition⟩], SouthernIslands.codes⟩
        ["scc".toList, "70000".toList, "80000".toList, "\r".toList, "s4".toList] =
      [.trailingOperand "s4".toList, .invalidDestination "scc".toList,
        .codeTooLarge sdst 253, .duplicateLiteral] := by
  decide +kernel

end TwoSource

end ShaderAssembler

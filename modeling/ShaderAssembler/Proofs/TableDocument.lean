import ShaderAssembler.Proofs.JsonText
import ShaderAssembler.Tables.Document

/-! Tables as documents: what is dumped is read back, and then only validation decides whether it is
accepted. -/

namespace ShaderAssembler

namespace Json

theorem find?_name {names : List String} {name : String} (known : name ∈ names) :
    (names.find? fun other => other.toList = name.toList) = some name := by
  cases found : names.find? fun other => other.toList = name.toList with
  | none =>
      have different := List.find?_eq_none.mp found name known
      simp at different
  | some other =>
      have same : other.toList = name.toList := by simpa using List.find?_some found
      rw [String.toList_inj.mp same]

def known? (names : List String) (member : Option Text × Json) : Option (String × Json) :=
  (member.1.bind fun key => names.find? fun name => name.toList = key).map (·, member.2)

theorem knownMembers?_eq_filterMap {names : List String} {members : List (Option Text × Json)}
    (texts : ∀ member ∈ members, ∃ key, member.1 = some key)
    (distinct : ((members.filterMap (known? names)).map Prod.fst).Nodup) :
    knownMembers? names members = some (members.filterMap (known? names)) := by
  induction members with
  | nil => rfl
  | cons first rest ih =>
      obtain ⟨key, value⟩ := first
      obtain ⟨⟨key, rfl⟩, others⟩ := List.forall_mem_cons.mp texts
      rw [List.filterMap_cons] at distinct ⊢
      rw [knownMembers?]
      cases found : names.find? fun name => name.toList = key with
      | none =>
          have passed : known? names (some key, value) = none := by simp [known?, found]
          rw [passed] at distinct ⊢
          simp [ih others distinct]
      | some name =>
          have read : known? names (some key, value) = some (name, value) := by simp [known?, found]
          rw [read] at distinct ⊢
          rw [List.map_cons, List.nodup_cons] at distinct
          have absent : (rest.filterMap (known? names)).lookup name = none := by
            rw [List.lookup_eq_none_iff]
            intro member present
            have different : name ≠ member.1 := by
              intro same
              exact distinct.1 (List.mem_map.mpr ⟨member, present, same.symm⟩)
            simpa using different
          simp [ih others distinct.2, absent]

theorem filterMap_known?_ofMembers {names : List String} {members : Record}
    (known : ∀ member ∈ members, member.1 ∈ names) :
    (members.map fun member => (some member.1.toList, member.2)).filterMap (known? names) =
      members := by
  induction members with
  | nil => rfl
  | cons first rest ih =>
      obtain ⟨firstKnown, restKnown⟩ := List.forall_mem_cons.mp known
      have read : known? names (some first.1.toList, first.2) = some first := by
        rw [known?, Option.bind_some, find?_name firstKnown, Option.map_some]
      rw [List.map_cons, List.filterMap_cons, read, ih restKnown]

theorem knownMembers?_ofMembers {names : List String} (members : Record)
    (known : ∀ member ∈ members, member.1 ∈ names) (distinct : (members.map Prod.fst).Nodup) :
    knownMembers? names (members.map fun member => (some member.1.toList, member.2)) =
      some members := by
  have read := filterMap_known?_ofMembers known
  rw [knownMembers?_eq_filterMap, read]
  · intro member present
    obtain ⟨source, _, rfl⟩ := List.mem_map.mp present
    exact ⟨source.1.toList, rfl⟩
  · rwa [read]

theorem record?_ofMembers {names : List String} {members : Record}
    (named : members.map Prod.fst = names) (distinct : names.Nodup) :
    (ofMembers members).record? names = some members := by
  subst named
  exact knownMembers?_ofMembers members (fun _ present => List.mem_map_of_mem present) distinct

theorem text?_ofText (text : Text) : text? (ofText text) = some text := rfl

theorem word?_ofNat (word : UInt32) : word? (ofNat word.toNat) = some word := by
  simp [word?, ofNat, word.toNat_lt]

theorem list?_map {α : Type} {toJson : α → Json} {ofJson? : Json → Option α}
    (reads : ∀ value, ofJson? (toJson value) = some value) (values : List α) :
    list? ofJson? (.array (values.map toJson)) = some values := by
  rw [list?]
  induction values with
  | nil => rfl
  | cons first rest ih => simp [List.mapM_cons, reads, ih]

end Json

theorem OperandKind.ofJson?_toJson (kind : OperandKind) : ofJson? kind.toJson = some kind := by
  cases kind <;> rfl

theorem Family.ofJson?_toJson (family : Family) : ofJson? family.toJson = some family := by
  cases family <;> rfl

theorem Instruction.ofJson?_toJson (instruction : Instruction) :
    ofJson? instruction.toJson = some instruction := by
  rw [ofJson?, toJson, Json.record?_ofMembers]
  · simp [Json.required?, List.lookup_cons, Family.ofJson?_toJson, Json.word?_ofNat,
      Json.text?_ofText]
  · rfl
  · decide

theorem NamedOperand.ofJson?_toJson (entry : NamedOperand) : ofJson? entry.toJson = some entry := by
  rw [ofJson?, toJson, Json.record?_ofMembers]
  · simp [Json.required?, List.lookup_cons, OperandKind.ofJson?_toJson, Json.word?_ofNat,
      Json.text?_ofText]
  · rfl
  · decide

theorem OperandCodes.ofJson?_toJson (missing codes : OperandCodes) :
    ofJson? missing codes.toJson = some codes := by
  obtain ⟨record, read, sgprBase, sgprMax, ttmpBase, ttmpMax, zero, inlinePositiveBase,
    inlineNegativeBase, literal, sdstThreshold⟩ :
      ∃ record, codes.toJson.record? memberNames = some record ∧
        record.lookup "sgpr_base" = some (.ofNat codes.sgprBase.toNat) ∧
        record.lookup "sgpr_max" = some (.ofNat codes.sgprMax.toNat) ∧
        record.lookup "ttmp_base" = some (.ofNat codes.ttmpBase.toNat) ∧
        record.lookup "ttmp_max" = some (.ofNat codes.ttmpMax.toNat) ∧
        record.lookup "zero" = some (.ofNat codes.zero.toNat) ∧
        record.lookup "inline_positive_base" = some (.ofNat codes.inlinePositiveBase.toNat) ∧
        record.lookup "inline_negative_base" = some (.ofNat codes.inlineNegativeBase.toNat) ∧
        record.lookup "literal" = some (.ofNat codes.literal.toNat) ∧
        record.lookup "sdst_threshold" = some codes.sdstThreshold.toJson :=
    ⟨_, Json.record?_ofMembers rfl (by decide), rfl, rfl, rfl, rfl, rfl, rfl, rfl, rfl, rfl⟩
  simp only [ofJson?, read, Json.optional?, sgprBase, sgprMax, ttmpBase, ttmpMax, zero,
    inlinePositiveBase, inlineNegativeBase, literal, sdstThreshold, Json.word?_ofNat,
    OperandKind.ofJson?_toJson, Option.bind_eq_bind, Option.bind_some, Option.pure_def]

namespace Tables

theorem ofJson?_toJson (missing tables : Tables) : ofJson? missing tables.toJson = some tables := by
  have instructions := Json.list?_map Instruction.ofJson?_toJson tables.instructions
  have operands := Json.list?_map NamedOperand.ofJson?_toJson tables.operands
  rw [ofJson?, toJson, Json.record?_ofMembers]
  · simp [Json.optional?, List.lookup_cons, instructions, operands, OperandCodes.ofJson?_toJson]
  · rfl
  · decide

theorem parse?_dump (tables : Tables) : parse? tables.dump = some tables := by
  rw [parse?, dump, Json.parse?_pretty, Option.bind_some, ofJson?_toJson]

theorem fault?_cases {tables : Tables} {fault : TableError} (found : tables.fault? = some fault) :
    (∃ name value limit, fault = .codeRange name value limit) ∨
      ∃ mnemonic, fault = .duplicateMnemonic mnemonic := by
  unfold fault? at found
  split at found
  · rename_i invalid
    left
    obtain rfl := Option.some.inj found
    unfold OperandCodes.validate at invalid
    split at invalid
    · exact ⟨_, _, _, (Except.error.inj invalid).symm⟩
    · exact nomatch invalid
  · right
    obtain ⟨mnemonic, _, rfl⟩ := Option.map_eq_some_iff.mp found
    exact ⟨mnemonic, rfl⟩

theorem value_validate (tables : Tables) :
    tables.validate.value = tables.fault?.elim (.ok ()) .error := by
  unfold validate
  cases tables.fault? <;> rfl

theorem load_of_parse? {document : Text} {tables : Tables}
    (parsed : parse? document = some tables) :
    load document = (·.map fun _ => tables) <$> tables.validate := by
  simp only [load, parsed]

/-- Dumped tables are read back if they are valid. If they are not, reading fails with the fault
that validation finds, and never because the document is malformed. -/
theorem load_dump (tables : Tables) :
    (load tables.dump).value = tables.validate.value.map (fun _ => tables) ∧
      (load tables.dump).events = tables.validate.events ∧
      (load tables.dump).value ≠ .error .malformed := by
  rw [load_of_parse? tables.parse?_dump]
  refine ⟨rfl, rfl, ?_⟩
  rw [Logged.value_map, value_validate]
  cases found : tables.fault? with
  | none => exact nofun
  | some fault =>
      obtain ⟨name, value, limit, rfl⟩ | ⟨mnemonic, rfl⟩ := fault?_cases found
      · exact nofun
      · exact nofun

end Tables

end ShaderAssembler

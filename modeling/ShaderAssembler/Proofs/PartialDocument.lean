import Mathlib.Data.List.Forall2
import ShaderAssembler.Proofs.TableDocument

/-! Documents that hold only a part of the tables. What they name replaces what is built in, in
whatever order it is written and whatever else is written between. -/

namespace ShaderAssembler

namespace Json

def restrict (named : List String) : Json → Json
  | object members =>
      object (members.filter fun member => member.1 ∈ named.map fun name => some name.toList)
  | value => value

/-- The same object in another order, and with more members. Their names can be any texts but the
known names. -/
inductive Rearranged (names : List String) : Json → Json → Prop
  | object {known unknown members : List (Option Text × Json)} :
      (∀ member ∈ unknown, ∃ key, member.1 = some key ∧ ∀ name ∈ names, name.toList ≠ key) →
        members.Perm (known ++ unknown) → Rearranged names (.object known) (.object members)

theorem restrict_ofMembers (named : List String) (record : Record) :
    (ofMembers record).restrict named =
      ofMembers (record.filter fun member => member.1 ∈ named) := by
  simp only [ofMembers, restrict, List.filter_map, Function.comp_def]
  congr 3
  funext member
  simp [String.toList_inj]

theorem known?_eq_none {names : List String} {key : Text}
    (unknown : ∀ name ∈ names, name.toList ≠ key) (value : Json) :
    known? names (some key, value) = none := by
  have absent : (names.find? fun name => name.toList = key) = none := by
    rw [List.find?_eq_none]
    simpa using unknown
  rw [known?, Option.bind_some, absent, Option.map_none]

theorem lookup_eq_some_iff_mem {record : Record} (distinct : (record.map Prod.fst).Nodup)
    (name : String) (value : Json) : record.lookup name = some value ↔ (name, value) ∈ record := by
  induction record with
  | nil => simp
  | cons first rest ih =>
      obtain ⟨key, firstValue⟩ := first
      rw [List.map_cons, List.nodup_cons] at distinct
      rw [List.lookup_cons, List.mem_cons, Prod.mk.injEq]
      by_cases same : name = key
      · subst same
        have absent : (name, value) ∉ rest := by
          intro later
          exact distinct.1 (List.mem_map.mpr ⟨(name, value), later, rfl⟩)
        simp [absent, eq_comm]
      · rw [beq_false_of_ne same]
        simp [same, ih distinct.2]

theorem lookup_of_perm {left right : Record} (perm : left.Perm right)
    (distinct : (right.map Prod.fst).Nodup) (name : String) :
    left.lookup name = right.lookup name := by
  have leftDistinct : (left.map Prod.fst).Nodup := (perm.map _).nodup_iff.mpr distinct
  ext value
  rw [lookup_eq_some_iff_mem leftDistinct, lookup_eq_some_iff_mem distinct, perm.mem_iff]

theorem lookup_filter (record : Record) (named : List String) (name : String) :
    (record.filter fun member => member.1 ∈ named).lookup name =
      if name ∈ named then record.lookup name else none := by
  induction record with
  | nil => simp
  | cons first rest ih =>
      obtain ⟨key, value⟩ := first
      rw [List.filter_cons, List.lookup_cons]
      by_cases same : name = key
      · subst same
        by_cases chosen : name ∈ named
        · simp [chosen]
        · simp [chosen, ih]
      · rw [beq_false_of_ne same]
        by_cases chosen : key ∈ named
        · simp [chosen, ih, List.lookup_cons, beq_false_of_ne same]
        · simp [chosen, ih]

theorem Rearranged.record? {names : List String} {record : Record} {json : Json}
    (rearranged : Rearranged names (ofMembers record) json)
    (known : (record.map Prod.fst).Sublist names) (distinct : names.Nodup) :
    ∃ read, json.record? names = some read ∧ ∀ name, read.lookup name = record.lookup name := by
  obtain ⟨unknown, perm⟩ := rearranged
  rename_i others members
  have readKnown := filterMap_known?_ofMembers fun member present =>
    known.subset (List.mem_map_of_mem present)
  have passUnknown : others.filterMap (known? names) = [] := by
    rw [List.filterMap_eq_nil_iff]
    rintro ⟨_, value⟩ present
    obtain ⟨key, rfl, different⟩ := unknown _ present
    exact known?_eq_none different value
  have readPerm : (members.filterMap (known? names)).Perm record := by
    have filtered := perm.filterMap (known? names)
    rwa [List.filterMap_append, readKnown, passUnknown, List.append_nil] at filtered
  have once : (record.map Prod.fst).Nodup := distinct.sublist known
  refine ⟨_, knownMembers?_eq_filterMap ?_ ((readPerm.map _).nodup_iff.mpr once), ?_⟩
  · intro member present
    rcases List.mem_append.mp (perm.mem_iff.mp present) with written | other
    · obtain ⟨source, _, rfl⟩ := List.mem_map.mp written
      exact ⟨_, rfl⟩
    · obtain ⟨key, same, _⟩ := unknown member other
      exact ⟨key, same⟩
  · exact lookup_of_perm readPerm once

theorem Rearranged.record?_restrict {names named : List String} {record : Record} {json : Json}
    (rearranged : Rearranged names ((ofMembers record).restrict named) json)
    (complete : record.map Prod.fst = names) (distinct : names.Nodup) :
    ∃ read, json.record? names = some read ∧
      ∀ name, read.lookup name = if name ∈ named then record.lookup name else none := by
  subst complete
  rw [restrict_ofMembers] at rearranged
  obtain ⟨read, found, same⟩ := rearranged.record? (List.filter_sublist.map _) distinct
  exact ⟨read, found, fun name => by rw [same, lookup_filter]⟩

theorem optional?_of_lookup {α : Type} {record : Record} {name : String} {named : List String}
    {value : Json} {read? : Json → Option α} {result missing : α}
    (found : record.lookup name = if name ∈ named then some value else none)
    (reads : read? value = some result) :
    optional? record name read? missing = some (if name ∈ named then result else missing) := by
  rw [optional?, found]
  by_cases chosen : name ∈ named
  · simp [chosen, reads]
  · simp [chosen]

theorem list?_of_forall₂ {α : Type} {ofJson? : Json → Option α} {spells : α → Json → Prop}
    (reads : ∀ value json, spells value json → ofJson? json = some value) {values : List α}
    {items : List Json} (spelled : List.Forall₂ spells values items) :
    list? ofJson? (.array items) = some values := by
  rw [list?]
  induction spelled with
  | nil => rfl
  | cons first _ ih => simp [List.mapM_cons, reads _ _ first, ih]

end Json

theorem Instruction.ofJson?_rearranged {instruction : Instruction} {json : Json}
    (rearranged : Json.Rearranged ["mnemonic", "family", "base_opcode"] instruction.toJson json) :
    ofJson? json = some instruction := by
  obtain ⟨record, read, found⟩ := Json.Rearranged.record? rearranged (.refl _) (by decide)
  simp [ofJson?, read, Json.required?, found, List.lookup_cons, Family.ofJson?_toJson,
    Json.word?_ofNat, Json.text?_ofText]

theorem NamedOperand.ofJson?_rearranged {entry : NamedOperand} {json : Json}
    (rearranged : Json.Rearranged ["name", "code", "kind"] entry.toJson json) :
    ofJson? json = some entry := by
  obtain ⟨record, read, found⟩ := Json.Rearranged.record? rearranged (.refl _) (by decide)
  simp [ofJson?, read, Json.required?, found, List.lookup_cons, OperandKind.ofJson?_toJson,
    Json.word?_ofNat, Json.text?_ofText]

namespace OperandCodes

def override (missing codes : OperandCodes) (named : List String) : OperandCodes where
  sgprBase := if "sgpr_base" ∈ named then codes.sgprBase else missing.sgprBase
  sgprMax := if "sgpr_max" ∈ named then codes.sgprMax else missing.sgprMax
  ttmpBase := if "ttmp_base" ∈ named then codes.ttmpBase else missing.ttmpBase
  ttmpMax := if "ttmp_max" ∈ named then codes.ttmpMax else missing.ttmpMax
  zero := if "zero" ∈ named then codes.zero else missing.zero
  inlinePositiveBase :=
    if "inline_positive_base" ∈ named then codes.inlinePositiveBase else missing.inlinePositiveBase
  inlineNegativeBase :=
    if "inline_negative_base" ∈ named then codes.inlineNegativeBase else missing.inlineNegativeBase
  literal := if "literal" ∈ named then codes.literal else missing.literal
  sdstThreshold := if "sdst_threshold" ∈ named then codes.sdstThreshold else missing.sdstThreshold

theorem ofJson?_rearranged (missing : OperandCodes) {codes : OperandCodes} {named : List String}
    {json : Json} (rearranged : Json.Rearranged memberNames (codes.toJson.restrict named) json) :
    ofJson? missing json = some (missing.override codes named) := by
  obtain ⟨record, read, found⟩ := Json.Rearranged.record?_restrict rearranged rfl (by decide)
  have word {name : String} {code : UInt32}
      (lookup : record.lookup name = if name ∈ named then some (.ofNat code.toNat) else none)
      (old : UInt32) :
      Json.optional? record name Json.word? old = some (if name ∈ named then code else old) :=
    Json.optional?_of_lookup lookup (Json.word?_ofNat code)
  have threshold (old : OperandKind) :
      Json.optional? record "sdst_threshold" OperandKind.ofJson? old =
        some (if "sdst_threshold" ∈ named then codes.sdstThreshold else old) :=
    Json.optional?_of_lookup (found "sdst_threshold") (OperandKind.ofJson?_toJson _)
  simp only [ofJson?, read, word (found "sgpr_base"), word (found "sgpr_max"),
    word (found "ttmp_base"), word (found "ttmp_max"), word (found "zero"),
    word (found "inline_positive_base"), word (found "inline_negative_base"),
    word (found "literal"), threshold, Option.bind_eq_bind, Option.bind_some, Option.pure_def]
  rfl

end OperandCodes

namespace Tables

def override (missing tables : Tables) (sections codes : List String) : Tables where
  instructions :=
    if "instructions" ∈ sections then tables.instructions else missing.instructions
  operands := if "operands" ∈ sections then tables.operands else missing.operands
  codes := if "codes" ∈ sections then missing.codes.override tables.codes codes else missing.codes

/-- The object holds the given sections of the tables, and of their codes only the given ones.
Each object in it may be rearranged. -/
def PartlyWritten (tables : Tables) (sections codes : List String) (json : Json) : Prop :=
  ∃ instructions operands written,
    List.Forall₂ (fun instruction => Json.Rearranged ["mnemonic", "family", "base_opcode"]
      (Instruction.toJson instruction)) tables.instructions instructions ∧
    List.Forall₂ (fun entry => Json.Rearranged ["name", "code", "kind"]
      (NamedOperand.toJson entry)) tables.operands operands ∧
    Json.Rearranged OperandCodes.memberNames (tables.codes.toJson.restrict codes) written ∧
    Json.Rearranged ["instructions", "operands", "codes"]
      ((Json.ofMembers [("instructions", .array instructions), ("operands", .array operands),
        ("codes", written)]).restrict sections) json

theorem PartlyWritten.ofJson? {tables : Tables} {sections codes : List String} {json : Json}
    (written : tables.PartlyWritten sections codes json) (missing : Tables) :
    Tables.ofJson? missing json = some (missing.override tables sections codes) := by
  obtain ⟨instructions, operands, codesJson, spelledInstructions, spelledOperands, spelledCodes,
    rearranged⟩ := written
  obtain ⟨record, read, found⟩ := rearranged.record?_restrict rfl (by decide)
  have readInstructions := Json.list?_of_forall₂
    (fun _ _ spelled => Instruction.ofJson?_rearranged spelled) spelledInstructions
  have readOperands := Json.list?_of_forall₂
    (fun _ _ spelled => NamedOperand.ofJson?_rearranged spelled) spelledOperands
  have readCodes := OperandCodes.ofJson?_rearranged missing.codes spelledCodes
  rw [Tables.ofJson?, read]
  simp only [Option.bind_eq_bind, Option.bind_some, Option.pure_def,
    Json.optional?_of_lookup (found "instructions") readInstructions,
    Json.optional?_of_lookup (found "operands") readOperands,
    Json.optional?_of_lookup (found "codes") readCodes]
  rfl

/-- A document replaces the sections and codes that it names, and the built-in ones stand for all
others. What it then gives is decided by the validation of the merged tables alone. -/
theorem load_partlyWritten (tables : Tables) (sections codes : List String) (json : Json)
    (written : tables.PartlyWritten sections codes json) :
    let merged := southernIslands.override tables sections codes
    (∀ layout : JsonLayout, layout.Blank → Json.parse? (json.render layout 0) = some json) ∧
      ∀ document, Json.parse? document = some json →
        parse? document = some merged ∧
          (load document).value = merged.validate.value.map (fun _ => merged) ∧
          (load document).events = merged.validate.events := by
  intro merged
  refine ⟨fun layout blank => Json.parse?_render blank json, ?_⟩
  intro document spelled
  have parsed : parse? document = some merged := by
    rw [parse?, spelled, Option.bind_some, written.ofJson?]
  rw [load_of_parse? parsed]
  exact ⟨parsed, rfl, rfl⟩

/-- Every object is written in reverse order and with a note in it. The base code of the scalar
registers is not written, so it stays as it is. -/
theorem load_partlyWritten_reversed :
    let document : Text :=
      "\x7b\"note\":[1.5e3,\x7b\"codes\":null\x7d],".toList ++
        "\"codes\":\x7b\"note\":\"\\ud800\",\"sdst_threshold\":\"ttmp\",\"zero\":7\x7d,".toList ++
        "\"instructions\":[\x7b\"note\":[],\"base_opcode\":2147483648,".toList ++
        "\"family\":\"sop2\",\"mnemonic\":\"my_add\"\x7d]\x7d".toList
    let add : Instruction := ⟨"my_add".toList, .sop2, 0x80000000⟩
    let tables : Tables :=
      ⟨[add], [], { SouthernIslands.codes with zero := 7, sgprBase := 30, sdstThreshold := .ttmp }⟩
    let merged : Tables :=
      ⟨[add], SouthernIslands.operands,
        { SouthernIslands.codes with zero := 7, sdstThreshold := .ttmp }⟩
    (∃ json, tables.PartlyWritten ["instructions", "codes"] ["zero", "sdst_threshold"] json ∧
        Json.parse? document = some json) ∧
      parse? document = some merged ∧ (load document).value = .ok merged := by
  intro document add tables merged
  let note : Json := .array
    [ .number ⟨false, 1, [5], some ⟨false, 3, []⟩⟩, .object [(some "codes".toList, .null)] ]
  let codes : Json := .object
    [ (some "note".toList, .string none), (some "sdst_threshold".toList, .ofText "ttmp".toList),
      (some "zero".toList, .ofNat 7) ]
  let entry : Json := .object
    [ (some "note".toList, .array []), (some "base_opcode".toList, .ofNat 2147483648),
      (some "family".toList, .ofText "sop2".toList),
      (some "mnemonic".toList, .ofText "my_add".toList) ]
  let json : Json := .object
    [ (some "note".toList, note), (some "codes".toList, codes),
      (some "instructions".toList, .array [entry]) ]
  have aside {names : List String} (unknown : "note" ∉ names) (value : Json) :
      ∀ member ∈ [(some "note".toList, value)],
        ∃ key, member.1 = some key ∧ ∀ name ∈ names, name.toList ≠ key := by
    simp only [List.mem_singleton, forall_eq, Option.some.injEq, exists_eq_left']
    intro name known same
    exact unknown (String.toList_inj.mp same ▸ known)
  have written :
      tables.PartlyWritten ["instructions", "codes"] ["zero", "sdst_threshold"] json := by
    refine ⟨[entry], [], codes, .cons ?_ .nil, .nil, ?_, ?_⟩
    · exact .object (aside (by decide) (.array [])) (List.reverse_perm _).symm
    · rw [OperandCodes.toJson, Json.restrict_ofMembers]
      exact .object (aside (by decide) (.string none)) (List.reverse_perm _).symm
    · rw [Json.restrict_ofMembers]
      exact .object (aside (by decide) note) (List.reverse_perm _).symm
  have blank : JsonLayout.compact.Blank :=
    ⟨by simp [JsonLayout.compact], by simp [JsonLayout.compact]⟩
  have printed : json.render .compact 0 = document := by decide +kernel
  have spelled : Json.parse? document = some json :=
    printed ▸ (load_partlyWritten tables _ _ json written).1 .compact blank
  obtain ⟨parsed, loaded, _⟩ := (load_partlyWritten tables _ _ json written).2 document spelled
  have same : southernIslands.override tables ["instructions", "codes"] ["zero", "sdst_threshold"] =
      merged := by decide +kernel
  have accepted : merged.validate.value = .ok () := by decide +kernel
  rw [same] at parsed loaded
  rw [accepted] at loaded
  exact ⟨⟨json, written, spelled⟩, parsed, loaded⟩

end Tables

end ShaderAssembler

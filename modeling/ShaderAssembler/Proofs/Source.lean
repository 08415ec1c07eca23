import ShaderAssembler.Listing

/-! The reports of a source text. A run reports the lines in order, one report for each line that
is not skipped, and leaves the others out only if it stops. -/

namespace ShaderAssembler

namespace Listing

/-- The lines that assembled, each with its number, in the order of the reports. -/
def succeeded (reports : List LineReport) : List (Nat × Assembled) :=
  reports.filterMap fun report =>
    match report.result with
    | .ok assembled => some (report.line, assembled)
    | .error _ => none

def failed (reports : List LineReport) : List (Nat × LineError) :=
  reports.filterMap fun report =>
    match report.result with
    | .ok _ => none
    | .error cause => some (report.line, cause)

theorem mem_succeeded_iff {reports : List LineReport} {line : Nat} {assembled : Assembled} :
    (line, assembled) ∈ succeeded reports ↔ { line, result := .ok assembled } ∈ reports := by
  simp only [succeeded, List.mem_filterMap]
  constructor
  · rintro ⟨⟨number, result⟩, reported, same⟩
    cases result <;> simp_all
  · intro reported
    exact ⟨_, reported, rfl⟩

theorem assembled_eq_map_succeeded (reports : List LineReport) :
    assembled reports = (succeeded reports).map Prod.snd := by
  rw [assembled, succeeded, List.map_filterMap]
  congr 1
  funext ⟨line, result⟩
  cases result <;> rfl

theorem records_eq_map_succeeded (reports : List LineReport) :
    records reports =
      (succeeded reports).map fun entry => ListingRecord.ofAssembled entry.1 entry.2 := by
  rw [records, succeeded, List.map_filterMap]
  congr 1
  funext ⟨line, result⟩
  cases result <;> rfl

end Listing

namespace Assembler

/-- The reports of all lines from number `line` on, as if no error stopped the run. -/
def reports (assembler : Assembler) (line : Nat) (texts : List Text) : List LineReport :=
  (texts.zipIdx line).filterMap fun (text, number) =>
    (assembler.assembleLine text).value.map fun result => { line := number, result }

theorem reports_cons (assembler : Assembler) (line : Nat) (text : Text) (rest : List Text) :
    assembler.reports line (text :: rest) =
      match (assembler.assembleLine text).value with
      | none => assembler.reports (line + 1) rest
      | some result => { line, result } :: assembler.reports (line + 1) rest := by
  simp only [reports, List.zipIdx_cons, List.filterMap_cons]
  cases (assembler.assembleLine text).value <;> rfl

theorem value_assembleLines_cons (assembler : Assembler) (line : Nat) (text : Text)
    (rest : List Text) :
    (assembler.assembleLines line (text :: rest)).value =
      match (assembler.assembleLine text).value with
      | none => (assembler.assembleLines (line + 1) rest).value
      | some result =>
          if assembler.config.stopOnError && LineReport.isFatal { line, result } then
            [{ line, result }]
          else { line, result } :: (assembler.assembleLines (line + 1) rest).value := by
  rw [assembleLines, Logged.value_bind]
  cases (assembler.assembleLine text).value with
  | none => rfl
  | some result =>
      simp only [Logged.value_bind]
      split <;> rfl

theorem value_assembleLines_isPrefix (assembler : Assembler) (line : Nat) (texts : List Text) :
    (assembler.assembleLines line texts).value <+: assembler.reports line texts := by
  induction texts generalizing line with
  | nil => exact List.nil_prefix
  | cons text rest ih =>
      rw [value_assembleLines_cons, reports_cons]
      cases (assembler.assembleLine text).value with
      | none => exact ih (line + 1)
      | some result =>
          simp only
          split
          · exact List.cons_prefix_cons.mpr ⟨rfl, List.nil_prefix⟩
          · exact List.cons_prefix_cons.mpr ⟨rfl, ih (line + 1)⟩

theorem value_assembleLines_of_continue {assembler : Assembler}
    (continues : assembler.config.stopOnError = false) (line : Nat) (texts : List Text) :
    (assembler.assembleLines line texts).value = assembler.reports line texts := by
  induction texts generalizing line with
  | nil => rfl
  | cons text rest ih =>
      rw [value_assembleLines_cons, reports_cons]
      cases (assembler.assembleLine text).value with
      | none => exact ih (line + 1)
      | some result => simp [continues, ih]

theorem mem_reports_iff (assembler : Assembler) (line : Nat) (texts : List Text)
    (report : LineReport) :
    report ∈ assembler.reports line texts ↔
      ∃ index text, texts[index]? = some text ∧ report.line = line + index ∧
        (assembler.assembleLine text).value = some report.result := by
  obtain ⟨number, result⟩ := report
  simp only [reports, List.mem_filterMap, Prod.exists, List.mk_mem_zipIdx_iff_le_and_getElem?_sub,
    Option.map_eq_some_iff, LineReport.mk.injEq]
  constructor
  · rintro ⟨text, _, ⟨lower, found⟩, _, assembled, rfl, rfl⟩
    exact ⟨_, text, found, by omega, assembled⟩
  · rintro ⟨index, text, found, rfl, assembled⟩
    exact ⟨text, line + index, ⟨by omega, by simpa using found⟩, result, assembled, rfl, rfl⟩

theorem assembleLine_of_mem {assembler : Assembler} {text : Text} {report : LineReport}
    (reported : report ∈ (assembler.assembleSource text).value) :
    ∃ index line, text.lines[index]? = some line ∧ report.line = 1 + index ∧
      (assembler.assembleLine line).value = some report.result :=
  (mem_reports_iff assembler 1 text.lines report).mp
    ((value_assembleLines_isPrefix assembler 1 text.lines).subset reported)

end Assembler

end ShaderAssembler

import ShaderAssembler.Listing
import ShaderAssembler.Proofs.Source
import ShaderAssembler.Proofs.TextLines

/-! Source texts that are joined at the end of a line. The reports of the second text follow those
of the first, counted on from there, unless the first text has ended the run. -/

namespace ShaderAssembler

theorem Logged.bind_congr {α β : Type} {first : Logged α} {left right : α → Logged β}
    (same : left first.value = right first.value) : first >>= left = first >>= right := by
  change first.andThen left = first.andThen right
  rw [andThen, andThen, same]

def LineReport.moveDown (offset : Nat) (report : LineReport) : LineReport :=
  { report with line := report.line + offset }

namespace Listing

theorem assembled_append (left right : List LineReport) :
    assembled (left ++ right) = assembled left ++ assembled right :=
  List.filterMap_append

theorem assembled_moveDown (offset : Nat) (reports : List LineReport) :
    assembled (reports.map (LineReport.moveDown offset)) = assembled reports := by
  rw [assembled, List.filterMap_map]
  rfl

theorem binary_append_moveDown (left right : List LineReport) (offset : Nat) :
    binary (left ++ right.map (LineReport.moveDown offset)) = binary left ++ binary right := by
  rw [binary, assembled_append, assembled_moveDown, List.flatMap_append]
  rfl

theorem text_append_moveDown (left right : List LineReport) (offset : Nat) :
    text (left ++ right.map (LineReport.moveDown offset)) = text left ++ text right := by
  rw [text, assembled_append, assembled_moveDown, List.flatMap_append]
  rfl

end Listing

namespace Assembler

/-- Whether a run that has made these reports is over. -/
def stopsAfter (assembler : Assembler) (reports : List LineReport) : Bool :=
  assembler.config.stopOnError && reports.any LineReport.isFatal

theorem stopsAfter_cons (assembler : Assembler) (report : LineReport) (reports : List LineReport) :
    assembler.stopsAfter (report :: reports) =
      (assembler.config.stopOnError && report.isFatal || assembler.stopsAfter reports) := by
  rw [stopsAfter, stopsAfter, List.any_cons, Bool.and_or_distrib_left]

theorem value_assembleLines_add (assembler : Assembler) (line offset : Nat) (texts : List Text) :
    (assembler.assembleLines (line + offset) texts).value =
      (assembler.assembleLines line texts).value.map (LineReport.moveDown offset) := by
  induction texts generalizing line with
  | nil => rfl
  | cons text rest ih =>
      have tail := ih (line + 1)
      rw [Nat.add_right_comm] at tail
      rw [value_assembleLines_cons, value_assembleLines_cons]
      cases (assembler.assembleLine text).value with
      | none => exact tail
      | some result =>
          have fatal : LineReport.isFatal { line := line + offset, result } =
              LineReport.isFatal { line, result } := rfl
          simp only [fatal, tail]
          split <;> rfl

theorem assembleLines_append_of_stop {assembler : Assembler} {line : Nat} {left : List Text}
    (stops : assembler.stopsAfter (assembler.assembleLines line left).value = true)
    (right : List Text) :
    assembler.assembleLines line (left ++ right) = assembler.assembleLines line left := by
  induction left generalizing line with
  | nil => simp [stopsAfter, assembleLines] at stops
  | cons text rest ih =>
      rw [value_assembleLines_cons] at stops
      rw [List.cons_append, assembleLines, assembleLines]
      apply Logged.bind_congr
      cases assembled : (assembler.assembleLine text).value with
      | none =>
          rw [assembled] at stops
          exact ih stops
      | some result =>
          rw [assembled] at stops
          simp only at stops ⊢
          by_cases fatal : (assembler.config.stopOnError &&
              LineReport.isFatal { line, result }) = true
          · simp only [if_pos fatal]
          · rw [if_neg fatal, stopsAfter_cons, Bool.or_eq_true] at stops
            have later := ih (stops.resolve_left fatal)
            simp only [if_neg fatal, later]

theorem value_assembleLines_append {assembler : Assembler} {line : Nat} {left : List Text}
    (continues : assembler.stopsAfter (assembler.assembleLines line left).value = false)
    (right : List Text) :
    (assembler.assembleLines line (left ++ right)).value =
      (assembler.assembleLines line left).value ++
        (assembler.assembleLines (line + left.length) right).value := by
  induction left generalizing line with
  | nil => rfl
  | cons text rest ih =>
      have next : line + (text :: rest).length = line + 1 + rest.length := by
        rw [List.length_cons]
        omega
      rw [value_assembleLines_cons] at continues
      rw [List.cons_append, value_assembleLines_cons, value_assembleLines_cons, next]
      cases assembled : (assembler.assembleLine text).value with
      | none =>
          rw [assembled] at continues
          exact ih continues
      | some result =>
          rw [assembled] at continues
          simp only at continues ⊢
          by_cases fatal : (assembler.config.stopOnError &&
              LineReport.isFatal { line, result }) = true
          · rw [if_pos fatal, stopsAfter_cons, fatal] at continues
            exact absurd continues (by simp)
          · rw [if_neg fatal, stopsAfter_cons, Bool.or_eq_false_iff] at continues
            rw [if_neg fatal, if_neg fatal, ih continues.2, List.cons_append]

/-- A text that is joined at the end of a line is assembled part by part. If the first part ends the
run, the second is not read; otherwise the reports of the second follow, with the lines of the first
counted in, and so do its words and its listing. -/
theorem assembleSource_append (assembler : Assembler) {left : Text}
    (whole : left = [] ∨ left.getLast? = some '\n') (right : Text) :
    let first := assembler.assembleSource left
    let second := assembler.assembleSource right
    let joined := assembler.assembleSource (left ++ right)
    (assembler.stopsAfter first.value = true → joined = first) ∧
      (assembler.stopsAfter first.value = false →
        joined.value = first.value ++ second.value.map (LineReport.moveDown (left.count '\n')) ∧
          Listing.binary joined.value =
            Listing.binary first.value ++ Listing.binary second.value ∧
          Listing.text joined.value = Listing.text first.value ++ Listing.text second.value) := by
  intro first second joined
  have split : joined = assembler.assembleLines 1 (left.lines ++ right.lines) := by
    rw [← Text.lines_append whole]
    rfl
  refine ⟨fun stops => split.trans (assembleLines_append_of_stop stops _), ?_⟩
  intro continues
  have reports : joined.value =
      first.value ++ second.value.map (LineReport.moveDown (left.count '\n')) := by
    rw [split, value_assembleLines_append continues, value_assembleLines_add,
      Text.length_lines whole]
    rfl
  refine ⟨reports, ?_, ?_⟩
  · rw [reports, Listing.binary_append_moveDown]
  · rw [reports, Listing.text_append_moveDown]

theorem assembleSource_append_stop_on_error :
    let failing := "s_add_u32 s0, s1, s2\r\n\ns_add_u32 s0\n".toList
    let rest := "s_nop\ns_sub_u32 s0, s1, 0x10000".toList
    let lenient : Assembler := {}
    let strict : Assembler := { config := { stopOnError := true } }
    strict.stopsAfter (strict.assembleSource failing).value = true ∧
      strict.assembleSource (failing ++ rest) = strict.assembleSource failing ∧
      lenient.stopsAfter (lenient.assembleSource failing).value = false ∧
      (lenient.assembleSource (failing ++ rest)).value =
        (lenient.assembleSource failing).value ++
          (lenient.assembleSource rest).value.map (LineReport.moveDown 3) := by
  intro failing rest lenient strict
  have stops : strict.stopsAfter (strict.assembleSource failing).value = true := by decide +kernel
  have continues : lenient.stopsAfter (lenient.assembleSource failing).value = false := by
    decide +kernel
  have whole : failing = [] ∨ failing.getLast? = some '\n' := Or.inr (by decide)
  exact ⟨stops, (assembleSource_append strict whole rest).1 stops, continues,
    ((assembleSource_append lenient whole rest).2 continues).1⟩

end Assembler

end ShaderAssembler

import ShaderAssembler.Proofs.Line
import ShaderAssembler.Proofs.Source

/-! The lines that leave no report. Blank lines are skipped, and so is every line whose first field
is the end of a line, whatever follows it. -/

namespace ShaderAssembler

namespace Text

/-- Outside its comment the line has no field that holds more than the end of a line. -/
def Blank (line : Text) : Prop :=
  ∀ field ∈ line.stripComment.fields, field.trimLineEnd = []

def StartsWithLineEnd (line : Text) : Prop :=
  ∃ ending ∈ lineEnds, line.stripComment.fields.head? = some ending

theorem newline_notMem_lines (text : Text) : ∀ line ∈ text.lines, '\n' ∉ line := by
  fun_induction lines text with
  | case1 => simp
  | case2 rest ih => simpa using ih
  | case3 rest ih => simpa using ih
  | case4 first rest notNewline notReturn empty ih =>
      intro line member
      obtain rfl := List.mem_singleton.mp member
      simpa [eq_comm] using notNewline
  | case5 first rest notNewline notReturn line more shape ih =>
      rw [shape] at ih
      intro other member
      rcases List.mem_cons.mp member with rfl | later
      · have inLine := ih line List.mem_cons_self
        simpa [inLine, eq_comm] using notNewline
      · exact ih other (List.mem_cons_of_mem line later)

theorem startsWithLineEnd_iff_of_newline_notMem {line : Text} (inLine : '\n' ∉ line) :
    line.StartsWithLineEnd ↔ line.stripComment.fields.head? = some ['\r'] := by
  constructor
  · rintro ⟨ending, isEnd, first⟩
    have inEnding : '\n' ∉ ending := fun member =>
      inLine ((List.takeWhile_sublist _).subset ((head?_fields first).2 member))
    simp only [lineEnds, List.mem_cons, List.not_mem_nil, or_false] at isEnd
    rcases isEnd with rfl | rfl | rfl
    · simp at inEnding
    · exact first
    · simp at inEnding
  · intro first
    exact ⟨['\r'], by simp [lineEnds], first⟩

end Text

namespace Assembler

theorem value_assembleLine_eq_none_iff_blank (assembler : Assembler) (line : Text) :
    (assembler.assembleLine line).value = none ↔ line.Blank ∨ line.StartsWithLineEnd := by
  rw [value_assembleLine_eq_none_iff]
  constructor
  · intro blankFirst
    cases first : line.stripComment.fields.head? with
    | none =>
        left
        simp [Text.Blank, List.head?_eq_none_iff.mp first]
    | some token =>
        right
        have blank := (Text.trimLineEnd_eq_nil_iff token).mp (blankFirst token first)
        exact ⟨token, blank.resolve_left (Text.head?_fields first).1, first⟩
  · rintro (blank | ⟨ending, isEnd, starts⟩) token first
    · exact blank token (List.mem_of_mem_head? first)
    · obtain rfl : ending = token := Option.some.inj (starts.symm.trans first)
      exact (Text.trimLineEnd_eq_nil_iff ending).mpr (Or.inr isEnd)

theorem reported_iff {assembler : Assembler} (continues : assembler.config.stopOnError = false)
    {text line : Text} {index : Nat} (found : text.lines[index]? = some line) :
    (∃ report ∈ (assembler.assembleSource text).value, report.line = index + 1) ↔
      (assembler.assembleLine line).value ≠ none := by
  simp only [assembleSource, value_assembleLines_of_continue continues, mem_reports_iff]
  constructor
  · rintro ⟨report, ⟨other, _, otherFound, number, assembled⟩, sameNumber⟩
    obtain rfl : other = index := by omega
    obtain rfl := Option.some.inj (found.symm.trans otherFound)
    simp [assembled]
  · intro assembled
    obtain ⟨result, value⟩ := Option.ne_none_iff_exists'.mp assembled
    exact ⟨⟨index + 1, result⟩, ⟨index, line, found, Nat.add_comm index 1, value⟩, rfl⟩

/-- Which lines are skipped. A line of a source text that is not blank gets a report unless its
first field is a carriage return. -/
theorem skips_blank_or_startsWithLineEnd (assembler : Assembler) :
    (∀ line : Text, (assembler.assembleLine line).value = none ↔
      line.Blank ∨ line.StartsWithLineEnd) ∧
      (assembler.config.stopOnError = false →
        ∀ (text line : Text) (index : Nat), text.lines[index]? = some line → ¬ line.Blank →
          ((∃ report ∈ (assembler.assembleSource text).value, report.line = index + 1) ↔
            line.stripComment.fields.head? ≠ some ['\r'])) := by
  refine ⟨assembler.value_assembleLine_eq_none_iff_blank, ?_⟩
  intro continues text line index found nonblank
  have inLine := Text.newline_notMem_lines text line (List.mem_of_getElem? found)
  rw [reported_iff continues found, ne_eq, value_assembleLine_eq_none_iff_blank,
    Text.startsWithLineEnd_iff_of_newline_notMem inLine]
  simp [nonblank]

theorem skips_blank_or_startsWithLineEnd_second_line :
    ({} : Assembler).config.stopOnError = false ∧
      ¬ Text.Blank "s_add_u32 s0, s1, s2".toList ∧
      ∃ report ∈ (({} : Assembler).assembleSource
        " ; sum\r\ns_add_u32 s0, s1, s2".toList).value, report.line = 2 := by
  have fields : (Text.stripComment "s_add_u32 s0, s1, s2".toList).fields =
      ["s_add_u32".toList, "s0".toList, "s1".toList, "s2".toList] := by
    with_unfolding_all rfl
  have nonblank : ¬ Text.Blank "s_add_u32 s0, s1, s2".toList := by
    intro blank
    rw [Text.Blank, fields] at blank
    exact absurd (blank "s0".toList (by decide)) (by decide)
  refine ⟨rfl, nonblank, ?_⟩
  refine ((skips_blank_or_startsWithLineEnd {}).2 rfl _ _ 1 (by rfl) nonblank).mpr ?_
  rw [fields]
  decide

theorem instruction_behind_carriage_return_skipped :
    (({} : Assembler).assembleLine "\r s_add_u32 s0, s1, s2".toList).value = none ∧
      ¬ Text.Blank "\r s_add_u32 s0, s1, s2".toList ∧
      (({} : Assembler).assembleSource "\r s_add_u32 s0, s1, s2".toList).value = [] := by
  have fields : (Text.stripComment "\r s_add_u32 s0, s1, s2".toList).fields =
      ["\r".toList, "s_add_u32".toList, "s0".toList, "s1".toList, "s2".toList] := by
    with_unfolding_all rfl
  refine ⟨by with_unfolding_all rfl, ?_, by with_unfolding_all rfl⟩
  intro blank
  rw [Text.Blank, fields] at blank
  exact absurd (blank "s_add_u32".toList (by decide)) (by decide)

end Assembler

end ShaderAssembler

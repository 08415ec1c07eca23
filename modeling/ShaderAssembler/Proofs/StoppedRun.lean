import ShaderAssembler.Proofs.Source

/-! Runs that end at an error. A run that goes on reports every line that is not skipped. A run that
stops makes the same reports, up to the first instruction that is wrong and with that one
included. -/

namespace ShaderAssembler

namespace LineReport

def Failed (report : LineReport) : Prop :=
  ∃ mnemonic cause, report.result = .error (.encode mnemonic cause)

theorem isFatal_iff (report : LineReport) : report.isFatal = true ↔ report.Failed := by
  unfold isFatal Failed
  cases report.result with
  | ok assembled => simp
  | error cause => cases cause <;> simp [LineError.recoverable]

theorem not_failed_iff (report : LineReport) :
    ¬ report.Failed ↔
      (∃ assembled, report.result = .ok assembled) ∨
        ∃ cause, report.result = .error cause ∧ cause.recoverable = true := by
  unfold Failed
  cases report.result with
  | ok assembled => simp
  | error cause => cases cause <;> simp [LineError.recoverable]

/-- The reports up to the first failure, which is the last one of them. -/
def upToFailure : List LineReport → List LineReport
  | [] => []
  | report :: rest => if report.isFatal then [report] else report :: upToFailure rest

theorem upToFailure_cases (reports : List LineReport) :
    ((∀ report ∈ reports, ¬ report.Failed) ∧ upToFailure reports = reports) ∨
      ∃ before report after, reports = before ++ report :: after ∧
        (∀ earlier ∈ before, ¬ earlier.Failed) ∧ report.Failed ∧
        upToFailure reports = before ++ [report] := by
  induction reports with
  | nil =>
      left
      exact ⟨by simp, rfl⟩
  | cons first rest ih =>
      rw [upToFailure]
      by_cases fatal : first.isFatal = true
      · right
        rw [if_pos fatal]
        exact ⟨[], first, rest, rfl, by simp, (isFatal_iff first).mp fatal, rfl⟩
      · rw [if_neg fatal]
        rw [isFatal_iff] at fatal
        rcases ih with ⟨none, kept⟩ | ⟨before, report, after, rfl, none, failed, cut⟩
        · left
          exact ⟨by simpa [fatal] using none, by rw [kept]⟩
        · right
          refine ⟨first :: before, report, after, rfl, by simpa [fatal] using none, failed, ?_⟩
          rw [cut, List.cons_append]

def EndsInFailure (reports : List LineReport) : Prop :=
  ∃ report, reports.getLast? = some report ∧ report.Failed

theorem isPrefix_of_endsInFailure {before after other : List LineReport} {report : LineReport}
    (none : ∀ earlier ∈ before, ¬ earlier.Failed) (isPrefix : other <+: before ++ report :: after)
    (ends : EndsInFailure other) : before ++ [report] <+: other := by
  obtain ⟨last, isLast, failed⟩ := ends
  have cut : before ++ [report] <+: before ++ report :: after :=
    List.prefix_append_right_inj before |>.mpr (List.cons_prefix_cons.mpr ⟨rfl, List.nil_prefix⟩)
  rcases List.prefix_or_prefix_of_prefix cut isPrefix with shorter | longer
  · exact shorter
  · rcases List.prefix_concat_iff.mp longer with same | inside
    · subst same
      exact List.prefix_rfl
    · have early : last ∈ before := inside.subset (List.mem_of_getLast? isLast)
      exact absurd failed (none last early)

end LineReport

namespace Assembler

def withStopOnError (assembler : Assembler) (stop : Bool) : Assembler :=
  { assembler with config := { assembler.config with stopOnError := stop } }

theorem assembleLine_withStopOnError (assembler : Assembler) (stop : Bool) (line : Text) :
    (assembler.withStopOnError stop).assembleLine line = assembler.assembleLine line :=
  rfl

theorem reports_withStopOnError (assembler : Assembler) (stop : Bool) (line : Nat)
    (texts : List Text) :
    (assembler.withStopOnError stop).reports line texts = assembler.reports line texts := by
  simp only [reports, assembleLine_withStopOnError]

theorem value_assembleLines_of_stop {assembler : Assembler}
    (stops : assembler.config.stopOnError = true) (line : Nat) (texts : List Text) :
    (assembler.assembleLines line texts).value =
      LineReport.upToFailure (assembler.reports line texts) := by
  induction texts generalizing line with
  | nil => rfl
  | cons text rest ih =>
      rw [value_assembleLines_cons, reports_cons]
      cases (assembler.assembleLine text).value with
      | none => exact ih (line + 1)
      | some result =>
          simp only [stops, Bool.true_and, LineReport.upToFailure, ih]

theorem pairwise_reports_line (assembler : Assembler) (line : Nat) (texts : List Text) :
    (assembler.reports line texts).Pairwise fun earlier later => earlier.line < later.line := by
  induction texts generalizing line with
  | nil => exact List.Pairwise.nil
  | cons text rest ih =>
      rw [reports_cons]
      cases (assembler.assembleLine text).value with
      | none => exact ih (line + 1)
      | some result =>
          refine List.pairwise_cons.mpr ⟨?_, ih (line + 1)⟩
          intro later member
          obtain ⟨index, _, _, number, _⟩ := (mem_reports_iff _ _ _ _).mp member
          simp only [number]
          omega

/-- A run reports exactly the lines that are not skipped, in order, and stopping only cuts its
reports behind the first failure. So an instruction that is unknown or has no encoder never ends
a run. -/
theorem assembleSource_upToFailure (assembler : Assembler) (text : Text) :
    let all := assembler.reports 1 text.lines
    let run := fun stop => ((assembler.withStopOnError stop).assembleSource text).value
    run false = all ∧
      ((∀ report ∈ all, ¬ report.Failed) → run true = all) ∧
      ((∃ report ∈ all, report.Failed) →
        run true <+: all ∧ LineReport.EndsInFailure (run true) ∧
          ∀ other, other <+: all → LineReport.EndsInFailure other → run true <+: other) ∧
      (∀ report ∈ (run true).dropLast,
        (∃ assembled, report.result = .ok assembled) ∨
          ∃ cause, report.result = .error cause ∧ cause.recoverable = true) ∧
      (∀ report, (run true).getLast? = some report → report.Failed ∨ run true = all) ∧
      ∀ stop, (run stop).Pairwise fun earlier later => earlier.line < later.line := by
  intro all run
  have goesOn : run false = all :=
    (value_assembleLines_of_continue rfl 1 text.lines).trans (reports_withStopOnError ..)
  have stops : run true = LineReport.upToFailure all :=
    (value_assembleLines_of_stop rfl 1 text.lines).trans
      (congrArg LineReport.upToFailure (reports_withStopOnError ..))
  have ascending := assembler.pairwise_reports_line 1 text.lines
  have numbers (stop : Bool) :
      (run stop).Pairwise fun earlier later => earlier.line < later.line := by
    have isPrefix := value_assembleLines_isPrefix (assembler.withStopOnError stop) 1 text.lines
    rw [reports_withStopOnError] at isPrefix
    exact ascending.sublist isPrefix.sublist
  refine ⟨goesOn, ?_⟩
  rw [stops]
  rcases LineReport.upToFailure_cases all with
    ⟨none, kept⟩ | ⟨before, report, after, shape, none, failed, cut⟩
  · rw [kept]
    refine ⟨fun _ => rfl, ?_, ?_, fun _ _ => Or.inr rfl, numbers⟩
    · rintro ⟨report, member, failed⟩
      exact absurd failed (none report member)
    · intro report member
      exact report.not_failed_iff.mp (none report (List.dropLast_subset all member))
  · have inAll : report ∈ all := by simp [shape]
    rw [cut]
    refine ⟨fun noFailure => absurd failed (noFailure report inAll), ?_, ?_, ?_, numbers⟩
    · intro _
      refine ⟨⟨after, by simp [shape]⟩, ⟨report, by simp, failed⟩, ?_⟩
      intro other isPrefix ends
      rw [shape] at isPrefix
      exact LineReport.isPrefix_of_endsInFailure none isPrefix ends
    · intro earlier member
      rw [List.dropLast_concat] at member
      exact earlier.not_failed_iff.mp (none earlier member)
    · intro last isLast
      obtain rfl : report = last := by simpa using isLast
      exact Or.inl failed

theorem assembleSource_upToFailure_fourth_line :
    let add : Instruction := ⟨"s_add_u32".toList, .sop2, 0x80000000⟩
    let nop : Instruction := ⟨"s_nop".toList, .sopp, 0xBF800000⟩
    let assembler : Assembler := { tables := ⟨[add, nop], [], SouthernIslands.codes⟩ }
    let source : Text := "s_add_u32 s5, s3, 42\ns_nop\n\ns_add_u32 s0, 100, 200\nbogus".toList
    let all := assembler.reports 1 source.lines
    let stopped := ((assembler.withStopOnError true).assembleSource source).value
    all.map LineReport.line = [1, 2, 4, 5] ∧ stopped.map LineReport.line = [1, 2, 4] ∧
      (∃ report ∈ all, report.Failed) ∧ stopped <+: all ∧ LineReport.EndsInFailure stopped := by
  intro add nop assembler source all stopped
  have anyFailed : (all.any LineReport.isFatal) = true := by decide +kernel
  have failure : ∃ report ∈ all, report.Failed := by
    simpa only [List.any_eq_true, LineReport.isFatal_iff] using anyFailed
  obtain ⟨isPrefix, ends, _⟩ := (assembleSource_upToFailure assembler source).2.2.1 failure
  exact ⟨by decide +kernel, by decide +kernel, failure, isPrefix, ends⟩

end Assembler

end ShaderAssembler

import ShaderAssembler.Proofs.CommandRun

/-! The files that a command changes: none but its outputs, and none at all unless it gets as far as
its first write. -/

namespace ShaderAssembler

namespace CommandLine

def Script.WritesOnly (allowed : String → Prop) : Script → Prop
  | .exit _ => True
  | .print _ _ next => ∀ result, (next result).WritesOnly allowed
  | .read _ next => ∀ contents, (next contents).WritesOnly allowed
  | .write path _ next => allowed path ∧ ∀ result, (next result).WritesOnly allowed

theorem Disk.locate_write (disk : Disk) (count : Nat) (path : String) (contents : Bytes) :
    (disk.write count path contents).1.locate = disk.locate := by
  cases refused : disk.refusal? count (.file path) with
  | none => rw [write_of_accepted refused, locate_deliver]
  | some fault => rw [write_of_refused refused]

theorem Disk.files_write {disk : Disk} {path name : String} (other : disk.locate path ≠ .ok name)
    (count : Nat) (contents : Bytes) :
    (disk.write count path contents).1.files name = disk.files name := by
  cases refused : disk.refusal? count (.file path) with
  | none =>
      rw [write_of_accepted refused]
      apply files_deliver
      rintro _ ⟨⟩
      exact other
  | some fault => rw [write_of_refused refused]

theorem Outcome.disk_prepend (outcome : Outcome) (text : String) (stream : Stream) :
    (outcome.prepend text stream).disk = outcome.disk := by
  cases stream <;> rfl

/-- A step changes at most the file that it writes to, so a run changes only files that allowed
paths lead to. -/
theorem Script.WritesOnly.files_run {allowed : String → Prop} {name : String} {disk : Disk}
    (other : ∀ path, allowed path → disk.locate path ≠ .ok name) {script : Script}
    (only : script.WritesOnly allowed) (count : Nat) :
    (script.run disk count).disk.files name = disk.files name := by
  induction script generalizing disk count with
  | exit status => rfl
  | print stream text next ih =>
      rw [Script.run]
      split
      · exact ih _ other (only _) (count + 1)
      · rw [Outcome.disk_prepend]
        exact ih _ other (only _) (count + 1)
  | read path next ih =>
      rw [Script.run]
      exact ih _ other (only _) count
  | write path contents next ih =>
      obtain ⟨isAllowed, rest⟩ := only
      rw [Script.run]
      have step := Disk.files_write (other path isAllowed) count contents
      have stillOther (output : String) (outputAllowed : allowed output) :
          (disk.write count path contents).1.locate output ≠ .ok name := by
        rw [Disk.locate_write]
        exact other output outputAllowed
      exact (ih _ stillOther (rest _) _).trans step

section Parts

variable {allowed : String → Prop}

theorem writesOnly_withTables (options : Options) {next : Tables → Script}
    (only : ∀ tables, (next tables).WritesOnly allowed) :
    (withTables options next).WritesOnly allowed := by
  rw [withTables]
  split
  · exact only _
  · rename_i path _
    intro contents
    cases loaded : (Tables.ofFile path contents).value with
    | error cause => simp [loaded, fail, Script.WritesOnly]
    | ok tables => simpa only [loaded] using only tables

theorem writesOnly_withSource (path : String) {next : Text → Script}
    (only : ∀ text, (next text).WritesOnly allowed) :
    (withSource path next).WritesOnly allowed := by
  intro contents
  cases read : contents.bind Text.ofBytes with
  | error fault => simp [read, fail, Script.WritesOnly]
  | ok text => simpa only [read] using only text

theorem writesOnly_writing {path : String} (isAllowed : allowed path) (contents : Bytes)
    {next : Script} (only : next.WritesOnly allowed) :
    (writing path contents next).WritesOnly allowed := by
  refine ⟨isAllowed, ?_⟩
  intro result
  cases result with
  | error fault => exact fun _ => trivial
  | ok => exact only

theorem writesOnly_say (stream : Stream) (text : String) {next : Script}
    (only : next.WritesOnly allowed) : (say stream text next).WritesOnly allowed := by
  intro result
  cases result with
  | error fault => trivial
  | ok => exact only

theorem writesOnly_foldr_say (stream : Stream) (texts : List String) {next : Script}
    (only : next.WritesOnly allowed) : (texts.foldr (say stream) next).WritesOnly allowed := by
  induction texts with
  | nil => exact only
  | cons first rest ih => exact writesOnly_say stream first ih

theorem writesOnly_summarize (path : String) (reports : List LineReport) :
    (summarize path reports).WritesOnly allowed := by
  rw [summarize]
  split
  · trivial
  · exact writesOnly_foldr_say .stderr _ (writesOnly_say .stderr _ trivial)

end Parts

namespace Options

variable (options : Options)

theorem writesOnly_finishing (path : String) (reports : List LineReport) :
    (options.finishing path reports).WritesOnly (.file · ∈ options.outputs) := by
  have binary : (emitBinary options reports (summarize path reports)).WritesOnly
      (.file · ∈ options.outputs) := by
    rw [emitBinary]
    split
    · rename_i bin asked
      exact writesOnly_writing (by simp [outputs, asked]) _ (writesOnly_summarize path reports)
    · exact writesOnly_summarize path reports
  rw [finishing, emitListing]
  split
  · rename_i out asked
    exact writesOnly_writing (by simp [outputs, listingTarget, asked]) _ binary
  · intro result
    cases result with
    | error fault => exact fun _ => trivial
    | ok => exact binary

theorem writesOnly_script : options.script.WritesOnly (.file · ∈ options.outputs) := by
  apply writesOnly_withTables
  intro tables
  split
  · exact writesOnly_say .stdout _ trivial
  · split
    · trivial
    · exact writesOnly_withSource _ fun text => options.writesOnly_finishing _ _

variable {options} {disk : Disk}

theorem run_script_of_unloaded {cause : TableError}
    (unloaded : options.loadTables disk = .error cause) :
    options.script.run disk 0 = Failure.outcome (.tables cause) disk 0 := by
  rw [script, run_withTables, unloaded]

theorem run_script_of_unread (noDump : options.dumpTables = false) {path : String}
    (input : options.input = some path) {fault : FileFault}
    (unread : disk.readText path = .error fault) :
    ∃ failure : Failure, options.script.run disk 0 = failure.outcome disk 0 := by
  rw [script, run_withTables]
  cases options.loadTables disk with
  | error cause => exact ⟨.tables cause, rfl⟩
  | ok tables =>
      refine ⟨.reading path fault, ?_⟩
      simp only [noDump, input, Bool.false_eq_true, if_false]
      rw [run_withSource, unread]

theorem disk_run_script_of_dump (dump : options.dumpTables = true) :
    (options.script.run disk 0).disk = disk := by
  rw [script, run_withTables]
  cases options.loadTables disk with
  | error cause => rfl
  | ok tables =>
      simp only [dump, if_true, say, Script.run]
      split
      · rfl
      · rw [Outcome.disk_prepend]

end Options

section Summary

variable (path : String) (reports : List LineReport) (disk : Disk) (count : Nat)

theorem quiet_foldr_say {next : Script} (texts : List String)
    (quiet : ∀ later, (next.run disk later).stdout = "" ∧ (next.run disk later).disk = disk) :
    ((texts.foldr (say .stderr) next).run disk count).stdout = "" ∧
      ((texts.foldr (say .stderr) next).run disk count).disk = disk := by
  induction texts generalizing count with
  | nil => exact quiet count
  | cons first rest ih =>
      rw [List.foldr_cons, say, Script.run]
      split
      · exact ⟨rfl, rfl⟩
      · exact ih (count + 1)

theorem quiet_summarize :
    ((summarize path reports).run disk count).stdout = "" ∧
      ((summarize path reports).run disk count).disk = disk := by
  rw [summarize]
  split
  · exact ⟨rfl, rfl⟩
  · apply quiet_foldr_say
    intro later
    exact quiet_foldr_say disk later [_] fun _ => ⟨rfl, rfl⟩

end Summary

section Finishing

variable {options : Options} {disk : Disk} (path : String) (reports : List LineReport)

theorem stdout_finishing (accepted : disk.refusal? 0 options.listingTarget = none) :
    ((options.finishing path reports).run disk 0).stdout = options.printed reports := by
  rcases Options.accepted_or_bin_refused accepted with all | ⟨bin, fault, asked, refused⟩
  · have silent := (quiet_summarize path reports (options.delivered disk reports)
      options.outputs.length).1
    simp [Options.run_finishing reports all path, Outcome.prepend, silent]
  · simp [Options.run_finishing_of_bin_refused reports accepted asked refused path,
      Outcome.prepend, Failure.outcome]

theorem read_listing {out : String} (asked : options.out = some out)
    (accepted : disk.refusal? 0 options.listingTarget = none)
    (kept : ∀ bin, options.bin = some bin → disk.refusal? 1 (.file bin) = none →
      disk.locate bin ≠ disk.locate out) :
    ((options.finishing path reports).run disk 0).disk.read out =
      .ok (listing options reports).toBytes := by
  rcases Options.accepted_or_bin_refused accepted with all | ⟨bin, fault, given, refused⟩
  · rw [Options.run_finishing reports all path, Outcome.disk_prepend,
      (quiet_summarize path reports _ _).2]
    apply Options.read_delivered_out reports asked accepted
    intro bin given
    exact kept bin given (Options.bin_accepted all given)
  · rw [Options.run_finishing_of_bin_refused reports accepted given refused path,
      Outcome.disk_prepend]
    exact Options.read_listed reports asked accepted

end Finishing

/-- No file changes but the outputs. Nothing changes if the command ends before its first output, or
if that one fails, and then no line is reported. Lines that fail do not keep the outputs from being
written. -/
theorem execute_changes_only_outputs (arguments : List String) (options : Options)
    (parsed : Invocation.ofArguments arguments = .run options) (disk : Disk) :
    let outcome := execute arguments disk
    (∀ name, (∀ path, .file path ∈ options.outputs → disk.locate path ≠ .ok name) →
        outcome.disk.files name = disk.files name) ∧
      (∀ cause, options.loadTables disk = .error cause →
        outcome.disk = disk ∧ outcome.stdout = "" ∧ outcome.status = 1) ∧
      (options.dumpTables = true → outcome.disk = disk) ∧
      (options.dumpTables = false → ∀ path fault, options.input = some path →
        disk.readText path = .error fault →
          outcome.disk = disk ∧ outcome.stdout = "" ∧ outcome.status = 1) ∧
      ∀ tables path text, options.Assembles disk tables path text →
        let reports := options.reports tables text
        (∀ fault, disk.refusal? 0 options.listingTarget = some fault →
          outcome.disk = disk ∧ outcome.stdout = "" ∧ outcome.status = 1 ∧
            outcome.stderr = if disk.fault 1 (.stream .stderr) = none then
              (options.unlisted fault).report else "") ∧
        (disk.refusal? 0 options.listingTarget = none →
          outcome.stdout = options.printed reports ∧
          ∀ out, options.out = some out →
            (∀ bin, options.bin = some bin → disk.refusal? 1 (.file bin) = none →
              disk.locate bin ≠ disk.locate out) →
            outcome.disk.read out = .ok (listing options reports).toBytes) ∧
        ((∀ index target, options.outputs[index]? = some target →
            disk.refusal? index target = none) →
          ∀ bin, options.bin = some bin →
            outcome.disk.read bin = .ok (Listing.binary reports)) := by
  intro outcome
  have started : outcome = options.script.run disk 0 := execute_of_run parsed disk
  rw [started]
  refine ⟨?_, ?_, Options.disk_run_script_of_dump, ?_, ?_⟩
  · intro name other
    exact options.writesOnly_script.files_run other 0
  · intro cause unloaded
    rw [Options.run_script_of_unloaded unloaded]
    exact ⟨rfl, rfl, rfl⟩
  · intro noDump path fault input unread
    obtain ⟨failure, ended⟩ := Options.run_script_of_unread noDump input unread
    rw [ended]
    exact ⟨rfl, rfl, rfl⟩
  · intro tables path text assembles reports
    rw [run_script_of_assembles assembles]
    refine ⟨?_, ?_, ?_⟩
    · intro fault refused
      rw [Options.finishing, run_emitListing_of_refused _ _ refused]
      exact ⟨rfl, rfl, rfl, rfl⟩
    · intro accepted
      refine ⟨stdout_finishing path reports accepted, ?_⟩
      intro out asked kept
      exact read_listing path reports asked accepted kept
    · intro accepted bin asked
      rw [Options.run_finishing reports accepted path, Outcome.disk_prepend,
        (quiet_summarize path reports _ _).2]
      exact Options.read_delivered_bin reports asked (Options.bin_accepted accepted asked)

/-- The second line of the input fails. The binary is written if the listing is, and not if the
listing cannot be put out. -/
theorem execute_changes_only_outputs_failed_line :
    let toFile := ["src/a.s", "--out", "build/a.lst", "--bin=build/a.bin"]
    let toStdout := ["./a.s", "--bin=a.bin"]
    let text : Text := "s_add_u32 s0, s1, s2\nbogus\n".toList
    let disk : Disk :=
      { locate := .ok
        files := fun name => if name = "src/a.s" then .ok text.toBytes else .error .notFound
        fault := fun _ _ => none }
    let full : Disk :=
      { disk with fault := fun _ target =>
          if target = .file "build/a.lst" then some (.other "File too large") else none }
    let here : Disk := .ofFiles [("a.s", text.toBytes)]
    let closed : Disk :=
      { here with fault := fun _ target =>
          if target = .stream .stdout then some (.other "Broken pipe") else none }
    (execute toFile disk).disk.files "src/a.s" = .ok text.toBytes ∧
      (execute toFile disk).disk.read "build/a.bin" = .ok [0x02, 0x01, 0x00, 0x80] ∧
      (execute toFile full).disk = full ∧
      (execute toFile full).stderr =
        "Error: writing build/a.lst\n\nCaused by:\n    File too large\n" ∧
      (execute toStdout closed).disk = closed ∧
      (execute toStdout closed).stderr = "Error: Broken pipe\n" := by
  intro toFile toStdout text disk full here closed
  let fileOptions : Options :=
    { input := some "src/a.s", out := some "build/a.lst", bin := some "build/a.bin" }
  let stdoutOptions : Options := { input := some "./a.s", bin := some "a.bin" }
  have parsedFile : Invocation.ofArguments toFile = .run fileOptions := by decide +kernel
  have parsedStdout : Invocation.ofArguments toStdout = .run stdoutOptions := by decide +kernel
  have source : disk.readText "src/a.s" = .ok text := Disk.readText_of_read rfl
  have name : Disk.fileName? "./a.s" = some "a.s" := by decide +kernel
  have closedSource : closed.readText "./a.s" = .ok text := by
    apply Disk.readText_of_read
    simp [closed, here, Disk.read, Disk.ofFiles, name, Except.bind]
  have assembles : fileOptions.Assembles disk .southernIslands "src/a.s" text :=
    ⟨rfl, rfl, rfl, source⟩
  have accepted (index : Nat) (target : Target)
      (_ : fileOptions.outputs[index]? = some target) : disk.refusal? index target = none := by
    cases target <;> rfl
  have bytes : Listing.binary (fileOptions.reports .southernIslands text) =
      [0x02, 0x01, 0x00, 0x80] := by
    decide +kernel
  obtain ⟨frame, _, _, _, work⟩ := execute_changes_only_outputs toFile fileOptions parsedFile disk
  obtain ⟨_, _, _, _, fullWork⟩ := execute_changes_only_outputs toFile fileOptions parsedFile full
  obtain ⟨_, _, _, _, closedWork⟩ :=
    execute_changes_only_outputs toStdout stdoutOptions parsedStdout closed
  obtain ⟨fullKept, _, _, fullReport⟩ :=
    (fullWork .southernIslands "src/a.s" text ⟨rfl, rfl, rfl, source⟩).1 _ rfl
  obtain ⟨closedKept, _, _, closedReport⟩ :=
    (closedWork .southernIslands "./a.s" text ⟨rfl, rfl, rfl, closedSource⟩).1 _ rfl
  refine ⟨frame "src/a.s" ?_, ?_, fullKept, fullReport.trans ?_, closedKept,
    closedReport.trans ?_⟩
  · intro path listed same
    obtain rfl : path = "src/a.s" := Except.ok.inj same
    exact absurd listed (by decide)
  · rw [← bytes]
    exact (work _ _ _ assembles).2.2 accepted "build/a.bin" rfl
  · decide +kernel
  · decide +kernel

end CommandLine

end ShaderAssembler

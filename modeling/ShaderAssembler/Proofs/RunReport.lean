import ShaderAssembler.Proofs.CommandRun
import ShaderAssembler.Proofs.ListingText
import ShaderAssembler.Proofs.TableDocument

/-! What a run of the command tells about its input: each line is either listed or reported as
failed, and the exit status says whether any line failed. -/

namespace ShaderAssembler

/-! ### The JSON listing -/

theorem ListingRecord.ofJson?_toJson (record : ListingRecord) :
    ofJson? record.toJson = some record := by
  obtain ⟨line, mnemonic, word, literal⟩ := record
  rw [ofJson?, toJson, Json.ofMembers, Json.record?, Json.knownMembers?_ofMembers]
  · cases literal <;>
      simp [Json.required?, Json.optional?, List.lookup_cons, Json.natural?, Json.ofNat,
        Json.text?_ofText]
  · cases literal <;> simp
  · cases literal <;> simp

namespace Listing

theorem readJson?_json (reports : List LineReport) :
    readJson? (json reports ++ ['\n']) = some (succeeded reports) := by
  have newline : ∀ character ∈ ['\n'], Json.isBlank character = true := by simp [Json.isBlank]
  have parsed := Json.parse?_render_blank Json.blank_indented newline
    (.array ((records reports).map ListingRecord.toJson))
  have items := Json.list?_map ListingRecord.ofJson?_toJson (records reports)
  rw [readJson?, json, Json.pretty, parsed]
  simp only [Option.bind_eq_bind, Option.bind_some, items, mapM_read?_records]

theorem perm_succeeded_failed (reports : List LineReport) :
    ((succeeded reports).map (fun (line, assembled) => LineReport.mk line (.ok assembled)) ++
      (failed reports).map fun (line, cause) => LineReport.mk line (.error cause)).Perm
        reports := by
  induction reports with
  | nil => exact .nil
  | cons first rest ih =>
      obtain ⟨line, result⟩ := first
      cases result with
      | ok assembled => exact ih.cons _
      | error cause => exact List.perm_middle.trans (ih.cons _)

end Listing

namespace CommandLine

theorem Outcome.prepend_prepend (outcome : Outcome) (first second : String) (stream : Stream) :
    (outcome.prepend second stream).prepend first stream =
      outcome.prepend (first ++ second) stream := by
  cases stream <;> simp [prepend, String.append_assoc]

section Summary

variable {disk : Disk} (sound : ∀ count, disk.fault count (.stream .stderr) = none)
include sound

theorem run_foldr_say (texts : List String) (next : Script) (count : Nat) :
    (texts.foldr (say .stderr) next).run disk count =
      (next.run disk (count + texts.length)).prepend (String.join texts) .stderr := by
  induction texts generalizing count with
  | nil => simp [Outcome.prepend]
  | cons first rest ih =>
      rw [List.foldr_cons, say, Script.run, sound count]
      simp only [ih, Outcome.prepend_prepend, String.join_cons, List.length_cons]
      rw [Nat.add_assoc, Nat.add_comm 1]

theorem run_summarize (path : String) (reports : List LineReport) (count : Nat) :
    (summarize path reports).run disk count =
      { status := if (Listing.failed reports).isEmpty then 0 else 1
        stdout := ""
        stderr :=
          String.join ((Listing.failed reports).map fun (line, cause) =>
            s!"{path}:{line}: error: {cause.message}\n") ++
          if (Listing.failed reports).isEmpty then ""
          else s!"{(Listing.failed reports).length} line(s) failed\n"
        disk } := by
  have lines : reports.filterMap (errorLine path) =
      (Listing.failed reports).map fun (line, cause) =>
        s!"{path}:{line}: error: {cause.message}\n" := by
    rw [Listing.failed, List.map_filterMap]
    congr 1
    funext ⟨line, result⟩
    cases result <;> rfl
  rw [summarize, lines]
  cases Listing.failed reports with
  | nil => rfl
  | cons first rest =>
      simp only [List.map_cons]
      rw [run_foldr_say sound, say, Script.run, sound]
      simp [Script.run, Outcome.prepend]

end Summary

theorem read_listing_back (options : Options) (tables : Tables) (text : Text) :
    let reports := options.reports tables text
    if options.format = some .json then
      Listing.readJson? (listing options reports) = some (Listing.succeeded reports)
    else
      Listing.read? (listing options reports) =
        some ((Listing.succeeded reports).map Prod.snd) := by
  intro reports
  have asText : Listing.read? (Listing.text reports) =
      some ((Listing.succeeded reports).map Prod.snd) :=
    Assembler.read?_text _ text
  cases chosen : options.format with
  | none => simpa [listing, chosen] using asText
  | some format =>
      cases format with
      | text => simpa [listing, chosen] using asText
      | json => simpa [listing, chosen] using Listing.readJson?_json reports

/-- A run whose outputs succeed accounts for every line of its input. The lines that assembled are
listed, the others are reported with their number and what is wrong with them, and the exit status
is zero only if there are no others. -/
theorem execute_accounts_for_lines (arguments : List String) (options : Options)
    (parsed : Invocation.ofArguments arguments = .run options)
    (noDump : options.dumpTables = false) (disk : Disk) (tables : Tables)
    (loaded : options.loadTables disk = .ok tables)
    (accepted : ∀ index target, options.outputs[index]? = some target →
      disk.refusal? index target = none)
    (sound : ∀ count, disk.fault count (.stream .stderr) = none) :
    ∃ path, options.input = some path ∧ ∀ text, disk.readText path = .ok text →
      let reports := options.reports tables text
      let succeeded := Listing.succeeded reports
      let failed := Listing.failed reports
      let outcome := execute arguments disk
      (if options.format = some .json then
          Listing.readJson? (listing options reports) = some succeeded
        else Listing.read? (listing options reports) = some (succeeded.map Prod.snd)) ∧
        outcome.stdout =
          (if options.out.isSome then "" else String.ofList (listing options reports)) ∧
        (∀ out, options.out = some out →
          (∀ bin, options.bin = some bin → disk.locate bin ≠ disk.locate out) →
            outcome.disk.read out = .ok (listing options reports).toBytes) ∧
        (∀ bin, options.bin = some bin →
          outcome.disk.read bin = .ok (Listing.binary reports)) ∧
        outcome.stderr =
          String.join (failed.map fun (line, cause) =>
            s!"{path}:{line}: error: {cause.message}\n") ++
          (if failed.isEmpty then "" else s!"{failed.length} line(s) failed\n") ∧
        (succeeded.map (fun (line, assembled) => LineReport.mk line (.ok assembled)) ++
          failed.map fun (line, cause) => LineReport.mk line (.error cause)).Perm reports ∧
        outcome.status = if failed.isEmpty then 0 else 1 := by
  obtain ⟨path, input⟩ := Invocation.exists_input parsed noDump
  refine ⟨path, input, ?_⟩
  intro text source reports succeeded failed outcome
  have assembles : options.Assembles disk tables path text := ⟨noDump, loaded, input, source⟩
  have stillSound (count : Nat) :
      (options.delivered disk reports).fault count (.stream .stderr) = none := by
    rw [Options.fault_delivered, sound count]
  have ended : outcome = ((summarize path reports).run (options.delivered disk reports)
      options.outputs.length).prepend (options.printed reports) .stdout :=
    ((execute_of_run parsed disk).trans (run_script_of_assembles assembles)).trans
      (Options.run_finishing reports accepted path)
  rw [run_summarize stillSound] at ended
  rw [ended]
  refine ⟨read_listing_back options tables text, ?_, ?_, ?_, rfl,
    Listing.perm_succeeded_failed reports, rfl⟩
  · simp [Outcome.prepend, Options.printed]
  · intro out asked apart
    exact Options.read_delivered_out reports asked (accepted 0 _ rfl) apart
  · intro bin asked
    exact Options.read_delivered_bin reports asked (Options.bin_accepted accepted asked)

/-- The directories of both outputs are one and the same, and so are the files, which then hold the
binary. -/
theorem execute_accounts_for_lines_one_file :
    let arguments := ["src/a.s", "--format=json", "--out", "build/o", "--bin=../build/o"]
    let options : Options :=
      { input := some "src/a.s", format := some .json, out := some "build/o",
        bin := some "../build/o" }
    let text : Text := "s_add_u32 s0, s1, s2\nbogus\n".toList
    let disk : Disk :=
      { locate := fun path => .ok (if path = "../build/o" then "build/o" else path)
        files := fun name => if name = "src/a.s" then .ok text.toBytes else .error .notFound
        fault := fun _ _ => none }
    let outcome := execute arguments disk
    Invocation.ofArguments arguments = .run options ∧
      options.loadTables disk = .ok .southernIslands ∧ disk.readText "src/a.s" = .ok text ∧
      (∀ index target, options.outputs[index]? = some target →
        disk.refusal? index target = none) ∧
      (∀ count, disk.fault count (.stream .stderr) = none) ∧
      outcome.stdout = "" ∧
      outcome.stderr = "src/a.s:2: error: unrecognized instruction 'bogus'\n1 line(s) failed\n" ∧
      outcome.status = 1 ∧ disk.locate "build/o" = disk.locate "../build/o" ∧
      outcome.disk.read "../build/o" = .ok [0x02, 0x01, 0x00, 0x80] := by
  intro arguments options text disk outcome
  have parsed : Invocation.ofArguments arguments = .run options := by decide +kernel
  have source : disk.readText "src/a.s" = .ok text := Disk.readText_of_read rfl
  have accepted (index : Nat) (target : Target) (_ : options.outputs[index]? = some target) :
      disk.refusal? index target = none := by
    cases target <;> rfl
  obtain ⟨path, input, accounts⟩ := execute_accounts_for_lines arguments options parsed rfl disk
    .southernIslands rfl accepted fun _ => rfl
  obtain rfl : path = "src/a.s" := (Option.some.inj input).symm
  obtain ⟨_, stdout, _, binary, stderr, _, status⟩ := accounts text source
  have failed : Listing.failed (options.reports .southernIslands text) =
      [(2, .unrecognized "bogus".toList)] := by decide +kernel
  have bytes : Listing.binary (options.reports .southernIslands text) =
      [0x02, 0x01, 0x00, 0x80] := by decide +kernel
  rw [failed] at stderr status
  refine ⟨parsed, rfl, source, accepted, fun _ => rfl, stdout, stderr.trans ?_, status, rfl, ?_⟩
  · decide +kernel
  · rw [← bytes]
    exact binary "../build/o" rfl

end CommandLine

end ShaderAssembler

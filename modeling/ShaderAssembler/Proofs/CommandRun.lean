import ShaderAssembler.CommandLine.Session
import ShaderAssembler.Proofs.TextBytes

/-! Runs of the command on files in memory, part by part: what has to be there before a line is
assembled, and what a write does that succeeds or fails. -/

namespace ShaderAssembler

namespace CommandLine

namespace Options

theorem finish_eq_run_iff (options result : Options) :
    options.finish = .run result ↔
      options = result ∧ (result.input.isSome = true ∨ result.dumpTables = true) := by
  unfold finish
  split
  · rename_i enough
    simp only [Invocation.run.injEq]
    constructor
    · rintro rfl
      exact ⟨rfl, by simpa using enough⟩
    · exact And.left
  · rename_i lacking
    simp only [reduceCtorEq, false_iff, not_and]
    rintro rfl
    simpa using lacking

theorem setFlag_ne_run (options : Options) (flag : Flag) (result : Options) :
    options.setFlag flag ≠ .inr (.run result) := by
  cases flag with
  | stopOnError => rw [setFlag]; split <;> simp
  | lenient => rw [setFlag]; split <;> simp
  | dumpTables => rw [setFlag]; split <;> simp
  | version => simp [setFlag]
  | help => simp [setFlag]

theorem input_of_readInputs {options result : Options} {arguments : List String}
    (parsed : options.readInputs arguments = .run result) :
    result.input.isSome = true ∨ result.dumpTables = true := by
  induction arguments generalizing options with
  | nil => exact ((finish_eq_run_iff _ _).mp parsed).2
  | cons argument rest ih =>
      rw [readInputs] at parsed
      split at parsed
      · exact ih parsed
      · cases parsed

theorem input_of_read {options result : Options} {arguments : List String}
    (parsed : options.read arguments = .run result) :
    result.input.isSome = true ∨ result.dumpTables = true := by
  fun_induction Options.read options arguments
  case case1 => exact ((finish_eq_run_iff _ _).mp parsed).2
  case case2 => exact input_of_readInputs parsed
  case case3 ih | case9 ih | case11 ih | case14 ih => exact ih parsed
  case case10 options _ _ _ flag _ invocation ended _ =>
    rw [parsed] at ended
    exact absurd ended (setFlag_ne_run options flag result)
  all_goals cases parsed

def loadTables (options : Options) (disk : Disk) : Except TableError Tables :=
  match options.tables with
  | none => .ok .southernIslands
  | some path => (Tables.ofFile path (disk.read path)).value

def listingTarget (options : Options) : Target :=
  options.out.elim (.stream .stdout) .file

def outputs (options : Options) : List Target :=
  options.listingTarget :: (options.bin.map Target.file).toList

end Options

theorem Invocation.exists_input {arguments : List String} {options : Options}
    (parsed : ofArguments arguments = .run options) (noDump : options.dumpTables = false) :
    ∃ path, options.input = some path := by
  rcases Options.input_of_read parsed with given | dumped
  · exact Option.isSome_iff_exists.mp given
  · rw [noDump] at dumped
    cases dumped

namespace Disk

def readText (disk : Disk) (path : String) : Except FileFault Text :=
  (disk.read path).bind Text.ofBytes

theorem readText_of_read {disk : Disk} {path : String} {text : Text}
    (holds : disk.read path = .ok text.toBytes) : disk.readText path = .ok text := by
  rw [readText, holds]
  exact Text.ofBytes_toBytes text

/-- Why an output that comes behind `count` others fails, if it does. -/
def refusal? (disk : Disk) (count : Nat) : Target → Option FileFault
  | .stream stream => disk.fault count (.stream stream)
  | .file path =>
      (disk.fault count (.file path)).or
        (match disk.locate path with
          | .error fault => some fault
          | .ok _ => none)

def deliver (disk : Disk) (contents : Bytes) : Target → Disk
  | .stream _ => disk
  | .file path =>
      match disk.locate path with
      | .error _ => disk
      | .ok name => disk.put name contents

theorem write_of_refused {disk : Disk} {count : Nat} {path : String} {fault : FileFault}
    (refused : disk.refusal? count (.file path) = some fault) (contents : Bytes) :
    disk.write count path contents = (disk, .error fault) := by
  rw [refusal?, Option.or_eq_some_iff] at refused
  rw [write]
  rcases refused with failing | ⟨sound, lost⟩
  · rw [failing]
  · cases located : disk.locate path <;> simp_all

theorem write_of_accepted {disk : Disk} {count : Nat} {path : String}
    (accepted : disk.refusal? count (.file path) = none) (contents : Bytes) :
    disk.write count path contents = (disk.deliver contents (.file path), .ok ()) := by
  rw [refusal?, Option.or_eq_none_iff] at accepted
  obtain ⟨sound, found⟩ := accepted
  rw [write, deliver, sound]
  cases located : disk.locate path <;> simp_all

section Deliver

variable (disk : Disk) (contents : Bytes) (target : Target)

theorem locate_deliver : (disk.deliver contents target).locate = disk.locate := by
  cases target with
  | stream stream => rfl
  | file path =>
      rw [deliver]
      split <;> rfl

theorem fault_deliver : (disk.deliver contents target).fault = disk.fault := by
  cases target with
  | stream stream => rfl
  | file path =>
      rw [deliver]
      split <;> rfl

theorem refusal?_deliver (count : Nat) (other : Target) :
    (disk.deliver contents target).refusal? count other = disk.refusal? count other := by
  cases other <;> rw [refusal?, refusal?, fault_deliver]
  rw [locate_deliver]

theorem files_deliver {name : String}
    (other : ∀ path, target = .file path → disk.locate path ≠ .ok name) :
    (disk.deliver contents target).files name = disk.files name := by
  cases target with
  | stream stream => rfl
  | file path =>
      rw [deliver]
      split
      · rfl
      · rename_i file located
        have different : name ≠ file := by
          rintro rfl
          exact other path rfl located
        simp [put, different]

theorem read_deliver_other {path : String}
    (other : ∀ output, target = .file output → disk.locate output ≠ disk.locate path) :
    (disk.deliver contents target).read path = disk.read path := by
  rw [read, read, locate_deliver]
  cases located : disk.locate path with
  | error fault => rfl
  | ok name =>
      apply files_deliver
      intro output named
      rw [← located]
      exact other output named

variable {disk}

theorem read_deliver {count : Nat} {path : String}
    (accepted : disk.refusal? count (.file path) = none) :
    (disk.deliver contents (.file path)).read path = .ok contents := by
  rw [read, locate_deliver, deliver]
  cases located : disk.locate path with
  | error fault => simp [refusal?, located] at accepted
  | ok name => simp [put, Except.bind]

end Deliver

end Disk

def Failure.outcome (failure : Failure) (disk : Disk) (count : Nat) : Outcome where
  status := 1
  stdout := ""
  stderr := if disk.fault count (.stream .stderr) = none then failure.report else ""
  disk := disk

theorem run_fail (failure : Failure) (disk : Disk) (count : Nat) :
    (fail failure).run disk count = failure.outcome disk count := by
  rw [fail, Script.run, Failure.outcome]
  cases disk.fault count (.stream .stderr) <;> simp [Script.run, Outcome.prepend]

theorem run_withTables (options : Options) (next : Tables → Script) (disk : Disk) (count : Nat) :
    (withTables options next).run disk count =
      match options.loadTables disk with
      | .error cause => Failure.outcome (.tables cause) disk count
      | .ok tables => (next tables).run disk count := by
  rw [withTables, Options.loadTables]
  cases options.tables with
  | none => rfl
  | some path =>
      simp only [Script.run]
      cases (Tables.ofFile path (disk.read path)).value with
      | error cause => exact run_fail (.tables cause) disk count
      | ok tables => rfl

theorem run_withSource (path : String) (next : Text → Script) (disk : Disk) (count : Nat) :
    (withSource path next).run disk count =
      match disk.readText path with
      | .error fault => Failure.outcome (.reading path fault) disk count
      | .ok text => (next text).run disk count := by
  rw [withSource, Script.run, Disk.readText]
  cases (disk.read path).bind Text.ofBytes with
  | error fault => exact run_fail (.reading path fault) disk count
  | ok text => rfl

section Writing

variable {disk : Disk} {count : Nat} {path : String} (contents : Bytes) (next : Script)

theorem run_writing_of_accepted (accepted : disk.refusal? count (.file path) = none) :
    (writing path contents next).run disk count =
      next.run (disk.deliver contents (.file path)) (count + 1) := by
  rw [writing, Script.run, Disk.write_of_accepted accepted]

theorem run_writing_of_refused {fault : FileFault}
    (refused : disk.refusal? count (.file path) = some fault) :
    (writing path contents next).run disk count =
      Failure.outcome (.writing path fault) disk (count + 1) := by
  rw [writing, Script.run, Disk.write_of_refused refused]
  exact run_fail (.writing path fault) disk (count + 1)

end Writing

/-- The command gets as far as assembling the text of its input. -/
structure Options.Assembles (options : Options) (disk : Disk) (tables : Tables) (path : String)
    (text : Text) : Prop where
  noDump : options.dumpTables = false
  loaded : options.loadTables disk = .ok tables
  input : options.input = some path
  source : disk.readText path = .ok text

namespace Options

def reports (options : Options) (tables : Tables) (text : Text) : List LineReport :=
  ((assembler options tables).assembleSource text).value

def finishing (options : Options) (path : String) (reports : List LineReport) : Script :=
  emitListing options reports (emitBinary options reports (summarize path reports))

def printed (options : Options) (reports : List LineReport) : String :=
  if options.out.isSome then "" else String.ofList (listing options reports)

def unlisted (options : Options) : FileFault → Failure :=
  options.out.elim .printing .writing

end Options

theorem execute_of_run {arguments : List String} {options : Options}
    (parsed : Invocation.ofArguments arguments = .run options) (disk : Disk) :
    execute arguments disk = options.script.run disk 0 := by
  rw [execute, parsed, Invocation.script]

theorem run_script_of_assembles {options : Options} {disk : Disk} {tables : Tables} {path : String}
    {text : Text} (assembles : options.Assembles disk tables path text) :
    options.script.run disk 0 =
      (options.finishing path (options.reports tables text)).run disk 0 := by
  rw [Options.script, run_withTables, assembles.loaded]
  simp only [assembles.noDump, assembles.input, Bool.false_eq_true, if_false]
  rw [run_withSource, assembles.source]
  rfl

section Finishing

variable {options : Options} {disk : Disk} {count : Nat} (reports : List LineReport) (next : Script)

theorem run_emitListing_of_accepted (accepted : disk.refusal? count options.listingTarget = none) :
    (emitListing options reports next).run disk count =
      (next.run (disk.deliver (listing options reports).toBytes options.listingTarget)
        (count + 1)).prepend (options.printed reports) .stdout := by
  rw [Options.listingTarget] at accepted ⊢
  rw [emitListing, Options.printed]
  cases asked : options.out with
  | none =>
      rw [asked, Option.elim_none, Disk.refusal?] at accepted
      simp only [Script.run, accepted, Option.elim_none, Disk.deliver]
      rfl
  | some out =>
      rw [asked, Option.elim_some] at accepted
      simp [run_writing_of_accepted _ _ accepted, Outcome.prepend]

theorem run_emitListing_of_refused {fault : FileFault}
    (refused : disk.refusal? count options.listingTarget = some fault) :
    (emitListing options reports next).run disk count =
      (options.unlisted fault).outcome disk (count + 1) := by
  rw [Options.listingTarget] at refused
  rw [emitListing, Options.unlisted]
  cases asked : options.out with
  | none =>
      rw [asked, Option.elim_none, Disk.refusal?] at refused
      simp only [Script.run, refused]
      exact run_fail (.printing fault) disk (count + 1)
  | some out =>
      rw [asked, Option.elim_some] at refused
      exact run_writing_of_refused _ _ refused

theorem run_emitBinary_of_accepted {bin : String} (asked : options.bin = some bin)
    (accepted : disk.refusal? count (.file bin) = none) :
    (emitBinary options reports next).run disk count =
      next.run (disk.deliver (Listing.binary reports) (.file bin)) (count + 1) := by
  rw [emitBinary, asked]
  exact run_writing_of_accepted _ next accepted

theorem run_emitBinary_of_refused {bin : String} (asked : options.bin = some bin)
    {fault : FileFault} (refused : disk.refusal? count (.file bin) = some fault) :
    (emitBinary options reports next).run disk count =
      Failure.outcome (.writing bin fault) disk (count + 1) := by
  rw [emitBinary, asked]
  exact run_writing_of_refused _ next refused

theorem run_emitBinary_none (noFile : options.bin = none) :
    (emitBinary options reports next).run disk count = next.run disk count := by
  rw [emitBinary, noFile]

end Finishing

namespace Options

variable {options : Options} {disk : Disk} (reports : List LineReport)

def listed (options : Options) (disk : Disk) (reports : List LineReport) : Disk :=
  disk.deliver (listing options reports).toBytes options.listingTarget

def delivered (options : Options) (disk : Disk) (reports : List LineReport) : Disk :=
  options.bin.elim (options.listed disk reports) fun bin =>
    (options.listed disk reports).deliver (Listing.binary reports) (.file bin)

theorem fault_delivered : (options.delivered disk reports).fault = disk.fault := by
  rw [delivered]
  cases options.bin <;> simp [listed, Disk.fault_deliver]

theorem read_listed {count : Nat} {out : String} (asked : options.out = some out)
    (accepted : disk.refusal? count options.listingTarget = none) :
    (options.listed disk reports).read out = .ok (listing options reports).toBytes := by
  have target : options.listingTarget = .file out := by simp [listingTarget, asked]
  rw [target] at accepted
  rw [listed, target]
  exact Disk.read_deliver _ accepted

theorem read_delivered_bin {count : Nat} {bin : String} (asked : options.bin = some bin)
    (accepted : disk.refusal? count (.file bin) = none) :
    (options.delivered disk reports).read bin = .ok (Listing.binary reports) := by
  have later : (options.listed disk reports).refusal? count (.file bin) = none := by
    rw [listed, Disk.refusal?_deliver, accepted]
  rw [delivered, asked, Option.elim_some]
  exact Disk.read_deliver _ later

/-- The binary is written last, so the listing is kept unless both go to one file. -/
theorem read_delivered_out {count : Nat} {out : String} (asked : options.out = some out)
    (accepted : disk.refusal? count options.listingTarget = none)
    (apart : ∀ bin, options.bin = some bin → disk.locate bin ≠ disk.locate out) :
    (options.delivered disk reports).read out = .ok (listing options reports).toBytes := by
  rw [← read_listed reports asked accepted, delivered]
  cases given : options.bin with
  | none => rfl
  | some bin =>
      rw [Option.elim_some]
      apply Disk.read_deliver_other
      rintro _ ⟨⟩
      rw [listed, Disk.locate_deliver]
      exact apart bin given

theorem bin_accepted
    (accepted : ∀ index target, options.outputs[index]? = some target →
      disk.refusal? index target = none) {bin : String} (asked : options.bin = some bin) :
    disk.refusal? 1 (.file bin) = none :=
  accepted 1 _ (by simp [outputs, asked])

/-- If every output succeeds at its turn, then the listing and the binary are in place before the
first failed line is reported. -/
theorem run_finishing
    (accepted : ∀ index target, options.outputs[index]? = some target →
      disk.refusal? index target = none) (path : String) :
    (options.finishing path reports).run disk 0 =
      ((summarize path reports).run (options.delivered disk reports)
        options.outputs.length).prepend (options.printed reports) .stdout := by
  have listingAccepted : disk.refusal? 0 options.listingTarget = none := accepted 0 _ rfl
  rw [finishing, run_emitListing_of_accepted reports _ listingAccepted, delivered, listed, outputs]
  cases asked : options.bin with
  | none =>
      rw [run_emitBinary_none reports _ asked]
      rfl
  | some bin =>
      have binAccepted := bin_accepted accepted asked
      rw [run_emitBinary_of_accepted reports _ asked (by rw [Disk.refusal?_deliver, binAccepted])]
      rfl

theorem run_finishing_of_bin_refused (accepted : disk.refusal? 0 options.listingTarget = none)
    {bin : String} (asked : options.bin = some bin) {fault : FileFault}
    (refused : disk.refusal? 1 (.file bin) = some fault) (path : String) :
    (options.finishing path reports).run disk 0 =
      (Failure.outcome (.writing bin fault) (options.listed disk reports) 2).prepend
        (options.printed reports) .stdout := by
  rw [finishing, run_emitListing_of_accepted reports _ accepted, listed,
    run_emitBinary_of_refused reports _ asked (by rw [Disk.refusal?_deliver, refused])]

theorem accepted_or_bin_refused (accepted : disk.refusal? 0 options.listingTarget = none) :
    (∀ index target, options.outputs[index]? = some target → disk.refusal? index target = none) ∨
      ∃ bin fault, options.bin = some bin ∧ disk.refusal? 1 (.file bin) = some fault := by
  rw [outputs]
  cases asked : options.bin with
  | none =>
      left
      rintro (_ | index) target ⟨⟩
      exact accepted
  | some bin =>
      cases refused : disk.refusal? 1 (.file bin) with
      | some fault => exact Or.inr ⟨bin, fault, rfl, refused⟩
      | none =>
          left
          rintro (_ | _ | index) target ⟨⟩
          · exact accepted
          · exact refused

end Options

end CommandLine

end ShaderAssembler

import ShaderAssembler.CommandLine.Options
import ShaderAssembler.CommandLine.Script
import ShaderAssembler.Listing
import ShaderAssembler.Tables.Document

/-! The command itself: it loads the tables, assembles the input, writes the listing and the
binary, and then reports the lines that failed. -/

namespace ShaderAssembler

namespace CommandLine

inductive Failure where
  | tables (cause : TableError)
  | reading (path : String) (fault : FileFault)
  | writing (path : String) (fault : FileFault)
  | printing (fault : FileFault)
  deriving DecidableEq, Repr

namespace Failure

def withCause (message : String) (cause : FileFault) : String :=
  s!"Error: {message}\n\nCaused by:\n    {cause.message}\n"

/-- The report of a failure. That of a malformed table file breaks off behind its first
words. -/
def report : Failure → String
  | tables (.unreadable path fault) => withCause (TableError.unreadable path fault).message fault
  | tables .malformed => s!"Error: {TableError.malformed.message}"
  | tables cause => s!"Error: {cause.message}\n"
  | reading path fault => withCause s!"reading {path}" fault
  | writing path fault => withCause s!"writing {path}" fault
  | printing fault => s!"Error: {fault.message}\n"

end Failure

def fail (failure : Failure) : Script :=
  .print .stderr failure.report fun _ => .exit 1

def withTables (options : Options) (next : Tables → Script) : Script :=
  match options.tables with
  | none => next .southernIslands
  | some path => .read path fun contents =>
      match (Tables.ofFile path contents).value with
      | .error cause => fail (.tables cause)
      | .ok tables => next tables

def withSource (path : String) (next : Text → Script) : Script :=
  .read path fun contents =>
    match contents.bind Text.ofBytes with
    | .error fault => fail (.reading path fault)
    | .ok text => next text

def writing (path : String) (contents : Bytes) (next : Script) : Script :=
  .write path contents fun
    | .error fault => fail (.writing path fault)
    | .ok () => next

/-- Prints a text whose print must not fail. If it does, the command breaks off. -/
def say (stream : Stream) (text : String) (next : Script) : Script :=
  .print stream text fun
    | .error _ => .exit 101
    | .ok () => next

def errorLine (path : String) (report : LineReport) : Option String :=
  report.error?.map fun cause => s!"{path}:{report.line}: error: {cause.message}\n"

def summarize (path : String) (reports : List LineReport) : Script :=
  match reports.filterMap (errorLine path) with
  | [] => .exit 0
  | errors =>
      let total := s!"{errors.length} line(s) failed\n"
      errors.foldr (say .stderr) (say .stderr total (.exit 1))

def listing (options : Options) (reports : List LineReport) : Text :=
  match options.format with
  | some .json => Listing.json reports ++ ['\n']
  | _ => Listing.text reports

def emitListing (options : Options) (reports : List LineReport) (next : Script) : Script :=
  match options.out with
  | some path => writing path (listing options reports).toBytes next
  | none => .print .stdout (String.ofList (listing options reports)) fun
      | .error fault => fail (.printing fault)
      | .ok () => next

def emitBinary (options : Options) (reports : List LineReport) (next : Script) : Script :=
  match options.bin with
  | some path => writing path (Listing.binary reports) next
  | none => next

def assembler (options : Options) (tables : Tables) : Assembler where
  tables := tables
  config := { stopOnError := options.stopOnError, strictOperands := !options.lenient }

def Options.script (options : Options) : Script :=
  withTables options fun tables =>
    if options.dumpTables then say .stdout (String.ofList tables.dump ++ "\n") (.exit 0)
    else
      match options.input with
      | none => .exit 0
      | some path => withSource path fun text =>
          let reports := ((assembler options tables).assembleSource text).value
          emitListing options reports (emitBinary options reports (summarize path reports))

def versionLine : String := "gcn-asm 0.1.0\n"

def Invocation.script : Invocation → Script
  | run options => options.script
  | version => .print .stdout versionLine fun _ => .exit 0
  | help => .exit 0
  | misuse => .exit 2

def execute (arguments : List String) (disk : Disk) : Outcome :=
  (Invocation.ofArguments arguments).script.run disk 0

end CommandLine

end ShaderAssembler

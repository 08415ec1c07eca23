import ShaderAssembler.File

/-! What a command does to the world, step by step, and its run on files in memory. -/

namespace ShaderAssembler

namespace CommandLine

inductive Stream where
  | stdout
  | stderr
  deriving DecidableEq, Repr

inductive Target where
  | stream (stream : Stream)
  | file (path : String)
  deriving DecidableEq, Repr

inductive Script where
  | exit (status : UInt32)
  | print (stream : Stream) (text : String) (next : Except FileFault Unit → Script)
  | read (path : String) (next : Except FileFault Bytes → Script)
  | write (path : String) (contents : Bytes) (next : Except FileFault Unit → Script)

/-- Files in memory. A path leads to the file with the name that `locate` gives, so several paths
can lead to one file, and some to none. Some of the outputs to come are bound to fail:
`fault count target` says why, if that is so for one that comes behind `count` others. -/
structure Disk where
  locate : String → Except FileFault String
  files : String → Except FileFault Bytes
  fault : Nat → Target → Option FileFault

namespace Disk

def read (disk : Disk) (path : String) : Except FileFault Bytes :=
  (disk.locate path).bind disk.files

def put (disk : Disk) (name : String) (contents : Bytes) : Disk :=
  { disk with files := fun other => if other = name then .ok contents else disk.files other }

def write (disk : Disk) (count : Nat) (path : String) (contents : Bytes) :
    Disk × Except FileFault Unit :=
  match disk.fault count (.file path), disk.locate path with
  | some fault, _ => (disk, .error fault)
  | none, .error fault => (disk, .error fault)
  | none, .ok name => (disk.put name contents, .ok ())

/-- Drops the parts in front of a path that only name the working directory. Behind such a part,
further slashes say nothing. -/
def dropHere (behindHere : Bool) : Text → Text
  | '.' :: '/' :: rest => dropHere true rest
  | '/' :: rest => if behindHere then dropHere true rest else '/' :: rest
  | path => path

def fileName? (path : String) : Option String :=
  let name := dropHere false path.toList
  if name ∈ ([[], ['.'], ['.', '.']] : List Text) ∨ '/' ∈ name then none
  else some (String.ofList name)

def ofFiles (files : List (String × Bytes)) : Disk where
  locate path := (fileName? path).elim (.error .notFound) .ok
  files name := (files.lookup name).elim (.error .notFound) .ok
  fault _ _ := none

end Disk

structure Outcome where
  status : UInt32
  stdout : String
  stderr : String
  disk : Disk

def Outcome.prepend (outcome : Outcome) (text : String) : Stream → Outcome
  | .stdout => { outcome with stdout := text ++ outcome.stdout }
  | .stderr => { outcome with stderr := text ++ outcome.stderr }

/-- Runs a script on files in memory, behind `count` outputs. A print that fails leaves nothing on
its stream. -/
def Script.run (disk : Disk) (count : Nat) : Script → Outcome
  | exit status => { status, stdout := "", stderr := "", disk }
  | print stream text next =>
      match disk.fault count (.stream stream) with
      | some fault => (next (.error fault)).run disk (count + 1)
      | none => ((next (.ok ())).run disk (count + 1)).prepend text stream
  | read path next => (next (disk.read path)).run disk count
  | write path contents next =>
      let (written, result) := disk.write count path contents
      (next result).run written (count + 1)

end CommandLine

end ShaderAssembler

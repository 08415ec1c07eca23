import ShaderAssembler.Assembler.Basic

/-! Assembling a whole source text, line by line. -/

namespace ShaderAssembler

/-- The outcome of a line that held an instruction. Lines are counted from one. -/
structure LineReport where
  line : Nat
  result : Except LineError Assembled

namespace LineReport

def assembled? (report : LineReport) : Option Assembled :=
  match report.result with
  | .ok assembled => some assembled
  | .error _ => none

def error? (report : LineReport) : Option LineError :=
  match report.result with
  | .ok _ => none
  | .error cause => some cause

def isFatal (report : LineReport) : Bool :=
  match report.result with
  | .ok _ => false
  | .error cause => !cause.recoverable

def events (report : LineReport) : List LogEvent :=
  match report.result with
  | .ok _ => []
  | .error cause =>
      if cause.recoverable then [.lineSkipped report.line cause.message]
      else [.lineFailed report.line cause.message]

end LineReport

namespace Assembler

def assembleLines (assembler : Assembler) (line : Nat) : List Text → Logged (List LineReport)
  | [] => pure []
  | text :: rest => do
      match ← assembler.assembleLine text with
      | none => assembler.assembleLines (line + 1) rest
      | some result =>
          let report : LineReport := { line, result }
          Logged.emit report.events
          if assembler.config.stopOnError && report.isFatal then return [report]
          else (report :: ·) <$> assembler.assembleLines (line + 1) rest

def assembleSource (assembler : Assembler) (text : Text) : Logged (List LineReport) :=
  assembler.assembleLines 1 text.lines

end Assembler

end ShaderAssembler

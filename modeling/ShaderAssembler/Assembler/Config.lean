import ShaderAssembler.Json.Parser
import ShaderAssembler.Json.Record

/-! Settings of an assembler. -/

namespace ShaderAssembler

structure AssemblerConfig where
  stopOnError : Bool := false
  strictOperands : Bool := true
  deriving DecidableEq, Repr

namespace AssemblerConfig

def ofJson? (json : Json) : Option AssemblerConfig := do
  let record ← json.record? ["stop_on_error", "strict_operands"]
  let stopOnError ← Json.required? record "stop_on_error" Json.bool?
  let strictOperands ← Json.required? record "strict_operands" Json.bool?
  return { stopOnError, strictOperands }

def parse? (document : Text) : Option AssemblerConfig :=
  (Json.parse? document).bind ofJson?

end AssemblerConfig

end ShaderAssembler

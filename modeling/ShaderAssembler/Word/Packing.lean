import ShaderAssembler.Encoder.Error
import ShaderAssembler.Word.MachineCode

/-! An instruction word in the making. Codes are added to its bit fields one at a time, and at
most one literal is attached. Each attempt gives what is there after it and what went wrong with
it. -/

namespace ShaderAssembler

structure Packing where
  word : UInt32
  literal : Option UInt32
  deriving DecidableEq, Repr

namespace Packing

def start (word : UInt32) : Packing :=
  { word, literal := none }

def merge (packing : Packing) (field : BitField) (code : UInt32) : Packing × Option EncodeError :=
  if inWord : field.inWord then
    if code > field.max (BitField.width_lt_of_inWord inWord) then
      (packing, some (.codeTooLarge field code))
    else ({ packing with word := packing.word ||| (code <<< field.lsb.toUInt32) }, none)
  else (packing, some (.fieldOutsideWord field))

def setLiteral (packing : Packing) (value : UInt32) : Packing × Option EncodeError :=
  match packing.literal with
  | some _ => (packing, some .duplicateLiteral)
  | none => ({ packing with literal := some value }, none)

/-- What follows an attempt goes on with what the attempt has left, unless it failed. -/
def proceed : Packing × Option EncodeError → Except EncodeError Packing
  | (packing, none) => .ok packing
  | (_, some cause) => .error cause

def finish (packing : Packing) : MachineCode :=
  { word := packing.word, literal := packing.literal }

inductive Step where
  | merge (field : BitField) (code : UInt32)
  | setLiteral (value : UInt32)
  deriving DecidableEq, Repr

def step (packing : Packing) : Step → Packing × Option EncodeError
  | .merge field code => packing.merge field code
  | .setLiteral value => packing.setLiteral value

def trace (packing : Packing) : List Step → List (Packing × Option EncodeError)
  | [] => []
  | next :: rest => packing.step next :: trace (packing.step next).1 rest

def run (packing : Packing) (steps : List Step) : Packing :=
  steps.foldl (fun current next => (current.step next).1) packing

end Packing

end ShaderAssembler

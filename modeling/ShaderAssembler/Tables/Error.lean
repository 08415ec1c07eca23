import ShaderAssembler.File

/-! What can be wrong with tables, or with the file that they come from. -/

namespace ShaderAssembler

inductive TableError where
  | unreadable (path : String) (fault : FileFault)
  | malformed
  | duplicateMnemonic (mnemonic : Text)
  | codeRange (name : String) (value limit : Nat)
  deriving DecidableEq, Repr

def TableError.message : TableError → String
  | unreadable path fault => s!"reading tables from {path}: {fault.message}"
  | malformed => "malformed table file"
  | duplicateMnemonic mnemonic => s!"duplicate mnemonic '{String.ofList mnemonic}'"
  | codeRange name value limit =>
      s!"operand code {name} reaches {value}, above the {limit} its field can hold"

end ShaderAssembler

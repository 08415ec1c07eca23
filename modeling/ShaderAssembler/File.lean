import ShaderAssembler.Text.Basic

/-! Contents of files, and what can go wrong with them. -/

namespace ShaderAssembler

abbrev Bytes := List UInt8

inductive FileFault where
  | notFound
  | notText
  | other (reason : String)
  deriving DecidableEq, Repr

def FileFault.message : FileFault → String
  | notFound => "No such file or directory (os error 2)"
  | notText => "stream did not contain valid UTF-8"
  | other reason => reason

namespace Text

def toBytes (text : Text) : Bytes :=
  (String.ofList text).toUTF8.toList

def ofBytes (bytes : Bytes) : Except FileFault Text :=
  match String.fromUTF8? ⟨bytes.toArray⟩ with
  | some text => .ok text.toList
  | none => .error .notText

end Text

end ShaderAssembler

import ShaderAssembler.CommandLine.Session

/-! The command line program. -/

namespace ShaderAssembler

def FileFault.ofError : IO.Error → FileFault
  | .noFileOrDirectory .. => .notFound
  | fault => .other (toString fault)

namespace CommandLine

def Stream.handle : Stream → IO IO.FS.Stream
  | stdout => IO.getStdout
  | stderr => IO.getStderr

def attempt {α : Type} (action : IO α) : IO (Except FileFault α) :=
  try
    return .ok (← action)
  catch fault =>
    return .error (FileFault.ofError fault)

def Script.perform : Script → IO UInt32
  | exit status => return status
  | print stream text next => do
      let handle ← stream.handle
      let result ← attempt do
        handle.putStr text
        handle.flush
      (next result).perform
  | read path next => do
      let contents ← attempt (IO.FS.readBinFile path)
      (next (contents.map ByteArray.toList)).perform
  | write path contents next => do
      let result ← attempt (IO.FS.writeBinFile path ⟨contents.toArray⟩)
      (next result).perform

end CommandLine

end ShaderAssembler

def main (arguments : List String) : IO UInt32 :=
  (ShaderAssembler.CommandLine.Invocation.ofArguments arguments).script.perform

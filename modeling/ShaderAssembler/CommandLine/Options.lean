import ShaderAssembler.Text.Basic

/-! Arguments of the command line. They are read from left to right, and the first one that asks
for the version or for help ends the reading, as does the first one that is wrong. -/

namespace ShaderAssembler

namespace CommandLine

inductive ListingFormat where
  | text
  | json
  deriving DecidableEq, Repr

structure Options where
  input : Option String := none
  tables : Option String := none
  format : Option ListingFormat := none
  out : Option String := none
  bin : Option String := none
  stopOnError : Bool := false
  lenient : Bool := false
  dumpTables : Bool := false
  deriving DecidableEq, Repr

inductive Invocation where
  | run (options : Options)
  | version
  | help
  | misuse
  deriving DecidableEq, Repr

inductive Argument where
  | endOfOptions
  | long (name : Text) (value : Option String)
  | short (letter : Char)
  | plain (text : String)
  deriving DecidableEq, Repr

/-- An argument is an option if something follows its hyphen. A long option ends at the
first equals sign, behind which its value stands; of short options in one argument the
first one decides. -/
def Argument.ofString (argument : String) : Argument :=
  match argument.toList with
  | ['-', '-'] => .endOfOptions
  | '-' :: '-' :: body =>
      match body.dropWhile (· != '=') with
      | [] => .long body none
      | _ :: value => .long (body.takeWhile (· != '=')) (some (String.ofList value))
  | '-' :: letter :: _ => .short letter
  | _ => .plain argument

inductive ValueOption where
  | tables
  | format
  | out
  | bin
  deriving DecidableEq, Repr

inductive Flag where
  | stopOnError
  | lenient
  | dumpTables
  | version
  | help
  deriving DecidableEq, Repr

def valueOptions : List (String × ValueOption) :=
  [("tables", .tables), ("format", .format), ("out", .out), ("bin", .bin)]

def flags : List (String × Flag) :=
  [ ("stop-on-error", .stopOnError), ("lenient", .lenient), ("dump-tables", .dumpTables),
    ("version", .version), ("help", .help) ]

def named? {α : Type} (options : List (String × α)) (name : Text) : Option α :=
  (options.find? fun option => option.1.toList = name).map Prod.snd

def ListingFormat.ofName? (name : String) : Option ListingFormat :=
  if name = "text" then some .text
  else if name = "json" then some .json
  else none

def path? (value : String) : Option String :=
  if value.isEmpty then none else some value

def once? {α : Type} (old : Option α) (new : Option α) : Option (Option α) :=
  match old, new with
  | none, some value => some (some value)
  | _, _ => none

namespace Options

def setValue? (options : Options) : ValueOption → String → Option Options
  | .tables, value => (once? options.tables (path? value)).map ({ options with tables := · })
  | .format, value =>
      (once? options.format (ListingFormat.ofName? value)).map ({ options with format := · })
  | .out, value => (once? options.out (path? value)).map ({ options with out := · })
  | .bin, value => (once? options.bin (path? value)).map ({ options with bin := · })

def setInput? (options : Options) (value : String) : Option Options :=
  (once? options.input (path? value)).map ({ options with input := · })

def finish (options : Options) : Invocation :=
  if options.input.isSome || options.dumpTables then .run options else .misuse

/-- The options with a flag set, unless it has been set before. The version and help flags
end the reading instead. -/
def setFlag (options : Options) : Flag → Options ⊕ Invocation
  | .stopOnError =>
      if options.stopOnError then .inr .misuse else .inl { options with stopOnError := true }
  | .lenient => if options.lenient then .inr .misuse else .inl { options with lenient := true }
  | .dumpTables =>
      if options.dumpTables then .inr .misuse else .inl { options with dumpTables := true }
  | .version => .inr .version
  | .help => .inr .help

def readInputs (options : Options) : List String → Invocation
  | [] => options.finish
  | argument :: rest =>
      match options.setInput? argument with
      | some options => options.readInputs rest
      | none => .misuse

def read (options : Options) : List String → Invocation
  | [] => options.finish
  | argument :: rest =>
      match Argument.ofString argument with
      | .endOfOptions => options.readInputs rest
      | .plain text =>
          match options.setInput? text with
          | some options => options.read rest
          | none => .misuse
      | .short letter =>
          if letter = 'V' then .version else if letter = 'h' then .help else .misuse
      | .long name value =>
          match named? flags name, value with
          | some _, some _ => .misuse
          | some flag, none =>
              match options.setFlag flag with
              | .inl options => options.read rest
              | .inr invocation => invocation
          | none, some value =>
              match (named? valueOptions name).bind (options.setValue? · value) with
              | some options => options.read rest
              | none => .misuse
          | none, none =>
              match rest with
              | [] => .misuse
              | next :: rest =>
                  match Argument.ofString next with
                  | .plain value =>
                      match (named? valueOptions name).bind (options.setValue? · value) with
                      | some options => options.read rest
                      | none => .misuse
                  | _ => .misuse

end Options

def Invocation.ofArguments (arguments : List String) : Invocation :=
  Options.read {} arguments

end CommandLine

end ShaderAssembler

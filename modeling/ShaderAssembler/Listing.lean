import ShaderAssembler.Assembler.Source
import ShaderAssembler.File
import ShaderAssembler.Json.Printer

/-! What is made of the lines that assembled: a text listing, JSON records, or binary. -/

namespace ShaderAssembler

def Assembled.listingLine (assembled : Assembled) : Text :=
  assembled.mnemonic ++ ' ' :: '\t' :: hexWord assembled.code.word ++
    match assembled.code.literal with
    | none => []
    | some value => ' ' :: hexWord value

structure ListingRecord where
  line : Nat
  mnemonic : Text
  word : Text
  literal : Option Text
  deriving DecidableEq, Repr

namespace ListingRecord

def ofAssembled (line : Nat) (assembled : Assembled) : ListingRecord where
  line := line
  mnemonic := assembled.mnemonic
  word := hexWord assembled.code.word
  literal := assembled.code.literal.map hexWord

/-- The record as an object. A literal is a member only if there is one. -/
def toJson (record : ListingRecord) : Json :=
  .ofMembers <|
    [ ("line", .ofNat record.line),
      ("mnemonic", .ofText record.mnemonic),
      ("word", .ofText record.word) ] ++
      (record.literal.map fun value => ("literal", Json.ofText value)).toList

end ListingRecord

namespace Listing

def assembled (reports : List LineReport) : List Assembled :=
  reports.filterMap LineReport.assembled?

def text (reports : List LineReport) : Text :=
  (assembled reports).flatMap fun entry => entry.listingLine ++ ['\n']

def records (reports : List LineReport) : List ListingRecord :=
  reports.filterMap fun report => report.assembled?.map (ListingRecord.ofAssembled report.line)

def json (reports : List LineReport) : Text :=
  (Json.array ((records reports).map ListingRecord.toJson)).pretty

def binary (reports : List LineReport) : Bytes :=
  (assembled reports).flatMap fun entry => entry.code.bytes

end Listing

end ShaderAssembler

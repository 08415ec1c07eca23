import ShaderAssembler.Json.Parser
import ShaderAssembler.Json.Record
import ShaderAssembler.Listing

/-! Reading listings back, from text, from records and from JSON. -/

namespace ShaderAssembler

def readHexWord? : Text → Option (UInt32 × Text)
  | '0' :: 'x' :: rest =>
      if rest.length < 8 then none
      else (readDigits? 16 0 (rest.take 8)).map fun value => (UInt32.ofNat value, rest.drop 8)
  | _ => none

def readLastHexWord? (text : Text) : Option UInt32 := do
  let (word, rest) ← readHexWord? text
  if rest.isEmpty then return word else none

def MachineCode.ofListing? (text : Text) : Option MachineCode := do
  let (word, rest) ← readHexWord? text
  match rest with
  | [] => return { word, literal := none }
  | ' ' :: rest =>
      let value ← readLastHexWord? rest
      return { word, literal := some value }
  | _ => none

def Assembled.ofListingLine? (line : Text) : Option Assembled :=
  match line.dropWhile (· != ' ') with
  | ' ' :: '\t' :: rest =>
      (MachineCode.ofListing? rest).map fun code =>
        { mnemonic := line.takeWhile (· != ' '), code }
  | _ => none

/-- Reads a listing: listing lines, and a line feed behind each. -/
def Listing.read? (listing : Text) : Option (List Assembled) :=
  let pieces := listing.splitOn '\n'
  if pieces.getLast? = some [] then pieces.dropLast.mapM Assembled.ofListingLine? else none

def ListingRecord.read? (record : ListingRecord) : Option (Nat × Assembled) := do
  let word ← readLastHexWord? record.word
  let literal ← record.literal.mapM readLastHexWord?
  return (record.line, { mnemonic := record.mnemonic, code := { word, literal } })

def Json.natural? : Json → Option Nat
  | number value => if value = { whole := value.whole } then some value.whole else none
  | _ => none

def ListingRecord.ofJson? (json : Json) : Option ListingRecord := do
  let record ← json.record? ["line", "mnemonic", "word", "literal"]
  let line ← Json.required? record "line" Json.natural?
  let mnemonic ← Json.required? record "mnemonic" Json.text?
  let word ← Json.required? record "word" Json.text?
  let literal ← Json.optional? record "literal" (fun value => value.text?.map some) none
  return { line, mnemonic, word, literal }

def Listing.readJson? (listing : Text) : Option (List (Nat × Assembled)) := do
  let json ← Json.parse? listing
  let records ← Json.list? ListingRecord.ofJson? json
  records.mapM ListingRecord.read?

end ShaderAssembler

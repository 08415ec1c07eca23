import ShaderAssembler.Json.Value

/-! Records in JSON. A record is an object with known member names, or an array of the values
in the order of these names. -/

namespace ShaderAssembler

namespace Json

abbrev Record := List (String × Json)

/-- The members with a known name. Members with other names are passed over, but every
name has to be a text, and no known one may come twice. -/
def knownMembers? (names : List String) : List (Option Text × Json) → Option Record
  | [] => some []
  | (none, _) :: _ => none
  | (some key, value) :: rest => do
      let record ← knownMembers? names rest
      match names.find? fun name => name.toList = key with
      | none => return record
      | some name =>
          if (record.lookup name).isSome then none else return (name, value) :: record

/-- Reads a record with the given member names. An array may be too short, which leaves
members out, but not too long. -/
def record? (names : List String) : Json → Option Record
  | object members => knownMembers? names members
  | array items => if items.length ≤ names.length then some (names.zip items) else none
  | _ => none

def required? {α : Type} (record : Record) (name : String) (read? : Json → Option α) :
    Option α :=
  (record.lookup name).bind read?

def optional? {α : Type} (record : Record) (name : String) (read? : Json → Option α)
    (missing : α) : Option α :=
  match record.lookup name with
  | none => some missing
  | some value => read? value

def text? : Json → Option Text
  | string text => text
  | _ => none

def bool? : Json → Option Bool
  | bool value => some value
  | _ => none

def word? : Json → Option UInt32
  | number value =>
      if value = { whole := value.whole } ∧ value.whole < UInt32.size then
        some (UInt32.ofNat value.whole)
      else none
  | _ => none

def choice? : Json → Option Text
  | string text => text
  | object [(name, null)] => name
  | _ => none

def list? {α : Type} (read? : Json → Option α) : Json → Option (List α)
  | array items => items.mapM read?
  | _ => none

end Json

end ShaderAssembler

import ShaderAssembler.Json.Value

/-! Reading JSON text. The grammar is strict: nothing but a value may stand in the text, and no
comma may stand in front of a closing bracket. Each reader returns what is left of the text. -/

namespace ShaderAssembler

namespace Json

def isBlank (character : Char) : Bool :=
  character = ' ' ∨ character = '\t' ∨ character = '\n' ∨ character = '\r'

def skipBlank (text : Text) : Text :=
  text.dropWhile isBlank

def expect? (word text : Text) : Option Text :=
  if word.isPrefixOf text then some (text.drop word.length) else none

/-! ### Numbers -/

def digit? (character : Char) : Option (Fin 10) :=
  if bound : '0' ≤ character ∧ character ≤ '9' then
    some ⟨character.toNat - 48, by
      have upper : character.toNat ≤ 57 := bound.2
      omega⟩
  else none

def takeDigits : Text → List (Fin 10) × Text
  | [] => ([], [])
  | first :: rest =>
      match digit? first with
      | some digit => (digit :: (takeDigits rest).1, (takeDigits rest).2)
      | none => ([], first :: rest)

def ofDigits (values : List (Fin 10)) : Nat :=
  values.foldl (fun value digit => value * 10 + digit.val) 0

def readWhole? (text : Text) : Option (Nat × Text) :=
  match takeDigits text with
  | ([], _) => none
  | ([digit], rest) => some (digit.val, rest)
  | (first :: more, rest) => if first = 0 then none else some (ofDigits (first :: more), rest)

def readFraction? : Text → Option (List (Fin 10) × Text)
  | '.' :: text =>
      match takeDigits text with
      | ([], _) => none
      | (first :: more, rest) => some (first :: more, rest)
  | text => some ([], text)

def readSign : Text → Bool × Text
  | '-' :: rest => (true, rest)
  | '+' :: rest => (false, rest)
  | rest => (false, rest)

def readExponentDigits? (text : Text) : Option (Option JsonExponent × Text) :=
  let (negative, unsigned) := readSign text
  match takeDigits unsigned with
  | ([], _) => none
  | (first :: more, rest) => some (some { negative, first, rest := more }, rest)

def readExponent? : Text → Option (Option JsonExponent × Text)
  | 'e' :: text => readExponentDigits? text
  | 'E' :: text => readExponentDigits? text
  | text => some (none, text)

def readUnsigned? (negative : Bool) (text : Text) : Option (JsonNumber × Text) := do
  let (whole, text) ← readWhole? text
  let (fraction, text) ← readFraction? text
  let (exponent, text) ← readExponent? text
  return ({ negative, whole, fraction, exponent }, text)

def readNumber? : Text → Option (JsonNumber × Text)
  | '-' :: text => readUnsigned? true text
  | text => readUnsigned? false text

/-! ### Strings -/

inductive StringPiece where
  | character (value : Char)
  | unit (value : Nat)
  deriving DecidableEq, Repr

def escaped? : Char → Option Char
  | '"' => some '"'
  | '\\' => some '\\'
  | '/' => some '/'
  | 'b' => some '\x08'
  | 'f' => some '\x0c'
  | 'n' => some '\n'
  | 'r' => some '\r'
  | 't' => some '\t'
  | _ => none

def readPieces? : Text → Option (List StringPiece × Text)
  | [] => none
  | '"' :: rest => some ([], rest)
  | '\\' :: 'u' :: a :: b :: c :: d :: rest =>
      match readDigits? 16 0 [a, b, c, d], readPieces? rest with
      | some unit, some (pieces, rest) => some (.unit unit :: pieces, rest)
      | _, _ => none
  | '\\' :: mark :: rest =>
      match escaped? mark, readPieces? rest with
      | some character, some (pieces, rest) => some (.character character :: pieces, rest)
      | _, _ => none
  | character :: rest =>
      if character.toNat < 32 ∨ character = '\\' then none
      else
        match readPieces? rest with
        | some (pieces, rest) => some (.character character :: pieces, rest)
        | none => none

def isHighSurrogate (unit : Nat) : Bool :=
  0xD800 ≤ unit ∧ unit < 0xDC00

def isLowSurrogate (unit : Nat) : Bool :=
  0xDC00 ≤ unit ∧ unit < 0xE000

/-- Joins the pieces of a string into a text. A high surrogate has to be followed by a
low one, and only there may a low one stand. -/
def joinPieces? : List StringPiece → Option Text
  | [] => some []
  | .character first :: rest => (joinPieces? rest).map (first :: ·)
  | .unit high :: .unit low :: rest =>
      if isHighSurrogate high then
        if isLowSurrogate low then
          (joinPieces? rest).map
            (Char.ofNat (0x10000 + (high - 0xD800) * 0x400 + (low - 0xDC00)) :: ·)
        else none
      else if isLowSurrogate high then none
      else (joinPieces? (.unit low :: rest)).map (Char.ofNat high :: ·)
  | .unit unit :: rest =>
      if isHighSurrogate unit ∨ isLowSurrogate unit then none
      else (joinPieces? rest).map (Char.ofNat unit :: ·)

def readString? (text : Text) : Option (Option Text × Text) :=
  (readPieces? text).map fun (pieces, rest) => (joinPieces? pieces, rest)

/-! ### Values -/

mutual

def readValue? : Nat → Text → Option (Json × Text)
  | 0, _ => none
  | fuel + 1, text =>
      match skipBlank text with
      | 'n' :: rest => (expect? "ull".toList rest).map fun rest => (null, rest)
      | 't' :: rest => (expect? "rue".toList rest).map fun rest => (bool true, rest)
      | 'f' :: rest => (expect? "alse".toList rest).map fun rest => (bool false, rest)
      | '"' :: rest => (readString? rest).map fun (text, rest) => (string text, rest)
      | '[' :: rest =>
          match skipBlank rest with
          | ']' :: rest => some (array [], rest)
          | rest => (readItems? fuel rest).map fun (items, rest) => (array items, rest)
      | '\x7b' :: rest =>
          match skipBlank rest with
          | '\x7d' :: rest => some (object [], rest)
          | rest => (readMembers? fuel rest).map fun (members, rest) => (object members, rest)
      | rest => (readNumber? rest).map fun (value, rest) => (number value, rest)

def readItems? : Nat → Text → Option (List Json × Text)
  | 0, _ => none
  | fuel + 1, text => do
      let (item, text) ← readValue? fuel text
      match skipBlank text with
      | ',' :: rest =>
          let (items, rest) ← readItems? fuel rest
          return (item :: items, rest)
      | ']' :: rest => return ([item], rest)
      | _ => none

def readMembers? : Nat → Text → Option (List (Option Text × Json) × Text)
  | 0, _ => none
  | fuel + 1, text => do
      let text ← expect? ['"'] (skipBlank text)
      let (name, text) ← readString? text
      let text ← expect? [':'] (skipBlank text)
      let (value, text) ← readValue? fuel text
      match skipBlank text with
      | ',' :: rest =>
          let (members, rest) ← readMembers? fuel rest
          return ((name, value) :: members, rest)
      | '\x7d' :: rest => return ([(name, value)], rest)
      | _ => none

end

/-- The value that a whole text spells. Each reader that calls another one with less fuel
has read a character before it or reads one right after, so twice the length is
enough. -/
def parse? (text : Text) : Option Json := do
  let (value, rest) ← readValue? (2 * text.length + 2) text
  if (skipBlank rest).isEmpty then return value else none

end Json

end ShaderAssembler

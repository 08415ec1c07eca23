import ShaderAssembler.Json.Value

/-! JSON as text, on one line or indented. -/

namespace ShaderAssembler

structure JsonLayout where
  /-- What stands before each item and before the closing bracket, given the number of
  brackets that are open there. -/
  lineBreak : Nat → Text
  gap : Text

namespace JsonLayout

def compact : JsonLayout where
  lineBreak _ := []
  gap := []

def indented : JsonLayout where
  lineBreak depth := '\n' :: List.replicate (2 * depth) ' '
  gap := [' ']

end JsonLayout

namespace Json

def escape (character : Char) : Text :=
  if character = '"' then ['\\', '"']
  else if character = '\\' then ['\\', '\\']
  else if character = '\x08' then ['\\', 'b']
  else if character = '\x0c' then ['\\', 'f']
  else if character = '\n' then ['\\', 'n']
  else if character = '\r' then ['\\', 'r']
  else if character = '\t' then ['\\', 't']
  else if character.toNat < 32 then '\\' :: 'u' :: hexDigits 4 character.toNat
  else [character]

/-- A quoted string. What is not a text is written as half of a surrogate pair. -/
def quote : Option Text → Text
  | some text => '"' :: text.flatMap escape ++ ['"']
  | none => "\"\\ud800\"".toList

def digits (values : List (Fin 10)) : Text :=
  values.map fun digit => Nat.digitChar digit.val

def sign (negative : Bool) : Text :=
  if negative then ['-'] else []

def renderNumber (number : JsonNumber) : Text :=
  sign number.negative ++ decimal number.whole ++
    (if number.fraction.isEmpty then [] else '.' :: digits number.fraction) ++
    match number.exponent with
    | none => []
    | some exponent => 'e' :: sign exponent.negative ++ digits (exponent.first :: exponent.rest)

mutual

def render (layout : JsonLayout) (depth : Nat) : Json → Text
  | null => "null".toList
  | bool value => if value then "true".toList else "false".toList
  | number value => renderNumber value
  | string text => quote text
  | array [] => "[]".toList
  | array (first :: rest) =>
      '[' :: layout.lineBreak (depth + 1) ++ render layout (depth + 1) first ++
        renderItems layout depth rest
  | object [] => ['\x7b', '\x7d']
  | object ((name, value) :: rest) =>
      '\x7b' :: layout.lineBreak (depth + 1) ++ quote name ++ ':' :: layout.gap ++
        render layout (depth + 1) value ++ renderMembers layout depth rest

def renderItems (layout : JsonLayout) (depth : Nat) : List Json → Text
  | [] => layout.lineBreak depth ++ [']']
  | item :: rest =>
      ',' :: layout.lineBreak (depth + 1) ++ render layout (depth + 1) item ++
        renderItems layout depth rest

def renderMembers (layout : JsonLayout) (depth : Nat) : List (Option Text × Json) → Text
  | [] => layout.lineBreak depth ++ ['\x7d']
  | (name, value) :: rest =>
      ',' :: layout.lineBreak (depth + 1) ++ quote name ++ ':' :: layout.gap ++
        render layout (depth + 1) value ++ renderMembers layout depth rest

end

def compact (value : Json) : Text :=
  value.render .compact 0

def pretty (value : Json) : Text :=
  value.render .indented 0

end Json

end ShaderAssembler

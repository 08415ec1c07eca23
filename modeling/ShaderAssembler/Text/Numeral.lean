import ShaderAssembler.Text.Basic

/-! Numbers as text: signed numerals of a given radix on the way in, decimal and
hexadecimal digits on the way out. -/

namespace ShaderAssembler

def digitValue? (character : Char) : Option Nat :=
  if '0' ≤ character ∧ character ≤ '9' then some (character.toNat - '0'.toNat)
  else if 'a' ≤ character ∧ character ≤ 'f' then some (character.toNat - 'a'.toNat + 10)
  else if 'A' ≤ character ∧ character ≤ 'F' then some (character.toNat - 'A'.toNat + 10)
  else none

def readDigits? (radix : Nat) : Nat → Text → Option Nat
  | value, [] => some value
  | value, first :: rest =>
      match digitValue? first with
      | some digit =>
          if digit < radix then readDigits? radix (value * radix + digit) rest else none
      | none => none

def readNatural? (radix : Nat) (text : Text) : Option Nat :=
  if text.isEmpty then none else readDigits? radix 0 text

def readInteger? (radix : Nat) : Text → Option Int
  | '+' :: digits => (readNatural? radix digits).map Int.ofNat
  | '-' :: digits => (readNatural? radix digits).map fun value => -(value : Int)
  | digits => (readNatural? radix digits).map Int.ofNat

def fitsInt64 (value : Int) : Bool :=
  -0x8000000000000000 ≤ value ∧ value ≤ 0x7FFFFFFFFFFFFFFF

def readInt64? (radix : Nat) (text : Text) : Option Int :=
  (readInteger? radix text).filter fitsInt64

def decimal (value : Nat) : Text :=
  Nat.toDigits 10 value

def hexDigits : Nat → Nat → Text
  | 0, _ => []
  | count + 1, value => hexDigits count (value / 16) ++ [Nat.digitChar (value % 16)]

def hexWord (word : UInt32) : Text :=
  '0' :: 'x' :: hexDigits 8 word.toNat

def hexShort (value : Nat) : Text :=
  '0' :: 'x' :: Nat.toDigits 16 value

end ShaderAssembler

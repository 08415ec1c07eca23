/-! Source text as the characters it holds. Everything that reads text here reads
it from the front, so a list is its natural form. -/

namespace ShaderAssembler

abbrev Text := List Char

namespace Text

def stripComment (text : Text) : Text :=
  text.takeWhile (· != ';')

def dropEnding (ending : Char) (text : Text) : Text :=
  if text.getLast? = some ending then text.dropLast else text

/-- Drops one line feed and then one carriage return from the end. Each is
optional, so a text that ends in a carriage return alone loses it too. -/
def trimLineEnd (text : Text) : Text :=
  dropEnding '\r' (dropEnding '\n' text)

/-- The lines of a text. A line ends at a line feed, together with one carriage
return directly before it; the last line needs no line feed, and then keeps its
carriage return. -/
def lines : Text → List Text
  | [] => []
  | '\n' :: rest => [] :: lines rest
  | '\r' :: '\n' :: rest => [] :: lines rest
  | first :: rest =>
      match lines rest with
      | [] => [[first]]
      | line :: more => (first :: line) :: more

end Text

end ShaderAssembler

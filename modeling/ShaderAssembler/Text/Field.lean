import ShaderAssembler.Text.Basic

/-! Fields of a line: the runs of characters between delimiters. `nextField` takes
any set of delimiters, and `takeField` and `fields` fix the ones of the assembly
language: comma, space and tab. -/

namespace ShaderAssembler

inductive NextField where
  | exhausted
  | found (field rest : Text)
  /-- A delimiter longer than one byte was met. A delimiter is passed over as a
  single byte, so the text cannot be cut behind this one. -/
  | wideDelimiter
  deriving DecidableEq, Repr

namespace Text

def isSingleByte (character : Char) : Bool :=
  character.toNat < 128

/-- The first non-empty field of a text, and what follows the one delimiter that
ends it. -/
def nextField (delimiters : List Char) : Text → NextField
  | [] => .exhausted
  | first :: rest =>
      if first ∈ delimiters then
        if isSingleByte first then nextField delimiters rest else .wideDelimiter
      else
        let field := first :: rest.takeWhile (· ∉ delimiters)
        match rest.dropWhile (· ∉ delimiters) with
        | [] => .found field []
        | delimiter :: tail =>
            if isSingleByte delimiter then .found field tail else .wideDelimiter

def fieldDelimiters : List Char := [',', ' ', '\t']

def takeField (text : Text) : Option (Text × Text) :=
  match nextField fieldDelimiters text with
  | .found field rest => some (field, rest)
  | _ => none

theorem length_dropWhile_le (keep : Char → Bool) (text : Text) :
    (text.dropWhile keep).length ≤ text.length :=
  (List.dropWhile_suffix keep).length_le

theorem nextField_length_lt {delimiters : List Char} {text field rest : Text}
    (taken : nextField delimiters text = .found field rest) : rest.length < text.length := by
  induction text with
  | nil => simp [nextField] at taken
  | cons first tail ih =>
      simp only [nextField] at taken
      split at taken
      · split at taken
        · have shorter := ih taken
          simp only [List.length_cons]
          omega
        · simp at taken
      · have bound := length_dropWhile_le (· ∉ delimiters) tail
        split at taken
        · simp only [NextField.found.injEq] at taken
          simp [← taken.2]
        · rename_i dropped
          rw [dropped] at bound
          split at taken
          · simp only [NextField.found.injEq] at taken
            rw [← taken.2]
            simp only [List.length_cons] at bound ⊢
            omega
          · simp at taken

theorem takeField_length_lt {text field rest : Text}
    (taken : takeField text = some (field, rest)) : rest.length < text.length := by
  unfold takeField at taken
  split at taken
  · rename_i found
    simp only [Option.some.injEq, Prod.mk.injEq] at taken
    rw [← taken.2]
    exact nextField_length_lt found
  · simp at taken

def fields (text : Text) : List Text :=
  match _ : takeField text with
  | none => []
  | some (field, rest) => field :: fields rest
termination_by text.length
decreasing_by exact takeField_length_lt ‹_›

end Text

end ShaderAssembler

import Mathlib.Data.List.TakeWhile
import ShaderAssembler.Text.Field

/-! The fields of a line. A delimiter cuts the list of fields where it cuts the text, so taking
fields one at a time and listing all of them come to the same. -/

namespace ShaderAssembler

namespace Text

/-- A text that no delimiter interrupts. -/
def Solid (text : Text) : Prop :=
  ∀ character ∈ text, character ∉ fieldDelimiters

instance (text : Text) : Decidable text.Solid :=
  inferInstanceAs (Decidable (∀ character ∈ text, character ∉ fieldDelimiters))

theorem isSingleByte_of_delimiter {delimiter : Char} (isDelimiter : delimiter ∈ fieldDelimiters) :
    isSingleByte delimiter = true := by
  simp only [fieldDelimiters, List.mem_cons, List.not_mem_nil, or_false] at isDelimiter
  rcases isDelimiter with rfl | rfl | rfl <;> rfl

theorem delimiter_of_dropWhile {text tail : Text} {delimiter : Char}
    (dropped : text.dropWhile (· ∉ fieldDelimiters) = delimiter :: tail) :
    delimiter ∈ fieldDelimiters := by
  have stopped := List.head?_dropWhile_not (· ∉ fieldDelimiters) text
  simpa only [dropped, List.head?_cons, decide_eq_false_iff_not, not_not] using stopped

theorem takeWhile_append_delimiter {delimiter : Char} (isDelimiter : delimiter ∈ fieldDelimiters)
    (left right : Text) :
    (left ++ delimiter :: right).takeWhile (· ∉ fieldDelimiters) =
      left.takeWhile (· ∉ fieldDelimiters) := by
  induction left with
  | nil => simp [isDelimiter]
  | cons first rest ih =>
      simp only [List.cons_append, List.takeWhile_cons]
      split
      · rw [ih]
      · rfl

theorem dropWhile_append_delimiter {delimiter : Char} (isDelimiter : delimiter ∈ fieldDelimiters)
    (left right : Text) :
    (left ++ delimiter :: right).dropWhile (· ∉ fieldDelimiters) =
      left.dropWhile (· ∉ fieldDelimiters) ++ delimiter :: right := by
  induction left with
  | nil => simp [isDelimiter]
  | cons first rest ih =>
      simp only [List.cons_append, List.dropWhile_cons]
      split
      · exact ih
      · rfl

theorem takeField_nil : takeField [] = none := rfl

theorem takeField_delimiter {delimiter : Char} (isDelimiter : delimiter ∈ fieldDelimiters)
    (rest : Text) : takeField (delimiter :: rest) = takeField rest := by
  simp [takeField, nextField, isDelimiter, isSingleByte_of_delimiter isDelimiter]

theorem takeField_character {first : Char} (inField : first ∉ fieldDelimiters) (rest : Text) :
    takeField (first :: rest) =
      some (first :: rest.takeWhile (· ∉ fieldDelimiters),
        (rest.dropWhile (· ∉ fieldDelimiters)).tail) := by
  simp only [takeField, nextField, inField, if_false]
  cases dropped : rest.dropWhile (· ∉ fieldDelimiters) with
  | nil => simp
  | cons delimiter tail =>
      simp [isSingleByte_of_delimiter (delimiter_of_dropWhile dropped)]

theorem takeField_field {text field rest : Text} (taken : takeField text = some (field, rest)) :
    field ≠ [] ∧ field ⊆ text := by
  induction text with
  | nil => simp [takeField_nil] at taken
  | cons first tail ih =>
      by_cases cut : first ∈ fieldDelimiters
      · rw [takeField_delimiter cut] at taken
        exact ⟨(ih taken).1, List.subset_cons_of_subset first (ih taken).2⟩
      · rw [takeField_character cut, Option.some.injEq, Prod.mk.injEq] at taken
        obtain ⟨rfl, _⟩ := taken
        exact ⟨List.cons_ne_nil _ _,
          List.cons_subset_cons first (List.takeWhile_sublist _).subset⟩

theorem fields_of_takeField {text field rest : Text} (taken : takeField text = some (field, rest)) :
    fields text = field :: fields rest := by
  rw [fields]
  split
  · rename_i none
    simp [none] at taken
  · rename_i some
    rw [some, Option.some.injEq, Prod.mk.injEq] at taken
    rw [taken.1, taken.2]

theorem fields_of_takeField_none {text : Text} (taken : takeField text = none) :
    fields text = [] := by
  rw [fields]
  split
  · rfl
  · rename_i some
    simp [some] at taken

@[simp] theorem fields_nil : fields [] = [] :=
  fields_of_takeField_none takeField_nil

theorem fields_delimiter {delimiter : Char} (isDelimiter : delimiter ∈ fieldDelimiters)
    (rest : Text) : fields (delimiter :: rest) = fields rest := by
  have same := takeField_delimiter isDelimiter rest
  cases taken : takeField rest with
  | none => rw [fields_of_takeField_none taken, fields_of_takeField_none (same.trans taken)]
  | some split =>
      rw [fields_of_takeField taken, fields_of_takeField (same.trans taken)]

theorem fields_character {first : Char} (inField : first ∉ fieldDelimiters) (rest : Text) :
    fields (first :: rest) =
      (first :: rest.takeWhile (· ∉ fieldDelimiters)) ::
        fields (rest.dropWhile (· ∉ fieldDelimiters)) := by
  rw [fields_of_takeField (takeField_character inField rest)]
  cases dropped : rest.dropWhile (· ∉ fieldDelimiters) with
  | nil => simp
  | cons delimiter tail =>
      rw [List.tail_cons, fields_delimiter (delimiter_of_dropWhile dropped)]

theorem fields_eq_cons_iff (text field : Text) (more : List Text) :
    fields text = field :: more ↔
      ∃ rest, takeField text = some (field, rest) ∧ fields rest = more := by
  constructor
  · intro shape
    cases taken : takeField text with
    | none => simp [fields_of_takeField_none taken] at shape
    | some split =>
        rw [fields_of_takeField taken, List.cons.injEq] at shape
        exact ⟨split.2, by rw [← shape.1], shape.2⟩
  · rintro ⟨rest, taken, rfl⟩
    exact fields_of_takeField taken

theorem head?_fields {text field : Text} (first : text.fields.head? = some field) :
    field ≠ [] ∧ field ⊆ text := by
  obtain ⟨more, shape⟩ := List.head?_eq_some_iff.mp first
  obtain ⟨_, taken, _⟩ := (fields_eq_cons_iff text field more).mp shape
  exact takeField_field taken

theorem fields_append_delimiter {delimiter : Char} (isDelimiter : delimiter ∈ fieldDelimiters)
    (left right : Text) : fields (left ++ delimiter :: right) = fields left ++ fields right := by
  -- A field of `left` is dropped as a whole, so the induction is on the length.
  induction length : left.length using Nat.strongRecOn generalizing left with
  | ind length ih =>
      subst length
      cases left with
      | nil => simp [fields_delimiter isDelimiter]
      | cons first rest =>
          by_cases cut : first ∈ fieldDelimiters
          · rw [List.cons_append, fields_delimiter cut, fields_delimiter cut]
            exact ih rest.length (by simp) rest rfl
          · have shorter := length_dropWhile_le (· ∉ fieldDelimiters) rest
            have next := ih (rest.dropWhile (· ∉ fieldDelimiters)).length
              (by simp only [List.length_cons]; omega) _ rfl
            rw [List.cons_append, fields_character cut, fields_character cut,
              takeWhile_append_delimiter isDelimiter, dropWhile_append_delimiter isDelimiter, next,
              List.cons_append]

theorem fields_solid {text : Text} (nonempty : text ≠ []) (solid : text.Solid) :
    fields text = [text] := by
  cases text with
  | nil => exact absurd rfl nonempty
  | cons first rest =>
      have inField : first ∉ fieldDelimiters := solid first (by simp)
      have restSolid : ∀ character ∈ rest, decide (character ∉ fieldDelimiters) = true := by
        intro character member
        simpa using solid character (List.mem_cons_of_mem _ member)
      rw [fields_character inField, List.takeWhile_eq_self_iff.mpr restSolid,
        List.dropWhile_eq_nil_iff.mpr restSolid, fields_nil]

def lineEnds : List Text :=
  [['\n'], ['\r'], ['\r', '\n']]

theorem dropEnding_eq_iff (ending : Char) (text kept : Text) :
    dropEnding ending text = kept ↔
      text = kept ++ [ending] ∨ text = kept ∧ kept.getLast? ≠ some ending := by
  unfold dropEnding
  split
  · rename_i ends
    rw [List.getLast?_eq_some_iff] at ends
    obtain ⟨front, rfl⟩ := ends
    constructor
    · intro same
      rw [List.dropLast_concat] at same
      exact Or.inl (by rw [same])
    · rintro (same | ⟨same, different⟩)
      · rw [same, List.dropLast_concat]
      · exact absurd (by simp [← same]) different
  · rename_i different
    constructor
    · rintro rfl
      exact Or.inr ⟨rfl, different⟩
    · rintro (same | ⟨same, _⟩)
      · exact absurd (by simp [same]) different
      · exact same

theorem dropEnding_subset (ending : Char) (text : Text) : dropEnding ending text ⊆ text := by
  unfold dropEnding
  split
  · exact List.dropLast_subset text
  · exact List.Subset.refl text

theorem trimLineEnd_subset (text : Text) : text.trimLineEnd ⊆ text :=
  fun _ member => dropEnding_subset _ _ (dropEnding_subset _ _ member)

theorem trimLineEnd_eq_nil_iff (text : Text) :
    text.trimLineEnd = [] ↔ text = [] ∨ text ∈ lineEnds := by
  rw [trimLineEnd, dropEnding_eq_iff, dropEnding_eq_iff, dropEnding_eq_iff]
  simp only [lineEnds, List.mem_cons, List.not_mem_nil, or_false]
  constructor
  · rintro ((same | ⟨same, _⟩) | ⟨same | ⟨same, _⟩, _⟩) <;> simp [same]
  · rintro (same | same | same | same) <;> simp [same]

theorem trimLineEnd_eq_self {text : Text}
    (inLine : ∀ character ∈ text, character ≠ '\n' ∧ character ≠ '\r') :
    text.trimLineEnd = text := by
  have lineFeed : text.getLast? ≠ some '\n' := fun last =>
    (inLine _ (List.mem_of_getLast? last)).1 rfl
  have carriageReturn : text.getLast? ≠ some '\r' := fun last =>
    (inLine _ (List.mem_of_getLast? last)).2 rfl
  simp [trimLineEnd, dropEnding, lineFeed, carriageReturn]

theorem stripComment_append {code : Text} (noComment : ';' ∉ code) (rest : Text) :
    (code ++ rest).stripComment = code ++ rest.stripComment := by
  apply List.takeWhile_append_of_pos
  intro character member
  have different : character ≠ ';' := by
    rintro rfl
    exact noComment member
  simpa using different

theorem stripComment_eq_self {text : Text} (noComment : ';' ∉ text) : text.stripComment = text := by
  simpa [stripComment] using stripComment_append noComment []

end Text

end ShaderAssembler

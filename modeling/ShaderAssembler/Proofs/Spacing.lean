import ShaderAssembler.Proofs.LineWords

/-! How the fields of a line can be set apart. Any delimiters may stand before, between and behind
them, and a comment may follow; none of this has a bearing on what the line assembles to. -/

namespace ShaderAssembler

namespace Text

/-- The text holds the fields in order, with at least one delimiter between two of them. -/
inductive Spaced : List Text → Text → Prop
  | nil : Spaced [] []
  | delimiter {delimiter : Char} {fields : List Text} {text : Text} :
      delimiter ∈ fieldDelimiters → Spaced fields text → Spaced fields (delimiter :: text)
  | last {field : Text} : field ≠ [] → field.Solid → Spaced [field] field
  | field {field text : Text} {delimiter : Char} {fields : List Text} :
      field ≠ [] → field.Solid → delimiter ∈ fieldDelimiters → Spaced fields text →
        Spaced (field :: fields) (field ++ delimiter :: text)

theorem Spaced.fields_eq {fields : List Text} {text : Text} (spaced : Spaced fields text) :
    text.fields = fields := by
  induction spaced with
  | nil => exact fields_nil
  | delimiter isDelimiter _ ih => rw [fields_delimiter isDelimiter, ih]
  | last nonempty solid => exact fields_solid nonempty solid
  | field nonempty solid isDelimiter _ ih =>
      rw [fields_append_delimiter isDelimiter, fields_solid nonempty solid, ih,
        List.singleton_append]

theorem solid_takeWhile {first : Char} (inField : first ∉ fieldDelimiters) (rest : Text) :
    Solid (first :: rest.takeWhile (· ∉ fieldDelimiters)) := by
  intro character member
  rcases List.mem_cons.mp member with rfl | later
  · exact inField
  · simpa using List.mem_takeWhile_imp later

theorem spaced_fields (text : Text) : Spaced text.fields text := by
  induction length : text.length using Nat.strongRecOn generalizing text with
  | ind length ih =>
      subst length
      cases text with
      | nil =>
          rw [fields_nil]
          exact .nil
      | cons first rest =>
          by_cases cut : first ∈ fieldDelimiters
          · rw [fields_delimiter cut]
            exact .delimiter cut (ih rest.length (by simp) rest rfl)
          · have solid := solid_takeWhile cut rest
            have whole : first :: rest = (first :: rest.takeWhile (· ∉ fieldDelimiters)) ++
                rest.dropWhile (· ∉ fieldDelimiters) := by
              rw [List.cons_append, List.takeWhile_append_dropWhile]
            have shorter := length_dropWhile_le (· ∉ fieldDelimiters) rest
            rw [fields_character cut]
            cases dropped : rest.dropWhile (· ∉ fieldDelimiters) with
            | nil =>
                rw [dropped, List.append_nil] at whole
                rw [whole, fields_nil]
                exact .last (List.cons_ne_nil _ _) solid
            | cons delimiter tail =>
                have isDelimiter := delimiter_of_dropWhile dropped
                rw [dropped] at whole shorter
                simp only [List.length_cons] at shorter
                rw [whole, fields_delimiter isDelimiter]
                exact .field (List.cons_ne_nil _ _) solid isDelimiter
                  (ih tail.length (by simp only [List.length_cons]; omega) tail rfl)

theorem Spaced.of_mem {fields : List Text} {text : Text} (spaced : Spaced fields text) :
    ∀ field ∈ fields, field ≠ [] ∧ field.Solid ∧ field ⊆ text := by
  induction spaced with
  | nil => simp
  | delimiter _ _ ih =>
      intro field member
      obtain ⟨nonempty, solid, inside⟩ := ih field member
      exact ⟨nonempty, solid, List.subset_cons_of_subset _ inside⟩
  | last nonempty solid =>
      intro field member
      obtain rfl := List.mem_singleton.mp member
      exact ⟨nonempty, solid, List.Subset.refl _⟩
  | field nonempty solid _ _ ih =>
      intro other member
      rcases List.mem_cons.mp member with rfl | later
      · exact ⟨nonempty, solid, List.subset_append_left _ _⟩
      · obtain ⟨otherNonempty, otherSolid, inside⟩ := ih other later
        exact ⟨otherNonempty, otherSolid, List.subset_append_of_subset_right _
          (List.subset_cons_of_subset _ inside)⟩

def Written (fields : List Text) (line : Text) : Prop :=
  ∃ code comment, line = code ++ comment ∧ Spaced fields code ∧ ';' ∉ code ∧
    (comment = [] ∨ ∃ remark, comment = ';' :: remark)

theorem exists_comment (line : Text) :
    ∃ comment, line = line.stripComment ++ comment ∧ ';' ∉ line.stripComment ∧
      (comment = [] ∨ ∃ remark, comment = ';' :: remark) := by
  refine ⟨line.dropWhile (· != ';'), ?_, ?_, ?_⟩
  · exact (List.takeWhile_append_dropWhile ..).symm
  · intro member
    simpa using List.mem_takeWhile_imp member
  · cases dropped : line.dropWhile (· != ';') with
    | nil => exact Or.inl rfl
    | cons mark remark =>
        have stopped := List.head?_dropWhile_not (· != ';') line
        rw [dropped, List.head?_cons] at stopped
        obtain rfl : mark = ';' := by simpa using stopped
        exact Or.inr ⟨remark, rfl⟩

theorem written_iff (fields : List Text) (line : Text) :
    Written fields line ↔ line.stripComment.fields = fields := by
  constructor
  · rintro ⟨code, comment, rfl, spaced, noComment, rfl | ⟨remark, rfl⟩⟩
    · rw [stripComment_append noComment, stripComment, List.takeWhile_nil, List.append_nil]
      exact spaced.fields_eq
    · rw [stripComment_append noComment, stripComment, List.takeWhile_cons_of_neg (by simp),
        List.append_nil]
      exact spaced.fields_eq
  · rintro rfl
    obtain ⟨comment, shape, noComment, start⟩ := exists_comment line
    exact ⟨line.stripComment, comment, shape, spaced_fields _, noComment, start⟩

end Text

namespace Assembler

/-- What a line assembles to, its errors and its log depend on nothing but its fields. So it makes
no difference which delimiters set them apart and what comment follows them. -/
theorem assembleLine_of_fields (tables : Tables) (config : AssemblerConfig) (left right : Text) :
    (left.stripComment.fields = right.stripComment.fields →
      ({ tables, config } : Assembler).assembleLine left =
        ({ tables, config } : Assembler).assembleLine right) ∧
      ∀ fields, Text.Written fields left → Text.Written fields right →
        ({ tables, config } : Assembler).assembleLine left =
          ({ tables, config } : Assembler).assembleLine right := by
  have depends (same : left.stripComment.fields = right.stripComment.fields) :
      ({ tables, config } : Assembler).assembleLine left =
        ({ tables, config } : Assembler).assembleLine right := by
    apply assembleLine_congr rfl
    rw [same]
    exact fun _ => rfl
  refine ⟨depends, ?_⟩
  intro fields leftWritten rightWritten
  rw [Text.written_iff] at leftWritten rightWritten
  exact depends (leftWritten.trans rightWritten.symm)

theorem assembleLine_of_fields_separators :
    let fields := ["s_add_u32".toList, "s0".toList, "s1".toList, "s2".toList]
    Text.Written fields "\ts_add_u32 s0,s1 ,,s2, ; sum".toList ∧
      Text.Written fields "s_add_u32 s0, s1, s2".toList ∧
      ({} : Assembler).assembleLine "\ts_add_u32 s0,s1 ,,s2, ; sum".toList =
        ({} : Assembler).assembleLine "s_add_u32 s0, s1, s2".toList := by
  intro fields
  have left : Text.Written fields "\ts_add_u32 s0,s1 ,,s2, ; sum".toList :=
    (Text.written_iff _ _).mpr (by with_unfolding_all rfl)
  have right : Text.Written fields "s_add_u32 s0, s1, s2".toList :=
    (Text.written_iff _ _).mpr (by with_unfolding_all rfl)
  exact ⟨left, right, (assembleLine_of_fields .southernIslands {} _ _).2 fields left right⟩

end Assembler

end ShaderAssembler

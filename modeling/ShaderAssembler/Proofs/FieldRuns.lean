import ShaderAssembler.Proofs.Field

/-! The fields of a text are its maximal runs without a delimiter. A delimiter cuts the runs where it
cuts the text, and a text can be cut until no delimiter is left in its parts. -/

namespace ShaderAssembler

namespace Text

/-- A run without delimiters, with a delimiter or an end of the text on either side. -/
def MaximalRun (text : Text) (start : Nat) (run : Text) : Prop :=
  ∃ before after, text = before ++ (run ++ after) ∧ before.length = start ∧ run ≠ [] ∧ run.Solid ∧
    (∀ character ∈ before.getLast?, character ∈ fieldDelimiters) ∧
    ∀ character ∈ after.head?, character ∈ fieldDelimiters

@[elab_as_elim]
theorem cut_induction {motive : Text → Prop} (empty : motive [])
    (solid : ∀ field : Text, field ≠ [] → field.Solid → motive field)
    (cut : ∀ (left : Text) (delimiter : Char) (right : Text), delimiter ∈ fieldDelimiters →
      motive left → motive right → motive (left ++ delimiter :: right)) (text : Text) :
    motive text := by
  induction length : text.length using Nat.strongRecOn generalizing text with
  | ind length ih =>
      subst length
      by_cases whole : text.Solid
      · by_cases blank : text = []
        · rw [blank]
          exact empty
        · exact solid text blank whole
      · obtain ⟨delimiter, member, isDelimiter⟩ : ∃ delimiter ∈ text, delimiter ∈ fieldDelimiters := by
          simpa [Solid] using whole
        obtain ⟨left, right, rfl⟩ := List.append_of_mem member
        rw [List.length_append, List.length_cons] at ih
        exact cut left delimiter right isDelimiter (ih left.length (by omega) left rfl)
          (ih right.length (by omega) right rfl)

theorem not_maximalRun_nil (start : Nat) (run : Text) : ¬ MaximalRun [] start run := by
  rintro ⟨before, after, whole, _, nonempty, _⟩
  simp only [List.nil_eq, List.append_eq_nil_iff] at whole
  exact nonempty whole.2.1

theorem MaximalRun.start_lt {text run : Text} {start : Nat} (maximal : MaximalRun text start run) :
    start < text.length := by
  obtain ⟨before, after, rfl, rfl, nonempty, _⟩ := maximal
  have runLength := List.length_pos_iff.mpr nonempty
  simp only [List.length_append]
  omega

theorem maximalRun_solid_iff {text : Text} (nonempty : text ≠ []) (solid : text.Solid) (start : Nat)
    (run : Text) : MaximalRun text start run ↔ start = 0 ∧ run = text := by
  constructor
  · rintro ⟨before, after, rfl, rfl, _, _, starts, ends⟩
    have noneBefore : before = [] := by
      rw [← List.getLast?_eq_none_iff, Option.eq_none_iff_forall_not_mem]
      intro character last
      exact solid character (by simp [List.mem_of_getLast? last]) (starts character last)
    have noneAfter : after = [] := by
      rw [← List.head?_eq_none_iff, Option.eq_none_iff_forall_not_mem]
      intro character first
      exact solid character (by simp [List.mem_of_head? first]) (ends character first)
    simp [noneBefore, noneAfter]
  · rintro ⟨rfl, rfl⟩
    exact ⟨[], [], by simp, rfl, nonempty, solid, by simp, by simp⟩

theorem forall_head?_append_delimiter_iff {delimiter : Char}
    (isDelimiter : delimiter ∈ fieldDelimiters) (after right : Text) :
    (∀ character ∈ (after ++ delimiter :: right).head?, character ∈ fieldDelimiters) ↔
      ∀ character ∈ after.head?, character ∈ fieldDelimiters := by
  cases after with
  | nil => simpa using isDelimiter
  | cons first more => simp

theorem forall_getLast?_append_delimiter_iff {delimiter : Char}
    (isDelimiter : delimiter ∈ fieldDelimiters) (left before : Text) :
    (∀ character ∈ (left ++ delimiter :: before).getLast?, character ∈ fieldDelimiters) ↔
      ∀ character ∈ before.getLast?, character ∈ fieldDelimiters := by
  rw [List.getLast?_append, List.getLast?_cons]
  cases before.getLast? with
  | none => simpa using isDelimiter
  | some last => simp

theorem maximalRun_append_delimiter_iff {delimiter : Char}
    (isDelimiter : delimiter ∈ fieldDelimiters) (left right : Text) (start : Nat) (run : Text) :
    MaximalRun (left ++ delimiter :: right) start run ↔
      MaximalRun left start run ∨
        ∃ offset, MaximalRun right offset run ∧ start = left.length + 1 + offset := by
  constructor
  · rintro ⟨before, after, whole, rfl, nonempty, solid, starts, ends⟩
    have outside : delimiter ∉ run := fun member => solid delimiter member isDelimiter
    rcases List.append_eq_append_iff.mp whole with ⟨gap, rfl, behind⟩ | ⟨gap, rfl, behind⟩
    · -- The run starts behind `left`, and it cannot start with the delimiter.
      rcases List.cons_eq_append_iff.mp behind with ⟨_, shape⟩ | ⟨gap, rfl, rfl⟩
      · obtain ⟨first, more, rfl⟩ := List.exists_cons_of_ne_nil nonempty
        rw [List.cons_append, List.cons.injEq] at shape
        exact absurd (by simp [shape.1]) outside
      · rw [forall_getLast?_append_delimiter_iff isDelimiter] at starts
        refine Or.inr ⟨gap.length, ⟨gap, after, rfl, rfl, nonempty, solid, starts, ends⟩, ?_⟩
        simp only [List.length_append, List.length_cons]
        omega
    · -- The run starts within `left`, and it cannot go on over the delimiter.
      left
      rcases List.append_eq_append_iff.mp behind with ⟨rest, rfl, rfl⟩ | ⟨rest, rfl, shape⟩
      · rw [forall_head?_append_delimiter_iff isDelimiter] at ends
        exact ⟨before, rest, rfl, rfl, nonempty, solid, starts, ends⟩
      · rcases List.cons_eq_append_iff.mp shape with ⟨rfl, _⟩ | ⟨more, rfl, _⟩
        · exact ⟨before, [], by simp, rfl, nonempty, solid, starts, by simp⟩
        · exact absurd (by simp) outside
  · rintro (⟨before, after, rfl, rfl, nonempty, solid, starts, ends⟩ |
      ⟨_, ⟨before, after, rfl, rfl, nonempty, solid, starts, ends⟩, rfl⟩)
    · rw [← forall_head?_append_delimiter_iff isDelimiter after right] at ends
      exact ⟨before, after ++ delimiter :: right, by simp, rfl, nonempty, solid, starts, ends⟩
    · rw [← forall_getLast?_append_delimiter_iff isDelimiter left before] at starts
      refine ⟨left ++ delimiter :: before, after, by simp, ?_, nonempty, solid, starts, ends⟩
      simp only [List.length_append, List.length_cons]
      omega

theorem exists_placed_fields (text : Text) :
    ∃ placed : List (Nat × Text), placed.map Prod.snd = text.fields ∧
      placed.Pairwise (fun left right => left.1 < right.1) ∧
      ∀ start run, (start, run) ∈ placed ↔ MaximalRun text start run := by
  induction text using cut_induction with
  | empty =>
      refine ⟨[], by simp, List.Pairwise.nil, ?_⟩
      intro start run
      simp [not_maximalRun_nil]
  | solid field nonempty solid =>
      refine ⟨[(0, field)], by rw [fields_solid nonempty solid]; rfl, List.pairwise_singleton _ _, ?_⟩
      intro start run
      rw [maximalRun_solid_iff nonempty solid]
      simp
  | cut left delimiter right isDelimiter ofLeft ofRight =>
      obtain ⟨leftPlaced, leftFields, leftOrder, leftRuns⟩ := ofLeft
      obtain ⟨rightPlaced, rightFields, rightOrder, rightRuns⟩ := ofRight
      let moved := rightPlaced.map fun place => (left.length + 1 + place.1, place.2)
      refine ⟨leftPlaced ++ moved, ?_, ?_, ?_⟩
      · have sameFields : moved.map Prod.snd = rightPlaced.map Prod.snd := by
          simp [moved]
        rw [fields_append_delimiter isDelimiter, List.map_append, leftFields, sameFields, rightFields]
      · rw [List.pairwise_append, List.pairwise_map]
        refine ⟨leftOrder, rightOrder.imp (by simp), ?_⟩
        rintro ⟨start, run⟩ inLeft other inRight
        obtain ⟨place, _, rfl⟩ := List.mem_map.mp inRight
        have before := ((leftRuns start run).mp inLeft).start_lt
        dsimp only
        omega
      · intro start run
        rw [maximalRun_append_delimiter_iff isDelimiter, List.mem_append, leftRuns]
        refine or_congr_right ?_
        simp only [moved, List.mem_map, Prod.exists, Prod.mk.injEq, rightRuns]
        constructor
        · rintro ⟨offset, _, maximal, rfl, rfl⟩
          exact ⟨offset, maximal, rfl⟩
        · rintro ⟨offset, maximal, rfl⟩
          exact ⟨offset, run, maximal, rfl, rfl⟩

/-- Three laws say all about the fields of a text. -/
theorem eq_fields_iff (split : Text → List Text) :
    split = fields ↔
      split [] = [] ∧ (∀ field : Text, field ≠ [] → field.Solid → split field = [field]) ∧
        ∀ (left : Text) (delimiter : Char) (right : Text), delimiter ∈ fieldDelimiters →
          split (left ++ delimiter :: right) = split left ++ split right := by
  constructor
  · rintro rfl
    exact ⟨fields_nil, fun _ => fields_solid, fun left _ right isDelimiter =>
      fields_append_delimiter isDelimiter left right⟩
  · rintro ⟨ofEmpty, ofSolid, ofCut⟩
    funext text
    induction text using cut_induction with
    | empty => rw [ofEmpty, fields_nil]
    | solid field nonempty solid => rw [ofSolid field nonempty solid, fields_solid nonempty solid]
    | cut left delimiter right isDelimiter sameLeft sameRight =>
        rw [ofCut left delimiter right isDelimiter, fields_append_delimiter isDelimiter, sameLeft,
          sameRight]

theorem fields_append_blank {blank : Text}
    (delimiters : ∀ character ∈ blank, character ∈ fieldDelimiters) (text : Text) :
    fields (blank ++ text) = fields text := by
  induction blank with
  | nil => rfl
  | cons first more ih =>
      obtain ⟨isDelimiter, others⟩ := List.forall_mem_cons.mp delimiters
      rw [List.cons_append, fields_delimiter isDelimiter, ih others]

theorem fields_field_gap {field gap : Text} (nonempty : field ≠ []) (solid : field.Solid)
    (blank : ∀ character ∈ gap, character ∈ fieldDelimiters) {rest : Text}
    (apart : gap = [] → rest = []) :
    fields (field ++ (gap ++ rest)) = field :: fields rest := by
  cases gap with
  | nil => rw [apart rfl, List.append_nil, List.append_nil, fields_solid nonempty solid, fields_nil]
  | cons delimiter others =>
      obtain ⟨isDelimiter, othersBlank⟩ := List.forall_mem_cons.mp blank
      rw [List.cons_append, fields_append_delimiter isDelimiter, fields_solid nonempty solid,
        fields_append_blank othersBlank, List.singleton_append]

theorem fields_flatMap_gaps {pieces : List (Text × Text)}
    (solid : ∀ piece ∈ pieces, piece.1 ≠ [] ∧ piece.1.Solid)
    (blank : ∀ piece ∈ pieces, ∀ character ∈ piece.2, character ∈ fieldDelimiters)
    (apart : ∀ piece ∈ pieces.dropLast, piece.2 ≠ []) :
    fields (pieces.flatMap fun piece => piece.1 ++ piece.2) = pieces.map Prod.fst := by
  induction pieces with
  | nil => simp
  | cons piece more ih =>
      obtain ⟨⟨nonempty, pieceSolid⟩, moreSolid⟩ := List.forall_mem_cons.mp solid
      obtain ⟨gapBlank, moreBlank⟩ := List.forall_mem_cons.mp blank
      have gaps : (piece.2 = [] → more = []) ∧ ∀ other ∈ more.dropLast, other.2 ≠ [] := by
        cases more with
        | nil => simp
        | cons next rest =>
            obtain ⟨gapNonempty, moreApart⟩ := List.forall_mem_cons.mp apart
            exact ⟨fun empty => absurd empty gapNonempty, moreApart⟩
      have last (empty : piece.2 = []) :
          (more.flatMap fun other => other.1 ++ other.2) = [] := by
        rw [gaps.1 empty, List.flatMap_nil]
      rw [List.flatMap_cons, List.map_cons, List.append_assoc,
        fields_field_gap nonempty pieceSolid gapBlank last, ih moreSolid moreBlank gaps.2]

/-- The fields of a text are its maximal runs without a delimiter, in order. They are determined by
what the fields of the empty text, of a run and of a text with a cut are, and any delimiters can be
put before, between and behind them. -/
theorem fields_exactly :
    (∀ text : Text, ∃ placed : List (Nat × Text), placed.map Prod.snd = text.fields ∧
      placed.Pairwise (fun left right => left.1 < right.1) ∧
      ∀ start run, (start, run) ∈ placed ↔ MaximalRun text start run) ∧
    (∀ split : Text → List Text, split = fields ↔
      split [] = [] ∧ (∀ field : Text, field ≠ [] → field.Solid → split field = [field]) ∧
        ∀ (left : Text) (delimiter : Char) (right : Text), delimiter ∈ fieldDelimiters →
          split (left ++ delimiter :: right) = split left ++ split right) ∧
    ∀ (leading : Text) (pieces : List (Text × Text)),
      (∀ character ∈ leading, character ∈ fieldDelimiters) →
      (∀ piece ∈ pieces, piece.1 ≠ [] ∧ piece.1.Solid) →
      (∀ piece ∈ pieces, ∀ character ∈ piece.2, character ∈ fieldDelimiters) →
      (∀ piece ∈ pieces.dropLast, piece.2 ≠ []) →
        fields (leading ++ pieces.flatMap fun piece => piece.1 ++ piece.2) =
          pieces.map Prod.fst := by
  refine ⟨exists_placed_fields, eq_fields_iff, ?_⟩
  intro leading pieces leadingBlank solid blank apart
  rw [fields_append_blank leadingBlank, fields_flatMap_gaps solid blank apart]

theorem fields_exactly_gaps :
    fields ",\tadd ,s0\t\t5, ".toList = [['a', 'd', 'd'], ['s', '0'], ['5']] ∧
      fields ['5'] = [['5']] ∧ fields (['5'] ++ ',' :: [' ']) = fields ['5'] ++ fields [' '] := by
  obtain ⟨_, laws, found⟩ := fields_exactly
  obtain ⟨_, ofSolid, ofCut⟩ := (laws fields).mp rfl
  refine ⟨?_, ofSolid ['5'] (by simp) (by simp [Solid, fieldDelimiters]),
    ofCut ['5'] ',' [' '] (by simp [fieldDelimiters])⟩
  refine found [',', '\t']
    [(['a', 'd', 'd'], [' ', ',']), (['s', '0'], ['\t', '\t']), (['5'], [',', ' '])] ?_ ?_ ?_ ?_
  · simp [fieldDelimiters]
  · simp [Solid, fieldDelimiters]
  · simp [fieldDelimiters]
  · simp

end Text

end ShaderAssembler

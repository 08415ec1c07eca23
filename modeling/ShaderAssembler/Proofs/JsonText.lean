import ShaderAssembler.Proofs.JsonToken

/-! JSON text is read back as the value that it was printed from, however the printer sets off the
parts of arrays and objects, as long as it does so by blanks. -/

namespace ShaderAssembler

namespace Json

/-- Induction over values, with one hypothesis for all items of an array or members of an
object. -/
theorem inductionOn {motive : Json → Prop} (value : Json) (null : motive null)
    (bool : ∀ value, motive (bool value)) (number : ∀ value, motive (number value))
    (string : ∀ text, motive (string text))
    (array : ∀ items, (∀ item ∈ items, motive item) → motive (array items))
    (object : ∀ members, (∀ member ∈ members, motive member.2) → motive (object members)) :
    motive value := by
  refine @Json.rec motive (fun items => ∀ item ∈ items, motive item)
    (fun members => ∀ member ∈ members, motive member.2) (fun member => motive member.2)
    null bool number string array object ?_ ?_ ?_ ?_ ?_ value
  · simp
  · intro first rest firstHolds restHold item member
    rcases List.mem_cons.mp member with rfl | later
    · exact firstHolds
    · exact restHold item later
  · simp
  · intro first rest firstHolds restHold item member
    rcases List.mem_cons.mp member with rfl | later
    · exact firstHolds
    · exact restHold item later
  · intro name value holds
    exact holds

end Json

structure JsonLayout.Blank (layout : JsonLayout) : Prop where
  lineBreak : ∀ depth, ∀ character ∈ layout.lineBreak depth, Json.isBlank character = true
  gap : ∀ character ∈ layout.gap, Json.isBlank character = true

namespace Json

theorem skipBlank_append {blank : Text} (isBlank : ∀ character ∈ blank, isBlank character = true)
    (text : Text) : skipBlank (blank ++ text) = skipBlank text :=
  List.dropWhile_append_of_pos isBlank

theorem skipBlank_cons {first : Char} (notBlank : isBlank first = false) (rest : Text) :
    skipBlank (first :: rest) = first :: rest := by
  simp [skipBlank, notBlank]

theorem readValue?_skipBlank {left right : Text} (same : skipBlank left = skipBlank right)
    (fuel : Nat) : readValue? fuel left = readValue? fuel right := by
  cases fuel with
  | zero => simp only [readValue?]
  | succ fuel => simp only [readValue?, same]

theorem readItems?_skipBlank {left right : Text} (same : skipBlank left = skipBlank right)
    (fuel : Nat) : readItems? fuel left = readItems? fuel right := by
  cases fuel with
  | zero => simp only [readItems?]
  | succ fuel => simp only [readItems?, readValue?_skipBlank same]

theorem readMembers?_skipBlank {left right : Text} (same : skipBlank left = skipBlank right)
    (fuel : Nat) : readMembers? fuel left = readMembers? fuel right := by
  cases fuel with
  | zero => simp only [readMembers?]
  | succ fuel => simp only [readMembers?, same]

theorem endsNumber_cons {first : Char} (ends : digit? first = none ∧ first ∉ ['.', 'e', 'E'])
    (rest : Text) : EndsNumber (first :: rest) := by
  rintro character ⟨⟩
  exact ends

theorem endsNumber_blank {blank rest : Text}
    (isBlank : ∀ character ∈ blank, isBlank character = true) (ends : EndsNumber rest) :
    EndsNumber (blank ++ rest) := by
  cases blank with
  | nil => exact ends
  | cons first more =>
      have firstBlank := isBlank first (by simp)
      simp only [Json.isBlank, decide_eq_true_eq] at firstBlank
      rcases firstBlank with rfl | rfl | rfl | rfl <;> exact endsNumber_cons (by decide) _

def valueMarks : List Char :=
  ['n', 't', 'f', '"', '[', ']', '\x7b', ' ', '\t', '\n', '\r']

theorem renderNumber_start (number : JsonNumber) :
    ∃ first rest, renderNumber number = first :: rest ∧ first ∉ valueMarks := by
  have noMark : ∀ digit : Fin 10, Nat.digitChar digit.val ∉ valueMarks := by decide
  obtain ⟨first, more, spelled, _⟩ := exists_digits_decimal number.whole
  rw [renderNumber_eq, spelled]
  cases number.negative with
  | true => exact ⟨'-', _, rfl, by decide⟩
  | false => exact ⟨Nat.digitChar first.val, _, rfl, noMark first⟩

theorem isBlank_of_notMem_valueMarks {character : Char} (noMark : character ∉ valueMarks) :
    isBlank character = false := by
  simp only [valueMarks, List.mem_cons, List.not_mem_nil, or_false, not_or] at noMark
  simp [isBlank, noMark]

theorem render_start (layout : JsonLayout) (depth : Nat) (value : Json) :
    ∃ first rest, render layout depth value = first :: rest ∧ isBlank first = false ∧
      first ≠ ']' := by
  cases value with
  | null => exact ⟨'n', _, rfl, rfl, by decide⟩
  | bool value => cases value with
    | false => exact ⟨'f', _, rfl, rfl, by decide⟩
    | true => exact ⟨'t', _, rfl, rfl, by decide⟩
  | number value =>
      obtain ⟨first, rest, shape, noMark⟩ := renderNumber_start value
      refine ⟨first, rest, by rw [render, shape], isBlank_of_notMem_valueMarks noMark, ?_⟩
      rintro rfl
      exact noMark (by decide)
  | string text =>
      obtain ⟨body, shape, _⟩ := readString?_quote text
      exact ⟨'"', body, by rw [render, shape], rfl, by decide⟩
  | array items => cases items with
    | nil => exact ⟨'[', _, rfl, rfl, by decide⟩
    | cons first more => exact ⟨'[', _, by rw [render]; rfl, rfl, by decide⟩
  | object members => cases members with
    | nil => exact ⟨'\x7b', _, rfl, rfl, by decide⟩
    | cons first more => exact ⟨'\x7b', _, by rw [render]; rfl, rfl, by decide⟩

theorem skipBlank_render (layout : JsonLayout) (depth : Nat) (value : Json) (rest : Text) :
    skipBlank (render layout depth value ++ rest) = render layout depth value ++ rest := by
  obtain ⟨first, more, shape, notBlank, _⟩ := render_start layout depth value
  rw [shape, List.cons_append, skipBlank_cons notBlank]

/-- The value is read back from its text, at any depth and whatever follows, if the fuel is twice
the length of the text. -/
def ReadsBack (layout : JsonLayout) (value : Json) : Prop :=
  ∀ depth fuel rest, 2 * (render layout depth value).length ≤ fuel → EndsNumber rest →
    readValue? fuel (render layout depth value ++ rest) = some (value, rest)

theorem readValue?_number (number : JsonNumber) (fuel : Nat) {rest : Text}
    (ends : EndsNumber rest) :
    readValue? (fuel + 1) (renderNumber number ++ rest) = some (.number number, rest) := by
  have read := readNumber?_renderNumber number ends
  obtain ⟨first, more, shape, noMark⟩ := renderNumber_start number
  rw [shape, List.cons_append] at read ⊢
  rw [readValue?, skipBlank_cons (isBlank_of_notMem_valueMarks noMark)]
  simp only [valueMarks, List.mem_cons, List.not_mem_nil, or_false, not_or] at noMark
  split <;> simp_all

theorem readValue?_string (text : Option Text) (fuel : Nat) (rest : Text) :
    readValue? (fuel + 1) (quote text ++ rest) = some (.string text, rest) := by
  obtain ⟨body, shape, read⟩ := readString?_quote text
  rw [shape, List.cons_append, readValue?, skipBlank_cons rfl]
  simp only [read, Option.map_some]

theorem readValue?_array {text : Text} (notClosed : (skipBlank text).head? ≠ some ']')
    (fuel : Nat) :
    readValue? (fuel + 1) ('[' :: text) =
      (readItems? fuel (skipBlank text)).map fun (items, rest) => (.array items, rest) := by
  rw [readValue?, skipBlank_cons rfl]
  simp only
  split
  · rename_i closed
    exact absurd (by rw [closed, List.head?_cons]) notClosed
  · rfl

theorem readValue?_object {text : Text} (notClosed : (skipBlank text).head? ≠ some '\x7d')
    (fuel : Nat) :
    readValue? (fuel + 1) ('\x7b' :: text) =
      (readMembers? fuel (skipBlank text)).map fun (members, rest) => (.object members, rest) := by
  rw [readValue?, skipBlank_cons rfl]
  simp only
  split
  · rename_i closed
    exact absurd (by rw [closed, List.head?_cons]) notClosed
  · rfl

variable {layout : JsonLayout}

theorem endsNumber_renderItems (blank : layout.Blank) (depth : Nat) (items : List Json)
    (rest : Text) : EndsNumber (renderItems layout depth items ++ rest) := by
  cases items with
  | nil =>
      rw [renderItems, List.append_assoc]
      exact endsNumber_blank (blank.lineBreak depth) (endsNumber_cons (by decide) _)
  | cons first more =>
      rw [renderItems]
      exact endsNumber_cons (by decide) _

theorem endsNumber_renderMembers (blank : layout.Blank) (depth : Nat)
    (members : List (Option Text × Json)) (rest : Text) :
    EndsNumber (renderMembers layout depth members ++ rest) := by
  cases members with
  | nil =>
      rw [renderMembers, List.append_assoc]
      exact endsNumber_blank (blank.lineBreak depth) (endsNumber_cons (by decide) _)
  | cons first more =>
      rw [renderMembers]
      exact endsNumber_cons (by decide) _

theorem readItems?_step {item : Json} (reads : ReadsBack layout item) {depth fuel : Nat}
    (enough : 2 * (render layout depth item).length ≤ fuel) {tail : Text}
    (ends : EndsNumber tail) :
    readItems? (fuel + 1) (render layout depth item ++ tail) =
      match skipBlank tail with
      | ',' :: rest => (readItems? fuel rest).map fun (items, rest) => (item :: items, rest)
      | ']' :: rest => some ([item], rest)
      | _ => none := by
  rw [readItems?, reads depth fuel tail enough ends]
  simp only [Option.map_eq_bind]
  rfl

theorem readMembers?_step {value : Json} (reads : ReadsBack layout value) (blank : layout.Blank)
    (name : Option Text) {depth fuel : Nat} (enough : 2 * (render layout depth value).length ≤ fuel)
    {tail : Text} (ends : EndsNumber tail) :
    readMembers? (fuel + 1)
        (quote name ++ ':' :: (layout.gap ++ (render layout depth value ++ tail))) =
      match skipBlank tail with
      | ',' :: rest =>
          (readMembers? fuel rest).map fun (members, rest) => ((name, value) :: members, rest)
      | '\x7d' :: rest => some ([(name, value)], rest)
      | _ => none := by
  obtain ⟨body, quoted, read⟩ := readString?_quote name
  have behindGap : readValue? fuel (layout.gap ++ (render layout depth value ++ tail)) =
      some (value, tail) := by
    rw [readValue?_skipBlank (skipBlank_append blank.gap _)]
    exact reads depth fuel tail enough ends
  have quoteMark (text : Text) : expect? ['"'] ('"' :: text) = some text := rfl
  have colon (text : Text) : expect? [':'] (':' :: text) = some text := rfl
  rw [readMembers?, quoted, List.cons_append, skipBlank_cons rfl, quoteMark]
  simp only [Option.bind_eq_bind, Option.bind_some, read]
  rw [skipBlank_cons rfl, colon]
  simp only [Option.bind_some, behindGap, Option.map_eq_bind]
  rfl

theorem readItems?_render (blank : layout.Blank) (depth : Nat) (first : Json) (more : List Json)
    (reads : ∀ item ∈ first :: more, ReadsBack layout item) (fuel : Nat) (rest : Text)
    (enough :
      2 * (render layout (depth + 1) first ++ renderItems layout depth more).length ≤ fuel) :
    readItems? fuel (render layout (depth + 1) first ++ (renderItems layout depth more ++ rest)) =
      some (first :: more, rest) := by
  have ends := endsNumber_renderItems blank depth more rest
  induction more generalizing first fuel with
  | nil =>
      simp only [renderItems, List.length_append, List.length_cons] at enough
      obtain ⟨fuel, rfl⟩ : ∃ less, fuel = less + 1 := ⟨fuel - 1, by omega⟩
      rw [readItems?_step (reads first (by simp)) (by omega) ends, renderItems, List.append_assoc,
        skipBlank_append (blank.lineBreak depth)]
      rfl
  | cons second others ih =>
      simp only [renderItems, List.length_append, List.length_cons] at enough
      obtain ⟨fuel, rfl⟩ : ∃ less, fuel = less + 1 := ⟨fuel - 1, by omega⟩
      have items := ih second (fun item member => reads item (List.mem_cons_of_mem _ member)) fuel
        (by simp only [List.length_append]; omega) (endsNumber_renderItems blank depth others rest)
      rw [readItems?_step (reads first (by simp)) (by omega) ends, renderItems]
      simp only [List.append_assoc, List.cons_append]
      rw [skipBlank_cons rfl]
      simp only
      rw [readItems?_skipBlank (skipBlank_append (blank.lineBreak (depth + 1)) _), items]
      rfl

theorem readMembers?_render (blank : layout.Blank) (depth : Nat) (name : Option Text)
    (value : Json) (more : List (Option Text × Json))
    (reads : ∀ member ∈ (name, value) :: more, ReadsBack layout member.2) (fuel : Nat) (rest : Text)
    (enough : 2 * (render layout (depth + 1) value ++ renderMembers layout depth more).length ≤
      fuel) :
    readMembers? fuel (quote name ++ ':' :: (layout.gap ++
        (render layout (depth + 1) value ++ (renderMembers layout depth more ++ rest)))) =
      some ((name, value) :: more, rest) := by
  have ends := endsNumber_renderMembers blank depth more rest
  have firstReads : ReadsBack layout value := reads (name, value) (by simp)
  induction more generalizing name value fuel with
  | nil =>
      simp only [renderMembers, List.length_append, List.length_cons] at enough
      obtain ⟨fuel, rfl⟩ : ∃ less, fuel = less + 1 := ⟨fuel - 1, by omega⟩
      rw [readMembers?_step firstReads blank name (by omega) ends, renderMembers,
        List.append_assoc, skipBlank_append (blank.lineBreak depth)]
      rfl
  | cons second others ih =>
      obtain ⟨secondName, secondValue⟩ := second
      simp only [renderMembers, List.length_append, List.length_cons] at enough
      obtain ⟨fuel, rfl⟩ : ∃ less, fuel = less + 1 := ⟨fuel - 1, by omega⟩
      have members := ih secondName secondValue
        (fun member present => reads member (List.mem_cons_of_mem _ present)) fuel
        (by simp only [List.length_append]; omega)
        (endsNumber_renderMembers blank depth others rest)
        (reads (secondName, secondValue) (by simp))
      rw [readMembers?_step firstReads blank name (by omega) ends, renderMembers]
      simp only [List.append_assoc, List.cons_append]
      rw [skipBlank_cons rfl]
      simp only
      rw [readMembers?_skipBlank (skipBlank_append (blank.lineBreak (depth + 1)) _), members]
      rfl

theorem readsBack_of_succ {value : Json}
    (reads : ∀ depth fuel rest, 2 * (render layout depth value).length ≤ fuel + 1 →
      EndsNumber rest → readValue? (fuel + 1) (render layout depth value ++ rest) =
        some (value, rest)) : ReadsBack layout value := by
  intro depth fuel rest enough ends
  obtain ⟨first, more, shape, _⟩ := render_start layout depth value
  have positive : 0 < (render layout depth value).length := by simp [shape]
  obtain ⟨fuel, rfl⟩ : ∃ less, fuel = less + 1 := ⟨fuel - 1, by omega⟩
  exact reads depth fuel rest enough ends

theorem readsBack_array (blank : layout.Blank) {items : List Json}
    (reads : ∀ item ∈ items, ReadsBack layout item) : ReadsBack layout (.array items) := by
  apply readsBack_of_succ
  intro depth fuel rest enough _
  cases items with
  | nil =>
      rw [render, readValue?]
      rfl
  | cons first more =>
      simp only [render, List.length_append, List.length_cons] at enough
      have items := readItems?_render blank depth first more reads fuel rest
        (by simp only [List.length_append]; omega)
      have skipped (text : Text) : skipBlank (layout.lineBreak (depth + 1) ++
          (render layout (depth + 1) first ++ text)) = render layout (depth + 1) first ++ text := by
        rw [skipBlank_append (blank.lineBreak (depth + 1)), skipBlank_render]
      obtain ⟨start, others, shape, _, notClosed⟩ := render_start layout (depth + 1) first
      rw [render]
      simp only [List.cons_append, List.append_assoc]
      rw [readValue?_array, skipped, items]
      · rfl
      · rw [skipped, shape]
        simpa using notClosed

theorem readsBack_object (blank : layout.Blank) {members : List (Option Text × Json)}
    (reads : ∀ member ∈ members, ReadsBack layout member.2) :
    ReadsBack layout (.object members) := by
  apply readsBack_of_succ
  intro depth fuel rest enough _
  cases members with
  | nil =>
      rw [render, readValue?]
      rfl
  | cons first more =>
      obtain ⟨name, value⟩ := first
      simp only [render, List.length_append, List.length_cons] at enough
      have members := readMembers?_render blank depth name value more reads fuel rest
        (by simp only [List.length_append]; omega)
      obtain ⟨body, quoted, _⟩ := readString?_quote name
      have skipped (text : Text) : skipBlank (layout.lineBreak (depth + 1) ++
          (quote name ++ text)) = quote name ++ text := by
        rw [skipBlank_append (blank.lineBreak (depth + 1)), quoted, List.cons_append,
          skipBlank_cons rfl]
      rw [render]
      simp only [List.cons_append, List.append_assoc]
      rw [readValue?_object, skipped, members]
      · rfl
      · rw [skipped, quoted]
        simp

theorem readsBack (blank : layout.Blank) (value : Json) : ReadsBack layout value := by
  induction value using inductionOn with
  | null =>
      apply readsBack_of_succ
      intro depth fuel rest _ _
      rw [render, readValue?]
      rfl
  | bool value =>
      apply readsBack_of_succ
      intro depth fuel rest _ _
      rw [render, readValue?]
      cases value <;> rfl
  | number value =>
      apply readsBack_of_succ
      intro depth fuel rest _ ends
      rw [render]
      exact readValue?_number value fuel ends
  | string text =>
      apply readsBack_of_succ
      intro depth fuel rest _ _
      rw [render]
      exact readValue?_string text fuel rest
  | array items reads => exact readsBack_array blank reads
  | object members reads => exact readsBack_object blank reads

theorem parse?_render_blank (blank : layout.Blank) {trailing : Text}
    (isBlank : ∀ character ∈ trailing, isBlank character = true) (value : Json) :
    parse? (value.render layout 0 ++ trailing) = some value := by
  have ends : EndsNumber trailing := by
    have atEnd : EndsNumber (trailing ++ []) := endsNumber_blank isBlank (by simp [EndsNumber])
    rwa [List.append_nil] at atEnd
  have skipped : skipBlank trailing = [] := by
    have atEnd := skipBlank_append isBlank []
    rwa [List.append_nil] at atEnd
  have read := readsBack blank value 0 (2 * (value.render layout 0 ++ trailing).length + 2) trailing
    (by rw [List.length_append]; omega) ends
  simp only [parse?, read, Option.bind_eq_bind, Option.bind_some, skipped]
  rfl

theorem parse?_render (blank : layout.Blank) (value : Json) :
    parse? (value.render layout 0) = some value := by
  have nothing : ∀ character ∈ ([] : Text), isBlank character = true := by simp
  have read := parse?_render_blank blank nothing value
  rwa [List.append_nil] at read

theorem blank_indented : JsonLayout.indented.Blank where
  lineBreak depth character member := by
    rcases List.mem_cons.mp member with rfl | space
    · rfl
    · rw [List.eq_of_mem_replicate space]
      rfl
  gap := by simp [JsonLayout.indented, isBlank]

theorem parse?_pretty (value : Json) : parse? value.pretty = some value :=
  parse?_render blank_indented value

end Json

end ShaderAssembler

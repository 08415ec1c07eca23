import ShaderAssembler.Proofs.Field

/-! The lines of a text. A line feed cuts the list of lines where it cuts the text, and takes one
carriage return before it along. -/

namespace ShaderAssembler

namespace Text

theorem dropEnding_append (ending : Char) (text : Text) :
    dropEnding ending (text ++ [ending]) = text := by
  simp [dropEnding]

theorem trimLineEnd_append_return (text : Text) : trimLineEnd (text ++ ['\r', '\n']) = text := by
  have split : text ++ ['\r', '\n'] = text ++ ['\r'] ++ ['\n'] := by simp
  rw [split, trimLineEnd, dropEnding_append, dropEnding_append]

theorem dropEnding_of_ne {ending : Char} {text : Text} (different : text.getLast? ≠ some ending) :
    dropEnding ending text = text :=
  if_neg different

theorem dropEnding_cons_cons (ending first second : Char) (rest : Text) :
    dropEnding ending (first :: second :: rest) = first :: dropEnding ending (second :: rest) := by
  simp only [dropEnding, List.getLast?_cons_cons, List.dropLast_cons_cons]
  split <;> rfl

theorem lines_cons {first : Char} {rest : Text} (notNewline : first ≠ '\n')
    (notReturn : first = '\r' → rest.head? ≠ some '\n') :
    lines (first :: rest) = (first :: rest.lines.headD []) :: rest.lines.tail := by
  rw [lines.eq_4]
  · cases rest.lines <;> rfl
  · exact notNewline
  · rintro tail rfl rfl
    exact notReturn rfl rfl

theorem lines_newline {body : Text} (inLine : '\n' ∉ body) (rest : Text) :
    lines (body ++ '\n' :: rest) = dropEnding '\r' body :: lines rest := by
  induction body with
  | nil => rfl
  | cons first more ih =>
      rw [List.mem_cons, not_or] at inLine
      have tail := ih inLine.2
      cases more with
      | nil =>
          by_cases ending : first = '\r'
          · subst ending
            rfl
          · have kept : dropEnding '\r' [first] = [first] :=
              dropEnding_of_ne (by simpa using ending)
            rw [List.cons_append, lines_cons (Ne.symm inLine.1) (absurd · ending), tail, kept]
            rfl
      | cons second others =>
          have notNewline : second ≠ '\n' := by
            rintro rfl
            exact inLine.2 (by simp)
          rw [List.cons_append, lines_cons (Ne.symm inLine.1) (fun _ => by simpa using notNewline),
            tail, dropEnding_cons_cons]
          rfl

theorem lines_unterminated {body : Text} (inLine : '\n' ∉ body) (nonempty : body ≠ []) :
    lines body = [body] := by
  induction body with
  | nil => exact absurd rfl nonempty
  | cons first more ih =>
      rw [List.mem_cons, not_or] at inLine
      have notReturn : first = '\r' → more.head? ≠ some '\n' := fun _ newline =>
        inLine.2 (List.mem_of_mem_head? newline)
      rw [lines_cons (Ne.symm inLine.1) notReturn]
      cases more with
      | nil => rfl
      | cons second others =>
          rw [ih inLine.2 (by simp)]
          rfl

theorem exists_bodies {text : Text} (whole : text = [] ∨ text.getLast? = some '\n') :
    ∃ bodies : List Text, (∀ body ∈ bodies, '\n' ∉ body) ∧
      text = bodies.flatMap (· ++ ['\n']) := by
  induction text with
  | nil => exact ⟨[], by simp, rfl⟩
  | cons first rest ih =>
      have tailWhole : rest = [] ∨ rest.getLast? = some '\n' := by
        cases rest with
        | nil => exact Or.inl rfl
        | cons second others => exact Or.inr (by simpa using whole)
      obtain ⟨bodies, inLine, rfl⟩ := ih tailWhole
      by_cases newline : first = '\n'
      · subst newline
        exact ⟨[] :: bodies, by simpa using inLine, rfl⟩
      · cases bodies with
        | nil => exact absurd (by simpa using whole) newline
        | cons body more =>
            refine ⟨(first :: body) :: more, ?_, rfl⟩
            intro other member
            rcases List.mem_cons.mp member with rfl | later
            · simpa [Ne.symm newline] using inLine body (by simp)
            · exact inLine other (List.mem_cons_of_mem _ later)

theorem lines_bodies {bodies : List Text} (inLine : ∀ body ∈ bodies, '\n' ∉ body) (rest : Text) :
    lines (bodies.flatMap (· ++ ['\n']) ++ rest) = bodies.map (dropEnding '\r') ++ lines rest := by
  induction bodies with
  | nil => rfl
  | cons body more ih =>
      have tail := ih fun other member => inLine other (List.mem_cons_of_mem _ member)
      rw [List.flatMap_cons, List.append_assoc, List.append_assoc, List.singleton_append,
        lines_newline (inLine body (by simp)), tail, List.map_cons, List.cons_append]

theorem count_bodies {bodies : List Text} (inLine : ∀ body ∈ bodies, '\n' ∉ body) :
    (bodies.flatMap (· ++ ['\n'])).count '\n' = bodies.length := by
  induction bodies with
  | nil => rfl
  | cons body more ih =>
      have tail := ih fun other member => inLine other (List.mem_cons_of_mem _ member)
      have none : body.count '\n' = 0 := List.count_eq_zero.mpr (inLine body (by simp))
      simp [none, tail]

theorem lines_append {left : Text} (whole : left = [] ∨ left.getLast? = some '\n') (right : Text) :
    lines (left ++ right) = lines left ++ lines right := by
  obtain ⟨bodies, inLine, rfl⟩ := exists_bodies whole
  have alone := lines_bodies inLine []
  rw [List.append_nil] at alone
  rw [lines_bodies inLine, alone, lines, List.append_nil]

theorem length_lines {text : Text} (whole : text = [] ∨ text.getLast? = some '\n') :
    text.lines.length = text.count '\n' := by
  obtain ⟨bodies, inLine, rfl⟩ := exists_bodies whole
  have alone := lines_bodies inLine []
  rw [List.append_nil, lines, List.append_nil] at alone
  rw [alone, List.length_map, count_bodies inLine]

end Text

end ShaderAssembler

import Mathlib.Data.List.Induction
import ShaderAssembler.Proofs.Source
import ShaderAssembler.Proofs.Spacing
import ShaderAssembler.Proofs.TextLines

/-! The ends of lines. Whatever ends a line, and wherever in its last field or behind it that
stands, the line assembles to the same. -/

namespace ShaderAssembler

namespace Text

theorem trimLineEnd_append {text ending : Text} (notReturn : text.getLast? ≠ some '\r')
    (notNewline : text.getLast? ≠ some '\n') (isEnd : ending ∈ [] :: lineEnds) :
    (text ++ ending).trimLineEnd = text := by
  have withReturn : dropEnding '\n' (text ++ ['\r']) = text ++ ['\r'] :=
    dropEnding_of_ne (by simp)
  simp only [lineEnds, List.mem_cons, List.not_mem_nil, or_false] at isEnd
  rcases isEnd with rfl | rfl | rfl | rfl
  · rw [List.append_nil, trimLineEnd, dropEnding_of_ne notNewline, dropEnding_of_ne notReturn]
  · rw [trimLineEnd, dropEnding_append, dropEnding_of_ne notReturn]
  · rw [trimLineEnd, withReturn, dropEnding_append]
  · exact trimLineEnd_append_return text

theorem exists_last_run (text : Text) :
    ∃ (front last : Text) (before : List Text), text = front ++ last ∧ last.Solid ∧
      ∀ other : Text, other.Solid → (front ++ other).fields = before ++ other.fields := by
  induction text using List.reverseRecOn with
  | nil => exact ⟨[], [], [], rfl, nofun, fun _ _ => rfl⟩
  | append_singleton init character ih =>
      by_cases cut : character ∈ fieldDelimiters
      · refine ⟨init ++ [character], [], fields init, by simp, nofun, ?_⟩
        intro other _
        rw [List.append_assoc, List.singleton_append, fields_append_delimiter cut]
      · obtain ⟨front, last, before, rfl, solid, cutThere⟩ := ih
        refine ⟨front, last ++ [character], before, by simp, ?_, cutThere⟩
        intro other member
        rcases List.mem_append.mp member with inLast | isNew
        · exact solid other inLast
        · rw [List.mem_singleton.mp isNew]
          exact cut

theorem wordAt_fields_solid {text : Text} (solid : text.Solid) (position : Nat) :
    wordAt text.fields position = if position = 0 then text.trimLineEnd else [] := by
  cases text with
  | nil =>
      rw [fields_nil, wordAt_nil]
      split <;> rfl
  | cons first rest =>
      rw [fields_solid (by simp) solid]
      cases position <;> rfl

theorem solid_lineEnd {ending : Text} (isEnd : ending ∈ [] :: lineEnds) : ending.Solid := by
  simp only [lineEnds, List.mem_cons, List.not_mem_nil, or_false] at isEnd
  rcases isEnd with rfl | rfl | rfl | rfl <;> simp [Solid, fieldDelimiters]

theorem sameWords_lineEnd {text ending : Text} (notReturn : text.getLast? ≠ some '\r')
    (notNewline : text.getLast? ≠ some '\n') (isEnd : ending ∈ [] :: lineEnds) :
    SameWords (text ++ ending).fields text.fields := by
  obtain ⟨front, last, before, rfl, solid, cutThere⟩ := exists_last_run text
  have lastOf {character : Char} (ends : last.getLast? = some character) :
      (front ++ last).getLast? = some character := by
    simp [List.getLast?_append, ends]
  have extended : (last ++ ending).Solid := by
    intro character member
    rcases List.mem_append.mp member with inLast | inEnding
    · exact solid character inLast
    · exact solid_lineEnd isEnd character inEnding
  have lastNotReturn : last.getLast? ≠ some '\r' := fun ends => notReturn (lastOf ends)
  have lastNotNewline : last.getLast? ≠ some '\n' := fun ends => notNewline (lastOf ends)
  have trimmed : (last ++ ending).trimLineEnd = last.trimLineEnd := by
    have alone := trimLineEnd_append lastNotReturn lastNotNewline List.mem_cons_self
    rw [List.append_nil] at alone
    rw [alone, trimLineEnd_append lastNotReturn lastNotNewline isEnd]
  rw [List.append_assoc, cutThere _ extended, cutThere _ solid]
  apply SameWords.append
  intro position
  rw [wordAt_fields_solid extended, wordAt_fields_solid solid, trimmed]

theorem sameWords_line_lineEnd {line ending : Text} (notReturn : line.getLast? ≠ some '\r')
    (notNewline : line.getLast? ≠ some '\n') (isEnd : ending ∈ [] :: lineEnds) :
    SameWords (line ++ ending).stripComment.fields line.stripComment.fields := by
  have noComment : ending.stripComment = ending := by
    simp only [lineEnds, List.mem_cons, List.not_mem_nil, or_false] at isEnd
    rcases isEnd with rfl | rfl | rfl | rfl <;> rfl
  obtain ⟨comment, shape, codeOnly, start⟩ := exists_comment line
  rcases start with rfl | ⟨remark, rfl⟩
  · have same : line.stripComment = line := by simpa using shape.symm
    rw [same] at codeOnly
    rw [stripComment_append codeOnly, noComment, same]
    exact sameWords_lineEnd notReturn notNewline isEnd
  · have same : (line ++ ending).stripComment = line.stripComment := by
      conv_lhs => rw [shape, List.append_assoc, stripComment_append codeOnly]
      simp [stripComment]
    rw [same]
    exact fun _ => rfl

def lineTerminators : List Text :=
  [['\n'], ['\r', '\n'], ['\r', '\r', '\n']]

/-- The text consists of the bodies, each with an end of a line behind it. The last one may go
without. -/
inductive Terminated : List Text → Text → Prop
  | nil : Terminated [] []
  | last (body : Text) : Terminated [body] body
  | line {body ending text : Text} {bodies : List Text} :
      ending ∈ lineTerminators → Terminated bodies text →
        Terminated (body :: bodies) (body ++ ending ++ text)

theorem lines_terminator {body ending : Text} (inLine : '\n' ∉ body)
    (notReturn : body.getLast? ≠ some '\r') (isEnd : ending ∈ lineTerminators) (rest : Text) :
    ∃ kept ∈ [] :: lineEnds, lines (body ++ ending ++ rest) = (body ++ kept) :: lines rest := by
  simp only [lineTerminators, List.mem_cons, List.not_mem_nil, or_false] at isEnd
  rcases isEnd with rfl | rfl | rfl
  · refine ⟨[], by simp, ?_⟩
    rw [List.append_assoc, List.singleton_append, lines_newline inLine, dropEnding_of_ne notReturn,
      List.append_nil]
  · have split : body ++ ['\r', '\n'] ++ rest = (body ++ ['\r']) ++ '\n' :: rest := by simp
    refine ⟨[], by simp, ?_⟩
    rw [split, lines_newline (by simpa using inLine), dropEnding_append, List.append_nil]
  · have split : body ++ ['\r', '\r', '\n'] ++ rest =
        (body ++ ['\r'] ++ ['\r']) ++ '\n' :: rest := by simp
    refine ⟨['\r'], by simp [lineEnds], ?_⟩
    rw [split, lines_newline (by simpa using inLine), dropEnding_append]

end Text

namespace Assembler

theorem assembleLine_append_lineEnd {assembler : Assembler}
    (unregistered : assembler.registered = []) {line ending : Text}
    (notReturn : line.getLast? ≠ some '\r') (notNewline : line.getLast? ≠ some '\n')
    (isEnd : ending ∈ [] :: Text.lineEnds) :
    assembler.assembleLine (line ++ ending) = assembler.assembleLine line :=
  assembleLine_congr unregistered (Text.sameWords_line_lineEnd notReturn notNewline isEnd)

theorem assembleLines_cons_congr {assembler : Assembler} {left right : Text}
    (same : assembler.assembleLine left = assembler.assembleLine right)
    {leftRest rightRest : List Text}
    (rest : ∀ number, assembler.assembleLines number leftRest =
      assembler.assembleLines number rightRest) (number : Nat) :
    assembler.assembleLines number (left :: leftRest) =
      assembler.assembleLines number (right :: rightRest) := by
  simp only [assembleLines, same, rest]

theorem assembleLines_blank (assembler : Assembler) (number : Nat) :
    assembler.assembleLines number [[]] = assembler.assembleLines number [] := by
  rfl

theorem assembleLines_terminated {assembler : Assembler}
    (unregistered : assembler.registered = []) {bodies : List Text} {text : Text}
    (terminated : Text.Terminated bodies text)
    (inLine : ∀ body ∈ bodies, '\n' ∉ body ∧ body.getLast? ≠ some '\r') (number : Nat) :
    assembler.assembleLines number text.lines = assembler.assembleLines number bodies := by
  induction terminated generalizing number with
  | nil => rfl
  | last body =>
      by_cases empty : body = []
      · rw [empty]
        exact (assembler.assembleLines_blank number).symm
      · rw [Text.lines_unterminated (inLine body (by simp)).1 empty]
  | @line body ending text bodies isEnd _ ih =>
      obtain ⟨noNewline, notReturn⟩ := inLine body (by simp)
      obtain ⟨kept, isKept, cut⟩ := Text.lines_terminator noNewline notReturn isEnd text
      have notNewline : body.getLast? ≠ some '\n' := fun ends =>
        noNewline (List.mem_of_getLast? ends)
      have same := assembleLine_append_lineEnd unregistered notReturn notNewline isKept
      rw [cut]
      exact assembleLines_cons_congr same
        (ih fun other member => inLine other (List.mem_cons_of_mem _ member)) number

/-- The end of a line makes no difference to what the line assembles to, and the ends of the lines
of a source text make none to its reports and its log. -/
theorem assembles_with_any_lineEnd (tables : Tables) (config : AssemblerConfig) :
    (∀ line ending : Text, line.getLast? ≠ some '\r' → line.getLast? ≠ some '\n' →
      ending ∈ [] :: Text.lineEnds →
        ({ tables, config } : Assembler).assembleLine (line ++ ending) =
          ({ tables, config } : Assembler).assembleLine line) ∧
      ∀ (bodies : List Text) (left right : Text),
        (∀ body ∈ bodies, '\n' ∉ body ∧ body.getLast? ≠ some '\r') →
          Text.Terminated bodies left → Text.Terminated bodies right →
            ({ tables, config } : Assembler).assembleSource left =
              ({ tables, config } : Assembler).assembleSource right := by
  refine ⟨fun _ _ => assembleLine_append_lineEnd rfl, ?_⟩
  intro bodies left right inLine leftTerminated rightTerminated
  rw [assembleSource, assembleSource, assembleLines_terminated rfl leftTerminated inLine,
    assembleLines_terminated rfl rightTerminated inLine]

theorem assembles_with_any_lineEnd_mixed :
    ({} : Assembler).assembleLine "s_add_u32 s0, s1, s2\r\n".toList =
        ({} : Assembler).assembleLine "s_add_u32 s0, s1, s2".toList ∧
      ({} : Assembler).assembleSource "s_add_u32 s0, s1, s2\r\r\n\r\ns_nop ".toList =
        ({} : Assembler).assembleSource "s_add_u32 s0, s1, s2\n\ns_nop \n".toList := by
  have lineFeed : ['\n'] ∈ Text.lineTerminators := by decide
  have returned : ['\r', '\n'] ∈ Text.lineTerminators := by decide
  have doubled : ['\r', '\r', '\n'] ∈ Text.lineTerminators := by decide
  obtain ⟨ofLine, ofSource⟩ := assembles_with_any_lineEnd .southernIslands {}
  refine ⟨ofLine "s_add_u32 s0, s1, s2".toList ['\r', '\n'] (by decide) (by decide) (by decide), ?_⟩
  refine ofSource ["s_add_u32 s0, s1, s2".toList, [], "s_nop ".toList] _ _ ?_ ?_ ?_
  · intro body member
    simp only [List.mem_cons, List.not_mem_nil, or_false] at member
    rcases member with rfl | rfl | rfl <;> decide
  · exact .line doubled (.line returned (.last _))
  · exact .line lineFeed (.line lineFeed (.line lineFeed .nil))

end Assembler

end ShaderAssembler

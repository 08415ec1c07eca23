import ShaderAssembler.Json.Parser
import ShaderAssembler.Json.Printer
import ShaderAssembler.Proofs.Numeral

/-! Strings and numbers in JSON text. Each is read back as it was printed, up to its end and
whatever text stands behind it. -/

namespace ShaderAssembler

namespace Json

/-! ### Strings -/

def pieceOf (character : Char) : StringPiece :=
  if character.toNat < 32 ∧ character ∉ ['\x08', '\x0c', '\n', '\r', '\t'] then
    .unit character.toNat
  else .character character

theorem escape_cases (character : Char) :
    (∃ mark, escaped? mark = some character ∧ escape character = ['\\', mark] ∧
      pieceOf character = .character character) ∨
    (character.toNat < 32 ∧ escape character = '\\' :: 'u' :: hexDigits 4 character.toNat ∧
      pieceOf character = .unit character.toNat) ∨
    (32 ≤ character.toNat ∧ character ≠ '"' ∧ character ≠ '\\' ∧ escape character = [character] ∧
      pieceOf character = .character character) := by
  by_cases short : character ∈ ['"', '\\', '\x08', '\x0c', '\n', '\r', '\t']
  · left
    simp only [List.mem_cons, List.not_mem_nil, or_false] at short
    rcases short with rfl | rfl | rfl | rfl | rfl | rfl | rfl
    · exact ⟨'"', rfl, rfl, rfl⟩
    · exact ⟨'\\', rfl, rfl, rfl⟩
    · exact ⟨'b', rfl, rfl, rfl⟩
    · exact ⟨'f', rfl, rfl, rfl⟩
    · exact ⟨'n', rfl, rfl, rfl⟩
    · exact ⟨'r', rfl, rfl, rfl⟩
    · exact ⟨'t', rfl, rfl, rfl⟩
  · right
    simp only [List.mem_cons, List.not_mem_nil, or_false, not_or] at short
    by_cases control : character.toNat < 32
    · left
      simp [control, escape, pieceOf, short]
    · right
      refine ⟨by omega, short.1, short.2.1, ?_, ?_⟩
      · simp [escape, short, control]
      · simp [pieceOf, control]

theorem readPieces?_short {mark character : Char} (escaped : escaped? mark = some character)
    (rest : Text) :
    readPieces? ('\\' :: mark :: rest) =
      (readPieces? rest).map fun (pieces, rest) => (.character character :: pieces, rest) := by
  have notUnit : mark ≠ 'u' := by
    rintro rfl
    exact nomatch escaped
  rw [readPieces?.eq_4 _ _ (by simp [notUnit]), escaped]
  cases readPieces? rest <;> rfl

theorem readPieces?_unit {unit : Nat} (small : unit < 0x10000) (rest : Text) :
    readPieces? ('\\' :: 'u' :: hexDigits 4 unit ++ rest) =
      (readPieces? rest).map fun (pieces, rest) => (.unit unit :: pieces, rest) := by
  have read : readDigits? 16 0 (hexDigits 4 unit) = some unit := by
    rw [readDigits?_hexDigits, Nat.mod_eq_of_lt (by omega)]
  simp only [hexDigits, List.nil_append, List.cons_append] at read ⊢
  rw [readPieces?, read]
  cases readPieces? rest <;> rfl

theorem readPieces?_plain {character : Char} (printable : 32 ≤ character.toNat)
    (noQuote : character ≠ '"') (noBackslash : character ≠ '\\') (rest : Text) :
    readPieces? (character :: rest) =
      (readPieces? rest).map fun (pieces, rest) => (.character character :: pieces, rest) := by
  have plain : ¬ (character.toNat < 32 ∨ character = '\\') := by
    simp [noBackslash, printable]
  rw [readPieces?.eq_5 _ _ (by simp [noQuote]) (by simp [noBackslash]) (by simp [noBackslash]),
    if_neg plain]
  cases readPieces? rest <;> rfl

theorem readPieces?_escape (character : Char) (rest : Text) :
    readPieces? (escape character ++ rest) =
      (readPieces? rest).map fun (pieces, rest) => (pieceOf character :: pieces, rest) := by
  obtain ⟨mark, escaped, written, piece⟩ | ⟨control, written, piece⟩ |
    ⟨printable, noQuote, noBackslash, written, piece⟩ := escape_cases character
  · rw [written, piece]
    exact readPieces?_short escaped rest
  · rw [written, piece]
    exact readPieces?_unit (by omega) rest
  · rw [written, piece]
    exact readPieces?_plain printable noQuote noBackslash rest

theorem readPieces?_flatMap_escape (text rest : Text) :
    readPieces? (text.flatMap escape ++ '"' :: rest) = some (text.map pieceOf, rest) := by
  induction text with
  | nil => rfl
  | cons first more ih =>
      rw [List.flatMap_cons, List.append_assoc, readPieces?_escape, ih]
      rfl

theorem joinPieces?_unit {unit : Nat} (small : unit < 0xD800) (rest : List StringPiece) :
    joinPieces? (.unit unit :: rest) = (joinPieces? rest).map (Char.ofNat unit :: ·) := by
  have notHigh : isHighSurrogate unit = false := by
    simp [isHighSurrogate, small]
  have notLow : isLowSurrogate unit = false := by
    simp only [isLowSurrogate, decide_eq_false_iff_not]
    omega
  rw [joinPieces?.eq_def]
  split <;> simp_all

theorem joinPieces?_map_pieceOf (text : Text) : joinPieces? (text.map pieceOf) = some text := by
  induction text with
  | nil => rfl
  | cons first rest ih =>
      obtain ⟨_, _, _, piece⟩ | ⟨control, _, piece⟩ | ⟨_, _, _, _, piece⟩ := escape_cases first
      · rw [List.map_cons, piece, joinPieces?, ih, Option.map_some]
      · rw [List.map_cons, piece, joinPieces?_unit (by omega), ih, Option.map_some,
          Char.ofNat_toNat]
      · rw [List.map_cons, piece, joinPieces?, ih, Option.map_some]

theorem readString?_quote (text : Option Text) :
    ∃ body, quote text = '"' :: body ∧
      ∀ rest, readString? (body ++ rest) = some (text, rest) := by
  cases text with
  | none => exact ⟨"\\ud800\"".toList, rfl, fun _ => rfl⟩
  | some text =>
      refine ⟨text.flatMap escape ++ ['"'], rfl, ?_⟩
      intro rest
      rw [List.append_assoc, readString?]
      simp only [List.cons_append, List.nil_append]
      rw [readPieces?_flatMap_escape, Option.map_some, joinPieces?_map_pieceOf]

/-! ### Numbers -/

def NoDigit (text : Text) : Prop :=
  ∀ character ∈ text.head?, digit? character = none

/-- A number in front of the text ends there: the text starts with none of the characters that
continue one. -/
def EndsNumber (text : Text) : Prop :=
  ∀ character ∈ text.head?, digit? character = none ∧ character ∉ ['.', 'e', 'E']

theorem digit?_digitChar (digit : Fin 10) : digit? (Nat.digitChar digit.val) = some digit := by
  revert digit
  decide

theorem takeDigits_digits (values : List (Fin 10)) {rest : Text} (noDigit : NoDigit rest) :
    takeDigits (digits values ++ rest) = (values, rest) := by
  induction values with
  | nil =>
      cases rest with
      | nil => rfl
      | cons first more => simp [digits, takeDigits, noDigit first rfl]
  | cons digit more ih =>
      have tail : takeDigits (more.map (fun digit => Nat.digitChar digit.val) ++ rest) =
          (more, rest) := ih
      simp [digits, takeDigits, digit?_digitChar, tail]

theorem exists_digits_decimal (value : Nat) :
    ∃ first more, decimal value = digits (first :: more) ∧ ofDigits (first :: more) = value ∧
      (first = 0 → more = []) := by
  induction value using Nat.strongRecOn with
  | ind value ih =>
      by_cases single : value < 10
      · refine ⟨⟨value, single⟩, [], ?_, ?_, fun _ => rfl⟩
        · simp [decimal, digits, Nat.toDigits_of_lt_base single]
        · simp [ofDigits]
      · obtain ⟨first, more, spelled, same, leading⟩ := ih (value / 10) (by omega)
        refine ⟨first, more ++ [⟨value % 10, Nat.mod_lt value (by omega)⟩], ?_, ?_, ?_⟩
        · have split : decimal value = decimal (value / 10) ++ [Nat.digitChar (value % 10)] :=
            Nat.toDigits_of_base_le (by omega) (by omega)
          rw [split, spelled]
          simp [digits]
        · have split : ofDigits (first :: (more ++ [⟨value % 10, Nat.mod_lt value (by omega)⟩])) =
              ofDigits (first :: more) * 10 + value % 10 := by
            simp [ofDigits, List.foldl_append]
          rw [split, same]
          omega
        · intro zero
          rw [zero, leading zero] at same
          have vanished : ofDigits [0] = 0 := rfl
          omega

theorem readWhole?_decimal (value : Nat) {rest : Text} (noDigit : NoDigit rest) :
    readWhole? (decimal value ++ rest) = some (value, rest) := by
  obtain ⟨first, more, spelled, rfl, leading⟩ := exists_digits_decimal value
  rw [spelled, readWhole?, takeDigits_digits _ noDigit]
  cases more with
  | nil => simp [ofDigits]
  | cons second others =>
      have nonzero : first ≠ 0 := fun zero => nomatch leading zero
      simp [nonzero]

def fractionText (fraction : List (Fin 10)) : Text :=
  if fraction.isEmpty then [] else '.' :: digits fraction

def exponentText : Option JsonExponent → Text
  | none => []
  | some exponent => 'e' :: sign exponent.negative ++ digits (exponent.first :: exponent.rest)

theorem renderNumber_eq (number : JsonNumber) :
    renderNumber number = sign number.negative ++
      (decimal number.whole ++ (fractionText number.fraction ++ exponentText number.exponent)) := by
  rw [renderNumber, fractionText, List.append_assoc, List.append_assoc]
  rfl

theorem readFraction?_fractionText (fraction : List (Fin 10)) {rest : Text}
    (noDigit : NoDigit rest) (noPoint : rest.head? ≠ some '.') :
    readFraction? (fractionText fraction ++ rest) = some (fraction, rest) := by
  cases fraction with
  | nil =>
      unfold readFraction?
      split
      · rename_i shape
        exact absurd (by rw [← List.head?_cons, ← shape]; rfl) noPoint
      · rfl
  | cons first more =>
      have taken := takeDigits_digits (first :: more) noDigit
      simp [fractionText, readFraction?, taken]

theorem ne_of_digit {character other : Char} {digit : Fin 10}
    (isDigit : digit? character = some digit) (noDigit : digit? other = none) :
    character ≠ other := by
  rintro rfl
  rw [noDigit] at isDigit
  exact nomatch isDigit

theorem readSign_sign (negative : Bool) (first : Fin 10) (rest : Text) :
    readSign (sign negative ++ Nat.digitChar first.val :: rest) =
      (negative, Nat.digitChar first.val :: rest) := by
  have isDigit := digit?_digitChar first
  have noMinus : Nat.digitChar first.val ≠ '-' := ne_of_digit isDigit rfl
  have noPlus : Nat.digitChar first.val ≠ '+' := ne_of_digit isDigit rfl
  cases negative with
  | true => rfl
  | false => exact readSign.eq_3 _ (by simp [sign, noMinus]) (by simp [sign, noPlus])

theorem readExponentDigits?_sign (exponent : JsonExponent) {rest : Text} (noDigit : NoDigit rest) :
    readExponentDigits?
        (sign exponent.negative ++ (digits (exponent.first :: exponent.rest) ++ rest)) =
      some (some exponent, rest) := by
  have taken := takeDigits_digits (exponent.first :: exponent.rest) noDigit
  have unsigned := readSign_sign exponent.negative exponent.first (digits exponent.rest ++ rest)
  simp only [digits, List.map_cons, List.cons_append] at taken unsigned ⊢
  simp only [readExponentDigits?, unsigned, taken]

theorem EndsNumber.noDigit {rest : Text} (ends : EndsNumber rest) : NoDigit rest :=
  fun character first => (ends character first).1

theorem readExponent?_exponentText (exponent : Option JsonExponent) {rest : Text}
    (ends : EndsNumber rest) :
    readExponent? (exponentText exponent ++ rest) = some (exponent, rest) := by
  cases exponent with
  | none =>
      have noMark : ∀ mark ∈ ['e', 'E'], ∀ text, rest = mark :: text → False := by
        rintro mark isMark text rfl
        exact (ends mark rfl).2 (List.mem_cons_of_mem _ isMark)
      exact readExponent?.eq_3 rest (noMark 'e' (by simp)) (noMark 'E' (by simp))
  | some exponent =>
      have read := readExponentDigits?_sign exponent ends.noDigit
      simp only [exponentText, List.cons_append, List.append_assoc, readExponent?] at read ⊢
      exact read

theorem noDigit_exponentText (exponent : Option JsonExponent) {rest : Text}
    (ends : EndsNumber rest) :
    NoDigit (exponentText exponent ++ rest) ∧ (exponentText exponent ++ rest).head? ≠ some '.' := by
  cases exponent with
  | none => exact ⟨ends.noDigit, fun point => (ends '.' point).2 (by simp)⟩
  | some exponent =>
      refine ⟨?_, by simp [exponentText]⟩
      rintro character ⟨⟩
      rfl

theorem noDigit_fractionText (fraction : List (Fin 10)) {rest : Text} (noDigit : NoDigit rest) :
    NoDigit (fractionText fraction ++ rest) := by
  cases fraction with
  | nil => exact noDigit
  | cons first more =>
      rintro character ⟨⟩
      rfl

theorem readUnsigned?_render (number : JsonNumber) {rest : Text} (ends : EndsNumber rest) :
    readUnsigned? number.negative (decimal number.whole ++
        (fractionText number.fraction ++ (exponentText number.exponent ++ rest))) =
      some (number, rest) := by
  obtain ⟨noDigit, noPoint⟩ := noDigit_exponentText number.exponent ends
  have whole := readWhole?_decimal number.whole (noDigit_fractionText number.fraction noDigit)
  have fraction := readFraction?_fractionText number.fraction noDigit noPoint
  have exponent := readExponent?_exponentText number.exponent ends
  simp [readUnsigned?, whole, fraction, exponent]

theorem readNumber?_renderNumber (number : JsonNumber) {rest : Text} (ends : EndsNumber rest) :
    readNumber? (renderNumber number ++ rest) = some (number, rest) := by
  have unsigned := readUnsigned?_render number ends
  obtain ⟨first, more, spelled, _⟩ := exists_digits_decimal number.whole
  have noMinus : Nat.digitChar first.val ≠ '-' := ne_of_digit (digit?_digitChar first) rfl
  rw [renderNumber_eq]
  simp only [List.append_assoc]
  cases signed : number.negative with
  | true =>
      rw [signed] at unsigned
      exact unsigned
  | false =>
      rw [signed] at unsigned
      rw [← unsigned]
      exact readNumber?.eq_2 _ (by simp [spelled, sign, digits, noMinus])

end Json

end ShaderAssembler

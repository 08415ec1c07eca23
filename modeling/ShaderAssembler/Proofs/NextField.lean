import Mathlib.Data.List.TakeWhile
import ShaderAssembler.Proofs.TextBytes
import ShaderAssembler.Text.Field

/-! The search for the next field, with any set of delimiters. A delimiter is found as a character
and passed as one byte, so the search fails as soon as it has to pass a delimiter of more bytes. -/

namespace ShaderAssembler

namespace Text

def behindBytes? (text : Text) (count : Nat) : Option Text :=
  (ofBytes (text.toBytes.drop count)).toOption

theorem isSingleByte_iff (character : Char) :
    isSingleByte character = true ↔ (String.utf8EncodeChar character).length = 1 := by
  rw [String.length_utf8EncodeChar, Char.utf8Size_eq_one_iff, UInt32.le_iff_toNat_le, isSingleByte,
    decide_eq_true_eq]
  exact Nat.lt_succ_iff

theorem ofBytes_of_continuation {first : UInt8} (inside : ¬ first.IsUTF8FirstByte) (rest : Bytes) :
    ofBytes (first :: rest) = .error .notText := by
  have invalid : ¬ (⟨(first :: rest).toArray⟩ : ByteArray).IsValidUTF8 := fun valid =>
    inside (valid.isUTF8FirstByte_getElem_zero (Nat.succ_pos _))
  rw [ofBytes, String.fromUTF8?, dif_neg invalid]

theorem ofBytes_drop_one_of_wide {first : Char} (wide : isSingleByte first = false) (rest : Text) :
    ofBytes ((toBytes (first :: rest)).drop 1) = .error .notText := by
  have long : 1 < (String.utf8EncodeChar first).length := by
    have single := (isSingleByte_iff first).not.mp (by simp [wide])
    have nonempty := List.length_pos_iff.mpr (String.utf8EncodeChar_ne_nil (c := first))
    omega
  have inside : ¬ ((String.utf8EncodeChar first).get ⟨1, long⟩).IsUTF8FirstByte := by
    intro starts
    exact absurd (UInt8.isUTF8FirstByte_getElem_utf8EncodeChar.mp starts) (by decide)
  rw [toBytes_eq_flatMap, List.flatMap_cons, List.drop_append_of_le_length (by omega),
    List.drop_eq_getElem_cons long, List.cons_append]
  exact ofBytes_of_continuation inside _

theorem behindBytes?_append (before : Text) (character : Char) (rest : Text) :
    behindBytes? (before ++ character :: rest) (before.toBytes.length + 1) =
      if isSingleByte character then some rest else none := by
  have bytes : (before ++ character :: rest).toBytes.drop (before.toBytes.length + 1) =
      (toBytes (character :: rest)).drop 1 := by
    rw [toBytes_eq_flatMap, toBytes_eq_flatMap, toBytes_eq_flatMap, List.flatMap_append,
      List.drop_length_add_append]
  rw [behindBytes?, bytes]
  by_cases single : isSingleByte character = true
  · rw [if_pos single, ofBytes_drop_one ((isSingleByte_iff character).mp single)]
    rfl
  · rw [if_neg single, ofBytes_drop_one_of_wide (by simpa using single)]
    rfl

def LongestRun (kind : Char → Prop) (text run : Text) : Prop :=
  run <+: text ∧ (∀ character ∈ run, kind character) ∧
    ∀ other, other <+: text → (∀ character ∈ other, kind character) → other.length ≤ run.length

theorem longestRun_append_iff (kind : Char → Prop) (run rest : Text) :
    LongestRun kind (run ++ rest) run ↔
      (∀ character ∈ run, kind character) ∧ ∀ next ∈ rest.head?, ¬ kind next := by
  constructor
  · rintro ⟨_, ofKind, longest⟩
    refine ⟨ofKind, ?_⟩
    intro next isNext nextOfKind
    obtain ⟨more, rfl⟩ := List.head?_eq_some_iff.mp isNext
    have longer := longest (run ++ [next]) (List.prefix_append_right_inj run |>.mpr (by simp))
      (List.forall_mem_append.mpr ⟨ofKind, by simpa using nextOfKind⟩)
    rw [List.length_append, List.length_singleton] at longer
    omega
  · rintro ⟨ofKind, stops⟩
    refine ⟨List.prefix_append run rest, ofKind, ?_⟩
    intro other starts otherOfKind
    by_contra longer
    -- The longer run goes on behind the shorter one, so it holds the character that stops it.
    obtain ⟨more, rfl⟩ := List.prefix_of_prefix_length_le (List.prefix_append run rest) starts
      (by omega)
    obtain ⟨next, more, rfl⟩ : ∃ next rest, more = next :: rest := by
      apply List.exists_cons_of_ne_nil
      rintro rfl
      simp at longer
    obtain ⟨behind, rfl⟩ := (List.prefix_append_right_inj run).mp starts
    exact stops next (by simp) (otherOfKind next (by simp))

/-- A text as the search meets it: delimiters, a field, the delimiter behind the field and the rest.
The field is empty only if the text holds none. -/
structure Cut (delimiters : List Char) (text leading field : Text) (delimiter : Option Char)
    (rest : Text) : Prop where
  whole : text = leading ++ (field ++ (delimiter.toList ++ rest))
  leading : LongestRun (· ∈ delimiters) text leading
  field : LongestRun (· ∉ delimiters) (field ++ (delimiter.toList ++ rest)) field
  ended : delimiter = none → rest = []

theorem longestRun_takeWhile (kind : Char → Prop) [DecidablePred kind] (text : Text) :
    LongestRun kind (text.takeWhile kind ++ text.dropWhile kind) (text.takeWhile kind) := by
  rw [longestRun_append_iff]
  constructor
  · intro character member
    simpa using List.mem_takeWhile_imp member
  · intro next isNext
    have stopped := List.head?_dropWhile_not kind text
    rw [Option.mem_def.mp isNext] at stopped
    simpa using stopped

theorem exists_cut (delimiters : List Char) (text : Text) :
    ∃ leading field delimiter rest, Cut delimiters text leading field delimiter rest := by
  let following := text.dropWhile (· ∈ delimiters)
  let behind := following.dropWhile (· ∉ delimiters)
  have split : behind.head?.toList ++ behind.tail = behind := by
    cases behind <;> rfl
  refine ⟨text.takeWhile (· ∈ delimiters), following.takeWhile (· ∉ delimiters), behind.head?,
    behind.tail, ?_, ?_, ?_, ?_⟩
  · rw [split, List.takeWhile_append_dropWhile, List.takeWhile_append_dropWhile]
  · have run := longestRun_takeWhile (· ∈ delimiters) text
    rwa [List.takeWhile_append_dropWhile] at run
  · rw [split]
    exact longestRun_takeWhile (· ∉ delimiters) following
  · intro ended
    rw [List.head?_eq_none_iff.mp ended, List.tail_nil]

variable {delimiters : List Char}

theorem nextField_of_free {text : Text} (nonempty : text ≠ [])
    (free : ∀ character ∈ text, character ∉ delimiters) :
    nextField delimiters text = .found text [] := by
  obtain ⟨first, more, rfl⟩ := List.exists_cons_of_ne_nil nonempty
  obtain ⟨inField, moreFree⟩ := List.forall_mem_cons.mp free
  have passed : ∀ character ∈ more, decide (character ∉ delimiters) = true := by
    simpa using moreFree
  rw [nextField, if_neg inField, List.takeWhile_eq_self_iff.mpr passed,
    List.dropWhile_eq_nil_iff.mpr passed]

theorem nextField_turn {field : Text} (free : ∀ character ∈ field, character ∉ delimiters)
    {delimiter : Char} (isDelimiter : delimiter ∈ delimiters) (rest : Text) :
    nextField delimiters (field ++ delimiter :: rest) =
      (behindBytes? (field ++ delimiter :: rest) (field.toBytes.length + 1)).elim .wideDelimiter
        fun tail => if field = [] then nextField delimiters tail else .found field tail := by
  rw [behindBytes?_append]
  cases field with
  | nil =>
      rw [List.nil_append, nextField, if_pos isDelimiter]
      split <;> rfl
  | cons first more =>
      obtain ⟨inField, moreFree⟩ := List.forall_mem_cons.mp free
      have passed : ∀ character ∈ more, decide (character ∉ delimiters) = true := by
        simpa using moreFree
      rw [List.cons_append, nextField, if_neg inField, List.takeWhile_append_of_pos passed,
        List.dropWhile_append_of_pos passed, List.takeWhile_cons_of_neg (by simpa using isDelimiter),
        List.dropWhile_cons_of_neg (by simpa using isDelimiter), List.append_nil]
      by_cases single : isSingleByte delimiter = true
      · simp [single]
      · simp [single]

theorem nextField_leading {leading : Text} (blank : ∀ character ∈ leading, character ∈ delimiters)
    (following : Text) :
    nextField delimiters (leading ++ following) =
      if leading.all isSingleByte then nextField delimiters following else .wideDelimiter := by
  induction leading with
  | nil => rfl
  | cons first more ih =>
      obtain ⟨isDelimiter, moreBlank⟩ := List.forall_mem_cons.mp blank
      have turn := @nextField_turn delimiters [] (by simp) first isDelimiter (more ++ following)
      rw [behindBytes?_append, List.nil_append] at turn
      rw [List.cons_append, turn, List.all_cons]
      by_cases single : isSingleByte first = true
      · rw [if_pos single, Option.elim_some, if_pos rfl, ih moreBlank, single, Bool.true_and]
      · rw [if_neg single, Option.elim_none, if_neg (by simp [single])]

namespace Cut

variable {text leading field rest : Text} {delimiter : Option Char}
  (cut : Cut delimiters text leading field delimiter rest)
include cut

theorem leading_spec :
    (∀ character ∈ leading, character ∈ delimiters) ∧
      ∀ next ∈ (field ++ (delimiter.toList ++ rest)).head?, next ∉ delimiters := by
  have run := cut.leading
  rwa [cut.whole, longestRun_append_iff] at run

theorem field_spec :
    (∀ character ∈ field, character ∉ delimiters) ∧
      ∀ next ∈ (delimiter.toList ++ rest).head?, next ∈ delimiters := by
  have run := cut.field
  rw [longestRun_append_iff] at run
  simpa only [not_not] using run

theorem delimiter_eq_none (empty : field = []) : delimiter = none := by
  cases delimiter with
  | none => rfl
  | some next =>
      have notDelimiter := cut.leading_spec.2 next (by simp [empty])
      exact absurd (cut.field_spec.2 next (by simp)) notDelimiter

theorem nextField_following :
    nextField delimiters (field ++ (delimiter.toList ++ rest)) =
      if delimiter.all isSingleByte then
        if field = [] then .exhausted else .found field rest
      else .wideDelimiter := by
  obtain ⟨free, stops⟩ := cut.field_spec
  cases delimiter with
  | none =>
      rw [cut.ended rfl, Option.toList_none, List.append_nil, List.append_nil, Option.all_none,
        if_pos rfl]
      by_cases empty : field = []
      · rw [empty]
        rfl
      · rw [if_neg empty, nextField_of_free empty free]
  | some next =>
      have nonempty : field ≠ [] := by
        intro empty
        simpa using cut.delimiter_eq_none empty
      have turn := nextField_turn free (stops next (by simp)) rest
      rw [behindBytes?_append] at turn
      rw [Option.toList_some, List.singleton_append, turn, Option.all_some, if_neg nonempty]
      by_cases single : isSingleByte next = true
      · rw [if_pos single, if_pos single, Option.elim_some, if_neg nonempty]
      · rw [if_neg single, if_neg single, Option.elim_none]

theorem nextField_eq :
    nextField delimiters text =
      if leading.all isSingleByte && delimiter.all isSingleByte then
        if field = [] then .exhausted else .found field rest
      else .wideDelimiter := by
  have skipped := nextField_leading cut.leading_spec.1 (field ++ (delimiter.toList ++ rest))
  rw [← cut.whole, cut.nextField_following] at skipped
  rw [skipped]
  by_cases single : leading.all isSingleByte = true
  · rw [if_pos single, single, Bool.true_and]
  · rw [if_neg single, if_neg (by simp [single])]

end Cut

theorem all_isSingleByte_iff (leading : Text) (delimiter : Option Char) :
    (leading.all isSingleByte && delimiter.all isSingleByte) = true ↔
      ¬ ((∃ character ∈ leading, 128 ≤ character.toNat) ∨
        ∃ character ∈ delimiter, 128 ≤ character.toNat) := by
  simp [isSingleByte, Option.all_eq_true]

theorem Cut.nextField_eq_wideDelimiter_iff {text leading field rest : Text}
    {delimiter : Option Char} (cut : Cut delimiters text leading field delimiter rest) :
    nextField delimiters text = .wideDelimiter ↔
      (∃ character ∈ leading, 128 ≤ character.toNat) ∨
        (field ≠ [] ∧ ∃ character ∈ delimiter, 128 ≤ character.toNat) := by
  have nonempty (ends : ∃ character ∈ delimiter, 128 ≤ character.toNat) : field ≠ [] := by
    intro empty
    simp [cut.delimiter_eq_none empty] at ends
  rw [and_iff_right_of_imp nonempty, cut.nextField_eq]
  by_cases narrow : (leading.all isSingleByte && delimiter.all isSingleByte) = true
  · rw [if_pos narrow, iff_false_right ((all_isSingleByte_iff leading delimiter).mp narrow)]
    split <;> simp
  · rw [if_neg narrow, eq_self, true_iff]
    exact not_not.mp (mt (all_isSingleByte_iff leading delimiter).mpr narrow)

theorem Cut.nextField_of_passed {text leading field rest : Text} {delimiter : Option Char}
    (cut : Cut delimiters text leading field delimiter rest)
    (passed : nextField delimiters text ≠ .wideDelimiter) :
    nextField delimiters text = if field = [] then .exhausted else .found field rest := by
  have outcome := cut.nextField_eq
  split at outcome
  · exact outcome
  · exact absurd outcome passed

/-- The search for a field ends at a delimiter of more than one byte if it has to pass one, before
the field or directly behind it. If not, it finds the first field unless there is none. -/
theorem nextField_exactly (delimiters : List Char) (text : Text) :
    (∀ (field : Text) delimiter rest, text = field ++ delimiter :: rest →
      (∀ character ∈ field, character ∉ delimiters) → delimiter ∈ delimiters →
        nextField delimiters text =
          (text.behindBytes? (field.toBytes.length + 1)).elim .wideDelimiter fun tail =>
            if field = [] then nextField delimiters tail else .found field tail) ∧
      (∃ leading field delimiter rest, Cut delimiters text leading field delimiter rest) ∧
      (∀ leading field delimiter rest, Cut delimiters text leading field delimiter rest →
        (nextField delimiters text = .wideDelimiter ↔
          (∃ character ∈ leading, 128 ≤ character.toNat) ∨
            (field ≠ [] ∧ ∃ character ∈ delimiter, 128 ≤ character.toNat)) ∧
        (nextField delimiters text ≠ .wideDelimiter →
          (nextField delimiters text = .exhausted ↔ field = []) ∧
          (field ≠ [] →
            nextField delimiters text = .found field rest ∧ rest.length < text.length))) ∧
      ((∀ delimiter ∈ delimiters, delimiter.toNat < 128) →
        nextField delimiters text ≠ .wideDelimiter) := by
  refine ⟨?_, exists_cut delimiters text, ?_, ?_⟩
  · rintro field delimiter rest rfl free isDelimiter
    exact nextField_turn free isDelimiter rest
  · intro leading field delimiter rest cut
    refine ⟨cut.nextField_eq_wideDelimiter_iff, ?_⟩
    intro passed
    have outcome := cut.nextField_of_passed passed
    by_cases empty : field = []
    · simp [outcome, empty]
    · rw [if_neg empty] at outcome
      exact ⟨by simp [outcome, empty], fun _ => ⟨outcome, nextField_length_lt outcome⟩⟩
  · intro narrow wide
    obtain ⟨leading, field, delimiter, rest, cut⟩ := exists_cut delimiters text
    rcases cut.nextField_eq_wideDelimiter_iff.mp wide with
      ⟨character, member, large⟩ | ⟨_, character, member, large⟩
    · have small := narrow character (cut.leading_spec.1 character member)
      omega
    · have small := narrow character (cut.field_spec.2 character (by simp [Option.mem_def.mp member]))
      omega

theorem nextField_exactly_middle_dot :
    let delimiters := [' ', '·']
    Cut delimiters " a·b".toList [' '] ['a'] (some '·') ['b'] ∧
      nextField delimiters " a·b".toList = .wideDelimiter ∧
      Cut delimiters " a ·b".toList [' '] ['a'] (some ' ') ['·', 'b'] ∧
      nextField delimiters " a ·b".toList = .found ['a'] ['·', 'b'] ∧
      nextField delimiters "a·b".toList =
        (behindBytes? "a·b".toList ((toBytes ['a']).length + 1)).elim .wideDelimiter
          (.found ['a']) ∧
      nextField fieldDelimiters " a·b".toList ≠ .wideDelimiter := by
  intro delimiters
  have wideCut : Cut delimiters " a·b".toList [' '] ['a'] (some '·') ['b'] :=
    ⟨rfl, (longestRun_append_iff _ [' '] ['a', '·', 'b']).mpr (by simp [delimiters]),
      (longestRun_append_iff ..).mpr (by simp [delimiters]), by simp⟩
  have cut : Cut delimiters " a ·b".toList [' '] ['a'] (some ' ') ['·', 'b'] :=
    ⟨rfl, (longestRun_append_iff _ [' '] ['a', ' ', '·', 'b']).mpr (by simp [delimiters]),
      (longestRun_append_iff ..).mpr (by simp [delimiters]), by simp⟩
  obtain ⟨wideOutcome, _⟩ := (nextField_exactly delimiters " a·b".toList).2.2.1 _ _ _ _ wideCut
  obtain ⟨outcome, passed⟩ := (nextField_exactly delimiters " a ·b".toList).2.2.1 _ _ _ _ cut
  refine ⟨wideCut, wideOutcome.mpr (Or.inr ⟨by simp, '·', rfl, by decide⟩), cut,
    ((passed ?_).2 (by simp)).1, ?_, ?_⟩
  · rw [ne_eq, outcome]
    simp
  · exact (nextField_exactly delimiters _).1 ['a'] '·' ['b'] rfl (by simp [delimiters])
      (by simp [delimiters])
  · exact (nextField_exactly fieldDelimiters _).2.2.2 (by simp [fieldDelimiters])

end Text

end ShaderAssembler

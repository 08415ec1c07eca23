import Mathlib.Data.List.Forall2
import Mathlib.Data.Nat.Digits.Defs
import Mathlib.Tactic.IntervalCases
import Mathlib.Tactic.Ring
import ShaderAssembler.Text.Numeral

/-! The grammar of numerals and what they are worth. Reading accepts the numerals of the grammar and
nothing else, and gives their exact value, however long they are. -/

namespace ShaderAssembler

def lowerDigits : Text := "0123456789abcdef".toList

def upperDigits : Text := "0123456789ABCDEF".toList

def IsDigit (radix : Nat) (character : Char) (digit : Nat) : Prop :=
  digit < radix ∧ (lowerDigits[digit]? = some character ∨ upperDigits[digit]? = some character)

/-- The text is one or more digits that are worth `value`. -/
def SpellsNatural (radix : Nat) (text : Text) (value : Nat) : Prop :=
  ∃ digits, digits ≠ [] ∧ List.Forall₂ (IsDigit radix) text digits ∧
    value = Nat.ofDigits radix digits.reverse

inductive SpellsInteger (radix : Nat) : Text → Int → Prop
  | unsigned {text : Text} {value : Nat} :
      SpellsNatural radix text value → SpellsInteger radix text value
  | plus {text : Text} {value : Nat} :
      SpellsNatural radix text value → SpellsInteger radix ('+' :: text) value
  | minus {text : Text} {value : Nat} :
      SpellsNatural radix text value → SpellsInteger radix ('-' :: text) (-value)

theorem lookup_of_range {table : Text} {first last character : Char} (start : Nat)
    (listed : ∀ offset ≤ last.toNat - first.toNat,
      table[offset + start]? = some (Char.ofNat (first.toNat + offset)))
    (range : first ≤ character ∧ character ≤ last) :
    table[character.toNat - first.toNat + start]? = some character := by
  have lower : first.toNat ≤ character.toNat := range.1
  have upper : character.toNat ≤ last.toNat := range.2
  rw [listed (character.toNat - first.toNat) (by omega), Nat.add_sub_cancel' lower,
    Char.ofNat_toNat]

theorem lookup_of_digitValue? {character : Char} {digit : Nat}
    (value : digitValue? character = some digit) :
    lowerDigits[digit]? = some character ∨ upperDigits[digit]? = some character := by
  unfold digitValue? at value
  split at value
  · rename_i range
    obtain rfl := Option.some.inj value
    exact Or.inl (lookup_of_range 0 (by decide) range)
  · split at value
    · rename_i range
      obtain rfl := Option.some.inj value
      exact Or.inl (lookup_of_range 10 (by decide) range)
    · split at value
      · rename_i range
        obtain rfl := Option.some.inj value
        exact Or.inr (lookup_of_range 10 (by decide) range)
      · cases value

theorem digitValue?_of_lookup {character : Char} {digit : Nat}
    (found : lowerDigits[digit]? = some character ∨ upperDigits[digit]? = some character) :
    digitValue? character = some digit := by
  have small : digit < 16 := by
    rcases found with lower | upper
    · exact (List.getElem?_eq_some_iff.mp lower).1
    · exact (List.getElem?_eq_some_iff.mp upper).1
  interval_cases digit <;> rcases found with found | found <;> cases found <;> rfl

theorem isDigit_iff (radix : Nat) (character : Char) (digit : Nat) :
    IsDigit radix character digit ↔ digitValue? character = some digit ∧ digit < radix := by
  constructor
  · rintro ⟨small, found⟩
    exact ⟨digitValue?_of_lookup found, small⟩
  · rintro ⟨value, small⟩
    exact ⟨small, lookup_of_digitValue? value⟩

theorem readDigits?_cons_eq_some_iff (radix value : Nat) (first : Char) (rest : Text)
    (result : Nat) :
    readDigits? radix value (first :: rest) = some result ↔
      ∃ digit, IsDigit radix first digit ∧
        readDigits? radix (value * radix + digit) rest = some result := by
  simp only [readDigits?, isDigit_iff]
  cases digitValue? first with
  | none => simp
  | some digit =>
      by_cases small : digit < radix
      · simp [small]
      · simp [small]

/-- Digits that follow a value move it up, one place for each of them. -/
theorem readDigits?_eq_some_iff (radix value : Nat) (text : Text) (result : Nat) :
    readDigits? radix value text = some result ↔
      ∃ digits, List.Forall₂ (IsDigit radix) text digits ∧
        result = value * radix ^ digits.length + Nat.ofDigits radix digits.reverse := by
  induction text generalizing value with
  | nil =>
      simp [readDigits?, eq_comm]
  | cons first rest ih =>
      rw [readDigits?_cons_eq_some_iff]
      simp only [ih, List.forall₂_cons_left_iff]
      have worth (digit : Nat) (digits : List Nat) :
          (value * radix + digit) * radix ^ digits.length + Nat.ofDigits radix digits.reverse =
            value * radix ^ (digit :: digits).length +
              Nat.ofDigits radix (digit :: digits).reverse := by
        rw [Nat.ofDigits_reverse_cons, List.length_cons, Nat.pow_succ]
        ring
      constructor
      · rintro ⟨digit, isDigit, digits, spelled, rfl⟩
        exact ⟨digit :: digits, ⟨digit, digits, isDigit, spelled, rfl⟩, worth digit digits⟩
      · rintro ⟨_, ⟨digit, digits, isDigit, spelled, rfl⟩, rfl⟩
        exact ⟨digit, isDigit, digits, spelled, (worth digit digits).symm⟩

theorem readNatural?_eq_some_iff (radix : Nat) (text : Text) (value : Nat) :
    readNatural? radix text = some value ↔ SpellsNatural radix text value := by
  rw [readNatural?, SpellsNatural]
  cases text with
  | nil => simp
  | cons first rest =>
      simp only [List.isEmpty_cons, Bool.false_eq_true, if_false, readDigits?_eq_some_iff,
        Nat.zero_mul, Nat.zero_add]
      refine exists_congr fun digits => ?_
      constructor
      · rintro ⟨spelled, worth⟩
        refine ⟨?_, spelled, worth⟩
        rintro rfl
        cases spelled
      · rintro ⟨_, spelled, worth⟩
        exact ⟨spelled, worth⟩

theorem not_spellsNatural_of_sign {radix value : Nat} {sign : Char} {rest : Text}
    (isSign : sign = '+' ∨ sign = '-') : ¬ SpellsNatural radix (sign :: rest) value := by
  rintro ⟨digits, _, spelled, _⟩
  obtain ⟨digit, _, isDigit, _⟩ := List.forall₂_cons_left_iff.mp spelled
  have valued := ((isDigit_iff _ _ _).mp isDigit).1
  rcases isSign with rfl | rfl
  · exact absurd valued (by simp [show digitValue? '+' = none from rfl])
  · exact absurd valued (by simp [show digitValue? '-' = none from rfl])

theorem readInteger?_eq_some_iff (radix : Nat) (text : Text) (value : Int) :
    readInteger? radix text = some value ↔ SpellsInteger radix text value := by
  constructor
  · intro read
    unfold readInteger? at read
    split at read
    · obtain ⟨natural, spelled, rfl⟩ := Option.map_eq_some_iff.mp read
      exact .plus ((readNatural?_eq_some_iff _ _ _).mp spelled)
    · rename_i digits
      obtain ⟨natural, spelled, rfl⟩ : ∃ natural,
          readNatural? radix digits = some natural ∧ -(natural : Int) = value := by
        simpa [Option.bind_eq_some_iff] using read
      exact .minus ((readNatural?_eq_some_iff _ _ _).mp spelled)
    · obtain ⟨natural, spelled, rfl⟩ := Option.map_eq_some_iff.mp read
      exact .unsigned ((readNatural?_eq_some_iff _ _ _).mp spelled)
  · intro spells
    cases spells with
    | plus spelled => simp [readInteger?, (readNatural?_eq_some_iff _ _ _).mpr spelled]
    | minus spelled => simp [readInteger?, (readNatural?_eq_some_iff _ _ _).mpr spelled]
    | unsigned spelled =>
        unfold readInteger?
        split
        · exact absurd spelled (not_spellsNatural_of_sign (Or.inl rfl))
        · exact absurd spelled (not_spellsNatural_of_sign (Or.inr rfl))
        · simp [(readNatural?_eq_some_iff _ _ _).mpr spelled]

theorem SpellsInteger.unique {radix : Nat} {text : Text} {left right : Int}
    (first : SpellsInteger radix text left) (second : SpellsInteger radix text right) :
    left = right := by
  rw [← readInteger?_eq_some_iff] at first second
  exact Option.some.inj (first.symm.trans second)

def IsInt64 (value : Int) : Prop :=
  -0x8000000000000000 ≤ value ∧ value ≤ 0x7FFFFFFFFFFFFFFF

instance (value : Int) : Decidable (IsInt64 value) :=
  inferInstanceAs (Decidable (_ ∧ _))

theorem readInt64?_eq_some_iff (radix : Nat) (text : Text) (value : Int) :
    readInt64? radix text = some value ↔ SpellsInteger radix text value ∧ IsInt64 value := by
  rw [readInt64?, Option.filter_eq_some_iff, readInteger?_eq_some_iff, fitsInt64,
    decide_eq_true_eq, IsInt64]

theorem readInt64?_eq_none_iff (radix : Nat) (text : Text) :
    readInt64? radix text = none ↔ ∀ value, SpellsInteger radix text value → ¬ IsInt64 value := by
  simp only [Option.eq_none_iff_forall_ne_some, ne_eq, readInt64?_eq_some_iff, not_and]

end ShaderAssembler

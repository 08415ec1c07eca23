import Mathlib.Tactic.IntervalCases
import ShaderAssembler.Text.Numeral

/-! Numerals read back what is written: the digits of a number, in any radix that has digits,
spell that number. -/

namespace ShaderAssembler

theorem digitValue?_digitChar {digit : Nat} (small : digit < 16) :
    digitValue? (Nat.digitChar digit) = some digit := by
  interval_cases digit <;> rfl

theorem readDigits?_append (radix value : Nat) (left right : Text) :
    readDigits? radix value (left ++ right) =
      (readDigits? radix value left).bind fun value => readDigits? radix value right := by
  induction left generalizing value with
  | nil => simp [readDigits?]
  | cons first rest ih =>
      simp only [List.cons_append, readDigits?]
      split
      · split
        · exact ih _
        · rfl
      · rfl

theorem readDigits?_digitChar {radix digit : Nat} (value : Nat) (upper : radix ≤ 16)
    (small : digit < radix) :
    readDigits? radix value [Nat.digitChar digit] = some (value * radix + digit) := by
  simp [readDigits?, digitValue?_digitChar (Nat.lt_of_lt_of_le small upper), small]

theorem readDigits?_toDigits {radix : Nat} (lower : 1 < radix) (upper : radix ≤ 16)
    (value : Nat) : readDigits? radix 0 (Nat.toDigits radix value) = some value := by
  induction value using Nat.strongRecOn with
  | ind value ih =>
      rw [Nat.toDigits_eq_if lower]
      split
      · rename_i single
        simpa using readDigits?_digitChar 0 upper single
      · have shorter := ih (value / radix) (Nat.div_lt_self (by omega) lower)
        have last := readDigits?_digitChar (value / radix) upper
          (Nat.mod_lt value (by omega : 0 < radix))
        rw [readDigits?_append, shorter, Option.bind_some, last, Nat.div_add_mod']

theorem readDigits?_hexDigits (count value : Nat) :
    readDigits? 16 0 (hexDigits count value) = some (value % 16 ^ count) := by
  induction count generalizing value with
  | zero => simp [hexDigits, readDigits?, Nat.mod_one]
  | succ count ih =>
      have last := readDigits?_digitChar (value / 16 % 16 ^ count) (Nat.le_refl 16)
        (Nat.mod_lt value (by omega))
      rw [hexDigits, readDigits?_append, ih, Option.bind_some, last, Nat.pow_succ', Nat.mod_mul]
      congr 1
      omega

theorem length_hexDigits (count value : Nat) : (hexDigits count value).length = count := by
  induction count generalizing value with
  | zero => rfl
  | succ count ih => rw [hexDigits, List.length_append, ih, List.length_singleton]

theorem exists_digit_of_mem_hexDigits {count value : Nat} {character : Char}
    (member : character ∈ hexDigits count value) :
    ∃ digit < 16, character = Nat.digitChar digit := by
  induction count generalizing value with
  | zero => cases member
  | succ count ih =>
      rw [hexDigits, List.mem_append, List.mem_singleton] at member
      rcases member with earlier | last
      · exact ih earlier
      · exact ⟨value % 16, Nat.mod_lt value (by omega), last⟩

theorem isDigit_of_mem_decimal {value : Nat} {character : Char}
    (member : character ∈ decimal value) : character.isDigit = true :=
  Nat.isDigit_of_mem_toDigits (by omega) (by omega) member

theorem decimal_ne_nil (value : Nat) : decimal value ≠ [] :=
  Nat.toDigits_ne_nil

theorem readNatural?_decimal (value : Nat) : readNatural? 10 (decimal value) = some value := by
  simp only [readNatural?, List.isEmpty_iff, decimal_ne_nil, if_false]
  exact readDigits?_toDigits (by omega) (by omega) value

theorem readInteger?_decimal (value : Nat) :
    readInteger? 10 (decimal value) = some (value : Int) := by
  have read := readNatural?_decimal value
  have digits (character : Char) (member : character ∈ decimal value) :=
    isDigit_of_mem_decimal member
  unfold readInteger?
  split
  · rename_i shape
    exact absurd (digits '+' (by simp [shape])) (by decide)
  · rename_i shape
    exact absurd (digits '-' (by simp [shape])) (by decide)
  · simp [read]

theorem readInt64?_decimal {value : Nat} (small : value < 2 ^ 63) :
    readInt64? 10 (decimal value) = some (value : Int) := by
  have fits : fitsInt64 (value : Int) = true := by
    simp only [fitsInt64, decide_eq_true_eq]
    omega
  simp [readInt64?, readInteger?_decimal, Option.filter, fits]

theorem readInt64?_negative {value : Nat} (small : value ≤ 2 ^ 63) :
    readInt64? 10 ('-' :: decimal value) = some (-(value : Int)) := by
  have fits : fitsInt64 (-(value : Int)) = true := by
    simp only [fitsInt64, decide_eq_true_eq]
    omega
  simp [readInt64?, readInteger?, readNatural?_decimal, Option.filter, fits]

end ShaderAssembler

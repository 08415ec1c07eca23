import Mathlib.Algebra.Group.Nat.Defs
import ShaderAssembler.Disassembly.Statement

/-! Bit fields of a word, bit by bit. A code that fits its field reads back from it, and leaves
every other field and the bits of the opcode as they are. -/

namespace ShaderAssembler

namespace BitField

theorem inWord_iff (field : BitField) :
    field.inWord = true ↔
      0 < field.width.toNat ∧ field.lsb.toNat + field.width.toNat ≤ 32 := by
  have zero : (0 : UInt64).toNat = 0 := rfl
  have bound : (32 : UInt64).toNat = 32 := rfl
  rw [inWord, decide_eq_true_eq, UInt64.lt_iff_toNat_lt, UInt64.le_iff_toNat_le,
    UInt64.le_iff_toNat_le, zero, bound]
  constructor
  · rintro ⟨positive, narrow, low⟩
    rw [UInt64.toNat_sub_of_le _ _ (UInt64.le_iff_toNat_le.mpr narrow), bound] at low
    exact ⟨positive, by omega⟩
  · rintro ⟨positive, inside⟩
    have narrow : field.width ≤ 32 := UInt64.le_iff_toNat_le.mpr (by rw [bound]; omega)
    refine ⟨positive, UInt64.le_iff_toNat_le.mp narrow, ?_⟩
    rw [UInt64.toNat_sub_of_le _ _ narrow, bound]
    omega

theorem toNat_max {field : BitField} (inWord : field.inWord = true) :
    (field.max (width_lt_of_inWord inWord)).toNat = 2 ^ field.width.toNat - 1 := by
  have bounds := (inWord_iff field).mp inWord
  have small : 2 ^ field.width.toNat ≤ 2 ^ 32 := Nat.pow_le_pow_right (by omega) (by omega)
  have positive := Nat.two_pow_pos field.width.toNat
  have shifted : (1 <<< field.width : UInt64).toNat = 2 ^ field.width.toNat := by
    rw [UInt64.toNat_shiftLeft, Nat.mod_eq_of_lt (by omega : field.width.toNat < 64)]
    exact (congrArg (· % 2 ^ 64) (Nat.one_shiftLeft _)).trans (Nat.mod_eq_of_lt (by omega))
  have one : (1 : UInt64) ≤ 1 <<< field.width := by
    rw [UInt64.le_iff_toNat_le, shifted]
    exact positive
  rw [max, UInt64.toNat_toUInt32, UInt64.toNat_sub_of_le _ _ one, shifted]
  exact Nat.mod_eq_of_lt (by have : (1 : UInt64).toNat = 1 := rfl; omega)

theorem toNat_lsb {field : BitField} (inWord : field.inWord = true) :
    field.lsb.toUInt32.toNat % 32 = field.lsb.toNat := by
  have bounds := (inWord_iff field).mp inWord
  rw [UInt64.toNat_toUInt32]
  omega

theorem max_lt_iff {field : BitField} (inWord : field.inWord = true) (code : UInt32) :
    field.max (width_lt_of_inWord inWord) < code ↔ 2 ^ field.width.toNat ≤ code.toNat := by
  have positive := Nat.two_pow_pos field.width.toNat
  rw [UInt32.lt_iff_toNat_lt, toNat_max inWord]
  omega

theorem le_max_iff {field : BitField} (inWord : field.inWord = true) (code : UInt32) :
    code ≤ field.max (width_lt_of_inWord inWord) ↔ code.toNat < 2 ^ field.width.toNat := by
  rw [← UInt32.not_lt, max_lt_iff inWord, Nat.not_le]

theorem testBit_above_width {field : BitField} (inWord : field.inWord = true) {code : UInt32}
    (fits : code ≤ field.max (BitField.width_lt_of_inWord inWord)) {bit : Nat}
    (above : field.width.toNat ≤ bit) : code.toNat.testBit bit = false := by
  apply Nat.testBit_lt_two_pow
  have small := (le_max_iff inWord code).mp fits
  exact Nat.lt_of_lt_of_le small (Nat.pow_le_pow_right (by omega) above)

theorem testBit_get (field : BitField) (word : UInt32) (bit : Nat) :
    (field.get word).toNat.testBit bit =
      (decide (bit < field.width.toNat) && word.toNat.testBit (field.lsb.toNat + bit)) := by
  have small : (word.toNat >>> field.lsb.toNat) % 1 <<< field.width.toNat < 2 ^ 32 := by
    have shifted := Nat.shiftRight_le word.toNat field.lsb.toNat
    have reduced := Nat.mod_le (word.toNat >>> field.lsb.toNat) (1 <<< field.width.toNat)
    have inWord := word.toNat_lt
    omega
  rw [get, UInt32.toNat_ofNat', Nat.mod_eq_of_lt small, Nat.one_shiftLeft,
    Nat.testBit_mod_two_pow, Nat.testBit_shiftRight]

theorem testBit_placed {field : BitField} (inWord : field.inWord = true) {code : UInt32}
    (fits : code ≤ field.max (BitField.width_lt_of_inWord inWord)) (bit : Nat) :
    (code <<< field.lsb.toUInt32).toNat.testBit bit =
      (decide (field.lsb.toNat ≤ bit ∧ bit < field.lsb.toNat + field.width.toNat) &&
        code.toNat.testBit (bit - field.lsb.toNat)) := by
  have bounds := (inWord_iff field).mp inWord
  rw [UInt32.toNat_shiftLeft, toNat_lsb inWord, Nat.testBit_mod_two_pow, Nat.testBit_shiftLeft]
  by_cases inside : field.lsb.toNat ≤ bit ∧ bit < field.lsb.toNat + field.width.toNat
  · simp [inside, show bit < 32 by omega]
  · by_cases above : field.lsb.toNat ≤ bit
    · have zero : code.toNat.testBit (bit - field.lsb.toNat) = false :=
        testBit_above_width inWord fits (by omega)
      simp [zero]
    · simp [above]

theorem get_placed {field : BitField} (inWord : field.inWord = true) {code : UInt32}
    (fits : code ≤ field.max (BitField.width_lt_of_inWord inWord)) (word : UInt32) :
    field.get (word ||| (code <<< field.lsb.toUInt32)) = field.get word ||| code := by
  apply UInt32.toNat_inj.mp
  apply Nat.eq_of_testBit_eq
  intro bit
  rw [testBit_get, UInt32.toNat_or, UInt32.toNat_or, Nat.testBit_or, Nat.testBit_or,
    testBit_get, testBit_placed inWord fits]
  by_cases inside : bit < field.width.toNat
  · simp [inside]
  · have zero : code.toNat.testBit bit = false :=
      testBit_above_width inWord fits (by omega)
    simp [inside, zero]

def Apart (left right : BitField) : Prop :=
  left.lsb.toNat + left.width.toNat ≤ right.lsb.toNat ∨
    right.lsb.toNat + right.width.toNat ≤ left.lsb.toNat

instance (left right : BitField) : Decidable (left.Apart right) :=
  inferInstanceAs (Decidable (_ ∨ _))

theorem get_placed_apart {field other : BitField} (inWord : field.inWord = true)
    (apart : field.Apart other) {code : UInt32}
    (fits : code ≤ field.max (BitField.width_lt_of_inWord inWord)) (word : UInt32) :
    other.get (word ||| (code <<< field.lsb.toUInt32)) = other.get word := by
  apply UInt32.toNat_inj.mp
  apply Nat.eq_of_testBit_eq
  intro bit
  rw [testBit_get, testBit_get, UInt32.toNat_or, Nat.testBit_or,
    testBit_placed inWord fits]
  by_cases inside : bit < other.width.toNat
  · have outside : ¬(field.lsb.toNat ≤ other.lsb.toNat + bit ∧
        other.lsb.toNat + bit < field.lsb.toNat + field.width.toNat) := by
      simp only [Apart] at apart
      omega
    simp [outside]
  · simp [inside]

end BitField

namespace TwoSource

theorem testBit_opcodeBits (word : UInt32) (bit : Nat) :
    (opcodeBits word).toNat.testBit bit = (decide (23 ≤ bit) && word.toNat.testBit bit) := by
  have mask : (0xFF800000 : UInt32).toNat = (2 ^ 9 - 1) <<< 23 := rfl
  rw [opcodeBits, UInt32.toNat_and, mask, Nat.testBit_and, Nat.testBit_shiftLeft,
    Nat.testBit_two_pow_sub_one]
  by_cases inside : bit < 32
  · have small : bit - 23 < 9 := by omega
    simp [small, Bool.and_comm]
  · have zero : word.toNat.testBit bit = false := by
      apply Nat.testBit_lt_two_pow
      exact Nat.lt_of_lt_of_le word.toNat_lt (Nat.pow_le_pow_right (by omega) (by omega))
    simp [zero]

theorem opcodeBits_placed {field : BitField} (inWord : field.inWord = true)
    (below : field.lsb.toNat + field.width.toNat ≤ 23) {code : UInt32}
    (fits : code ≤ field.max (BitField.width_lt_of_inWord inWord)) (word : UInt32) :
    opcodeBits (word ||| (code <<< field.lsb.toUInt32)) = opcodeBits word := by
  apply UInt32.toNat_inj.mp
  apply Nat.eq_of_testBit_eq
  intro bit
  rw [testBit_opcodeBits, testBit_opcodeBits, UInt32.toNat_or, Nat.testBit_or,
    BitField.testBit_placed inWord fits]
  by_cases above : 23 ≤ bit
  · have outside : ¬bit < field.lsb.toNat + field.width.toNat := by omega
    simp [outside]
  · simp [above]

theorem get_opcode {field : BitField} (below : field.lsb.toNat + field.width.toNat ≤ 23)
    {word : UInt32} (opcode : opcodeBits word = word) : field.get word = 0 := by
  apply UInt32.toNat_inj.mp
  apply Nat.eq_of_testBit_eq
  intro bit
  rw [BitField.testBit_get, ← opcode, testBit_opcodeBits]
  by_cases inside : bit < field.width.toNat
  · have low : ¬23 ≤ field.lsb.toNat + bit := by omega
    simp [low]
  · simp [inside]

end TwoSource

end ShaderAssembler

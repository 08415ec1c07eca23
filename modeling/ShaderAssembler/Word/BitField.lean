/-! Bit fields of an instruction word. -/

namespace ShaderAssembler

structure BitField where
  name : String
  lsb : UInt64
  width : UInt64
  deriving DecidableEq, Repr

namespace BitField

def inWord (field : BitField) : Bool :=
  0 < field.width ∧ field.width ≤ 32 ∧ field.lsb ≤ 32 - field.width

theorem width_lt_of_inWord {field : BitField} (inWord : field.inWord = true) :
    field.width < 64 := by
  simp only [BitField.inWord, decide_eq_true_eq] at inWord
  exact UInt64.lt_of_le_of_lt inWord.2.1 (by decide)

/-- The largest code that the field can hold, as far as a word can. A shift by 64 bits or more is
not defined, so the width has to be checked before. -/
def max (field : BitField) (_shifts : field.width < 64 := by decide) : UInt32 :=
  ((1 <<< field.width : UInt64) - 1).toUInt32

end BitField

end ShaderAssembler

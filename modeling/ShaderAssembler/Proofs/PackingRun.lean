import Mathlib.Data.List.Perm.Basic
import ShaderAssembler.Proofs.BitField

/-! Runs of attempts to fill a word. Whether a code can be added is decided by the code and its field
alone, and what a run leaves is told by the attempts that succeed, in whatever order they come. -/

namespace ShaderAssembler

namespace BitField

def InWord (field : BitField) : Prop :=
  0 < field.width.toNat ∧ field.width.toNat ≤ 32 ∧ field.lsb.toNat + field.width.toNat ≤ 32

def Holds (field : BitField) (code : UInt32) : Prop :=
  field.InWord ∧ code.toNat < 2 ^ field.width.toNat

def Covers (field : BitField) (bit : Nat) : Prop :=
  field.lsb.toNat ≤ bit ∧ bit < field.lsb.toNat + field.width.toNat

instance (field : BitField) : Decidable field.InWord :=
  inferInstanceAs (Decidable (_ ∧ _))

instance (field : BitField) (code : UInt32) : Decidable (field.Holds code) :=
  inferInstanceAs (Decidable (_ ∧ _))

instance (field : BitField) (bit : Nat) : Decidable (field.Covers bit) :=
  inferInstanceAs (Decidable (_ ∧ _))

theorem inWord_eq_true_iff (field : BitField) : field.inWord = true ↔ field.InWord := by
  rw [inWord_iff, InWord]
  omega

theorem Holds.inWord {field : BitField} {code : UInt32} (holds : field.Holds code) :
    field.inWord = true :=
  (inWord_eq_true_iff field).mpr holds.1

theorem Holds.le_max {field : BitField} {code : UInt32} (holds : field.Holds code) :
    code ≤ field.max (width_lt_of_inWord holds.inWord) :=
  (le_max_iff holds.inWord code).mpr holds.2

theorem Holds.testBit_outside {field : BitField} {code : UInt32} (holds : field.Holds code)
    {bit : Nat} (outside : ¬ field.Covers bit) :
    (code <<< field.lsb.toUInt32).toNat.testBit bit = false := by
  unfold Covers at outside
  rw [testBit_placed holds.inWord holds.le_max, decide_eq_false outside, Bool.false_and]

end BitField

namespace Packing

theorem step_merge (packing : Packing) (field : BitField) (code : UInt32) :
    packing.step (.merge field code) =
      if field.InWord then
        if code.toNat < 2 ^ field.width.toNat then
          ({ packing with word := packing.word ||| (code <<< field.lsb.toUInt32) }, none)
        else (packing, some (.codeTooLarge field code))
      else (packing, some (.fieldOutsideWord field)) := by
  rw [step, merge]
  by_cases inWord : field.inWord = true
  · rw [dif_pos inWord, if_pos ((BitField.inWord_eq_true_iff field).mp inWord)]
    by_cases fits : code.toNat < 2 ^ field.width.toNat
    · rw [if_pos fits, if_neg]
      rwa [gt_iff_lt, BitField.max_lt_iff inWord, Nat.not_le]
    · rw [if_neg fits, if_pos]
      rwa [gt_iff_lt, BitField.max_lt_iff inWord, ← Nat.not_lt]
  · rw [dif_neg inWord, if_neg]
    rwa [← BitField.inWord_eq_true_iff]

theorem step_of_holds {field : BitField} {code : UInt32} (holds : field.Holds code)
    (packing : Packing) :
    packing.step (.merge field code) =
      ({ packing with word := packing.word ||| (code <<< field.lsb.toUInt32) }, none) := by
  rw [step_merge, if_pos holds.1, if_pos holds.2]

theorem step_setLiteral (packing : Packing) (value : UInt32) :
    packing.step (.setLiteral value) =
      if packing.literal = none then ({ packing with literal := some value }, none)
      else (packing, some .duplicateLiteral) := by
  rw [step, setLiteral]
  cases packing.literal with
  | none => rfl
  | some => rfl

theorem step_of_failed {packing : Packing} {next : Step} (failed : (packing.step next).2 ≠ none) :
    (packing.step next).1 = packing := by
  cases next with
  | merge field code =>
      rw [step_merge] at failed ⊢
      split_ifs at failed ⊢ with inWord fits
      · exact absurd rfl failed
      · rfl
      · rfl
  | setLiteral value =>
      rw [step_setLiteral] at failed ⊢
      split_ifs at failed ⊢
      · exact absurd rfl failed
      · rfl

def Step.placed? : Step → Option UInt32
  | .merge field code =>
      if field.Holds code then some (code <<< field.lsb.toUInt32) else none
  | .setLiteral _ => none

def Step.literal? : Step → Option UInt32
  | .merge _ _ => none
  | .setLiteral value => some value

theorem word_step (packing : Packing) (next : Step) :
    (packing.step next).1.word = next.placed?.elim packing.word (packing.word ||| ·) := by
  cases next with
  | merge field code =>
      by_cases holds : field.Holds code
      · rw [step_of_holds holds, Step.placed?, if_pos holds, Option.elim_some]
      · rw [step_merge, Step.placed?, if_neg holds, Option.elim_none]
        split_ifs with inWord fits
        · exact absurd ⟨inWord, fits⟩ holds
        · rfl
        · rfl
  | setLiteral value =>
      rw [step_setLiteral]
      split <;> rfl

theorem literal_step (packing : Packing) (next : Step) :
    (packing.step next).1.literal = packing.literal.or next.literal? := by
  cases next with
  | merge field code =>
      rw [step_merge]
      split_ifs <;> simp [Step.literal?]
  | setLiteral value =>
      rw [step_setLiteral]
      cases shape : packing.literal <;> simp [shape, Step.literal?]

theorem word_run (packing : Packing) (steps : List Step) :
    (packing.run steps).word = (steps.filterMap Step.placed?).foldl (· ||| ·) packing.word := by
  induction steps generalizing packing with
  | nil => rfl
  | cons next rest ih =>
      have word := word_step packing next
      rw [run, List.foldl_cons, ← run, ih, word, List.filterMap_cons]
      cases next.placed? with
      | none => rfl
      | some => rfl

theorem literal_run (packing : Packing) (steps : List Step) :
    (packing.run steps).literal = packing.literal.or (steps.findSome? Step.literal?) := by
  induction steps generalizing packing with
  | nil => simp [run]
  | cons next rest ih =>
      rw [run, List.foldl_cons, ← run, ih, literal_step, Option.or_assoc, List.findSome?_cons]
      cases next.literal? with
      | none => rfl
      | some => rfl

theorem getElem?_trace (packing : Packing) (steps : List Step) (position : Nat) :
    (packing.trace steps)[position]? =
      steps[position]?.map (packing.run (steps.take position)).step := by
  induction steps generalizing packing position with
  | nil => rfl
  | cons next rest ih =>
      rw [trace]
      cases position with
      | zero => rfl
      | succ position => exact ih _ position

theorem testBit_step_of_not_covered {next : Step} {bit : Nat}
    (outside : ∀ field code, next = .merge field code → field.Holds code → ¬ field.Covers bit)
    (packing : Packing) :
    (packing.step next).1.word.toNat.testBit bit = packing.word.toNat.testBit bit := by
  cases next with
  | merge field code =>
      by_cases holds : field.Holds code
      · have unset := holds.testBit_outside (outside field code rfl holds)
        rw [step_of_holds holds, UInt32.toNat_or, Nat.testBit_or, unset, Bool.or_false]
      · rw [word_step, Step.placed?, if_neg holds, Option.elim_none]
  | setLiteral value => rw [word_step, Step.placed?, Option.elim_none]

theorem testBit_run_of_not_covered {steps : List Step} {bit : Nat}
    (outside : ∀ field code, .merge field code ∈ steps → field.Holds code → ¬ field.Covers bit)
    (packing : Packing) :
    (packing.run steps).word.toNat.testBit bit = packing.word.toNat.testBit bit := by
  induction steps generalizing packing with
  | nil => rfl
  | cons next rest ih =>
      have here : ∀ field code, next = .merge field code → field.Holds code →
          ¬ field.Covers bit := by
        rintro field code rfl
        exact outside field code List.mem_cons_self
      have later : ∀ field code, .merge field code ∈ rest → field.Holds code →
          ¬ field.Covers bit :=
        fun field code member => outside field code (List.mem_cons_of_mem next member)
      exact (ih later (packing.step next).1).trans (testBit_step_of_not_covered here packing)

theorem word_run_perm (packing : Packing) {steps other : List Step} (same : other.Perm steps) :
    (packing.run other).word = (packing.run steps).word := by
  rw [word_run, word_run]
  exact (same.filterMap _).foldl_eq _

/-- How the next attempt ends, whatever it is, if these are the attempts so far. -/
structure NextAttempt (earlier : List Step) (current : Packing) : Prop where
  mergeSucceeds (field : BitField) (code : UInt32) :
    (current.step (.merge field code)).2 = none ↔ field.Holds code
  mergeOutside (field : BitField) (code : UInt32) :
    ¬ field.InWord → (current.step (.merge field code)).2 = some (.fieldOutsideWord field)
  mergeTooLarge (field : BitField) (code : UInt32) :
    field.InWord → 2 ^ field.width.toNat ≤ code.toNat →
      (current.step (.merge field code)).2 = some (.codeTooLarge field code)
  /-- The field is read, the code is added and the field is written back. -/
  mergeWord (field : BitField) (code : UInt32) :
    field.Holds code →
      field.get (current.step (.merge field code)).1.word = field.get current.word ||| code ∧
        ∀ bit, ¬ field.Covers bit →
          (current.step (.merge field code)).1.word.toNat.testBit bit =
            current.word.toNat.testBit bit
  literalSucceeds (value : UInt32) :
    (current.step (.setLiteral value)).2 = none ↔ ∀ first, .setLiteral first ∉ earlier
  literalFails (value first : UInt32) :
    .setLiteral first ∈ earlier → (current.step (.setLiteral value)).2 = some .duplicateLiteral
  failureChangesNothing (next : Step) :
    (current.step next).2 ≠ none → (current.step next).1 = current

structure Total (base : UInt32) (steps : List Step) (code : MachineCode) : Prop where
  word : code.word = (steps.filterMap Step.placed?).foldl (· ||| ·) base
  anyOrder (other : List Step) :
    other.Perm steps → ((start base).run other).finish.word = code.word
  outside (bit : Nat) :
    (∀ field code, .merge field code ∈ steps → field.Holds code → ¬ field.Covers bit) →
      code.word.toNat.testBit bit = base.toNat.testBit bit
  literal : code.literal = steps.findSome? Step.literal?

theorem literal_run_eq_none_iff (base : UInt32) (steps : List Step) :
    ((start base).run steps).literal = none ↔ ∀ first, .setLiteral first ∉ steps := by
  rw [literal_run, start, Option.none_or, List.findSome?_eq_none_iff]
  constructor
  · intro noLiteral first member
    cases noLiteral _ member
  · intro noLiteral next member
    cases next with
    | merge => rfl
    | setLiteral first => exact absurd member (noLiteral first)

theorem nextAttempt_run (base : UInt32) (steps : List Step) :
    NextAttempt steps ((start base).run steps) where
  mergeSucceeds field code := by
    constructor
    · intro succeeded
      rw [step_merge] at succeeded
      split_ifs at succeeded with inWord fits
      exact ⟨inWord, fits⟩
    · intro holds
      rw [step_of_holds holds]
  mergeOutside field code outside := by rw [step_merge, if_neg outside]
  mergeTooLarge field code inWord large := by rw [step_merge, if_pos inWord, if_neg (by omega)]
  mergeWord field code holds := by
    refine ⟨?_, ?_⟩
    · rw [step_of_holds holds]
      exact BitField.get_placed holds.inWord holds.le_max _
    · intro bit outside
      refine testBit_step_of_not_covered ?_ _
      intro other otherCode same _
      obtain ⟨rfl, rfl⟩ := Step.merge.inj same
      exact outside
  literalSucceeds value := by
    rw [← literal_run_eq_none_iff base, step_setLiteral]
    split_ifs with free <;> simp [free]
  literalFails value first member := by
    have taken : ((start base).run steps).literal ≠ none := by
      rw [ne_eq, literal_run_eq_none_iff]
      intro noLiteral
      exact noLiteral first member
    rw [step_setLiteral, if_neg taken]
  failureChangesNothing _ := step_of_failed

theorem total_run (base : UInt32) (steps : List Step) :
    Total base steps ((start base).run steps).finish where
  word := word_run (start base) steps
  anyOrder _ := word_run_perm (start base)
  outside _ notCovered := testBit_run_of_not_covered notCovered (start base)
  literal := (literal_run (start base) steps).trans (Option.none_or ..)

/-- Every attempt of a run is made on what the attempts before it have left, and what the last one
has left is finished. -/
theorem run_adds_up (base : UInt32) (steps : List Step) :
    NextAttempt steps ((start base).run steps) ∧
      Total base steps ((start base).run steps).finish ∧
      ∀ position, ((start base).trace steps)[position]? =
        steps[position]?.map ((start base).run (steps.take position)).step :=
  ⟨nextAttempt_run base steps, total_run base steps, getElem?_trace (start base) steps⟩

theorem run_adds_up_refused_attempts :
    let top : BitField := ⟨"TOP", 24, 8⟩
    let far : BitField := ⟨"FAR", 0xFFFFFFFFFFFFFFFF, 1⟩
    let wide : BitField := ⟨"WIDE", 0, 0xFFFFFFFFFFFFFFFF⟩
    let steps : List Step :=
      [.merge ⟨"PAST", 28, 8⟩ 1, .merge ⟨"NARROW", 16, 7⟩ 0x80, .setLiteral 1000, .merge top 0xF0,
        .merge ⟨"ALL", 0, 32⟩ 0x0F000001, .setLiteral 7]
    let final := (start 0x80000010).run steps
    final.finish = ⟨0xFF000011, some 1000⟩ ∧
      (final.step (.merge far 0xFF)).2 = some (.fieldOutsideWord far) ∧
      final.step (.merge wide 1) = (final, some (.fieldOutsideWord wide)) ∧
      final.step (.merge top 0x100) = (final, some (.codeTooLarge top 0x100)) ∧
      top.Holds 0xFF ∧ (final.step (.merge top 0xFF)).2 = none ∧
      final.step (.setLiteral 8) = (final, some .duplicateLiteral) := by
  intro top far wide steps final
  obtain ⟨next, total, _⟩ := run_adds_up 0x80000010 steps
  have word : final.finish.word = 0xFF000011 := total.word.trans (by decide)
  have literal : final.finish.literal = some 1000 := total.literal.trans rfl
  have refused {attempt : Step} {cause : EncodeError}
      (failed : (final.step attempt).2 = some cause) :
      final.step attempt = (final, some cause) := by
    have notNone : (final.step attempt).2 ≠ none := by simp [failed]
    exact Prod.ext (next.failureChangesNothing attempt notNone) failed
  have holds : top.Holds 0xFF := by decide
  refine ⟨?_, next.mergeOutside far 0xFF (by decide), ?_, ?_, holds, ?_, ?_⟩
  · rw [← word, ← literal]
  · exact refused (next.mergeOutside wide 1 (by decide))
  · exact refused (next.mergeTooLarge top 0x100 (by decide) (by decide))
  · exact (next.mergeSucceeds top 0xFF).mpr holds
  · exact refused (next.literalFails 8 1000 (by decide))

end Packing

end ShaderAssembler

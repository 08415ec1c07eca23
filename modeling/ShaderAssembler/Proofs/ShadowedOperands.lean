import Mathlib.Data.List.Nodup
import Mathlib.Data.Prod.Basic
import ShaderAssembler.Proofs.CodeRange

/-! Named operands that can never match. The pairs of names of which the earlier one starts the
later one tell exactly these entries, and without them every text is read as before. -/

namespace ShaderAssembler

theorem find?_filter_of_first {α : Type} {keep found : α → Bool} {entries : List α}
    (kept : ∀ entry, entries.find? found = some entry → keep entry = true) :
    (entries.filter keep).find? found = entries.find? found := by
  induction entries with
  | nil => rfl
  | cons first rest ih =>
      by_cases hit : found first = true
      · have keepFirst := kept first (List.find?_cons_of_pos hit)
        rw [List.filter_cons_of_pos keepFirst, List.find?_cons_of_pos hit,
          List.find?_cons_of_pos hit]
      · have rest := ih fun entry later => kept entry (by rwa [List.find?_cons_of_neg hit])
        rw [List.find?_cons_of_neg hit, List.filter_cons]
        split
        · rw [List.find?_cons_of_neg hit, rest]
        · exact rest

namespace Tables

theorem mem_drop_zipIdx_iff (operands : List NamedOperand) (i j : Nat) (entry : NamedOperand) :
    (entry, j) ∈ operands.zipIdx.drop (i + 1) ↔ i < j ∧ operands[j]? = some entry := by
  simp only [List.mem_iff_getElem?, List.getElem?_drop, List.getElem?_zipIdx,
    Option.map_eq_some_iff, Prod.mk.injEq]
  constructor
  · rintro ⟨offset, _, found, rfl, rfl⟩
    exact ⟨by omega, by simpa using found⟩
  · rintro ⟨later, found⟩
    refine ⟨j - (i + 1), entry, ?_, rfl, by omega⟩
    rwa [show i + 1 + (j - (i + 1)) = j by omega]

theorem mem_shadowedPairs_iff (operands : List NamedOperand) (i j : Nat) :
    (i, j) ∈ shadowedPairs operands ↔
      i < j ∧ ∃ earlier later, operands[i]? = some earlier ∧ operands[j]? = some later ∧
        earlier.name <+: later.name := by
  simp only [shadowedPairs, List.mem_flatMap, List.mem_filterMap, Prod.exists,
    List.mem_zipIdx_iff_getElem?, mem_drop_zipIdx_iff, Option.ite_none_right_eq_some,
    List.isPrefixOf_iff_prefix, Option.some.injEq, Prod.mk.injEq]
  constructor
  · rintro ⟨earlier, _, first, later, _, ⟨before, second⟩, starts, rfl, rfl⟩
    exact ⟨before, earlier, later, first, second, starts⟩
  · rintro ⟨before, earlier, later, first, second, starts⟩
    exact ⟨earlier, i, first, later, j, ⟨before, second⟩, starts, rfl, rfl⟩

theorem pairwise_zipIdx (operands : List NamedOperand) :
    operands.zipIdx.Pairwise fun left right => left.2 < right.2 := by
  rw [← List.pairwise_map (f := Prod.snd) (R := (· < ·)), List.zipIdx_map_snd]
  exact List.pairwise_lt_range'

theorem pairwise_shadowedPairs (operands : List NamedOperand) :
    (shadowedPairs operands).Pairwise (Prod.Lex (· < ·) (· < ·)) := by
  rw [shadowedPairs, List.pairwise_flatMap]
  constructor
  · rintro ⟨shadowing, i⟩ _
    rw [List.pairwise_filterMap]
    refine (pairwise_zipIdx operands).drop.imp ?_
    rintro ⟨_, j⟩ ⟨_, k⟩ below pair first other second
    simp only [Option.ite_none_right_eq_some, Option.some.injEq] at first second
    rw [← first.2, ← second.2]
    exact .right i below
  · refine (pairwise_zipIdx operands).imp ?_
    rintro ⟨_, i⟩ ⟨_, k⟩ below pair first other second
    obtain ⟨⟨_, j⟩, _, first⟩ := List.mem_filterMap.mp first
    obtain ⟨⟨_, l⟩, _, second⟩ := List.mem_filterMap.mp second
    simp only [Option.ite_none_right_eq_some, Option.some.injEq] at first second
    rw [← first.2, ← second.2]
    exact .left j l below

/-- The entry at this position is the first one whose name starts the text. -/
structure ReadAs (operands : List NamedOperand) (text : Text) (position : Nat)
    (entry : NamedOperand) : Prop where
  listed : operands[position]? = some entry
  starts : entry.name <+: text
  first : ∀ earlier < position, ∀ other, operands[earlier]? = some other → ¬ other.name <+: text

theorem find?_zipIdx_eq_some_iff (operands : List NamedOperand) (text : Text) (entry : NamedOperand)
    (position : Nat) :
    (operands.zipIdx.find? fun indexed => indexed.1.name.isPrefixOf text) = some (entry, position) ↔
      ReadAs operands text position entry := by
  rw [List.find?_eq_some_iff_getElem]
  constructor
  · rintro ⟨starts, index, bound, place, unmatched⟩
    rw [List.getElem_zipIdx, Prod.mk.injEq, Nat.zero_add] at place
    obtain ⟨place, rfl⟩ := place
    refine ⟨List.getElem?_eq_some_iff.mpr ⟨_, place⟩, List.isPrefixOf_iff_prefix.mp starts, ?_⟩
    intro earlier before other listed otherStarts
    obtain ⟨_, rfl⟩ := List.getElem?_eq_some_iff.mp listed
    have different := unmatched earlier before
    rw [← List.isPrefixOf_iff_prefix] at otherStarts
    simp [otherStarts] at different
  · intro read
    obtain ⟨bound, place⟩ := List.getElem?_eq_some_iff.mp read.listed
    refine ⟨List.isPrefixOf_iff_prefix.mpr read.starts, position, by simpa using bound, ?_, ?_⟩
    · rw [List.getElem_zipIdx, place, Nat.zero_add]
    · intro earlier before
      have different := read.first earlier before _ (List.getElem?_eq_getElem (by omega))
      simpa [← List.isPrefixOf_iff_prefix] using different

theorem find?_eq_map_zipIdx (operands : List NamedOperand) (text : Text) :
    NamedOperand.find? operands text =
      (operands.zipIdx.find? fun indexed => indexed.1.name.isPrefixOf text).map Prod.fst := by
  rw [NamedOperand.find?]
  conv_lhs => rw [← List.zipIdx_map_fst 0 operands, List.find?_map]
  rfl

theorem find?_eq_some_iff_readAs (operands : List NamedOperand) (text : Text)
    (entry : NamedOperand) :
    NamedOperand.find? operands text = some entry ↔
      ∃ position, ReadAs operands text position entry := by
  simp [find?_eq_map_zipIdx, find?_zipIdx_eq_some_iff]

theorem ReadAs.classify {operands : List NamedOperand} {text : Text} {position : Nat}
    {entry : NamedOperand} (read : ReadAs operands text position entry) (codes : OperandCodes) :
    ShaderAssembler.classify operands codes text = .ok ⟨.named entry, entry.code⟩ := by
  have found := (find?_eq_some_iff_readAs operands text entry).mpr ⟨position, read⟩
  rw [ShaderAssembler.classify, found]

theorem find?_of_named {operands : List NamedOperand} {codes : OperandCodes} {text : Text}
    {entry : NamedOperand} {code : UInt32}
    (named : ShaderAssembler.classify operands codes text = .ok ⟨.named entry, code⟩) :
    NamedOperand.find? operands text = some entry := by
  cases found : NamedOperand.find? operands text with
  | some other =>
      rw [ShaderAssembler.classify, found] at named
      simp only [Except.ok.injEq, ClassifiedOperand.mk.injEq, Operand.named.injEq] at named
      rw [named.1]
  | none =>
      have unnamed : classify ⟨[], [], codes⟩ text = .ok ⟨.named entry, code⟩ := by
        rw [← named, Tables.classify, ShaderAssembler.classify, ShaderAssembler.classify, found]
        rfl
      exact absurd (entry_of_named unnamed rfl).1 List.not_mem_nil

theorem ReadAs.not_shadowed {operands : List NamedOperand} {text : Text} {position : Nat}
    {entry : NamedOperand} (read : ReadAs operands text position entry) (i : Nat) :
    (i, position) ∉ shadowedPairs operands := by
  rw [mem_shadowedPairs_iff]
  rintro ⟨before, earlier, later, first, second, starts⟩
  obtain rfl : later = entry := Option.some.inj (second.symm.trans read.listed)
  exact read.first i before earlier first (starts.trans read.starts)

theorem readAs_name {operands : List NamedOperand} {position : Nat} {entry : NamedOperand}
    (listed : operands[position]? = some entry)
    (free : ∀ i, (i, position) ∉ shadowedPairs operands) :
    ReadAs operands entry.name position entry := by
  refine ⟨listed, List.prefix_refl _, ?_⟩
  intro earlier before other found starts
  exact free earlier
    ((mem_shadowedPairs_iff ..).mpr ⟨before, other, entry, found, listed, starts⟩)

def withoutShadowed (operands : List NamedOperand) : List NamedOperand :=
  (operands.zipIdx.filter fun indexed =>
    indexed.2 ∉ (shadowedPairs operands).map Prod.snd).map Prod.fst

theorem find?_withoutShadowed (operands : List NamedOperand) (text : Text) :
    NamedOperand.find? (withoutShadowed operands) text = NamedOperand.find? operands text := by
  rw [find?_eq_map_zipIdx operands, NamedOperand.find?, withoutShadowed, List.find?_map]
  refine congrArg (Option.map Prod.fst) (find?_filter_of_first ?_)
  rintro ⟨entry, position⟩ found
  have free := ((find?_zipIdx_eq_some_iff ..).mp found).not_shadowed
  simpa using free

/-- The later entries of the shadowed pairs are those that no text is read as, and deleting all of
them at once changes nothing. The pairs are listed in order, each once. -/
theorem shadowedPairs_tell_dead_entries (operands : List NamedOperand) (codes : OperandCodes) :
    (∀ text entry,
      (∃ code, ShaderAssembler.classify operands codes text = .ok ⟨.named entry, code⟩) ↔
        ∃ position, ReadAs operands text position entry) ∧
      (∀ position entry, operands[position]? = some entry →
        ((∃ text, ReadAs operands text position entry ∧
            ShaderAssembler.classify operands codes text = .ok ⟨.named entry, entry.code⟩) ↔
          ∀ i, (i, position) ∉ shadowedPairs operands)) ∧
      (∀ i j, (i, j) ∈ shadowedPairs operands ↔
        i < j ∧ ∃ earlier later, operands[i]? = some earlier ∧ operands[j]? = some later ∧
          earlier.name <+: later.name) ∧
      (shadowedPairs operands).Nodup ∧
      (shadowedPairs operands).Pairwise (Prod.Lex (· < ·) (· < ·)) ∧
      ∀ text, ShaderAssembler.classify (withoutShadowed operands) codes text =
        ShaderAssembler.classify operands codes text := by
  refine ⟨?_, ?_, mem_shadowedPairs_iff operands, (pairwise_shadowedPairs operands).nodup,
    pairwise_shadowedPairs operands, ?_⟩
  · intro text entry
    rw [← find?_eq_some_iff_readAs]
    constructor
    · rintro ⟨code, named⟩
      exact find?_of_named named
    · intro found
      exact ⟨entry.code, by rw [ShaderAssembler.classify, found]⟩
  · intro position entry listed
    constructor
    · rintro ⟨text, read, _⟩
      exact read.not_shadowed
    · intro free
      have read := readAs_name listed free
      exact ⟨entry.name, read, read.classify codes⟩
  · intro text
    rw [ShaderAssembler.classify, ShaderAssembler.classify, find?_withoutShadowed]

theorem shadowedPairs_tell_dead_entries_chain :
    let vcc : NamedOperand := ⟨"vcc".toList, 106, .specialRegister⟩
    let high : NamedOperand := ⟨"vcc_hi".toList, 107, .specialRegister⟩
    let exec : NamedOperand := ⟨"exec".toList, 126, .specialRegister⟩
    let nameless : NamedOperand := ⟨[], 128, .zero⟩
    let operands := [vcc, high, high, exec, nameless, vcc]
    shadowedPairs operands = [(0, 1), (0, 2), (0, 5), (1, 2), (4, 5)] ∧
      (∃ text, ReadAs operands text 3 exec ∧
        ShaderAssembler.classify operands SouthernIslands.codes text = .ok ⟨.named exec, 126⟩) ∧
      (¬ ∃ text, ReadAs operands text 2 high ∧
        ShaderAssembler.classify operands SouthernIslands.codes text = .ok ⟨.named high, 107⟩) ∧
      ∀ text, ShaderAssembler.classify [vcc, exec, nameless] SouthernIslands.codes text =
        ShaderAssembler.classify operands SouthernIslands.codes text := by
  intro vcc high exec nameless operands
  have pairs : shadowedPairs operands = [(0, 1), (0, 2), (0, 5), (1, 2), (4, 5)] := by
    decide +kernel
  obtain ⟨_, dead, _, _, _, kept⟩ := shadowedPairs_tell_dead_entries operands SouthernIslands.codes
  rw [pairs] at dead
  refine ⟨pairs, (dead 3 exec rfl).mpr (by simp), ?_, ?_⟩
  · rw [dead 2 high rfl]
    intro free
    exact free 0 (by simp)
  · have deleted : withoutShadowed operands = [vcc, exec, nameless] := by
      rw [withoutShadowed, pairs]
      rfl
    rwa [deleted] at kept

end Tables

end ShaderAssembler

import ShaderAssembler.Disassembly.Listing
import ShaderAssembler.Proofs.Numeral
import ShaderAssembler.Proofs.SkippedLine
import ShaderAssembler.Proofs.Spacing

/-! The text listing, the records and the binary of a source text hold the same instructions. The
text can be cut up again because a mnemonic is part of a field of a line, which no space and no
line feed interrupts. -/

namespace ShaderAssembler

def littleEndian : Nat → Nat → List UInt8
  | 0, _ => []
  | count + 1, value => UInt8.ofNat value :: littleEndian count (value / 256)

theorem wordBytes_eq_littleEndian (word : UInt32) : wordBytes word = littleEndian 4 word.toNat := by
  simp [wordBytes, littleEndian, ← UInt8.toNat_inj, Nat.shiftRight_eq_div_pow,
    Nat.div_div_eq_div_mul]

theorem newline_notMem_hexWord (word : UInt32) : '\n' ∉ hexWord word := by
  intro member
  have inDigits : '\n' ∈ hexDigits 8 word.toNat := by simpa [hexWord] using member
  obtain ⟨digit, small, same⟩ := exists_digit_of_mem_hexDigits inDigits
  have value := digitValue?_digitChar small
  rw [← same] at value
  cases value

theorem readHexWord?_hexWord (word : UInt32) (rest : Text) :
    readHexWord? (hexWord word ++ rest) = some (word, rest) := by
  have length := length_hexDigits 8 word.toNat
  have value : readDigits? 16 0 (hexDigits 8 word.toNat) = some word.toNat := by
    rw [readDigits?_hexDigits, Nat.mod_eq_of_lt (by have := word.toNat_lt; omega)]
  simp only [hexWord, List.cons_append, readHexWord?, List.length_append, length]
  rw [if_neg (by omega), List.take_left' length, List.drop_left' length, value, Option.map_some,
    UInt32.ofNat_toNat]

theorem readHexWord?_last (word : UInt32) : readHexWord? (hexWord word) = some (word, []) := by
  have read := readHexWord?_hexWord word []
  rwa [List.append_nil] at read

theorem readLastHexWord?_hexWord (word : UInt32) : readLastHexWord? (hexWord word) = some word := by
  simp [readLastHexWord?, readHexWord?_last]

theorem ListingRecord.read?_ofAssembled (line : Nat) (assembled : Assembled) :
    (ListingRecord.ofAssembled line assembled).read? = some (line, assembled) := by
  obtain ⟨mnemonic, word, literal⟩ := assembled
  cases literal <;> simp [read?, ofAssembled, readLastHexWord?_hexWord]

namespace Assembled

theorem ofListingLine?_listingLine {assembled : Assembled} (noSpace : ' ' ∉ assembled.mnemonic) :
    ofListingLine? assembled.listingLine = some assembled := by
  obtain ⟨mnemonic, word, literal⟩ := assembled
  have inMnemonic (character : Char) (member : character ∈ mnemonic) :
      (character != ' ') = true := by
    have different : character ≠ ' ' := fun same => noSpace (same ▸ member)
    simpa using different
  simp only [ofListingLine?, listingLine, List.append_assoc, List.cons_append,
    List.takeWhile_append_of_pos inMnemonic, List.dropWhile_append_of_pos inMnemonic]
  cases literal with
  | none => simp [MachineCode.ofListing?, readHexWord?_last]
  | some value =>
      simp [MachineCode.ofListing?, readHexWord?_hexWord, readLastHexWord?_hexWord]

theorem newline_notMem_listingLine {assembled : Assembled} (inLine : '\n' ∉ assembled.mnemonic) :
    '\n' ∉ assembled.listingLine := by
  obtain ⟨mnemonic, word, literal⟩ := assembled
  cases literal <;>
    simpa [listingLine, newline_notMem_hexWord] using inLine

end Assembled

namespace Listing

theorem splitOn_listingLines {entries : List Assembled}
    (inLine : ∀ entry ∈ entries, '\n' ∉ entry.mnemonic) :
    (entries.flatMap fun entry => entry.listingLine ++ ['\n']).splitOn '\n' =
      entries.map Assembled.listingLine ++ [[]] := by
  induction entries with
  | nil => rfl
  | cons first rest ih =>
      obtain ⟨inFirst, inRest⟩ := List.forall_mem_cons.mp inLine
      rw [List.flatMap_cons, List.append_assoc, List.singleton_append,
        List.splitOn_append_cons_self_of_not_mem (Assembled.newline_notMem_listingLine inFirst),
        ih inRest, List.map_cons, List.cons_append]

theorem mapM_ofListingLine? {entries : List Assembled}
    (noSpace : ∀ entry ∈ entries, ' ' ∉ entry.mnemonic) :
    (entries.map Assembled.listingLine).mapM Assembled.ofListingLine? = some entries := by
  induction entries with
  | nil => rfl
  | cons first rest ih =>
      obtain ⟨noneInFirst, noneInRest⟩ := List.forall_mem_cons.mp noSpace
      simp [List.mapM_cons, Assembled.ofListingLine?_listingLine noneInFirst, ih noneInRest]

theorem read?_listingLines {entries : List Assembled}
    (noSpace : ∀ entry ∈ entries, ' ' ∉ entry.mnemonic)
    (inLine : ∀ entry ∈ entries, '\n' ∉ entry.mnemonic) :
    read? (entries.flatMap fun entry => entry.listingLine ++ ['\n']) = some entries := by
  rw [read?, splitOn_listingLines inLine, List.getLast?_concat, List.dropLast_concat, if_pos rfl,
    mapM_ofListingLine? noSpace]

theorem mapM_read?_records (reports : List LineReport) :
    (records reports).mapM ListingRecord.read? = some (succeeded reports) := by
  have reads : (ListingRecord.read? ∘ fun entry : Nat × Assembled =>
      ListingRecord.ofAssembled entry.1 entry.2) = fun entry => pure (id entry) := by
    funext entry
    exact ListingRecord.read?_ofAssembled entry.1 entry.2
  rw [records_eq_map_succeeded, List.mapM_map, reads, List.mapM_pure, List.map_id, Option.pure_def]

end Listing

namespace Assembler

theorem mnemonic_assembleLine {assembler : Assembler} {line : Text} {assembled : Assembled}
    (done : (assembler.assembleLine line).value = some (.ok assembled)) :
    ∃ token ∈ line.stripComment.fields, assembled.mnemonic = token.trimLineEnd := by
  obtain ⟨token, operands, taken, _, ⟨_, failed⟩ | ⟨instruction, resolved, encoded⟩⟩ :=
    (value_assembleLine_eq_some_iff _ _ _).mp done
  · cases failed
  · refine ⟨token, ?_, ?_⟩
    · rw [Text.fields_of_takeField taken]
      exact List.mem_cons_self
    · rw [mnemonic_encodeInstruction encoded, Tables.mnemonic_of_resolve? resolved]

theorem notMem_mnemonic {assembler : Assembler} {text : Text} {number : Nat}
    {assembled : Assembled}
    (member : (number, assembled) ∈ Listing.succeeded (assembler.assembleSource text).value) :
    ' ' ∉ assembled.mnemonic ∧ '\n' ∉ assembled.mnemonic := by
  obtain ⟨index, line, found, _, result⟩ :=
    assembleLine_of_mem (Listing.mem_succeeded_iff.mp member)
  obtain ⟨token, isField, same⟩ := mnemonic_assembleLine result
  obtain ⟨_, solid, inside⟩ := (Text.spaced_fields _).of_mem token isField
  rw [same]
  refine ⟨fun space => ?_, fun newline => ?_⟩
  · exact solid ' ' (Text.trimLineEnd_subset token space) (by decide)
  · have inCode : '\n' ∈ line.stripComment := inside (Text.trimLineEnd_subset token newline)
    exact Text.newline_notMem_lines text line (List.mem_of_getElem? found)
      ((List.takeWhile_sublist _).subset inCode)

theorem read?_text (assembler : Assembler) (text : Text) :
    let reports := (assembler.assembleSource text).value
    Listing.read? (Listing.text reports) = some ((Listing.succeeded reports).map Prod.snd) := by
  intro reports
  have inside : ∀ entry ∈ (Listing.succeeded reports).map Prod.snd,
      ' ' ∉ entry.mnemonic ∧ '\n' ∉ entry.mnemonic := by
    intro entry member
    obtain ⟨⟨number, assembled⟩, listed, rfl⟩ := List.mem_map.mp member
    exact notMem_mnemonic listed
  rw [Listing.text, Listing.assembled_eq_map_succeeded]
  exact Listing.read?_listingLines (fun entry member => (inside entry member).1)
    (fun entry member => (inside entry member).2)

/-- The listing, read line by line, gives the instructions that assembled. The records give them
with the numbers of their lines, and the binary holds their words and literals. -/
theorem listings_agree (assembler : Assembler) (text : Text) :
    let reports := (assembler.assembleSource text).value
    let numbered := Listing.succeeded reports
    Listing.read? (Listing.text reports) = some (numbered.map Prod.snd) ∧
      (Listing.records reports).mapM ListingRecord.read? = some numbered ∧
      Listing.binary reports = (numbered.map Prod.snd).flatMap fun assembled =>
        (assembled.code.word :: assembled.code.literal.toList).flatMap fun word =>
          littleEndian 4 word.toNat := by
  intro reports numbered
  refine ⟨read?_text assembler text, Listing.mapM_read?_records reports, ?_⟩
  have bytes : wordBytes = fun word => littleEndian 4 word.toNat :=
    funext wordBytes_eq_littleEndian
  simp only [Listing.binary, Listing.assembled_eq_map_succeeded, MachineCode.bytes,
    MachineCode.words, bytes, numbered]

/-- The line that fails is in none of the three. -/
theorem listings_agree_failed_line :
    let text : Text := "s_add_u32 s5, s3, 1000\nbogus\ns_add_u32 s5, s3, 42\n".toList
    let reports := (({ config := {} } : Assembler).assembleSource text).value
    let listing : Text := "s_add_u32 \t0x800503ff 0x000003e8\ns_add_u32 \t0x800503aa\n".toList
    let records : List ListingRecord :=
      [{ line := 1, mnemonic := "s_add_u32".toList, word := "0x800503ff".toList,
          literal := some "0x000003e8".toList },
        { line := 3, mnemonic := "s_add_u32".toList, word := "0x800503aa".toList,
          literal := none }]
    let numbered : List (Nat × Assembled) :=
      [(1, { mnemonic := "s_add_u32".toList,
             code := { word := 0x800503ff, literal := some 1000 } }),
        (3, { mnemonic := "s_add_u32".toList, code := { word := 0x800503aa, literal := none } })]
    Listing.text reports = listing ∧ Listing.records reports = records ∧
      Listing.binary reports =
        [0xff, 0x03, 0x05, 0x80, 0xe8, 0x03, 0x00, 0x00, 0xaa, 0x03, 0x05, 0x80] ∧
      Listing.read? listing = some (numbered.map Prod.snd) ∧
      records.mapM ListingRecord.read? = some numbered := by
  intro text reports listing records numbered
  have asText : Listing.text reports = listing := by decide +kernel
  have asRecords : Listing.records reports = records := by decide +kernel
  have assembled : Listing.succeeded reports = numbered := by decide +kernel
  obtain ⟨readText, readRecords, binary⟩ := listings_agree { config := {} } text
  rw [← assembled, ← asText, ← asRecords]
  exact ⟨rfl, rfl, binary.trans (by decide +kernel), readText, readRecords⟩

end Assembler

end ShaderAssembler

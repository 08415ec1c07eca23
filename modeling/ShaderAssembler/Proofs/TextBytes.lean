import ShaderAssembler.File

/-! Texts as bytes in UTF-8. -/

namespace ShaderAssembler

theorem drop_bytes {bytes : ByteArray} {index : Nat} (inside : index < bytes.size) :
    bytes.data.toList.drop index = bytes.get! index :: bytes.data.toList.drop (index + 1) := by
  have listed : index < bytes.data.toList.length := inside
  rw [List.drop_eq_getElem_cons listed]
  simp [ByteArray.get!, inside]

theorem toList_loop (bytes : ByteArray) (remaining : Nat) : ∀ index done,
    index + remaining = bytes.size →
      ByteArray.toList.loop bytes index done = done.reverse ++ bytes.data.toList.drop index := by
  induction remaining with
  | zero =>
      intro index done atEnd
      have nothingLeft : bytes.data.toList.drop index = [] :=
        List.drop_eq_nil_of_le (by simp; omega)
      rw [ByteArray.toList.loop, if_neg (by omega), nothingLeft, List.append_nil]
  | succ remaining ih =>
      intro index done remains
      have inside : index < bytes.size := by omega
      rw [ByteArray.toList.loop, if_pos inside, ih (index + 1) _ (by omega), drop_bytes inside,
        List.reverse_cons, List.append_assoc, List.singleton_append]

namespace Text

theorem toBytes_eq_data (text : Text) : text.toBytes = (String.ofList text).toUTF8.data.toList := by
  rw [toBytes, ByteArray.toList, toList_loop _ _ 0 [] (Nat.zero_add _), List.drop_zero,
    List.reverse_nil, List.nil_append]

theorem ofBytes_toBytes (text : Text) : ofBytes text.toBytes = .ok text := by
  have same : (⟨text.toBytes.toArray⟩ : ByteArray) = (String.ofList text).toUTF8 := by
    rw [toBytes_eq_data]
  have valid : (String.ofList text).toUTF8.IsValidUTF8 := (String.ofList text).isValidUTF8
  rw [ofBytes, same, String.fromUTF8?, dif_pos valid]
  exact congrArg Except.ok String.toList_ofList

theorem toBytes_eq_flatMap (text : Text) : text.toBytes = text.flatMap String.utf8EncodeChar := by
  rw [toBytes_eq_data]
  change (text.flatMap String.utf8EncodeChar).toByteArray.data.toList = _
  rw [List.data_toByteArray]

theorem ofBytes_drop_one {first : Char} {rest : Text}
    (single : (String.utf8EncodeChar first).length = 1) :
    ofBytes ((toBytes (first :: rest)).drop 1) = .ok rest := by
  rw [toBytes_eq_flatMap, List.flatMap_cons, List.drop_left' single, ← toBytes_eq_flatMap,
    ofBytes_toBytes]

end Text

end ShaderAssembler

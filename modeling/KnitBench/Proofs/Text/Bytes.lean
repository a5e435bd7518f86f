import KnitBench.Text.Rolling

/-! Texts and their bytes. A text made of ASCII bytes has just these bytes again. -/

namespace KnitBench.Text

variable {b : UInt8} {bytes : List UInt8}

theorem toList_loop_eq (bytes : ByteArray) (i : Nat) (acc : List UInt8) :
    ByteArray.toList.loop bytes i acc = acc.reverse ++ bytes.data.toList.drop i := by
  induction i, acc using ByteArray.toList.loop.induct bytes with
  | case1 i acc hi ih =>
    have hl : i < bytes.data.toList.length := by rwa [Array.length_toList]
    have hg : bytes.get! i = bytes.data.toList[i] := getElem!_pos bytes.data i hi
    rw [ByteArray.toList.loop, if_pos hi, ih, List.reverse_cons, List.append_assoc,
      List.drop_eq_getElem_cons hl, hg, List.singleton_append]
  | case2 i acc hi =>
    have hl : bytes.data.toList.length ≤ i := by
      rw [Array.length_toList]
      exact Nat.le_of_not_lt hi
    rw [ByteArray.toList.loop, if_neg hi, List.drop_of_length_le hl, List.append_nil]

theorem toList_eq_data (bytes : ByteArray) : bytes.toList = bytes.data.toList :=
  toList_loop_eq bytes 0 []

theorem toList_ofBytes (bytes : List UInt8) :
    (ofBytes bytes).toList = bytes.map fun b => Char.ofNat b.toNat :=
  String.toList_ofList

theorem utf8EncodeChar_ofNat (h : b < 0x80) :
    String.utf8EncodeChar (Char.ofNat b.toNat) = [b] := by
  have hb : b.toNat < 128 := h
  have hv : (Char.ofNat b.toNat).val.toNat = b.toNat := by
    rw [Char.ofNat, dif_pos (Or.inl (by omega))]
    rfl
  have hsize : (Char.ofNat b.toNat).utf8Size = 1 := by
    rw [Char.utf8Size_eq_one_iff, UInt32.le_iff_toNat_le, hv]
    exact Nat.le_of_lt_succ hb
  have hbyte : (Char.ofNat b.toNat).val.toUInt8 = b := by
    rw [← UInt8.toNat_inj, UInt32.toNat_toUInt8, hv, Nat.mod_eq_of_lt b.toNat_lt]
  rw [String.utf8EncodeChar_eq_singleton hsize, hbyte]

theorem toUTF8_ofBytes (h : ∀ b ∈ bytes, b < 0x80) : (ofBytes bytes).toUTF8.toList = bytes := by
  have hencode : (bytes.map fun b => Char.ofNat b.toNat).flatMap String.utf8EncodeChar = bytes := by
    rw [List.flatMap_map]
    induction bytes with
    | nil => rfl
    | cons b bytes ih =>
      obtain ⟨hb, hbytes⟩ := List.forall_mem_cons.mp h
      rw [List.flatMap_cons, utf8EncodeChar_ofNat hb, ih hbytes, List.singleton_append]
  rw [toList_eq_data, ofBytes, String.toUTF8, String.toByteArray_ofList, List.utf8Encode, hencode,
    List.toList_data_toByteArray]

end KnitBench.Text

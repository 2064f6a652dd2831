import Mathlib.Init
import Roster.Bytes.Utf8

/-!
# Texts as bytes

A text is read back from its bytes, so no two texts have the same bytes.
-/

namespace Roster
namespace Utf8

theorem toList_eq_data_toList (bs : ByteArray) : bs.toList = bs.data.toList := by
  have hloop : forall (k i : Nat) (r : List UInt8), bs.size - i = k ->
      ByteArray.toList.loop bs i r = r.reverse ++ bs.data.toList.drop i := by
    intro k
    induction k with
    | zero =>
        intro i r hk
        have hsize : bs.data.toList.length ≤ i := by
          rw [Array.length_toList]
          exact Nat.sub_eq_zero_iff_le.mp hk
        rw [ByteArray.toList.loop, if_neg (by omega), List.drop_eq_nil_of_le hsize,
          List.append_nil]
    | succ k ih =>
        intro i r hk
        have hlt : i < bs.data.toList.length := by
          rw [Array.length_toList]
          change i < bs.size
          omega
        have hget : bs.get! i = bs.data.toList[i] := by
          rw [Array.getElem_toList]
          exact getElem!_pos bs.data i (by simpa using hlt)
        rw [ByteArray.toList.loop, if_pos (by omega), ih (i + 1) _ (by omega),
          List.drop_eq_getElem_cons hlt, hget]
        simp
  rw [ByteArray.toList, hloop bs.size 0 [] rfl]
  simp

theorem length_encode (s : String) : (encode s).length = s.utf8ByteSize := by
  rw [encode, String.toUTF8_eq_toByteArray, toList_eq_data_toList, Array.length_toList]
  rfl

theorem length_encode_ofList_le (cs : List Char) :
    (encode (String.ofList cs)).length ≤ 4 * cs.length := by
  rw [length_encode, ← String.size_toByteArray, String.toByteArray_ofList]
  induction cs with
  | nil => simp
  | cons c cs ih =>
      have hc : [c].utf8Encode.size = c.utf8Size := by
        rw [← String.utf8ByteSize_singleton, ← String.size_toByteArray,
          String.toByteArray_singleton]
      have h4 := c.utf8Size_le_four
      rw [List.utf8Encode_cons, ByteArray.size_append, hc, List.length_cons]
      omega

theorem decode_encode (s : String) : decode (encode s) = .ok s := by
  have hbytes : (⟨(encode s).toArray⟩ : ByteArray) = s.toByteArray := by
    rw [encode, String.toUTF8_eq_toByteArray, toList_eq_data_toList]
  unfold decode
  rw [hbytes, String.fromUTF8?, dif_pos s.isValidUTF8]
  rfl

theorem encode_inj {s t : String} (h : encode s = encode t) : s = t := by
  have hdecode := decode_encode s
  rw [h, decode_encode] at hdecode
  cases hdecode
  rfl

theorem encode_of_ascii {cs : List Char} (h : forall c, c ∈ cs -> c.val ≤ 127) :
    encode (String.ofList cs) = cs.map Char.toUInt8 := by
  rw [encode, String.toUTF8_eq_toByteArray, toList_eq_data_toList, String.toByteArray_ofList]
  induction cs with
  | nil => rfl
  | cons c cs ih =>
      have hsize : c.utf8Size = 1 := Char.utf8Size_eq_one_iff.mpr (h c List.mem_cons_self)
      have hrest := ih fun d hd => h d (List.mem_cons_of_mem c hd)
      rw [List.utf8Encode_cons, ByteArray.data_append, Array.toList_append, hrest,
        List.utf8Encode_singleton, String.utf8EncodeChar_eq_singleton hsize]
      rfl

end Utf8

end Roster

import Letterhead.Bytes
import Letterhead.Text.Octets

/-! Texts in UTF-8. A text is determined by its bytes, and characters of ASCII are one byte each, which is
read back as that character. -/
namespace Letterhead

namespace Text

theorem utf8_injective {s t : Text} (h : utf8 s = utf8 t) : s = t :=
  String.ofList_injective (String.toByteArray_inj.1 h)

theorem toList_utf8_singleton {c : Char} (hc : c.toNat < 128) :
    Bytes.toList (utf8 [c]) = [UInt8.ofNat c.toNat] := by
  have hsize : c.utf8Size = 1 := by
    rw [Char.utf8Size_eq_one_iff, UInt32.le_iff_toNat_le]
    exact Nat.le_of_lt_succ hc
  rw [Bytes.toList, utf8, String.toUTF8_eq_toByteArray, String.toByteArray_ofList,
    List.utf8Encode_singleton, List.toList_data_toByteArray,
    String.utf8EncodeChar_eq_singleton hsize]
  rfl

end Text

namespace Octets

theorem readFrom_none_cons {n : Nat} (hn : n < 128) (bs : List UInt8) :
    readFrom none (UInt8.ofNat n :: bs) = Char.ofNat n :: readFrom none bs := by
  have hnat : (UInt8.ofNat n).toNat = n := by
    rw [UInt8.toNat_ofNat']
    omega
  have hfirst : first n = ([Char.ofNat n], none) := by
    simp [first, begin?, hn]
  rw [readFrom, hnat, hfirst]
  rfl

end Octets
end Letterhead

import Mathlib.Tactic.SplitIfs
import RecordQuery.Proofs.Canonical.Heading

/-!
# The order of bytes

Texts are ordered character by character. Main statement: their bytes in UTF-8 have the same
order.
-/

namespace RecordQuery.Text

theorem toUTF8_toList (text : String) :
    text.toUTF8.toList = text.toList.flatMap String.utf8EncodeChar := by
  rw [ByteArray.toList, Query.toList_loop_eq_append, List.reverse_nil, List.nil_append,
    List.drop_zero, String.toUTF8_eq_toByteArray]
  conv => lhs; rw [← String.ofList_toList (s := text)]
  rw [String.toByteArray_ofList, List.utf8Encode, List.data_toByteArray, List.toList_toArray]

-- A character with a smaller code has the smaller bytes, whatever follows.
theorem utf8EncodeChar_append_lt {c d : Char} (h : c < d) (s t : List UInt8) :
    String.utf8EncodeChar c ++ s < String.utf8EncodeChar d ++ t := by
  have hcodes : c.val.toNat < d.val.toNat := h
  have hbound : d.val.toNat < 0x110000 := by
    have hvalid := d.valid
    simp only [UInt32.isValidChar, Nat.isValidChar] at hvalid
    omega
  -- The bytes of a code are its digits in base 64.
  have hdigits : ∀ code : Nat, code / 4096 = code / 64 / 64 ∧
      code / 262144 = code / 64 / 64 / 64 := fun code => ⟨by omega, by omega⟩
  simp only [String.utf8EncodeChar, hdigits]
  generalize c.val.toNat = v at *
  generalize d.val.toNat = w at *
  -- Of codes with different numbers of bytes the smaller one has fewer.
  split_ifs
  all_goals first
    | omega
    | simp only [List.cons_append, List.nil_append, List.cons_lt_cons_iff,
        UInt8.lt_iff_toNat_lt, ← UInt8.toNat_inj, UInt8.toNat_ofNat']
      omega

-- The induction is on where the texts differ for the first time.
theorem flatMap_utf8EncodeChar_lt {a b : List Char} (h : a < b) :
    a.flatMap String.utf8EncodeChar < b.flatMap String.utf8EncodeChar := by
  change List.Lex (· < ·) a b at h
  induction h with
  | @nil c rest =>
    obtain ⟨first, bytes, hbytes⟩ := List.exists_cons_of_ne_nil
      (String.utf8EncodeChar_ne_nil (c := c))
    rw [List.flatMap_nil, List.flatMap_cons, hbytes]
    exact List.nil_lt_cons _ _
  | rel hlt => exact utf8EncodeChar_append_lt hlt _ _
  | cons _ ih => exact List.append_left_lt ih

theorem toUTF8_lt {s t : String} (h : s < t) : s.toUTF8.toList < t.toUTF8.toList := by
  rw [toUTF8_toList, toUTF8_toList]
  exact flatMap_utf8EncodeChar_lt h

end RecordQuery.Text

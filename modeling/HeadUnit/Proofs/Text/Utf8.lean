import HeadUnit.Proofs.Members.Ascending
import Mathlib.Tactic.SplitIfs

/-!
# UTF-8 bytes

A character above another one has bytes above the other's, and none of them begins with the
other. So texts compare by their bytes as they do by their characters. A text of narrow characters
has a byte for each of them.

## Main definitions

* `Text.utf8` — the bytes of a text.
* `Text.isNarrow` — the characters with a single byte.

## Main statements

* `Text.length_utf8_ofList` — the number of bytes of a text without wide characters.
* `Text.utf8_lt_utf8` — bytes ascend with texts.
* `Members.Ascending.utf8` — ascending keys ascend by their bytes.
-/

namespace HeadUnit

namespace Text

/-- The bytes of a text. -/
def utf8 (s : String) : List UInt8 :=
  s.toUTF8.data.toList

theorem utf8_eq (s : String) : utf8 s = s.toList.flatMap String.utf8EncodeChar := by
  rw [utf8, String.toUTF8_eq_toByteArray, ← String.utf8Encode_toList, List.utf8Encode,
    List.data_toByteArray]

theorem length_utf8 (s : String) : (utf8 s).length = s.toUTF8.size :=
  Array.length_toList

/-- Whether a character has a single byte. -/
def isNarrow (c : Char) : Bool :=
  decide (c.val ≤ 127)

/-- A text of narrow characters has a byte for each of them. -/
theorem length_utf8_ofList {cs : List Char} (h : cs.all isNarrow = true) :
    (utf8 (String.ofList cs)).length = cs.length := by
  rw [utf8_eq, String.toList_ofList]
  induction cs with
  | nil => rfl
  | cons c cs ih =>
    obtain ⟨hc, hcs⟩ : c.val ≤ 127 ∧ cs.all isNarrow = true := by
      simpa [isNarrow] using h
    rw [List.flatMap_cons, List.length_append, ih hcs, String.length_utf8EncodeChar,
      Char.utf8Size_eq_one_iff.2 hc, List.length_cons, Nat.add_comm]

/-- The first byte that differs decides, whatever follows. -/
theorem utf8EncodeChar_append_lt {c d : Char} (h : c < d) (x y : List UInt8) :
    String.utf8EncodeChar c ++ x < String.utf8EncodeChar d ++ y := by
  have hlt : c.val.toNat < d.val.toNat := UInt32.lt_iff_toNat_lt.1 (Char.lt_def.1 h)
  have hd : d.val.toNat < 0x110000 := by
    have hvalid : d.val.toNat < 0xd800 ∨ 0xdfff < d.val.toNat ∧ d.val.toNat < 0x110000 := d.valid
    omega
  unfold String.utf8EncodeChar
  generalize c.val.toNat = m at *
  generalize d.val.toNat = n at *
  have hbyte (a : Nat) (ha : a < 256) : (UInt8.ofNat a).toNat = a := Nat.mod_eq_of_lt ha
  -- The leading byte of four has room for all that is left of the code point.
  have hm : m / 262144 % 8 = m / 262144 := Nat.mod_eq_of_lt (by omega)
  have hn : n / 262144 % 8 = n / 262144 := Nat.mod_eq_of_lt (by omega)
  dsimp only
  split_ifs
  all_goals
    simp (disch := omega) only [List.cons_append, List.nil_append, List.cons_lt_cons_iff,
      UInt8.lt_iff_toNat_lt, ← UInt8.toNat_inj, hbyte, hm, hn]
    omega

theorem flatMap_utf8EncodeChar_lt : ∀ {cs ds : List Char}, cs < ds →
    cs.flatMap String.utf8EncodeChar < ds.flatMap String.utf8EncodeChar
  | [], d :: ds, _ => by
    rw [List.flatMap_nil, List.flatMap_cons]
    obtain ⟨b, bs, hbytes⟩ := List.exists_cons_of_ne_nil (String.utf8EncodeChar_ne_nil (c := d))
    rw [hbytes]
    exact List.nil_lt_cons b _
  | c :: cs, d :: ds, h => by
    rw [List.flatMap_cons, List.flatMap_cons]
    rcases List.cons_lt_cons_iff.1 h with hlt | ⟨rfl, hrest⟩
    · exact utf8EncodeChar_append_lt hlt _ _
    · exact List.append_left_lt (flatMap_utf8EncodeChar_lt hrest)

/-- Bytes ascend with texts. -/
theorem utf8_lt_utf8 {s t : String} (h : s < t) : utf8 s < utf8 t := by
  rw [utf8_eq, utf8_eq]
  exact flatMap_utf8EncodeChar_lt (String.lt_iff.1 h)

end Text

/-- Ascending keys ascend by their bytes. -/
theorem Members.Ascending.utf8 {α : Type} {ms : Members α} (h : Members.Ascending ms) :
    ((Members.keys ms).map Text.utf8).Pairwise (· < ·) :=
  List.pairwise_map.2 (List.Pairwise.imp Text.utf8_lt_utf8 h)

end HeadUnit

import Mathlib.Algebra.Group.Nat.Defs
import Mathlib.Data.List.Basic
import Mathlib.Tactic.SplitIfs

/-!
# The order of bytes

Texts are ordered by their characters, names of files by the bytes of their UTF-8 form. The two orders agree. A
character is written as a first byte, which tells how many bytes follow and holds the leading digits of its code, and
the remaining digits to base 64. A greater code has a greater first byte, or else the same one and as many bytes
behind it, where the first digit that differs decides.
-/

namespace JavaAtlas.Text

def bytes (text : String) : List UInt8 :=
  text.toUTF8.data.toList

theorem bytes_eq (text : String) : bytes text = text.toList.flatMap String.utf8EncodeChar := by
  have hbytes : (String.ofList text.toList).toByteArray = text.toList.utf8Encode := String.toByteArray_ofList
  rw [String.ofList_toList] at hbytes
  rw [bytes, String.toUTF8, hbytes, List.utf8Encode, List.toList_data_toByteArray]

/-! ### The form of a character -/

/-- How many bytes follow the first one of a character. -/
def extraBytes (code : Nat) : Nat :=
  if code ≤ 0x7f then 0 else if code ≤ 0x7ff then 1 else if code ≤ 0xffff then 2 else 3

/-- The first byte of a character: its leading digits, above a mark for the number of bytes behind it. -/
def firstByte (code : Nat) : Nat :=
  if code ≤ 0x7f then code
  else if code ≤ 0x7ff then code / 64 + 0xc0
  else if code ≤ 0xffff then code / 4096 + 0xe0
  else code / 262144 + 0xf0

/-- The last digits of a code to base 64, as the bytes that follow the first one. -/
def digitBytes : Nat → Nat → List UInt8
  | 0, _ => []
  | count + 1, code => digitBytes count (code / 64) ++ [UInt8.ofNat (code % 64 + 0x80)]

theorem toNat_lt (c : Char) : c.toNat < 0x110000 := by
  have hvalid := c.valid
  simp only [UInt32.isValidChar, Nat.isValidChar] at hvalid
  rw [Char.toNat]
  omega

theorem utf8EncodeChar_eq (c : Char) :
    String.utf8EncodeChar c = UInt8.ofNat (firstByte c.toNat) :: digitBytes (extraBytes c.toNat) c.toNat := by
  have hcode : c.val.toNat < 0x110000 := toNat_lt c
  rw [String.utf8EncodeChar.eq_1, Char.toNat]
  generalize c.val.toNat = code at *
  unfold firstByte extraBytes
  split_ifs
  · rfl
  · rw [Nat.mod_eq_of_lt (a := code / 64) (by omega)]
    rfl
  · rw [Nat.mod_eq_of_lt (a := code / 4096) (by omega)]
    simp [digitBytes]
  · rw [Nat.mod_eq_of_lt (a := code / 262144) (by omega)]
    simp [digitBytes, Nat.div_div_eq_div_mul]

variable {code other : Nat} {rest others : List UInt8}

theorem digitBytes_lt {count : Nat} (h : code < other) (hfront : code / 64 ^ count = other / 64 ^ count) :
    digitBytes count code ++ rest < digitBytes count other ++ others := by
  induction count generalizing code other rest others with
  | zero =>
    rw [Nat.pow_zero, Nat.div_one, Nat.div_one] at hfront
    exact absurd hfront (Nat.ne_of_lt h)
  | succ count ih =>
    rw [Nat.pow_succ', ← Nat.div_div_eq_div_mul, ← Nat.div_div_eq_div_mul] at hfront
    rw [digitBytes, digitBytes, List.append_assoc, List.append_assoc]
    obtain hlt | ⟨hsame, hlast⟩ : code / 64 < other / 64 ∨ code / 64 = other / 64 ∧ code % 64 < other % 64 := by omega
    · exact ih hlt hfront
    · rw [hsame]
      apply List.append_left_lt
      refine List.cons_lt_cons_iff.2 (.inl ?_)
      rw [UInt8.lt_iff_toNat_lt, UInt8.toNat_ofNat', UInt8.toNat_ofNat']
      omega

/-- A greater code has a greater first byte, or the same one and the same number of bytes behind it. -/
theorem firstByte_lt_or (h : code < other) :
    firstByte code < firstByte other ∨ firstByte code = firstByte other ∧ extraBytes code = extraBytes other ∧
      code / 64 ^ extraBytes code = other / 64 ^ extraBytes code := by
  unfold firstByte extraBytes
  split_ifs <;> omega

theorem firstByte_lt (h : code < 0x110000) : firstByte code < 0x100 := by
  unfold firstByte
  split_ifs <;> omega

/-- The form of a smaller character is smaller, whatever comes behind the two. -/
theorem utf8EncodeChar_append_lt {c d : Char} (h : c < d) (rest others : List UInt8) :
    String.utf8EncodeChar c ++ rest < String.utf8EncodeChar d ++ others := by
  have hcode : c.toNat < d.toNat := h
  rw [utf8EncodeChar_eq, utf8EncodeChar_eq, List.cons_append, List.cons_append, List.cons_lt_cons_iff]
  obtain hfirst | ⟨hfirst, hcount, hfront⟩ := firstByte_lt_or hcode
  · have hbyte := firstByte_lt (toNat_lt d)
    left
    rw [UInt8.lt_iff_toNat_lt, UInt8.toNat_ofNat', UInt8.toNat_ofNat']
    omega
  · right
    rw [← hcount, hfirst]
    exact ⟨rfl, digitBytes_lt hcode hfront⟩

/-- **Texts are ordered like their bytes.** -/
theorem bytes_lt {text other : String} (h : text < other) : bytes text < bytes other := by
  rw [bytes_eq, bytes_eq]
  have hchars : text.toList < other.toList := h
  generalize text.toList = chars at *
  generalize other.toList = others at *
  induction chars generalizing others with
  | nil =>
    cases others with
    | nil => exact absurd hchars (List.lt_irrefl [])
    | cons d others =>
      rw [List.flatMap_cons, utf8EncodeChar_eq]
      exact List.nil_lt_cons _ _
  | cons c chars ih =>
    cases others with
    | nil => exact absurd hchars (List.not_lt_nil _)
    | cons d others =>
      rw [List.flatMap_cons, List.flatMap_cons]
      obtain hlt | ⟨rfl, hrest⟩ := List.cons_lt_cons_iff.1 hchars
      · exact utf8EncodeChar_append_lt hlt _ _
      · exact List.append_left_lt (ih _ hrest)

end JavaAtlas.Text

/-!
# Blanks

The white space of Unicode, and what texts lose to it: trimming at both ends, removal everywhere, and
the squeezed form in which every run of blanks has become one blank. A text is a list of characters
here; `String` is met at the edges only.
-/

namespace JavaAtlas.Text

/-- Whether a character has the property White_Space. -/
def isBlank (c : Char) : Bool :=
  (9 ≤ c.toNat && c.toNat ≤ 13) || c.toNat == 0x20 || c.toNat == 0x85 || c.toNat == 0xa0
    || c.toNat == 0x1680 || (0x2000 ≤ c.toNat && c.toNat ≤ 0x200a) || c.toNat == 0x2028
    || c.toNat == 0x2029 || c.toNat == 0x202f || c.toNat == 0x205f || c.toNat == 0x3000

def trimEnd (text : List Char) : List Char :=
  (text.reverse.dropWhile isBlank).reverse

def trim (text : List Char) : List Char :=
  trimEnd (text.dropWhile isBlank)

def unspaced (text : List Char) : List Char :=
  text.filter fun c => !isBlank c

/-- The maximal runs of a text that hold no blank. -/
def words (text : List Char) : List (List Char) :=
  (text.splitOnP isBlank).filter fun word => !word.isEmpty

/-- The words of a text, one blank between two of them and none at the ends. -/
def squeezed (text : List Char) : List Char :=
  [' '].intercalate (words text)

def trimmed (text : String) : String :=
  String.ofList (trim text.toList)

theorem dropWhile_isBlank_eq_self {text : List Char} (h : ∀ c ∈ text, isBlank c = false) :
    text.dropWhile isBlank = text := by
  cases text with
  | nil => rfl
  | cons c rest => rw [List.dropWhile_cons_of_neg (by simp [h c])]

theorem trimmed_eq_self {text : String} (h : ∀ c ∈ text.toList, isBlank c = false) :
    trimmed text = text := by
  have hreverse : ∀ c ∈ text.toList.reverse, isBlank c = false :=
    fun c hc => h c (List.mem_reverse.1 hc)
  rw [trimmed, trim, dropWhile_isBlank_eq_self h, trimEnd, dropWhile_isBlank_eq_self hreverse,
    List.reverse_reverse, String.ofList_toList]

end JavaAtlas.Text

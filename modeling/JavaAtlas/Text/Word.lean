import JavaAtlas.Text.Identifier

/-!
# Word characters

The characters of a word in the sense of a line pattern: alphabetic characters, marks, decimal digits,
connector punctuation and the two joiners. That is XID_Continue but for a handful of characters on
either side, which the two short tables name. All tables are those of Unicode 15.1.
-/

namespace JavaAtlas.Text

/-- Word characters without the property XID_Continue: enclosing marks, joiners, circled letters,
and letters whose compatibility form opens with a blank. -/
def wordOnlyRanges : List (Nat × Nat) :=
  [(0x37a, 0x37a), (0x488, 0x489), (0x1abe, 0x1abe), (0x200c, 0x200d), (0x20dd, 0x20e0),
    (0x20e2, 0x20e4), (0x24b6, 0x24e9), (0x2e2f, 0x2e2f), (0xa670, 0xa672), (0xfc5e, 0xfc63),
    (0xfdfa, 0xfdfb), (0xfe70, 0xfe70), (0xfe72, 0xfe72), (0xfe74, 0xfe74), (0xfe76, 0xfe76),
    (0xfe78, 0xfe78), (0xfe7a, 0xfe7a), (0xfe7c, 0xfe7c), (0xfe7e, 0xfe7e), (0x1f130, 0x1f149),
    (0x1f150, 0x1f169), (0x1f170, 0x1f189)]

/-- Characters with the property XID_Continue that belong to no word. -/
def identifierOnlyRanges : List (Nat × Nat) :=
  [(0xb7, 0xb7), (0x387, 0x387), (0x1369, 0x1371), (0x19da, 0x19da), (0x2118, 0x2118),
    (0x212e, 0x212e)]

def isWordChar (c : Char) : Bool :=
  if c.toNat < 128 then isXidContinue c
  else inRanges wordOnlyRanges c.toNat
    || (isXidContinue c && !inRanges identifierOnlyRanges c.toNat)

end JavaAtlas.Text

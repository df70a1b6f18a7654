/-!
# Blank text

A character is blank when Unicode gives it the property White_Space. A text is blank when it has
no other characters. Names, field names and message ids are checked against this notion, and
readers that forgive leading space forgive exactly these characters.
-/

namespace Outreach.Text

/-- The intervals of code points with the property White_Space, in increasing order. -/
def blankRanges : List (Nat × Nat) :=
  [(0x9, 0xD), (0x20, 0x20), (0x85, 0x85), (0xA0, 0xA0), (0x1680, 0x1680), (0x2000, 0x200A),
   (0x2028, 0x2029), (0x202F, 0x202F), (0x205F, 0x205F), (0x3000, 0x3000)]

/-- Membership of a code point in a list of closed intervals. -/
def inRanges (ranges : List (Nat × Nat)) (c : Char) : Bool :=
  ranges.any fun r => decide (r.1 ≤ c.toNat) && decide (c.toNat ≤ r.2)

def isBlankChar (c : Char) : Bool :=
  inRanges blankRanges c

/-- A text without any character that shows. The empty text is blank. -/
def isBlank (s : String) : Bool :=
  s.toList.all isBlankChar

def dropLeading (cs : List Char) : List Char :=
  cs.dropWhile isBlankChar

end Outreach.Text

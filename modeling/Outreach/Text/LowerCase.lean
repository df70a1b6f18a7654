import Outreach.Text.Blank
import Outreach.Text.LetterCase

/-!
# Lower-case form of a text

A text is put into lower case character by character, with two rules that no single character
decides. Capital I with a dot above becomes a small i followed by a combining dot. A capital sigma
becomes the final form when a letter precedes it and none follows it, skipping the characters that
word rules ignore.
-/

namespace Outreach.Text

def isIgnorable (c : Char) : Bool :=
  inRanges ignorableRanges c

/-- A letter with case stands first once ignorable characters are skipped. -/
def startsCased (cs : List Char) : Bool :=
  match cs.dropWhile isIgnorable with
  | [] => false
  | c :: _ => inRanges casedRanges c

/-- The lower-case form of a character by itself. -/
def lowerChar (c : Char) : List Char :=
  if c.toNat = 0x130 then ['i', Char.ofNat 0x307]
  else if c.toNat < 0x80 then [c.toLower]
  else match lowerRuns.find? (·.covers c.toNat) with
    | some run => [run.image c.toNat]
    | none => [c]

/-- Lower-case form of the rest of a text, given the characters before it with the nearest first. -/
def lowerFrom (before : List Char) : List Char → List Char
  | [] => []
  | c :: rest =>
    let here :=
      if c.toNat = 0x3A3 && startsCased before && !startsCased rest then [Char.ofNat 0x3C2]
      else lowerChar c
    here ++ lowerFrom (c :: before) rest

def lowerCase (s : String) : List Char :=
  lowerFrom [] s.toList

/-- The needle stands in the text as a run of neighbouring characters. -/
def occursIn (needle : List Char) : List Char → Bool
  | [] => needle.isEmpty
  | c :: rest => needle.isPrefixOf (c :: rest) || occursIn needle rest

theorem occursIn_iff_infix (needle text : List Char) :
    occursIn needle text = true ↔ needle <:+: text := by
  induction text with
  | nil => simp [occursIn]
  | cons c rest ih => simp [occursIn, ih, List.infix_cons_iff]

/-- The needle occurs in the text when letter case is disregarded. -/
def containsFolded (text needle : String) : Bool :=
  occursIn (lowerCase needle) (lowerCase text)

end Outreach.Text

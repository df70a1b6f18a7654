import Outreach.Json.Token

/-!
# Identifiers

Campaigns, segments, delivery records and events carry UUIDs. An identifier is the number that its
32 hexadecimal digits denote. It is written in lower case with hyphens and read in any of the usual
forms. New identifiers are taken in order from a supply that starts far from the small numbers
people write by hand, so two draws never agree.
-/

namespace Outreach

structure Uuid where
  value : Nat
  deriving DecidableEq, Repr

namespace Uuid

instance : LT Uuid := ⟨fun a b => a.value < b.value⟩

instance : DecidableLT Uuid := fun a b => inferInstanceAs (Decidable (a.value < b.value))

/-- The identifier with all digits zero. -/
def nil : Uuid := ⟨0⟩

/-- The `n`-th identifier of the supply. -/
def fresh (n : Nat) : Uuid :=
  ⟨0x10000000000040008000000000000000 + n⟩

theorem fresh_injective {m n : Nat} (h : fresh m = fresh n) : m = n := by
  simp only [fresh, Uuid.mk.injEq] at h
  omega

/-- The lowest `count` hexadecimal digits of a number, highest first. -/
def hexDigits (n : Nat) : Nat → List Char
  | 0 => []
  | count + 1 => hexDigits (n / 16) count ++ [Nat.digitChar (n % 16)]

/-- All digits of the identifier, at least 32 of them. -/
def digits (u : Uuid) : List Char :=
  let overflow := u.value / Nat.pow 16 32
  (if overflow = 0 then [] else Nat.toDigits 16 overflow) ++ hexDigits u.value 32

def toText (u : Uuid) : String :=
  let ds := u.digits
  let n := ds.length - 24
  String.ofList (ds.take n ++ '-' :: (ds.drop n).take 4 ++ '-' :: (ds.drop (n + 4)).take 4 ++
    '-' :: (ds.drop (n + 8)).take 4 ++ '-' :: ds.drop (n + 12))

def ofDigits? (cs : List Char) : Option Uuid :=
  if cs.length = 32 then
    (cs.mapM Json.hexDigit?).map fun ds => ⟨ds.foldl (fun n d => 16 * n + d) 0⟩
  else none

/-- Digits in groups of 8, 4, 4, 4 and 12 with hyphens between them. -/
def ofHyphenated? (cs : List Char) : Option Uuid :=
  let hyphens := [8, 13, 18, 23].all fun k => cs[k]? == some '-'
  if cs.length = 36 ∧ hyphens then
    ofDigits? (cs.take 8 ++ (cs.drop 9).take 4 ++ (cs.drop 14).take 4 ++ (cs.drop 19).take 4 ++
      cs.drop 24)
  else none

/-- The text after an introduction, if it starts with it. Letter case is disregarded. -/
def afterIntroduction? (introduction cs : List Char) : Option (List Char) :=
  if introduction.isPrefixOf (cs.map Char.toLower) then some (cs.drop introduction.length)
  else none

/-- Reads the plain, hyphenated, braced and URN forms. -/
def ofText? (s : String) : Option Uuid :=
  let cs := s.toList
  if cs.length = 32 then ofDigits? cs
  else if cs.length = 36 then ofHyphenated? cs
  else if cs.length = 38 then
    if cs.head? = some '\x7b' ∧ cs.getLast? = some '\x7d' then ofHyphenated? cs.tail.dropLast
    else none
  else (afterIntroduction? "urn:uuid:".toList cs).bind ofHyphenated?

end Uuid

end Outreach

import Outreach.Json.Number

/-!
# Tokens of a data text

A data text is cut into punctuation, texts, numbers and words by reading one character at a time.
Inside quotes every character below the space is refused. Escapes by code unit name characters only
if each high surrogate is followed by an escaped low one and no low one stands alone. A text with
other escapes and a number beyond the largest float are tokens that have no value.
-/

namespace Outreach.Json

inductive Token
  | openObject
  | closeObject
  | openArray
  | closeArray
  | colon
  | comma
  /-- A text in quotes, if its escapes name characters. -/
  | text (s : Option String)
  /-- A number or a word. -/
  | scalar (j : Json)

/-- What the scanner is in the middle of. Characters collected so far stand last first, inside
quotes as code points and code units. -/
inductive Lexing
  | between
  | word (seen : List Char)
  | number (seen : List Char)
  | quoted (seen : List Nat)
  | escape (seen : List Nat)
  /-- Inside an escaped code unit, with the digits still to come and the value so far. -/
  | unit (seen : List Nat) (left : Nat) (value : Nat)

structure Scan where
  lexing : Lexing
  /-- Tokens found so far, the last one first. -/
  tokens : List Token

def isSpace (c : Char) : Bool :=
  c == ' ' || c == '\n' || c == '\t' || c == '\r'

def isNumberChar (c : Char) : Bool :=
  c.isDigit || c == '+' || c == '-' || c == '.' || c == 'e' || c == 'E'

def hexDigit? (c : Char) : Option Nat :=
  if c.isDigit then some (c.toNat - '0'.toNat)
  else if 'a'.toNat ≤ c.toNat ∧ c.toNat ≤ 'f'.toNat then some (c.toNat - 'a'.toNat + 10)
  else if 'A'.toNat ≤ c.toNat ∧ c.toNat ≤ 'F'.toNat then some (c.toNat - 'A'.toNat + 10)
  else none

def word? (seen : List Char) : Option Json :=
  if seen = ['l', 'l', 'u', 'n'] then some .null
  else if seen = ['e', 'u', 'r', 't'] then some (.bool true)
  else if seen = ['e', 's', 'l', 'a', 'f'] then some (.bool false)
  else none

/-- The character that a one-letter escape stands for. -/
def escaped? (c : Char) : Option Char :=
  if c = '"' ∨ c = '\\' ∨ c = '/' then some c
  else if c = 'b' then some '\x08'
  else if c = 'f' then some '\x0c'
  else if c = 'n' then some '\n'
  else if c = 'r' then some '\r'
  else if c = 't' then some '\t'
  else none

def isHighSurrogate (n : Nat) : Bool :=
  decide (0xD800 ≤ n) && decide (n < 0xDC00)

def isLowSurrogate (n : Nat) : Bool :=
  decide (0xDC00 ≤ n) && decide (n < 0xE000)

/-- The character of a high and a low surrogate. -/
def joined (high low : Nat) : Char :=
  Char.ofNat (0x10000 + (high - 0xD800) * 0x400 + (low - 0xDC00))

/-- The characters that code points and code units name, if no surrogate is left without its
other half. -/
def charsOf? : List Nat → Option (List Char)
  | [] => some []
  | n :: rest =>
    if isHighSurrogate n then
      match rest with
      | m :: rest => if isLowSurrogate m then (charsOf? rest).map (joined n m :: ·) else none
      | [] => none
    else if isLowSurrogate n then none
    else (charsOf? rest).map (Char.ofNat n :: ·)

/-- The token of a text in quotes, from what was collected inside them. -/
def textToken (seen : List Nat) : Token :=
  .text ((charsOf? seen.reverse).map String.ofList)

namespace Scan

/-- A character that starts a token or stands between two. -/
def start? (tokens : List Token) (c : Char) : Option Scan :=
  if isSpace c then some ⟨.between, tokens⟩
  else if c = '\x7b' then some ⟨.between, .openObject :: tokens⟩
  else if c = '\x7d' then some ⟨.between, .closeObject :: tokens⟩
  else if c = '[' then some ⟨.between, .openArray :: tokens⟩
  else if c = ']' then some ⟨.between, .closeArray :: tokens⟩
  else if c = ':' then some ⟨.between, .colon :: tokens⟩
  else if c = ',' then some ⟨.between, .comma :: tokens⟩
  else if c = '"' then some ⟨.quoted [], tokens⟩
  else if c.isAlpha then some ⟨.word [c], tokens⟩
  else if isNumberChar c then some ⟨.number [c], tokens⟩
  else none

/-- Ends the word or number in progress, if there is one. -/
def settle? (s : Scan) : Option (List Token) :=
  match s.lexing with
  | .between => some s.tokens
  | .word seen => (word? seen).map fun j => .scalar j :: s.tokens
  | .number seen => do
    let n ← numeral? seen.reverse
    some (.scalar (n.value?.getD .unreadable) :: s.tokens)
  | _ => none

def feed? (s : Scan) (c : Char) : Option Scan :=
  match s.lexing with
  | .between => start? s.tokens c
  | .word seen =>
    if c.isAlpha then some { s with lexing := .word (c :: seen) }
    else s.settle?.bind (start? · c)
  | .number seen =>
    if isNumberChar c then some { s with lexing := .number (c :: seen) }
    else s.settle?.bind (start? · c)
  | .quoted seen =>
    if c = '"' then some ⟨.between, textToken seen :: s.tokens⟩
    else if c = '\\' then some { s with lexing := .escape seen }
    else if c.toNat < 0x20 then none
    else some { s with lexing := .quoted (c.toNat :: seen) }
  | .escape seen =>
    if c = 'u' then some { s with lexing := .unit seen 4 0 }
    else (escaped? c).map fun e => { s with lexing := .quoted (e.toNat :: seen) }
  | .unit seen left value =>
    (hexDigit? c).map fun d =>
      let value := 16 * value + d
      if left ≤ 1 then { s with lexing := .quoted (value :: seen) }
      else { s with lexing := .unit seen (left - 1) value }

end Scan

/-- The tokens of a text in order. -/
def tokens? (s : String) : Option (List Token) := do
  let scan ← s.toList.foldlM Scan.feed? ⟨.between, []⟩
  let found ← scan.settle?
  some found.reverse

end Outreach.Json

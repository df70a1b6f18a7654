import Outreach.Json.Token

/-!
# Texts in settings tables

A text stands in double quotes, where escapes name characters, or in single quotes, where every
character stands for itself. Three quotes on either side let it go over lines. A line end directly
after the first three does not count, and up to two quotes of the text may touch the last three.
There, a backslash as the last thing on a line takes back all blanks and line ends that follow it.
Tabs are the only control characters in a text.

Line ends are single newlines throughout this folder, since a carriage return before a newline is
dropped before anything is read.
-/

namespace Outreach.Toml

open Json

def isSpace (c : Char) : Bool :=
  c == ' ' || c == '\t'

def dropSpace (cs : List Char) : List Char :=
  cs.dropWhile isSpace

/-- A character that may stand in a text or a remark. -/
def isPlain (c : Char) : Bool :=
  c == '\t' || (decide (0x20 ≤ c.toNat) && c.toNat != 0x7F)

/-- A character that may stand in a text, which may go over lines or not. -/
def isInner (long : Bool) (c : Char) : Bool :=
  isPlain c || (long && c == '\n')

/-- The character denoted by hexadecimal digits. -/
def ofHex? (cs : List Char) : Option Char := do
  let ds ← cs.mapM hexDigit?
  let n := ds.foldl (fun n d => 16 * n + d) 0
  if n.isValidChar then some (Char.ofNat n) else none

/-- The length of the blanks and line ends at the start of a text, if a line ends there. -/
def foldLength? (cs : List Char) : Option Nat :=
  match dropSpace cs with
  | '\n' :: _ => some (cs.takeWhile fun c => isSpace c || c == '\n').length
  | _ => none

/-- The characters of an escape and the number of characters that the escape takes up behind its
backslash. -/
def escape? (long : Bool) : List Char → Option (List Char × Nat)
  | 'u' :: cs => if cs.length < 4 then none else (ofHex? (cs.take 4)).map fun c => ([c], 5)
  | 'U' :: cs => if cs.length < 8 then none else (ofHex? (cs.take 8)).map fun c => ([c], 9)
  | '/' :: _ => none
  | c :: cs =>
    match escaped? c with
    | some e => some ([e], 1)
    | none => if long then (foldLength? (c :: cs)).map fun n => ([], n) else none
  | [] => none

/-- Up to two quotes that still belong to a text whose last three quotes have been seen. -/
def touching (quote : Char) (cs : List Char) : List Char × List Char :=
  let n := ((cs.takeWhile (· == quote)).take 2).length
  (List.replicate n quote, cs.drop n)

/-- Reads on inside double quotes. The number counts the characters of an escape that are still to
be passed over. -/
def quoted? (long : Bool) : Nat → List Char → Option (List Char × List Char)
  | _, [] => none
  | skip + 1, _ :: rest => quoted? long skip rest
  | 0, '"' :: rest =>
    if !long then some ([], rest)
    else
      match rest with
      | '"' :: '"' :: tail => some (touching '"' tail)
      | rest => (quoted? long 0 rest).map fun (cs, tail) => ('"' :: cs, tail)
  | 0, '\\' :: rest => do
    let (named, length) ← escape? long rest
    let (cs, tail) ← quoted? long length rest
    some (named ++ cs, tail)
  | 0, c :: rest =>
    if isInner long c then (quoted? long 0 rest).map fun (cs, tail) => (c :: cs, tail) else none

/-- Reads on inside single quotes, where nothing is escaped. -/
def literal? (long : Bool) : List Char → Option (List Char × List Char)
  | [] => none
  | '\'' :: rest =>
    if !long then some ([], rest)
    else
      match rest with
      | '\'' :: '\'' :: tail => some (touching '\'' tail)
      | rest => (literal? long rest).map fun (cs, tail) => ('\'' :: cs, tail)
  | c :: rest =>
    if isInner long c then (literal? long rest).map fun (cs, tail) => (c :: cs, tail) else none

/-- What follows a line end that does not count. -/
def dropLineEnd : List Char → List Char
  | '\n' :: rest => rest
  | cs => cs

def asText (read : List Char × List Char) : String × List Char :=
  (String.ofList read.1, read.2)

/-- A text on one line, and what follows it. -/
def shortText? : List Char → Option (String × List Char)
  | '"' :: rest => (quoted? false 0 rest).map asText
  | '\'' :: rest => (literal? false rest).map asText
  | _ => none

/-- A text, and what follows it. -/
def text? : List Char → Option (String × List Char)
  | '"' :: '"' :: '"' :: rest => (quoted? true 0 (dropLineEnd rest)).map asText
  | '\'' :: '\'' :: '\'' :: rest => (literal? true (dropLineEnd rest)).map asText
  | cs => shortText? cs

end Outreach.Toml

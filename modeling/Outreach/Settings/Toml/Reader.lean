import Outreach.Settings.Toml.Moment
import Outreach.Settings.Toml.Number
import Outreach.Settings.Toml.Table
import Outreach.Settings.Toml.Text

/-!
# Reading settings tables

A settings file may consist of lines that each hold a key with its value, a table header, or
nothing. A header puts the keys below it into a table, and dotted names lead through tables. A value
is a text, a number, a truth value, a moment, an array or a table on one line. Arrays may go over
lines and have remarks inside. A key has less than 80 names, and arrays and tables nest less than
80 deep.
-/

namespace Outreach.Toml

def maxNames : Nat := 79

def maxDepth : Nat := 79

/-- The text without the carriage returns that belong to line ends. -/
def unifyLineEnds : List Char → List Char
  | '\r' :: '\n' :: rest => '\n' :: unifyLineEnds rest
  | c :: rest => c :: unifyLineEnds rest
  | [] => []

/-- What follows the end of a line, if blanks and a remark are all that is left of it. -/
def restOfLine? (cs : List Char) : Option (List Char) :=
  let rest :=
    match dropSpace cs with
    | '#' :: remark => remark.dropWhile isPlain
    | rest => rest
  match rest with
  | [] => some []
  | '\n' :: next => some next
  | _ => none

/-- Passes over blanks, line ends and remarks. The flag tells whether a remark is under way. -/
def dropBlank : Bool → List Char → List Char
  | _, [] => []
  | _, '\n' :: rest => dropBlank false rest
  | true, c :: rest => if isPlain c then dropBlank true rest else c :: rest
  | false, c :: rest =>
    if isSpace c then dropBlank false rest
    else if c = '#' then dropBlank true rest
    else c :: rest

def isNameChar (c : Char) : Bool :=
  c.isAlphanum || c == '_' || c == '-'

/-- One name of a key, and what follows it. -/
def name? (cs : List Char) : Option (String × List Char) :=
  match cs.takeWhile isNameChar with
  | [] => shortText? cs
  | bare => some (String.ofList bare, cs.dropWhile isNameChar)

/-- The names of a key, and what follows them, up to a number of names. -/
def names? : Nat → List Char → Option (List String × List Char)
  | 0, _ => none
  | most + 1, cs => do
    let (name, rest) ← name? (dropSpace cs)
    match dropSpace rest with
    | '.' :: rest =>
      let (names, rest) ← names? most rest
      some (name :: names, rest)
    | rest => some ([name], rest)

def isValueEnd (c : Char) : Bool :=
  isSpace c || c == '\n' || c == '#' || c == ',' || c == ']' || c == '\x7d'

/-- A run of characters that may be a value, and what follows it. A blank between a date and a time
belongs to it. -/
def run (cs : List Char) : List Char × List Char :=
  let first := cs.takeWhile fun c => !isValueEnd c
  let rest := cs.dropWhile fun c => !isValueEnd c
  match (date? first).map Prod.snd, rest with
  | some [], ' ' :: d :: tail =>
    if d.isDigit then
      (first ++ ' ' :: (d :: tail).takeWhile fun c => !isValueEnd c,
        (d :: tail).dropWhile fun c => !isValueEnd c)
    else (first, rest)
  | _, _ => (first, rest)

/-- The value of a run of characters. -/
def plainValue? (cs : List Char) : Option Json :=
  match String.ofList cs with
  | "true" => some (.bool true)
  | "false" => some (.bool false)
  | _ => ((moment? cs).map .text).or (number? cs)

mutual

/-- A value, and what follows it. The depth counts how many arrays and tables it may still nest.
Every step reads a character, so that their number bounds the steps. -/
def value? : Nat → Nat → List Char → Option (Json × List Char)
  | 0, _, _ => none
  | fuel + 1, depth, cs =>
    match cs with
    | '[' :: rest =>
      if depth = 0 then none
      else (items? fuel (depth - 1) rest).map fun (js, tail) => (.array js, tail)
    | '\x7b' :: rest =>
      if depth = 0 then none
      else
        match dropSpace rest with
        | '\x7d' :: tail => some (.object [], tail)
        | rest => (pairs? fuel (depth - 1) [] rest).map fun (t, tail) => (.object (fieldsOf t), tail)
    | '"' :: _ | '\'' :: _ => (text? cs).map fun (s, tail) => (.text s, tail)
    | _ => (plainValue? (run cs).1).map fun j => (j, (run cs).2)

/-- The items of an array behind its bracket or a comma, and what follows the array. -/
def items? : Nat → Nat → List Char → Option (List Json × List Char)
  | 0, _, _ => none
  | fuel + 1, depth, cs =>
    match dropBlank false cs with
    | ']' :: tail => some ([], tail)
    | cs => do
      let (j, rest) ← value? fuel depth cs
      match dropBlank false rest with
      | ',' :: rest => (items? fuel depth rest).map fun (js, tail) => (j :: js, tail)
      | ']' :: tail => some ([j], tail)
      | _ => none

/-- The pairs of a table on one line, added to those before them, and what follows the table. -/
def pairs? : Nat → Nat → Table → List Char → Option (Table × List Char)
  | 0, _, _, _ => none
  | fuel + 1, depth, t, cs => do
    let (names, rest) ← names? maxNames cs
    match rest with
    | '=' :: rest =>
      let (j, rest) ← value? fuel depth (dropSpace rest)
      let t ← t.insert? j names
      match dropSpace rest with
      | ',' :: rest => pairs? fuel depth t rest
      | '\x7d' :: tail => some (t, tail)
      | _ => none
    | _ => none

end

structure Reader where
  root : Table
  /-- The names of the table that keys go into. -/
  place : List String

/-- A key with its value, or a header, and what follows its line. -/
def statement? (r : Reader) : List Char → Option (Reader × List Char)
  | '[' :: '[' :: rest => do
    let (names, tail) ← names? maxNames rest
    match tail with
    | ']' :: ']' :: tail =>
      let root ← r.root.reach? (Table.openItem? (names.getLast?.getD "")) names.dropLast
      (restOfLine? tail).map fun next => (⟨root, names⟩, next)
    | _ => none
  | '[' :: rest => do
    let (names, tail) ← names? maxNames rest
    match tail with
    | ']' :: tail =>
      let root ← r.root.reach? (Table.openTable? (names.getLast?.getD "")) names.dropLast
      (restOfLine? tail).map fun next => (⟨root, names⟩, next)
    | _ => none
  | cs => do
    let (names, tail) ← names? maxNames cs
    match tail with
    | '=' :: tail =>
      let (j, tail) ← value? tail.length maxDepth (dropSpace tail)
      let root ← r.root.reach? (Table.insert? j names) r.place
      (restOfLine? tail).map fun next => ({ r with root }, next)
    | _ => none

/-- Reads all lines. There are at most as many as characters. -/
def lines? : Nat → Reader → List Char → Option Reader
  | _, r, [] => some r
  | 0, _, _ :: _ => none
  | fuel + 1, r, cs =>
    match restOfLine? cs with
    | some next => lines? fuel r next
    | none => do
      let (r, next) ← statement? r (dropSpace cs)
      lines? fuel r next

/-- A mark of the encoding that may stand in front of a text. -/
def dropEncodingMark : List Char → List Char
  | '\ufeff' :: rest => rest
  | cs => cs

/-- The fields of the root table of a file. -/
def read? (s : String) : Option (List (String × Json)) :=
  let cs := unifyLineEnds (dropEncodingMark s.toList)
  (lines? cs.length ⟨[], []⟩ cs).map fun r => fieldsOf r.root

end Outreach.Toml

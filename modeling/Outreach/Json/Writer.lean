import Outreach.Decimal.Layout
import Outreach.Json.Basic

/-!
# Writing data values

A value is written without spaces or with every part on a line of its own, the fields of an object
in the order in which it holds them. Quotes, backslashes and control characters are escaped and all
other characters stand for themselves.
-/

namespace Outreach.Json

def hexDigit (n : Nat) : Char :=
  (Nat.digitChar n)

/-- The written form of a character inside quotes. -/
def escapeChar (c : Char) : String :=
  if c = '"' then "\\\""
  else if c = '\\' then "\\\\"
  else if c = '\x08' then "\\b"
  else if c = '\x0c' then "\\f"
  else if c = '\n' then "\\n"
  else if c = '\r' then "\\r"
  else if c = '\t' then "\\t"
  else if c.toNat < 0x20 then
    "\\u00" ++ String.ofList [hexDigit (c.toNat / 16), hexDigit (c.toNat % 16)]
  else String.singleton c

def quote (s : String) : String :=
  "\"" ++ s.toList.foldl (fun out c => out ++ escapeChar c) "" ++ "\""

mutual

def write : Json → String
  | .null => "null"
  | .bool true => "true"
  | .bool false => "false"
  | .int z => toString z
  | .float x => Decimal.Layout.data.write x
  | .text s => quote s
  | .unreadable => "null"
  | .array items => "[" ++ ",".intercalate (writeItems items) ++ "]"
  | .object fields => "\x7b" ++ ",".intercalate (writeFields fields) ++ "\x7d"

def writeItems : List Json → List String
  | [] => []
  | j :: rest => j.write :: writeItems rest

def writeFields : List (String × Json) → List String
  | [] => []
  | (name, j) :: rest => (quote name ++ ":" ++ j.write) :: writeFields rest

end

/-- A new line, indented for the given depth. -/
def newLine (depth : Nat) : String :=
  "\n" ++ String.ofList (List.replicate (2 * depth) ' ')

/-- Parts in brackets, each on a line of its own. -/
def bracketed (depth : Nat) (first last : String) (parts : List String) : String :=
  if parts.isEmpty then first ++ last
  else
    first ++ newLine (depth + 1) ++ ("," ++ newLine (depth + 1)).intercalate parts ++
      newLine depth ++ last

mutual

/-- The value with every part on a line of its own. -/
def writeLines (depth : Nat) : Json → String
  | .array items => bracketed depth "[" "]" (writeItemLines (depth + 1) items)
  | .object fields => bracketed depth "\x7b" "\x7d" (writeFieldLines (depth + 1) fields)
  | j => j.write

def writeItemLines (depth : Nat) : List Json → List String
  | [] => []
  | j :: rest => j.writeLines depth :: writeItemLines depth rest

def writeFieldLines (depth : Nat) : List (String × Json) → List String
  | [] => []
  | (name, j) :: rest => (quote name ++ ": " ++ j.writeLines depth) :: writeFieldLines depth rest

end

end Outreach.Json

import Outreach.Answer
import Outreach.Json.Reader
import Outreach.Settings.Basic
import Outreach.Settings.Loose
import Outreach.Settings.Path
import Outreach.Settings.Toml.Reader

/-!
# Loading settings

Settings are loaded from an optional file and from the environment, which wins over the file. The
names at the top of a file are places. A variable belongs to the settings if its name starts with a
fixed prefix in either case, and the rest of the name is a place with double underscores for points.
Its text is taken as a truth value or a number where it reads as one. Settings that cannot be read
are a configuration error, and settings that can be read must also be valid.
-/

namespace Outreach.Settings

/-- A settings file as found. -/
inductive File
  | tables (text : String)
  | data (text : String)
  | missing

def variablePrefix : List Char :=
  "campaign_express__".toList

/-- A name with points in place of double underscores. -/
def dotted : List Char → List Char
  | '_' :: '_' :: rest => '.' :: dotted rest
  | c :: rest => c :: dotted rest
  | [] => []

/-- The place of a variable in the settings, if it belongs to them. -/
def variablePlace? (name : String) : Option (List Char) :=
  let cs := Text.lowerCase name
  if variablePrefix.isPrefixOf cs then some (dotted (cs.drop variablePrefix.length)) else none

/-- The value that the text of a variable reads as. -/
def variableValue (s : String) : Json :=
  match String.ofList (Text.lowerCase s) with
  | "true" => .bool true
  | "false" => .bool false
  | _ =>
    match (Decimal.int? s.toList).filter
        fun z => decide (-Int.pow 2 63 ≤ z ∧ z < Int.pow 2 63) with
    | some z => .int z
    | none =>
      match Decimal.read? s with
      | some x => .float x
      | none => .text s

/-- The settings with a value at the place that a text denotes. A text that denotes none counts for
nothing. -/
def placed (settings : Json) (place : List Char) (value : Json) : Json :=
  match Path.read? place with
  | some path => path.place value settings
  | none => settings

/-- Lays the variables over settings, the later ones winning. -/
def withVariables (environment : List (String × String)) (settings : Json) : Json :=
  environment.foldl
    (fun j v =>
      match variablePlace? v.1 with
      | some place => placed j place (variableValue v.2)
      | none => j)
    settings

def File.fields? : File → Option (List (String × Json))
  | .tables text => Toml.read? text
  | .data text => (Json.read? text).bind Json.fields?
  | .missing => none

/-- The contents of a settings file, with each of its fields at the place that its name denotes. -/
def File.read (f : File) : Answer Json :=
  match f.fields? with
  | some fields => .ok (fields.foldl (fun j f => placed j (Text.lowerCase f.1) f.2) (.object []))
  | none => .error (.configuration "the settings file cannot be read")

/-- Settings from an optional file and the environment. -/
def load (file : Option File) (environment : List (String × String)) : Answer Settings := do
  let base ← match file with
    | some f => f.read
    | none => pure (.object [])
  match decodeWith? Loose.reading (withVariables environment base) with
  | some settings =>
    settings.delivery.validate
    return settings
  | none => throw (.configuration "the settings do not fit their sections")

end Outreach.Settings

import Outreach.Settings.Load

/-!
# Options of the command line

Options are given by name, with the value behind an equals sign or as the next argument. None may
be given twice, and there are no other arguments. Two options can be given by variables of the
environment as well, which count only where the option itself is missing. Help and version can be
asked for by a letter, and nothing counts that stands behind the letter or after it.
-/

namespace Outreach.CommandLine

structure Options where
  /-- Path of a settings file. -/
  config : Option String
  /-- Node name in place of the one in the settings. -/
  nodeId : Option String
  /-- Number of synthetic customers in the directory. -/
  customers : Nat
  /-- Path of a file with the rules of the segment. -/
  rules : Option String
  /-- Seed of the directory and of the delivery. -/
  seed : Option UInt64
  /-- Wait until the funnel has settled. -/
  wait : Bool

/-- What the arguments ask for. -/
inductive Request
  | run (options : Options)
  | help
  | version
  | badUsage

def defaultCustomers : Nat := 1000

def valueOptions : List String :=
  ["config", "node-id", "customers", "rules", "seed", "log-format"]

def word? (s : String) : Option Nat :=
  (Loose.unsigned? s).filter Loose.isWord

/-- Whether a value is one that its option takes. -/
def accepts (name value : String) : Bool :=
  match name with
  | "config" | "rules" => !value.isEmpty
  | "customers" | "seed" => (word? value).isSome
  | "log-format" => value == "json" || value == "pretty"
  | _ => true

/-- An argument that names an option, with the value behind an equals sign. -/
def option? (arg : String) : Option (String × Option String) :=
  match arg.toList with
  | '-' :: '-' :: cs =>
    let name := String.ofList (cs.takeWhile (· != '='))
    match cs.dropWhile (· != '=') with
    | _ :: value => some (name, some (String.ofList value))
    | [] => some (name, none)
  | _ => none

/-- What a single dash with letters asks for, by its first letter. -/
def letters? (arg : String) : Option Request :=
  match arg.toList with
  | '-' :: 'h' :: _ => some .help
  | '-' :: 'V' :: _ => some .version
  | _ => none

/-- An argument that can stand for a value. -/
def isValue (arg : String) : Bool :=
  match arg.toList with
  | '-' :: _ :: _ => false
  | _ => true

/-- Values by option name. -/
abbrev Given := List (String × String)

def optionsOf (given : Given) (fromEnvironment : String → Option String) : Request :=
  let config := (given.lookup "config").or (fromEnvironment "CAMPAIGN_EXPRESS_CONFIG")
  if config = some "" then .badUsage
  else
    .run {
      config
      nodeId := (given.lookup "node-id").or (fromEnvironment "CAMPAIGN_EXPRESS__NODE_ID")
      customers := ((given.lookup "customers").bind word?).getD defaultCustomers
      rules := given.lookup "rules"
      seed := ((given.lookup "seed").bind word?).map UInt64.ofNat
      wait := (given.lookup "wait").isSome }

def scan (fromEnvironment : String → Option String) : List String → Given → Request
  | [], given => optionsOf given fromEnvironment
  | arg :: rest, given =>
    if arg = "--" then if rest.isEmpty then optionsOf given fromEnvironment else .badUsage
    else if arg = "--help" then .help
    else if arg = "--version" then .version
    else
      match option? arg with
      | none => (letters? arg).getD .badUsage
      | some (name, value) =>
        if (given.lookup name).isSome then .badUsage
        else if name = "wait" then
          if value.isSome then .badUsage else scan fromEnvironment rest ((name, "") :: given)
        else if !valueOptions.contains name then .badUsage
        else
          match value, rest with
          | some v, rest =>
            if accepts name v then scan fromEnvironment rest ((name, v) :: given) else .badUsage
          | none, v :: rest =>
            if isValue v && accepts name v then scan fromEnvironment rest ((name, v) :: given)
            else .badUsage
          | none, [] => .badUsage

/-- What the arguments ask for, in an environment of variables. -/
def parse (args : List String) (environment : List (String × String)) : Request :=
  scan (fun name => environment.lookup name) args []

end Outreach.CommandLine

import Outreach.CommandLine.Run
import Outreach.Json.Writer
import Std.Time.DateTime.Timestamp

/-!
# The program

The program reads its arguments, the variables that belong to it and the files that its options
name, and prints the campaign that the run reports. It ends with 1 when the run fails and with 2
when its arguments make no sense.
-/

namespace Outreach.CommandLine

def usage : String :=
  "Usage: campaign-express [OPTIONS]\n\nOptions:\n" ++
  "      --config <CONFIG>          Settings file, below CAMPAIGN_EXPRESS__* variables\n" ++
  "      --node-id <NODE_ID>        Node identifier\n" ++
  "      --customers <CUSTOMERS>    Number of synthetic customers [default: 1000]\n" ++
  "      --rules <RULES>            JSON rule set file\n" ++
  "      --seed <SEED>              Seed of the directory and of the delivery\n" ++
  "      --wait                     Wait for the funnel to settle\n" ++
  "      --log-format <LOG_FORMAT>  [default: json] [possible values: json, pretty]\n" ++
  "  -h, --help                     Print help\n" ++
  "  -V, --version                  Print version"

/-- The names of all variables that can hold settings. -/
def variableNames : List String :=
  "CAMPAIGN_EXPRESS_CONFIG" ::
    (["NODE_ID", "SEGMENTATION__PREVIEW_SAMPLE_SIZE", "SEGMENTATION__PREVIEW_TOP_N",
      "DELIVERY__BATCH_SIZE", "DELIVERY__SEND_SUCCESS_RATE", "DELIVERY__DELIVERY_RATE",
      "DELIVERY__OPEN_RATE", "DELIVERY__CLICK_RATE", "DELIVERY__DELIVERY_DELAY__MIN_MS",
      "DELIVERY__DELIVERY_DELAY__MAX_MS", "DELIVERY__OPEN_DELAY__MIN_MS",
      "DELIVERY__OPEN_DELAY__MAX_MS", "DELIVERY__CLICK_DELAY__MIN_MS",
      "DELIVERY__CLICK_DELAY__MAX_MS", "DELIVERY__RNG_SEED"].map ("CAMPAIGN_EXPRESS__" ++ ·))

def readVariable (name : String) : IO (Option (String × String)) := do
  return (← IO.getEnv name).map (name, ·)

def readFile (path : String) : IO (Option (String × String)) := do
  try
    return some (path, ← IO.FS.readFile path)
  catch _ => return none

/-- The instant that the clock shows. -/
def clock : IO Instant := do
  let nanos := (← Std.Time.Timestamp.now).toNanosecondsSinceUnixEpoch.val
  return ⟨nanos / Instant.nanosPerSecond, (nanos % Instant.nanosPerSecond).toNat⟩

def perform (o : Options) (environment : List (String × String)) : IO UInt32 := do
  let paths := (o.config.map settingsPaths).getD [] ++ o.rules.toList
  let files ← paths.filterMapM readFile
  let entropy ← IO.rand 0 (Nat.pow 2 64 - 1)
  let surroundings : Surroundings :=
    ⟨environment, fun path => files.lookup path, ← clock, UInt64.ofNat entropy⟩
  match run o surroundings with
  | .campaign c => do
    IO.println (c.encode.writeLines 0)
    return 0
  | .failure message => do
    IO.eprintln ("Error: " ++ message)
    return 1

end Outreach.CommandLine

open Outreach.CommandLine in
def main (args : List String) : IO UInt32 := do
  let environment ← variableNames.filterMapM readVariable
  match parse args environment with
  | .run options => perform options environment
  | .help => do
    IO.println usage
    return 0
  | .version => do
    IO.println "campaign-express 0.1.0"
    return 0
  | .badUsage => do
    IO.eprintln usage
    return 2

import Outreach.CommandLine.Options
import Outreach.Directory.Synthetic
import Outreach.Desk

/-!
# A run of the command line

A run fills a directory with synthetic customers, builds a segment from rules and sends a campaign
to it. It reports the campaign once its dispatch has ended, or once the funnel has settled. Settings
that cannot be loaded give way to the defaults, but rules that cannot be loaded end the run.
-/

namespace Outreach.CommandLine

open Segment

/-- What a run finds around it. -/
structure Surroundings where
  environment : List (String × String)
  /-- The text of a file. -/
  file? : String → Option String
  now : Instant
  /-- Seed where none is given. -/
  entropy : UInt64

inductive Report
  | campaign (c : Campaign)
  | failure (message : String)

def operator : String := "cli"

/-- Active customers who have spent more than 1000. -/
def defaultRules : RuleSet :=
  ⟨.and, [.make "total_spent" ">" (.int 1000), .make "is_active" "==" (.text "true")]⟩

/-- The paths of the files that hold settings under a name, with the one without ending last. -/
def settingsPaths (name : String) : List String :=
  [name, name ++ ".toml", name ++ ".json"]

def settingsFileAt? (w : Surroundings) (path : String) : Option Settings.File :=
  if path.endsWith ".toml" then (w.file? path).map .tables
  else if path.endsWith ".json" then (w.file? path).map .data
  else none

def settingsFile (w : Surroundings) (name : String) : Settings.File :=
  ((settingsPaths name).findSome? (settingsFileAt? w)).getD .missing

/-- The settings of a run, where the options win over all else. -/
def settings (o : Options) (w : Surroundings) : Settings :=
  let loaded := Settings.load (o.config.map (settingsFile w)) w.environment
  let s := loaded.toOption.getD .default
  let seed := (o.seed.or s.delivery.rngSeed).getD w.entropy
  { s with
    nodeId := o.nodeId.getD s.nodeId
    delivery := { s.delivery with rngSeed := some seed } }

/-- The rules of a run, or the reason why they cannot be loaded. -/
def rules (o : Options) (w : Surroundings) : Except String RuleSet :=
  match o.rules with
  | none => .ok defaultRules
  | some path =>
    match w.file? path with
    | none => .error ("reading rule set " ++ path)
    | some text =>
      match (Json.read? text).bind RuleSet.decode? with
      | some r => .ok r
      | none => .error ("parsing rule set " ++ path)

def segmentRequest (rules : RuleSet) : SegmentRequest :=
  ⟨"CLI segment", some "Built from the command line", rules⟩

def campaignRequest (segment : Uuid) : CampaignRequest where
  name := "CLI campaign"
  segmentId := some segment
  template := some
    ⟨"A little something for you", "Hi \x7b\x7bname\x7d\x7d, here is an offer picked for you."⟩

/-- Lets the funnel settle and counts the records again. -/
def settleFunnel (s : Desk) (settings : Settings) (campaign : Uuid) : Answer Desk := do
  let s := s.advance settings.delivery.maxFunnelMs
  let (_, s) ← s.recompute campaign operator
  return s

/-- Sends a campaign to the segment of the rules and answers it as it is afterwards. -/
def launch (o : Options) (settings : Settings) (rules : RuleSet) (directory : Directory)
    (now : Instant) : Answer Campaign := do
  let s ← Desk.start settings directory now
  let (segment, s) ← s.defineSegment (segmentRequest rules) operator
  let (campaign, s) ← s.openCampaign (campaignRequest segment.id) operator
  let s := s.awaitDispatch campaign.id
  let s ← if o.wait then settleFunnel s settings campaign.id else pure s
  s.ownedCampaign campaign.id operator

/-- Filling the directory takes time. A purchase a whole number of days ago is therefore older than
that when the rules are looked at. -/
def fillingMs : Nat := 1

def run (o : Options) (w : Surroundings) : Report :=
  match rules o w with
  | .error reason => .failure reason
  | .ok rules =>
    let customers := Synthetic.customers w.now o.customers (o.seed.getD w.entropy)
    let start := w.now.addMillis fillingMs
    match launch o (settings o w) rules (.ofList customers) start with
    | .ok campaign => .campaign campaign
    | .error e => .failure e.message

end Outreach.CommandLine

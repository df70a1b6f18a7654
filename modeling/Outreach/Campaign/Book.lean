import Outreach.Campaign.Basic
import Outreach.Answer

/-!
# The book of campaigns

The book holds campaigns by id. Every change of a campaign in it sets its last update to the instant
of the change, and a change of a campaign that is not there is refused.
-/

namespace Outreach

structure CampaignBook where
  /-- Strictly increasing by id. -/
  campaigns : List Campaign

namespace CampaignBook

def empty : CampaignBook := ⟨[]⟩

def insert (s : CampaignBook) (c : Campaign) : CampaignBook :=
  ⟨Sorted.put Campaign.id c s.campaigns⟩

def get? (s : CampaignBook) (id : Uuid) : Option Campaign :=
  Sorted.get? Campaign.id id s.campaigns

/-- Removes a campaign and tells whether it was there. -/
def delete (s : CampaignBook) (id : Uuid) : Bool × CampaignBook :=
  ((s.get? id).isSome, ⟨Sorted.remove Campaign.id id s.campaigns⟩)

/-- The campaigns of an owner, newest first and those of one instant by id. -/
def list (s : CampaignBook) (owner : String) : List Campaign :=
  (s.campaigns.filter fun c => c.createdBy == owner).mergeSort
    fun a b => decide (b.createdAt ≤ a.createdAt)

/-- Changes a campaign at an instant. The change must keep the id. -/
def update (s : CampaignBook) (id : Uuid) (now : Instant) (change : Campaign → Campaign) :
    Answer CampaignBook :=
  match s.get? id with
  | some _ =>
    .ok ⟨Sorted.modify Campaign.id id (fun c => { change c with updatedAt := now }) s.campaigns⟩
  | none => .error (.campaignNotFound id)

/-- Starts processing with a fixed number of recipients. -/
def startProcessing (s : CampaignBook) (id : Uuid) (total : Nat) (now : Instant) :
    Answer CampaignBook :=
  s.update id now fun c =>
    { c with status := .processing, stats := { c.stats with totalRecipients := total } }

def complete (s : CampaignBook) (id : Uuid) (stats : CampaignStats) (now : Instant) :
    Answer CampaignBook :=
  s.update id now fun c => { c with status := .completed, stats }

def failCampaign (s : CampaignBook) (id : Uuid) (reason : String) (now : Instant) :
    Answer CampaignBook :=
  s.update id now fun c =>
    { c with status := .failed, stats := { c.stats with failureReason := some reason } }

/-- Replaces the statistics and keeps the status. -/
def setStats (s : CampaignBook) (id : Uuid) (stats : CampaignStats) (now : Instant) :
    Answer CampaignBook :=
  s.update id now fun c => { c with stats }

end CampaignBook

end Outreach

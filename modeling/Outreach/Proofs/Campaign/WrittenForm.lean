import Outreach.Campaign.Request
import Outreach.Proofs.Json.Reading

/-!
# Campaigns read back

A campaign is read back from what has been written of it if its identifiers, counts, rates and
instants have a form as data. A listing puts two fields of its own beside those of the campaign. It
is read back as well, since none of the names is used twice and what is not its own is readable.
-/

namespace Outreach

open Json

structure CampaignStats.Storable (s : CampaignStats) : Prop where
  totalRecipients : s.totalRecipients < 2 ^ 64
  sent : s.sent < 2 ^ 64
  failed : s.failed < 2 ^ 64
  delivered : s.delivered < 2 ^ 64
  opened : s.opened < 2 ^ 64
  clicked : s.clicked < 2 ^ 64
  deliveryRate : Decimal.isFinite s.deliveryRate = true
  openRate : Decimal.isFinite s.openRate = true
  clickRate : Decimal.isFinite s.clickRate = true

structure Campaign.Storable (c : Campaign) : Prop where
  id : c.id.Storable
  segmentId : c.segmentId.Storable
  stats : c.stats.Storable
  createdAt : c.createdAt.Storable
  updatedAt : c.updatedAt.Storable

structure CampaignListing.Storable (s : CampaignListing) : Prop where
  campaign : s.campaign.Storable
  segmentEstimatedCount : ∀ n ∈ s.segmentEstimatedCount, n < 2 ^ 64

theorem CampaignStats.reads {s : CampaignStats} (h : s.Storable) : Reads decode? s.encode s := by
  intro sorted
  have htotal := reads_word64 h.totalRecipients sorted
  have hsent := reads_word64 h.sent sorted
  have hfailed := reads_word64 h.failed sorted
  have hdelivered := reads_word64 h.delivered sorted
  have hopened := reads_word64 h.opened sorted
  have hclicked := reads_word64 h.clicked sorted
  have hdeliveryRate := reads_float h.deliveryRate sorted
  have hopenRate := reads_float h.openRate sorted
  have hclickRate := reads_float h.clickRate sorted
  have hreason := givenOr?_optional s.failureReason sorted
  rw [decode?, encode, parts?_held_optional (by simp) fun x => by cases x <;> rfl]
  simp only [List.map_cons, List.map_nil, List.cons_append, List.nil_append, given?,
    Option.bind_eq_bind, Option.bind_some, htotal, hsent, hfailed, hdelivered, hopened, hclicked,
    hdeliveryRate, hopenRate, hclickRate, hreason]

theorem CampaignStats.isReadable_encode (s : CampaignStats) : s.encode.isReadable = true := by
  rw [encode, isReadable]
  refine haveReadable_append ?_ (haveReadable_optionalField _ _)
  simp [haveReadable, isReadable, ofNat, isReadable_ofFloat]

theorem MessageTemplate.reads (t : MessageTemplate) : Reads decode? t.encode t := by
  intro sorted
  have hsubject := reads_text t.subject sorted
  have hbody := reads_text t.body sorted
  rw [decode?, encode, parts?_held_all (by simp) rfl]
  simp only [List.map_cons, List.map_nil, given?, Option.bind_eq_bind, Option.bind_some, hsubject,
    hbody]

theorem CampaignStatus.ofName?_name (s : CampaignStatus) : ofName? s.name = some s := by
  cases s <;> decide

namespace Campaign

variable {c : Campaign}

/-- A campaign is read off an object in which others have written besides. -/
theorem decodeWith?_beside {caseName? : Json → Option String} {others : List (String × Json)}
    (h : c.Storable) (plain : ∀ s, caseName? (.text s) = some s)
    (apart : ∀ f ∈ others, isOwn layout f = false)
    (distinct : ((c.fields ++ others).map Prod.fst).Nodup) (sorted : Bool) :
    decodeWith? caseName? ((Json.object (c.fields ++ others)).held sorted) = some c := by
  have hid := reads_uuid h.id sorted
  have hname := reads_text c.name sorted
  have hsegment := reads_uuid h.segmentId sorted
  have htemplate := c.template.reads sorted
  have hstatus := reads_case plain c.status.ofName?_name sorted
  have hstats := CampaignStats.reads h.stats sorted
  have hcreatedBy := reads_text c.createdBy sorted
  have hcreatedAt := reads_instant h.createdAt sorted
  have hupdatedAt := reads_instant h.updatedAt sorted
  have hown : partsOfFields? layout c.fields = some (c.fields.map fun f => some f.2) := rfl
  rw [decodeWith?, parts?_held distinct ((partsOfFields?_beside apart).trans hown)]
  simp only [fields, List.map_cons, List.map_nil, Option.map_some, given?, Option.bind_eq_bind,
    Option.bind_some, hid, hname, hsegment, htemplate, CampaignStatus.encode, hstatus, hstats,
    hcreatedBy, hcreatedAt, hupdatedAt]

theorem reads (h : c.Storable) : Reads decode? c.encode c := by
  intro sorted
  have hfields : c.encode = .object (c.fields ++ []) := by rw [List.append_nil, encode]
  rw [hfields]
  exact decodeWith?_beside h caseName?_text (by simp) (by simp [fields]) sorted

theorem haveReadable_fields (c : Campaign) : haveReadable c.fields = true := by
  have hstats := c.stats.isReadable_encode
  simp [fields, haveReadable, isReadable, ofUuid, ofInstant, MessageTemplate.encode,
    CampaignStatus.encode, hstats]

end Campaign

theorem CampaignListing.reads {s : CampaignListing} (h : s.Storable) :
    Reads decode? s.encode s := by
  intro sorted
  let own : List (String × Json) := [("segment_name", .ofOption .text s.segmentName),
    ("segment_estimated_count", .ofOption .ofNat s.segmentEstimatedCount)]
  have hdistinct : ((s.campaign.fields ++ own).map Prod.fst).Nodup := by
    simp [Campaign.fields, own]
  have hapart : ∀ f ∈ own, isOwn Campaign.layout f = false := by
    simp [own, isOwn, Campaign.layout, Part.required]
  have hown : ∀ f ∈ own,
      isOwn [.optional "segment_name", .optional "segment_estimated_count"] f = true := by
    simp [own, isOwn, Part.optional]
  have hreadable := fun f hf => (List.mem_append.mp hf).symm.imp (hown f)
    (haveReadable_iff.mp s.campaign.haveReadable_fields f)
  have hcampaign :=
    Campaign.decodeWith?_beside h.campaign sharedCaseName?_text hapart hdistinct sorted
  have hname := reads_optionalText s.segmentName sorted
  have hcount : Reads (option? word64?) (ofOption .ofNat s.segmentEstimatedCount)
      s.segmentEstimatedCount :=
    reads_option rfl fun n hn => reads_word64 (h.segmentEstimatedCount n hn)
  have hfound : partsOfFields? [.optional "segment_name", .optional "segment_estimated_count"]
      (s.campaign.fields ++ own) = some (own.map fun f => some f.2) := rfl
  have hparts := ownParts?_held hdistinct hreadable hfound sorted
  simp only [own, List.map_cons, List.map_nil, Option.map_some] at hparts hcampaign
  rw [decode?, encode, hparts]
  simp only [given?, Option.bind_eq_bind, Option.bind_some, hcampaign, hname, hcount sorted]

theorem CampaignRequest.reads {r : CampaignRequest} (h : ∀ u ∈ r.segmentId, u.Storable) :
    Reads decode? r.encode r := by
  intro sorted
  have hname := reads_text r.name sorted
  have hsegment : Reads (option? uuid?) (ofOption ofUuid r.segmentId) r.segmentId :=
    reads_option rfl fun u hu => reads_uuid (h u hu)
  have htemplate : Reads (option? MessageTemplate.decode?)
      (ofOption MessageTemplate.encode r.template) r.template :=
    reads_option rfl fun t _ => t.reads
  rw [decode?, encode, parts?_held_all (by simp) rfl]
  simp only [List.map_cons, List.map_nil, given?, Option.bind_eq_bind, Option.bind_some, hname,
    hsegment sorted, htemplate sorted]

end Outreach

import Outreach.Proofs.Campaign.WrittenForm
import Outreach.Proofs.Delivery.WrittenForm
import Outreach.Proofs.Segment.WrittenForm

/-!
# Written forms read back

Everything that is exchanged with the outside as data is read back from its written form as it was,
whether the fields of objects stand in the order in which they were written or sorted by name. What
was read is then written in the same way again. The only conditions are those that say what a value
may hold: finite amounts, counts of 64 bits, identifiers of 128 bits, instants that can be
represented, and free values in canonical form.
-/

namespace Outreach

/-- The value is read back from its written form, and written as before once it has been read. -/
structure RoundTrips {α : Type} (encode : α → Json) (decode? : Json → Option α) (a : α) :
    Prop where
  asWritten : decode? (encode a) = some a
  inCanonicalForm : decode? (encode a).canonical = some a
  again : ∀ b, decode? (encode a) = some b ∨ decode? (encode a).canonical = some b →
    encode b = encode a

theorem Json.Reads.roundTrips {α : Type} {encode : α → Json} {decode? : Json → Option α} {a : α}
    (h : Json.Reads decode? (encode a) a) : RoundTrips encode decode? a where
  asWritten := h false
  inCanonicalForm := h true
  again := by
    rintro b (hb | hb)
    · have hsame := hb.symm.trans (h false)
      rw [Option.some.inj hsame]
    · have hsame := hb.symm.trans (h true)
      rw [Option.some.inj hsame]

open Segment in
theorem written_forms_read_back :
    (∀ c : Customer, c.Storable → RoundTrips Customer.encode Customer.decode? c) ∧
    (∀ s : RuleSet, s.Storable → RoundTrips RuleSet.encode RuleSet.decode? s) ∧
    (∀ s : Segment, s.Storable → RoundTrips Segment.encode Segment.decode? s) ∧
    (∀ s : SegmentRequest, s.rules.Storable →
      RoundTrips SegmentRequest.encode SegmentRequest.decode? s) ∧
    (∀ c : Campaign, c.Storable → RoundTrips Campaign.encode Campaign.decode? c) ∧
    (∀ s : CampaignStats, s.Storable → RoundTrips CampaignStats.encode CampaignStats.decode? s) ∧
    (∀ r : MessageRecord, r.Storable →
      RoundTrips MessageRecord.encode MessageRecord.decode? r) ∧
    (∀ e : Event, e.Storable → RoundTrips Event.encode Event.decode? e) ∧
    (∀ r : GroupTotals, r.Storable → RoundTrips GroupTotals.encode GroupTotals.decode? r) ∧
    (∀ p : Overview, p.Storable → RoundTrips Overview.encode Overview.decode? p) ∧
    (∀ r : CampaignRequest, (∀ u ∈ r.segmentId, u.Storable) →
      RoundTrips CampaignRequest.encode CampaignRequest.decode? r) ∧
    (∀ r : Receipt, (∀ i ∈ r.timestamp, i.Storable) →
      RoundTrips Receipt.encode Receipt.decode? r) ∧
    (∀ s : CampaignListing, s.Storable →
      RoundTrips CampaignListing.encode CampaignListing.decode? s) ∧
    (∀ e : LogEntry, e.Storable → RoundTrips LogEntry.encode LogEntry.decode? e) :=
  ⟨fun _ h => (Customer.reads h).roundTrips, fun _ h => (RuleSet.reads h).roundTrips,
    fun _ h => (Segment.reads h).roundTrips, fun _ h => (SegmentRequest.reads h).roundTrips,
    fun _ h => (Campaign.reads h).roundTrips, fun _ h => (CampaignStats.reads h).roundTrips,
    fun _ h => (MessageRecord.reads h).roundTrips, fun _ h => (Event.reads h).roundTrips,
    fun _ h => (GroupTotals.reads h).roundTrips, fun _ h => (Overview.reads h).roundTrips,
    fun _ h => (CampaignRequest.reads h).roundTrips, fun _ h => (Receipt.reads h).roundTrips,
    fun _ h => (CampaignListing.reads h).roundTrips, fun _ h => (LogEntry.reads h).roundTrips⟩

open Segment in
/-- One value of each kind, with a leap second, the largest identifier and the largest count,
attributes inside attributes, a rule with a list for its value, and parts that are left out. -/
theorem samples_round_trip :
    let leap : Instant := ⟨1483228799, 1500000000⟩
    let customer : Customer := ⟨"cust-0", "", none, true, ⟨0.1, 3, some leap⟩,
      ⟨some 30, none, some ""⟩, ⟨none⟩, [("tags", .array [.null, .float 2.5]),
        ("tier", .object [("from", .bool true), ("level", .int (-2))])]⟩
    let rules : RuleSet := ⟨.or, [⟨"tags", "contains", .array [.text "a"], some "list"⟩]⟩
    let request : SegmentRequest := ⟨"All", none, rules⟩
    let segment : Segment := ⟨⟨2 ^ 128 - 1⟩, "All", some "", rules, 1, "ana", true, leap, leap⟩
    let stats : CampaignStats := ⟨2 ^ 64 - 1, 2, 0, 1, 1, 0, 100.0, 50.0, 0.0, some "refused"⟩
    let campaign : Campaign :=
      ⟨⟨0⟩, "Offer", segment.id, ⟨"Hi", "there"⟩, .completed, stats, "ana", leap, leap⟩
    let record : MessageRecord :=
      ⟨⟨1⟩, ⟨0⟩, "cust-0", "c-cust-0", .delivered, leap, some leap, none, none, none⟩
    let event : Event := ⟨⟨2⟩, .receiptApplied, ⟨0⟩, some "cust-0", none, "node", leap⟩
    let row : GroupTotals := ⟨none, 1, 0.1, 0.1, 0.1, 3, 1⟩
    let overview : Overview := ⟨1, [customer], ⟨[⟨"Unknown", 1⟩], [], []⟩, [],
      ⟨0.1, 0.1, 0.1, 0.1⟩, ⟨3.0, 1⟩, [⟨"2-3 Orders", 1⟩]⟩
    RoundTrips Customer.encode Customer.decode? customer ∧
    RoundTrips RuleSet.encode RuleSet.decode? rules ∧
    RoundTrips Segment.encode Segment.decode? segment ∧
    RoundTrips SegmentRequest.encode SegmentRequest.decode? request ∧
    RoundTrips Campaign.encode Campaign.decode? campaign ∧
    RoundTrips CampaignStats.encode CampaignStats.decode? stats ∧
    RoundTrips MessageRecord.encode MessageRecord.decode? record ∧
    RoundTrips Event.encode Event.decode? event ∧
    RoundTrips GroupTotals.encode GroupTotals.decode? row ∧
    RoundTrips Overview.encode Overview.decode? overview ∧
    RoundTrips CampaignRequest.encode CampaignRequest.decode? ⟨"Offer", some segment.id, none⟩ ∧
    RoundTrips Receipt.encode Receipt.decode? ⟨"c-cust-0", .clicked, some leap⟩ ∧
    RoundTrips CampaignListing.encode CampaignListing.decode? ⟨campaign, none, some 1⟩ ∧
    RoundTrips LogEntry.encode LogEntry.decode? ⟨record, some customer⟩ := by
  intro leap customer rules request segment stats campaign record event row overview
  obtain ⟨customers, ruleSets, segments, requests, campaigns, statistics, records, events, rows,
    overviews, openings, receipts, listings, entries⟩ := written_forms_read_back
  have hleap : leap.Storable := ⟨.inr (by decide), by decide⟩
  have hid : ∀ n, n < 2 ^ 128 → (Uuid.mk n).Storable := fun _ h => h
  have hcustomer : customer.Storable := by
    refine ⟨⟨by decide +kernel, by simpa [customer] using hleap⟩, .object ?_ ?_⟩
    · simp only [customer, List.mem_cons, List.not_mem_nil, or_false, forall_eq_or_imp, forall_eq]
      refine ⟨.array ?_, .object ?_ ?_⟩
      · simp [Json.Plain.null, Json.Plain.float]
      · simp [Json.Plain.bool, Json.Plain.int]
      · decide
    · decide
  have hrules : rules.Storable := by
    simp [rules, RuleSet.Storable, Json.Plain.array, Json.Plain.text]
  have hsegment : segment.Storable := ⟨hid _ (by decide), hrules, by decide, hleap, hleap⟩
  have hstats : stats.Storable := ⟨by decide, by decide, by decide, by decide, by decide, by decide,
    by decide +kernel, by decide +kernel, by decide +kernel⟩
  have hcampaign : campaign.Storable := ⟨hid _ (by decide), hsegment.id, hstats, hleap, hleap⟩
  have hrecord : record.Storable := ⟨hid _ (by decide), hid _ (by decide), hleap,
    by simpa [record] using hleap, by simp [record], by simp [record]⟩
  have hevent : event.Storable := ⟨hid _ (by decide), hid _ (by decide), hleap⟩
  have hrow : row.Storable := ⟨by decide, by decide +kernel, by decide +kernel, by decide +kernel,
    by decide, by decide⟩
  have hoverview : overview.Storable := by
    refine ⟨by decide, by simpa [overview] using hcustomer, ⟨?_, by simp [overview],
      by simp [overview]⟩, by simp [overview], ⟨by decide +kernel, by decide +kernel,
      by decide +kernel, by decide +kernel⟩, ⟨by decide +kernel, by decide⟩, ?_⟩
    · simp [overview, Bucket.Storable]
    · simp [overview, Bucket.Storable]
  exact ⟨customers _ hcustomer, ruleSets _ hrules, segments _ hsegment, requests _ hrules,
    campaigns _ hcampaign, statistics _ hstats, records _ hrecord, events _ hevent, rows _ hrow,
    overviews _ hoverview, openings _ (by simpa using hsegment.id),
    receipts _ (by simpa using hleap), listings _ ⟨hcampaign, by simp⟩,
    entries _ ⟨hrecord, by simpa using hcustomer⟩⟩

end Outreach

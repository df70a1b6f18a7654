import Outreach.Delivery.Entry
import Outreach.Delivery.Receipt
import Outreach.Proofs.Directory.WrittenForm

/-!
# Records, events and receipts read back

A message record, an event and a receipt are read back from what has been written of them if their
identifiers and instants have a form as data. An entry of a log puts the customer beside the fields
of the record. The name of that field is not one of the record's, so both are read back.
-/

namespace Outreach

open Json

structure MessageRecord.Storable (r : MessageRecord) : Prop where
  id : r.id.Storable
  campaignId : r.campaignId.Storable
  sentAt : r.sentAt.Storable
  deliveredAt : ∀ i ∈ r.deliveredAt, i.Storable
  openedAt : ∀ i ∈ r.openedAt, i.Storable
  clickedAt : ∀ i ∈ r.clickedAt, i.Storable

structure LogEntry.Storable (e : LogEntry) : Prop where
  record : e.record.Storable
  customer : ∀ c ∈ e.customer, c.Storable

structure Event.Storable (e : Event) : Prop where
  id : e.id.Storable
  campaignId : e.campaignId.Storable
  timestamp : e.timestamp.Storable

theorem DeliveryStatus.reads (d : DeliveryStatus) : Reads decode? d.encode d :=
  reads_case caseName?_text d.ofName?_name

/-! ## Records and their entries -/

namespace MessageRecord

variable {r : MessageRecord}

theorem partsOfFields?_fields (r : MessageRecord) : partsOfFields? layout r.fields =
    some [some (.ofUuid r.id), some (.ofUuid r.campaignId), some (.text r.customerId),
      some (.text r.messageId), some r.status.encode, some (.ofInstant r.sentAt),
      some (.ofOption .ofInstant r.deliveredAt), some (.ofOption .ofInstant r.openedAt),
      some (.ofOption .ofInstant r.clickedAt), r.failureReason.map Json.text] := by
  rw [fields]
  cases r.failureReason <;> rfl

/-- A record is read off an object in which others have written besides. -/
theorem decodeWith?_beside {caseName? : Json → Option String} {others : List (String × Json)}
    (h : r.Storable) (plain : ∀ s, caseName? (.text s) = some s)
    (apart : ∀ f ∈ others, isOwn layout f = false)
    (distinct : ((r.fields ++ others).map Prod.fst).Nodup) (sorted : Bool) :
    decodeWith? caseName? ((Json.object (r.fields ++ others)).held sorted) = some r := by
  have hid := reads_uuid h.id sorted
  have hcampaign := reads_uuid h.campaignId sorted
  have hcustomer := reads_text r.customerId sorted
  have hmessage := reads_text r.messageId sorted
  have hstatus := reads_case plain r.status.ofName?_name sorted
  have hsentAt := reads_instant h.sentAt sorted
  have hdeliveredAt := reads_optionalInstant h.deliveredAt sorted
  have hopenedAt := reads_optionalInstant h.openedAt sorted
  have hclickedAt := reads_optionalInstant h.clickedAt sorted
  have hreason := givenOr?_optional r.failureReason sorted
  rw [decodeWith?,
    parts?_held distinct ((partsOfFields?_beside apart).trans r.partsOfFields?_fields)]
  simp only [List.map_cons, List.map_nil, Option.map_some, given?, Option.bind_eq_bind,
    Option.bind_some, hid, hcampaign, hcustomer, hmessage, DeliveryStatus.encode, hstatus, hsentAt,
    hdeliveredAt, hopenedAt, hclickedAt, hreason]

theorem reads (h : r.Storable) : Reads decode? r.encode r := by
  intro sorted
  have hfields : r.encode = .object (r.fields ++ []) := by rw [List.append_nil, encode]
  have hdistinct : ((r.fields ++ []).map Prod.fst).Nodup := by
    rw [fields]
    cases r.failureReason <;> simp [optionalField]
  rw [hfields]
  exact decodeWith?_beside h caseName?_text (by simp) hdistinct sorted

theorem haveReadable_fields (r : MessageRecord) : haveReadable r.fields = true := by
  have hinstant : ∀ x : Option Instant, (ofOption ofInstant x).isReadable = true := fun x =>
    isReadable_ofOption x fun _ => rfl
  rw [fields]
  refine haveReadable_append ?_ (haveReadable_optionalField _ _)
  simp [haveReadable, isReadable, ofUuid, ofInstant, DeliveryStatus.encode, hinstant]

end MessageRecord

theorem LogEntry.reads {e : LogEntry} (h : e.Storable) : Reads decode? e.encode e := by
  intro sorted
  let own : List (String × Json) := [("customer", .ofOption Customer.encode e.customer)]
  have hdistinct : ((e.record.fields ++ own).map Prod.fst).Nodup := by
    rw [MessageRecord.fields]
    cases e.record.failureReason <;> simp [optionalField, own]
  have hapart : ∀ f ∈ own, isOwn MessageRecord.layout f = false := by
    simp [own, isOwn, MessageRecord.layout, Part.required, Part.optional, Part.defaulted]
  have hown : ∀ f ∈ own, isOwn [.optional "customer"] f = true := by
    simp [own, isOwn, Part.optional]
  have hreadable := fun f hf => (List.mem_append.mp hf).symm.imp (hown f)
    (haveReadable_iff.mp e.record.haveReadable_fields f)
  have hrecord :=
    MessageRecord.decodeWith?_beside h.record sharedCaseName?_text hapart hdistinct sorted
  have hcustomer : Reads (option? Customer.decode?) (ofOption Customer.encode e.customer)
      e.customer :=
    reads_option rfl fun c hc => Customer.reads (h.customer c hc)
  have hfound : partsOfFields? [.optional "customer"] (e.record.fields ++ own) =
      some (own.map fun f => some f.2) := by
    rw [MessageRecord.fields]
    cases e.record.failureReason <;> rfl
  have hparts := ownParts?_held hdistinct hreadable hfound sorted
  simp only [own, List.map_cons, List.map_nil, Option.map_some] at hparts hrecord
  rw [decode?, encode, hparts]
  simp only [given?, Option.bind_eq_bind, Option.bind_some, hrecord, hcustomer sorted]

/-! ## Events and receipts -/

theorem EventKind.reads (t : EventKind) : Reads decode? t.encode t := by
  have hname : (fun name => all.find? fun u => u.name == name) t.name = some t := by
    cases t <;> decide
  exact reads_case caseName?_text hname

theorem Event.reads {e : Event} (h : e.Storable) : Reads decode? e.encode e := by
  intro sorted
  have hid := reads_uuid h.id sorted
  have htype := e.type.reads sorted
  have hcampaign := reads_uuid h.campaignId sorted
  have hcustomer := reads_optionalText e.customerId sorted
  have hmessage := reads_optionalText e.messageId sorted
  have hnode := reads_text e.nodeId sorted
  have htimestamp := reads_instant h.timestamp sorted
  rw [decode?, encode, parts?_held_all (by simp) rfl]
  simp only [List.map_cons, List.map_nil, given?, Option.bind_eq_bind, Option.bind_some, hid,
    htype, hcampaign, hcustomer, hmessage, hnode, htimestamp]

theorem Receipt.reads {r : Receipt} (h : ∀ i ∈ r.timestamp, i.Storable) :
    Reads decode? r.encode r := by
  intro sorted
  have hmessage := reads_text r.messageId sorted
  have hstatus := r.status.reads sorted
  have htimestamp := reads_optionalInstant h sorted
  rw [decode?, encode, parts?_held_all (by simp) rfl]
  simp only [List.map_cons, List.map_nil, given?, givenOr?, Option.bind_eq_bind, Option.bind_some,
    hmessage, hstatus, htimestamp]

end Outreach

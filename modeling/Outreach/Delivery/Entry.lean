import Outreach.Customer
import Outreach.Delivery.Record

/-!
# Entries of a campaign's log

An entry joins a message record with the customer that it was sent to, if the directory still has
that customer. In its written form the record's fields stand beside the customer.
-/

namespace Outreach

structure LogEntry where
  record : MessageRecord
  customer : Option Customer

namespace LogEntry

def encode (e : LogEntry) : Json :=
  .object (e.record.fields ++ [("customer", .ofOption Customer.encode e.customer)])

def decode? (j : Json) : Option LogEntry :=
  match j.ownParts? [.optional "customer"] with
  | some [customer] => do
    let record ← MessageRecord.decodeWith? Json.sharedCaseName? j
    let customer ← Json.given? (Json.option? Customer.decode?) customer
    some { record, customer }
  | _ => none

/-- Newest first, and those of one instant by message id. -/
def precedes (a b : MessageRecord) : Bool :=
  match b.sentAt.compare a.sentAt with
  | .lt => true
  | .eq => decide (a.messageId ≤ b.messageId)
  | .gt => false

end LogEntry

end Outreach

import Outreach.Delivery.Record

/-!
# The book of message records

The book holds message records by id and finds them by message id. A message id is used once: the
creation of a second record with it is refused. A record created under an id that is taken replaces
the old one, and both message ids then lead to the new record.
-/

namespace Outreach

structure RecordBook where
  /-- Strictly increasing by id. -/
  records : List MessageRecord
  /-- Record ids by message id, the latest first. -/
  index : List (String × Uuid)

/-- Conditions on records. One that is not given admits every record. -/
structure RecordFilter where
  campaignId : Option Uuid
  customerId : Option String
  status : Option DeliveryStatus

namespace RecordFilter

def campaign (id : Uuid) : RecordFilter := ⟨some id, none, none⟩

def admits (f : RecordFilter) (r : MessageRecord) : Bool :=
  f.campaignId.all (· == r.campaignId) && f.customerId.all (· == r.customerId) &&
    f.status.all (· == r.status)

end RecordFilter

namespace RecordBook

def empty : RecordBook := ⟨[], []⟩

def size (s : RecordBook) : Nat :=
  s.records.length

def get? (s : RecordBook) (id : Uuid) : Option MessageRecord :=
  Sorted.get? MessageRecord.id id s.records

/-- The record id that a message id leads to. -/
def lookup? (s : RecordBook) (messageId : String) : Option Uuid :=
  s.index.lookup messageId

def create (s : RecordBook) (r : MessageRecord) : Answer RecordBook :=
  match s.lookup? r.messageId with
  | some _ => .error (.store ("duplicate message_id " ++ r.messageId))
  | none => .ok ⟨Sorted.put MessageRecord.id r s.records, (r.messageId, r.id) :: s.index⟩

/-- The records that a filter admits, by id. -/
def find (s : RecordBook) (f : RecordFilter) : List MessageRecord :=
  s.records.filter f.admits

def findByMessage? (s : RecordBook) (messageId : String) : Option MessageRecord :=
  (s.lookup? messageId).bind s.get?

/-- Moves a record forward in place. -/
def advance (s : RecordBook) (id : Uuid) (status : DeliveryStatus) (time : Instant) :
    Outcome × RecordBook :=
  match s.get? id with
  | some r =>
    ((r.advance status time).1,
      { s with records :=
          Sorted.modify MessageRecord.id id (fun r => (r.advance status time).2) s.records })
  | none => (.notFound, s)

end RecordBook

end Outreach

import Outreach.Delivery.Status

/-!
# Outages

The directory and the books behind the operations can be out of order. An outage names the calls
that answer an error instead of doing their work. It can also hide single customers from the
directory, or make the record book lose sight of its records when it is asked to advance one.
-/

namespace Outreach

/-- A call to the directory or a book that can fail. -/
inductive StoreCall
  | countCustomers
  | findCustomers
  | groupCustomers
  | fetchCustomer
  | fetchCampaign
  | startProcessing
  | completeCampaign
  | failCampaign
  | setStats
  | addRecord
  | addRecordFor (customer : String)
  | findRecords
  | findByMessage
  | advanceRecord
  | advanceRecordTo (status : DeliveryStatus)
  deriving DecidableEq, Repr

namespace StoreCall

def name : StoreCall → String
  | countCustomers => "directory.count"
  | findCustomers => "directory.find"
  | groupCustomers => "directory.aggregate"
  | fetchCustomer => "directory.get"
  | fetchCampaign => "campaigns.get"
  | startProcessing => "campaigns.begin_processing"
  | completeCampaign => "campaigns.complete"
  | failCampaign => "campaigns.mark_failed"
  | setStats => "campaigns.update_stats"
  | addRecord => "logs.create"
  | addRecordFor customer => "logs.create:" ++ customer
  | findRecords => "logs.find"
  | findByMessage => "logs.find_by_message_id"
  | advanceRecord => "logs.advance"
  | advanceRecordTo status => "logs.advance:" ++ status.name

end StoreCall

structure Outages where
  failing : List StoreCall
  /-- Customers that the directory does not find by id. -/
  forgotten : List String
  /-- The record book answers that there is no such record when one is to advance. -/
  recordsLost : Bool

namespace Outages

def none : Outages := ⟨[], [], false⟩

/-- Fails if the call is out of order. -/
def check (o : Outages) (call : StoreCall) : Answer Unit :=
  if call ∈ o.failing then .error (.store (call.name ++ " unavailable")) else .ok ()

theorem check_none (call : StoreCall) : none.check call = .ok () := rfl

end Outages

end Outreach

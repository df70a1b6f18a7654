import Outreach.Delivery.RecordBook
import Outreach.Proofs.Sorted

/-!
# What moving and creating do to records

A move forward changes the stage of a record and nothing that was settled when it was created, which
is kept here as the record's origin. It leaves the stamps and the reason of failure in agreement
with the status. The book changes in two ways only. A move keeps the origins of all records in
place, and a creation adds one record to those of its campaign. A book that is filled under fresh
identifiers names each message once and finds it by its name.
-/

namespace Outreach

namespace MessageRecord

/-- The record as it was when it was created. -/
def origin (r : MessageRecord) : MessageRecord :=
  { r with
    status := if r.status = .failed then .failed else .queued
    deliveredAt := none
    openedAt := none
    clickedAt := none }

/-- The stamps and the reason of failure are those that belong to the status. -/
structure Coherent (r : MessageRecord) : Prop where
  delivered : r.deliveredAt.isSome ↔
    r.status = .delivered ∨ r.status = .opened ∨ r.status = .clicked
  opened : r.openedAt.isSome ↔ r.status = .opened ∨ r.status = .clicked
  clicked : r.clickedAt.isSome ↔ r.status = .clicked
  reason : r.failureReason.isSome ↔ r.status = .failed

/-- The message has reached a stage of the funnel. -/
def HasBegun (r : MessageRecord) : Prop :=
  ∃ n, r.status.rank? = some n ∧ 1 ≤ n

theorem advance_cases (r : MessageRecord) (status : DeliveryStatus) (time : Instant) :
    r.advance status time = (.stale, r) ∨
      ∃ current target, r.status.rank? = some current ∧ status.rank? = some target ∧
        current < target ∧ r.advance status time = (.applied, r.moved status target time) := by
  cases hc : r.status.rank? with
  | none => exact Or.inl (by simp [advance, hc])
  | some current =>
    cases ht : status.rank? with
    | none => exact Or.inl (by simp [advance, hc, ht])
    | some target =>
      by_cases hlt : current < target
      · exact Or.inr ⟨current, target, rfl, rfl, hlt, by simp [advance, hc, ht, hlt]⟩
      · exact Or.inl (by simp [advance, hc, ht, hlt])

theorem ne_failed_of_rank? {d : DeliveryStatus} {n : Nat} (h : d.rank? = some n) :
    d ≠ .failed := by
  rintro rfl
  cases h

theorem origin_moved {r : MessageRecord} {status : DeliveryStatus} (hr : r.status ≠ .failed)
    (hs : status ≠ .failed) (target : Nat) (time : Instant) :
    (r.moved status target time).origin = r.origin := by
  simp [origin, moved, hr, hs]

@[simp] theorem origin_advance (r : MessageRecord) (status : DeliveryStatus) (time : Instant) :
    (r.advance status time).2.origin = r.origin := by
  rcases r.advance_cases status time with h | ⟨_, target, hc, ht, _, h⟩
  · rw [h]
  · rw [h]
    exact origin_moved (ne_failed_of_rank? hc) (ne_failed_of_rank? ht) target time

@[simp] theorem origin_id (r : MessageRecord) : r.origin.id = r.id := rfl

@[simp] theorem origin_campaignId (r : MessageRecord) : r.origin.campaignId = r.campaignId := rfl

@[simp] theorem origin_messageId (r : MessageRecord) : r.origin.messageId = r.messageId := rfl

@[simp] theorem origin_customerId (r : MessageRecord) : r.origin.customerId = r.customerId := rfl

theorem origin_status_eq_failed (r : MessageRecord) :
    r.origin.status = .failed ↔ r.status = .failed := by
  by_cases h : r.status = .failed <;> simp [origin, h]

@[simp] theorem id_advance (r : MessageRecord) (status : DeliveryStatus) (time : Instant) :
    (r.advance status time).2.id = r.id := by
  have h := congrArg MessageRecord.id (r.origin_advance status time)
  exact h

@[simp] theorem campaignId_advance (r : MessageRecord) (status : DeliveryStatus)
    (time : Instant) : (r.advance status time).2.campaignId = r.campaignId := by
  have h := congrArg MessageRecord.campaignId (r.origin_advance status time)
  exact h

@[simp] theorem messageId_advance (r : MessageRecord) (status : DeliveryStatus)
    (time : Instant) : (r.advance status time).2.messageId = r.messageId := by
  have h := congrArg MessageRecord.messageId (r.origin_advance status time)
  exact h

theorem isSome_stamp (stage target : Nat) (time : Instant) (old : Option Instant) :
    (stamp stage target time old).isSome ↔ stage ≤ target ∨ old.isSome := by
  by_cases h : stage ≤ target <;> simp [stamp, h]

/-- The statuses of the stages are told by their ranks. -/
theorem stages_of_rank? {d : DeliveryStatus} {n : Nat} (h : d.rank? = some n) :
    ((d = .delivered ∨ d = .opened ∨ d = .clicked) ↔ 1 ≤ n) ∧
      ((d = .opened ∨ d = .clicked) ↔ 2 ≤ n) ∧ (d = .clicked ↔ 3 ≤ n) := by
  cases d <;> cases h <;> simp

/-- The stages of a coherent record carry a stamp up to the one that it has reached. -/
theorem Coherent.isSome_iff_rank {r : MessageRecord} (h : r.Coherent) {n : Nat}
    (rank : r.status.rank? = some n) :
    (r.deliveredAt.isSome ↔ 1 ≤ n) ∧ (r.openedAt.isSome ↔ 2 ≤ n) ∧
      (r.clickedAt.isSome ↔ 3 ≤ n) := by
  rw [h.delivered, h.opened, h.clicked]
  exact stages_of_rank? rank

/-- A move forward stamps every stage up to the one that it leads to, and none beyond. -/
theorem coherent_moved {r : MessageRecord} (h : r.Coherent) {status : DeliveryStatus}
    {current target : Nat} (from_rank : r.status.rank? = some current)
    (to_rank : status.rank? = some target) (forward : current < target) (time : Instant) :
    (r.moved status target time).Coherent := by
  obtain ⟨hdelivered, hopened, hclicked⟩ := h.isSome_iff_rank from_rank
  obtain ⟨todelivered, toopened, toclicked⟩ := stages_of_rank? to_rank
  have hreason := h.reason
  constructor
  · refine (isSome_stamp 1 target time r.deliveredAt).trans ?_
    rw [hdelivered, moved, todelivered]
    omega
  · refine (isSome_stamp 2 target time r.openedAt).trans ?_
    rw [hopened, moved, toopened]
    omega
  · refine (isSome_stamp 3 target time r.clickedAt).trans ?_
    rw [hclicked, moved, toclicked]
    omega
  · rw [moved, hreason]
    simp [ne_failed_of_rank? from_rank, ne_failed_of_rank? to_rank]

theorem coherent_advance {r : MessageRecord} (h : r.Coherent) (status : DeliveryStatus)
    (time : Instant) : (r.advance status time).2.Coherent := by
  rcases r.advance_cases status time with he | ⟨current, target, hc, ht, hlt, he⟩
  · rwa [he]
  · rw [he]
    exact coherent_moved h hc ht hlt time

theorem hasBegun_advance {r : MessageRecord} (begun : r.HasBegun) (status : DeliveryStatus)
    (time : Instant) : (r.advance status time).2.HasBegun := by
  rcases r.advance_cases status time with h | ⟨current, target, hc, ht, hlt, h⟩
  · rwa [h]
  · rw [h]
    exact ⟨target, ht, by omega⟩

/-- A move that was applied has taken the record to a stage, unless it led back to the queue. -/
theorem hasBegun_of_applied {r : MessageRecord} {status : DeliveryStatus} {time : Instant}
    (h : (r.advance status time).1 = .applied) : (r.advance status time).2.HasBegun := by
  rcases r.advance_cases status time with he | ⟨current, target, _, ht, hlt, he⟩
  · rw [he] at h
    cases h
  · rw [he]
    exact ⟨target, ht, by omega⟩

theorem advance_delivered_of_hasBegun {r : MessageRecord} (begun : r.HasBegun) (time : Instant) :
    r.advance .delivered time = (.stale, r) := by
  obtain ⟨n, hn, hle⟩ := begun
  have ht : DeliveryStatus.delivered.rank? = some 1 := rfl
  have hlt : ¬ n < 1 := by omega
  simp [advance, hn, ht, hlt]

end MessageRecord

namespace RecordBook

variable {s t : RecordBook} {r : MessageRecord}

/-! ## Moves -/

theorem records_advance (s : RecordBook) (id : Uuid) (status : DeliveryStatus) (time : Instant) :
    (s.advance id status time).2.records =
      Sorted.modify MessageRecord.id id (fun r => (r.advance status time).2) s.records := by
  cases h : s.get? id with
  | some r => simp [advance, h]
  | none =>
    have absent := Sorted.get?_eq_none.mp h
    have same : s.records.map (fun r => if r.id = id then (r.advance status time).2 else r) =
        s.records.map (fun r => r) := by
      apply List.map_congr_left
      intro r hr
      rw [if_neg (absent r hr)]
    simp only [advance, h, Sorted.modify]
    rw [same, List.map_id']

@[simp] theorem index_advance (s : RecordBook) (id : Uuid) (status : DeliveryStatus)
    (time : Instant) : (s.advance id status time).2.index = s.index := by
  cases h : s.get? id <;> simp [advance, h]

@[simp] theorem lookup?_advance (s : RecordBook) (id : Uuid) (status : DeliveryStatus)
    (time : Instant) (messageId : String) :
    (s.advance id status time).2.lookup? messageId = s.lookup? messageId := by
  simp [lookup?]

theorem get?_advance (s : RecordBook) (id j : Uuid) (status : DeliveryStatus) (time : Instant) :
    (s.advance id status time).2.get? j =
      if j = id then (s.get? j).map fun r => (r.advance status time).2 else s.get? j := by
  rw [get?, records_advance]
  exact Sorted.get?_modify (fun r => (r.advance status time).2)
    (fun r => r.id_advance status time) id j s.records

/-- A record that is not there is not moved, nor is any other. -/
theorem advance_notFound {s : RecordBook} {id : Uuid} {status : DeliveryStatus} {time : Instant}
    (h : (s.advance id status time).1 = .notFound) : (s.advance id status time).2 = s := by
  cases hrecord : s.get? id with
  | none => simp only [advance, hrecord]
  | some r =>
    simp only [advance, hrecord] at h
    rcases r.advance_cases status time with he | ⟨_, _, _, _, _, he⟩
    · rw [he] at h
      cases h
    · rw [he] at h
      cases h

/-- A move that comes too late leaves the book as it is. -/
theorem advance_stale {s : RecordBook} {id : Uuid} {status : DeliveryStatus} {time : Instant}
    (distinct : (s.records.map MessageRecord.id).Nodup)
    (h : (s.advance id status time).1 = .stale) : (s.advance id status time).2 = s := by
  cases hrecord : s.get? id with
  | none =>
    simp only [advance, hrecord] at h
    cases h
  | some r =>
    have hstale : (r.advance status time).1 = .stale := by
      simpa only [advance, hrecord] using h
    obtain ⟨-, hid⟩ := Sorted.get?_eq_some hrecord
    have hsame : ∀ a ∈ s.records,
        (if a.id = id then (a.advance status time).2 else a) = a := by
      intro a ha
      split
      · rename_i he
        have hget := Sorted.get?_of_mem distinct ha
        rw [he, ← get?, hrecord, Option.some.injEq] at hget
        rw [← hget]
        exact MessageRecord.stale_advance hstale
      · rfl
    simp only [advance, hrecord, Sorted.modify]
    rw [List.map_congr_left hsame, List.map_id']

/-- What every record keeps through a move is kept by the list of all records. -/
theorem map_records_advance {α : Type} (view : MessageRecord → α) (s : RecordBook) (id : Uuid)
    (status : DeliveryStatus) (time : Instant)
    (keeps : ∀ r, view (r.advance status time).2 = view r) :
    (s.advance id status time).2.records.map view = s.records.map view := by
  rw [records_advance, Sorted.modify, List.map_map]
  apply List.map_congr_left
  intro r _
  simp only [Function.comp_apply]
  split
  · exact keeps r
  · rfl

@[simp] theorem admits_campaign (c : Uuid) (r : MessageRecord) :
    (RecordFilter.campaign c).admits r = (c == r.campaignId) := by
  simp [RecordFilter.admits, RecordFilter.campaign]

theorem mem_find_campaign {c : Uuid} :
    r ∈ s.find (.campaign c) ↔ r ∈ s.records ∧ r.campaignId = c := by
  rw [find, List.mem_filter, admits_campaign, beq_iff_eq]
  constructor
  · rintro ⟨hr, hc⟩
    exact ⟨hr, hc.symm⟩
  · rintro ⟨hr, hc⟩
    exact ⟨hr, hc.symm⟩

/-! ## Creations -/

theorem create_eq_ok : s.create r = .ok t ↔ s.lookup? r.messageId = none ∧
    t = ⟨Sorted.put MessageRecord.id r s.records, (r.messageId, r.id) :: s.index⟩ := by
  cases h : s.lookup? r.messageId with
  | none => simp [create, h, eq_comm]
  | some id => simp [create, h]

theorem lookup?_create (h : s.create r = .ok t) (messageId : String) :
    t.lookup? messageId = if messageId = r.messageId then some r.id else s.lookup? messageId := by
  obtain ⟨_, rfl⟩ := create_eq_ok.mp h
  by_cases he : messageId = r.messageId
  · simp [lookup?, he]
  · have hb : (messageId == r.messageId) = false := by simpa using he
    simp [lookup?, List.lookup_cons, hb, he]

theorem get?_create_of_ne (h : s.create r = .ok t) {id : Uuid} (hne : r.id ≠ id) :
    t.get? id = s.get? id := by
  obtain ⟨_, rfl⟩ := create_eq_ok.mp h
  exact Sorted.get?_put_of_ne hne s.records

theorem mem_records_create (h : s.create r = .ok t) {b : MessageRecord} (hb : b ∈ t.records) :
    b = r ∨ b ∈ s.records := by
  obtain ⟨_, rfl⟩ := create_eq_ok.mp h
  exact Sorted.mem_put hb

theorem records_create_perm (h : s.create r = .ok t) (fresh : ∀ b ∈ s.records, b.id ≠ r.id) :
    t.records.Perm (r :: s.records) := by
  obtain ⟨_, rfl⟩ := create_eq_ok.mp h
  exact Sorted.put_perm MessageRecord.id r fresh

/-! ## Names of messages -/

/-- Every record is found by the name of its message, and no name leads anywhere else. -/
structure Indexed (s : RecordBook) : Prop where
  listed : ∀ r ∈ s.records, s.lookup? r.messageId = some r.id
  held : ∀ messageId id, s.lookup? messageId = some id →
    ∃ r ∈ s.records, r.messageId = messageId ∧ r.id = id
  distinct : (s.records.map MessageRecord.messageId).Nodup

theorem indexed_empty : Indexed empty := by
  constructor
  · simp [empty]
  · rintro messageId id ⟨⟩
  · simp [empty]

theorem indexed_advance (hs : s.Indexed) (id : Uuid) (status : DeliveryStatus) (time : Instant) :
    (s.advance id status time).2.Indexed := by
  have hview := map_records_advance (fun r => (r.messageId, r.id)) s id status time
    (fun r => by simp)
  have hnames := map_records_advance MessageRecord.messageId s id status time (fun r => by simp)
  constructor
  · intro r hr
    have hm : (r.messageId, r.id) ∈ s.records.map (fun r => (r.messageId, r.id)) :=
      hview ▸ List.mem_map.mpr ⟨r, hr, rfl⟩
    obtain ⟨q, hq, he⟩ := List.mem_map.mp hm
    obtain ⟨hmsg, hid⟩ := Prod.mk.inj he
    rw [lookup?_advance, ← hmsg, ← hid]
    exact hs.listed q hq
  · intro messageId j h
    obtain ⟨q, hq, hmsg, hid⟩ := hs.held messageId j (by simpa using h)
    have hm : (q.messageId, q.id) ∈
        (s.advance id status time).2.records.map (fun r => (r.messageId, r.id)) :=
      hview ▸ List.mem_map.mpr ⟨q, hq, rfl⟩
    obtain ⟨r, hr, he⟩ := List.mem_map.mp hm
    obtain ⟨hmsg', hid'⟩ := Prod.mk.inj he
    exact ⟨r, hr, hmsg'.trans hmsg, hid'.trans hid⟩
  · rw [hnames]
    exact hs.distinct

theorem indexed_create (hs : s.Indexed) (h : s.create r = .ok t)
    (fresh : ∀ b ∈ s.records, b.id ≠ r.id) : t.Indexed := by
  have unused := (create_eq_ok.mp h).1
  have hperm := records_create_perm h fresh
  constructor
  · intro b hb
    rw [lookup?_create h]
    rcases mem_records_create h hb with rfl | hold
    · simp
    · have hl := hs.listed b hold
      have hne : b.messageId ≠ r.messageId := by
        intro he
        rw [he, unused] at hl
        cases hl
      rw [if_neg hne]
      exact hl
  · intro messageId id hl
    rw [lookup?_create h] at hl
    split at hl
    · rename_i he
      exact ⟨r, hperm.mem_iff.mpr List.mem_cons_self, he.symm, Option.some.inj hl⟩
    · obtain ⟨b, hb, hmsg, hid⟩ := hs.held messageId id hl
      exact ⟨b, hperm.mem_iff.mpr (List.mem_cons_of_mem r hb), hmsg, hid⟩
  · have hnew : r.messageId ∉ s.records.map MessageRecord.messageId := by
      intro hm
      obtain ⟨b, hb, he⟩ := List.mem_map.mp hm
      have hl := hs.listed b hb
      rw [he, unused] at hl
      cases hl
    exact (hperm.map MessageRecord.messageId).nodup_iff.mpr
      (List.nodup_cons.mpr ⟨hnew, hs.distinct⟩)

end RecordBook

end Outreach

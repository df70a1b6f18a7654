import Outreach.Proofs.Delivery.Moves

/-!
# The book of records under any calls

The book is called to create records and to move them. As long as every record comes with an
identifier of its own, the names of messages and the records stay in step: a name leads to a record
exactly if one has it, and a creation is refused exactly if its name is in use. The records are
those that calls have created, each moved as later calls have asked, so no record is lost and no
call changes any record but its own.
-/

namespace Outreach

/-- A call that may change the book of records. -/
inductive BookCall
  | create (r : MessageRecord)
  | advance (id : Uuid) (m : Advance)

/-- The move that a call asks of the record with an identifier. -/
def BookCall.moveOf? (id : Uuid) : BookCall → Option Advance
  | .create _ => none
  | .advance j m => if j = id then some m else none

namespace MessageRecord

@[simp] theorem id_moveAll (r : MessageRecord) (moves : List Advance) :
    (r.moveAll moves).id = r.id := by
  induction moves generalizing r with
  | nil => rfl
  | cons m rest ih => rw [moveAll_cons, ih, id_advance]

/-- A move changes nothing but the status and the stamps. -/
theorem exists_advance_eq (r : MessageRecord) (m : Advance) :
    ∃ status delivered opened clicked, (r.advance m.status m.time).2 =
      { r with
        status
        deliveredAt := delivered
        openedAt := opened
        clickedAt := clicked } := by
  rcases r.advance_cases m.status m.time with h | ⟨_, _, _, _, _, h⟩
  · exact ⟨r.status, r.deliveredAt, r.openedAt, r.clickedAt, by rw [h]⟩
  · rw [h]
    exact ⟨_, _, _, _, rfl⟩

end MessageRecord

namespace RecordBook

variable {s t : RecordBook} {r q : MessageRecord} {calls : List BookCall}

/-- The book after a call. A creation that is refused leaves the book as it is. -/
def call (s : RecordBook) : BookCall → RecordBook
  | .create r => (s.create r).toOption.getD s
  | .advance id m => (s.advance id m.status m.time).2

def callAll (s : RecordBook) (calls : List BookCall) : RecordBook :=
  calls.foldl call s

/-- A record to be created has an identifier that no record in the book has. -/
def Fresh (s : RecordBook) : BookCall → Prop
  | .create r => ∀ b ∈ s.records, b.id ≠ r.id
  | .advance _ _ => True

/-- Each of the calls is fresh when it is made. -/
def FreshCalls : RecordBook → List BookCall → Prop
  | _, [] => True
  | s, c :: rest => s.Fresh c ∧ (s.call c).FreshCalls rest

instance (s : RecordBook) : (c : BookCall) → Decidable (s.Fresh c)
  | .create r => inferInstanceAs (Decidable (∀ b ∈ s.records, b.id ≠ r.id))
  | .advance _ _ => inferInstanceAs (Decidable True)

instance (s : RecordBook) : (calls : List BookCall) → Decidable (s.FreshCalls calls)
  | [] => inferInstanceAs (Decidable True)
  | c :: rest =>
    have := instDecidableFreshCalls (s.call c) rest
    inferInstanceAs (Decidable (s.Fresh c ∧ (s.call c).FreshCalls rest))

/-- No record has the name. -/
def Unused (s : RecordBook) (messageId : String) : Prop :=
  ∀ b ∈ s.records, b.messageId ≠ messageId

/-- The calls have created a record, and later ones have brought it to its present form. -/
def Brought (calls : List BookCall) (q : MessageRecord) : Prop :=
  ∃ before r after, calls = before ++ .create r :: after ∧
    (empty.callAll before).Unused r.messageId ∧
    q = r.moveAll (after.filterMap (BookCall.moveOf? r.id))

theorem callAll_concat (s : RecordBook) (calls : List BookCall) (c : BookCall) :
    s.callAll (calls ++ [c]) = (s.callAll calls).call c := by
  simp [callAll]

theorem freshCalls_concat {c : BookCall} :
    s.FreshCalls (calls ++ [c]) ↔ s.FreshCalls calls ∧ (s.callAll calls).Fresh c := by
  induction calls generalizing s with
  | nil => simp [FreshCalls, callAll]
  | cons first rest ih => simp [FreshCalls, callAll, ih, and_assoc]

/-! ## One call -/

/-- Names and records are in step, and every record has an identifier of its own. -/
structure InStep (s : RecordBook) : Prop where
  indexed : s.Indexed
  ids : (s.records.map MessageRecord.id).Nodup

theorem InStep.lookup?_eq_none (h : s.InStep) {messageId : String} :
    s.lookup? messageId = none ↔ s.Unused messageId := by
  constructor
  · rintro hnone b hb rfl
    rw [h.indexed.listed b hb] at hnone
    cases hnone
  · intro unused
    cases hfound : s.lookup? messageId with
    | none => rfl
    | some id =>
      obtain ⟨b, hb, hname, -⟩ := h.indexed.held messageId id hfound
      exact absurd hname (unused b hb)

theorem InStep.findByMessage?_eq_some (h : s.InStep) {messageId : String} :
    s.findByMessage? messageId = some r ↔ r ∈ s.records ∧ r.messageId = messageId := by
  rw [findByMessage?, Option.bind_eq_some_iff]
  constructor
  · rintro ⟨id, hlookup, hget⟩
    obtain ⟨b, hb, hname, rfl⟩ := h.indexed.held messageId id hlookup
    have hsame : s.get? b.id = some b := Sorted.get?_of_mem h.ids hb
    rw [hsame, Option.some.injEq] at hget
    exact hget ▸ ⟨hb, hname⟩
  · rintro ⟨hr, rfl⟩
    exact ⟨r.id, h.indexed.listed r hr, Sorted.get?_of_mem h.ids hr⟩

/-- A call to create a record is answered by whether its name is in use. -/
theorem InStep.create_cases (h : s.InStep) (r : MessageRecord) :
    (s.Unused r.messageId ∧ s.create r = .ok (s.call (.create r)) ∧
        r ∈ (s.call (.create r)).records) ∨
      (¬ s.Unused r.messageId ∧ s.call (.create r) = s ∧
        s.create r = .error (.store ("duplicate message_id " ++ r.messageId))) := by
  rw [← h.lookup?_eq_none]
  cases hlookup : s.lookup? r.messageId with
  | none =>
    left
    refine ⟨rfl, by simp [call, create, hlookup, Except.toOption], ?_⟩
    simp only [call, create, hlookup, Except.toOption, Option.getD_some]
    exact Sorted.mem_put_self MessageRecord.id r s.records
  | some id =>
    right
    simp [call, create, hlookup, Except.toOption]

theorem inStep_empty : InStep empty :=
  ⟨indexed_empty, List.nodup_nil⟩

theorem InStep.call (h : s.InStep) {c : BookCall} (fresh : s.Fresh c) : (s.call c).InStep := by
  cases c with
  | create r =>
    rcases h.create_cases r with ⟨-, hok, -⟩ | ⟨-, hsame, -⟩
    · refine ⟨indexed_create h.indexed hok fresh, ?_⟩
      have hperm := (records_create_perm hok fresh).map MessageRecord.id
      refine hperm.nodup_iff.mpr (List.nodup_cons.mpr ⟨?_, h.ids⟩)
      intro hmem
      obtain ⟨b, hb, he⟩ := List.mem_map.mp hmem
      exact fresh b hb he
    · rwa [hsame]
  | advance id m =>
    refine ⟨indexed_advance h.indexed id m.status m.time, ?_⟩
    have hids := map_records_advance MessageRecord.id s id m.status m.time fun r => by simp
    rw [RecordBook.call, hids]
    exact h.ids

/-- A call to move a record changes that record alone. -/
theorem InStep.records_advance (h : s.InStep) (hr : r ∈ s.records) (m : Advance) :
    (s.advance r.id m.status m.time).2.records =
      s.records.map fun b => if b = r then (r.advance m.status m.time).2 else b := by
  rw [RecordBook.records_advance, Sorted.modify]
  apply List.map_congr_left
  intro b hb
  by_cases he : b = r
  · rw [he, if_pos rfl, if_pos rfl]
  · have hid : b.id ≠ r.id := fun hid => he (List.inj_on_of_nodup_map h.ids hb hr hid)
    rw [if_neg hid, if_neg he]

/-- After a call the book has the records from before, moved as the call asks, and the one that the
call has created. -/
theorem InStep.mem_call (h : s.InStep) {c : BookCall} (fresh : s.Fresh c) :
    q ∈ (s.call c).records ↔
      (∃ b ∈ s.records, q = b.moveAll (c.moveOf? b.id).toList) ∨
        c = .create q ∧ s.Unused q.messageId := by
  cases c with
  | create r =>
    rcases h.create_cases r with ⟨hunused, hok, -⟩ | ⟨hused, hsame, -⟩
    · rw [(records_create_perm hok fresh).mem_iff, List.mem_cons]
      constructor
      · rintro (rfl | hold)
        · exact Or.inr ⟨rfl, hunused⟩
        · exact Or.inl ⟨q, hold, rfl⟩
      · rintro (⟨b, hb, rfl⟩ | ⟨⟨⟩, -⟩)
        · exact Or.inr hb
        · exact Or.inl rfl
    · rw [hsame]
      constructor
      · exact fun hold => Or.inl ⟨q, hold, rfl⟩
      · rintro (⟨b, hb, rfl⟩ | ⟨⟨⟩, hunused⟩)
        · exact hb
        · exact absurd hunused hused
  | advance id m =>
    rw [RecordBook.call, RecordBook.records_advance, Sorted.modify, List.mem_map]
    have hmove : ∀ b : MessageRecord,
        (if b.id = id then (b.advance m.status m.time).2 else b) =
          b.moveAll (((BookCall.advance id m).moveOf? b.id).toList) := by
      intro b
      by_cases hid : b.id = id
      · simp [BookCall.moveOf?, hid, MessageRecord.moveAll]
      · simp [BookCall.moveOf?, hid, Ne.symm hid, MessageRecord.moveAll]
    simp only [hmove, reduceCtorEq, false_and, or_false]
    constructor
    · rintro ⟨b, hb, rfl⟩
      exact ⟨b, hb, rfl⟩
    · rintro ⟨b, hb, rfl⟩
      exact ⟨b, hb, rfl⟩

/-! ## Calls in a row -/

theorem inStep_callAll (fresh : empty.FreshCalls calls) : (empty.callAll calls).InStep := by
  induction calls using List.reverseRecOn with
  | nil => exact inStep_empty
  | append_singleton rest c ih =>
    obtain ⟨hrest, hlast⟩ := freshCalls_concat.mp fresh
    rw [callAll_concat]
    exact (ih hrest).call hlast

/-- One more call moves what the calls before it have brought about, or creates a record. -/
theorem brought_concat {c : BookCall} :
    Brought (calls ++ [c]) q ↔
      (∃ b, Brought calls b ∧ q = b.moveAll (c.moveOf? b.id).toList) ∨
        c = .create q ∧ (empty.callAll calls).Unused q.messageId := by
  constructor
  · rintro ⟨before, r, after, hcalls, hunused, rfl⟩
    rcases List.eq_nil_or_concat after with rfl | ⟨later, last, rfl⟩
    · obtain ⟨rfl, hc⟩ := List.append_inj' hcalls rfl
      cases hc
      exact Or.inr ⟨rfl, hunused⟩
    · rw [List.concat_eq_append, ← List.cons_append, ← List.append_assoc] at hcalls
      obtain ⟨rfl, hc⟩ := List.append_inj' hcalls rfl
      cases hc
      left
      refine ⟨_, ⟨before, r, later, rfl, hunused, rfl⟩, ?_⟩
      rw [MessageRecord.id_moveAll, List.concat_eq_append, List.filterMap_append,
        MessageRecord.moveAll_append]
      cases hmove : c.moveOf? r.id <;> simp [hmove]
  · rintro (⟨b, ⟨before, r, after, rfl, hunused, rfl⟩, rfl⟩ | ⟨rfl, hunused⟩)
    · refine ⟨before, r, after ++ [c], by simp, hunused, ?_⟩
      rw [MessageRecord.id_moveAll, List.filterMap_append, MessageRecord.moveAll_append]
      cases hmove : c.moveOf? r.id <;> simp [hmove]
    · exact ⟨calls, q, [], rfl, hunused, rfl⟩

/-- The book holds what the calls have brought about, and nothing else. -/
theorem mem_callAll (fresh : empty.FreshCalls calls) :
    q ∈ (empty.callAll calls).records ↔ Brought calls q := by
  induction calls using List.reverseRecOn generalizing q with
  | nil =>
    constructor
    · rintro ⟨⟩
    · rintro ⟨before, r, after, hcalls, -⟩
      simp at hcalls
  | append_singleton rest c ih =>
    obtain ⟨hrest, hlast⟩ := freshCalls_concat.mp fresh
    rw [callAll_concat, (inStep_callAll hrest).mem_call hlast, brought_concat]
    simp only [ih hrest]

/-- A name leads to the record that has it, and to none if no record has it. -/
structure LeadsToRecords (s : RecordBook) : Prop where
  distinct : (s.records.map MessageRecord.messageId).Nodup
  found : ∀ messageId r,
    s.findByMessage? messageId = some r ↔ r ∈ s.records ∧ r.messageId = messageId

/-- A record is created exactly if its name is not in use, and a refusal leaves the book alone. -/
structure GuardsNames (s : RecordBook) : Prop where
  created : ∀ r, (∃ t, s.create r = .ok t) ↔ s.Unused r.messageId
  refused : ∀ r, ¬ s.Unused r.messageId →
    s.create r = .error (.store ("duplicate message_id " ++ r.messageId)) ∧
      s.call (.create r) = s

/-- A move changes the status and the stamps of its own record, if there is one, and nothing else
in the book. -/
structure MovesAlone (s : RecordBook) : Prop where
  known : ∀ r ∈ s.records, ∀ m : Advance, ∃ status delivered opened clicked,
    let moved : MessageRecord := { r with
      status
      deliveredAt := delivered
      openedAt := opened
      clickedAt := clicked }
    r.advance m.status m.time = ((r.advance m.status m.time).1, moved) ∧
      s.advance r.id m.status m.time = ((r.advance m.status m.time).1,
        { s with records := s.records.map fun b => if b = r then moved else b })
  unknown : ∀ id (m : Advance), (∀ r ∈ s.records, r.id ≠ id) →
    s.advance id m.status m.time = (.notFound, s)

theorem InStep.guardsNames (h : s.InStep) : s.GuardsNames := by
  constructor
  · intro r
    rcases h.create_cases r with ⟨hunused, hok, -⟩ | ⟨hused, -, herror⟩
    · exact ⟨fun _ => hunused, fun _ => ⟨_, hok⟩⟩
    · refine ⟨?_, fun hunused => absurd hunused hused⟩
      rintro ⟨t, hok⟩
      rw [herror] at hok
      cases hok
  · intro r hused
    rcases h.create_cases r with ⟨hunused, -⟩ | ⟨-, hsame, herror⟩
    · exact absurd hunused hused
    · exact ⟨herror, hsame⟩

theorem InStep.movesAlone (h : s.InStep) : s.MovesAlone := by
  constructor
  · intro r hr m
    obtain ⟨status, delivered, opened, clicked, hmoved⟩ := r.exists_advance_eq m
    refine ⟨status, delivered, opened, clicked, Prod.ext rfl hmoved, ?_⟩
    have hget : s.get? r.id = some r := Sorted.get?_of_mem h.ids hr
    have hrecords := h.records_advance hr m
    rw [hmoved] at hrecords
    have hanswer : (s.advance r.id m.status m.time).1 = (r.advance m.status m.time).1 := by
      simp [advance, hget]
    have hbook : (s.advance r.id m.status m.time).2 =
        ⟨(s.advance r.id m.status m.time).2.records, s.index⟩ := by
      rw [← index_advance s r.id m.status m.time]
    rw [hrecords] at hbook
    exact Prod.ext hanswer hbook
  · intro id m absent
    have hnone : s.get? id = none := Sorted.get?_eq_none.mpr absent
    simp [advance, hnone]

/-- After any calls that create each record under an identifier of its own, names and records are in
step: every name in use leads to the one record that has it, creations are refused exactly for names
in use, and moves change single records. The records are the created ones, moved as asked since. -/
theorem book_stays_in_step (fresh : empty.FreshCalls calls) :
    let s := empty.callAll calls
    s.LeadsToRecords ∧ s.GuardsNames ∧ s.MovesAlone ∧ ∀ q, q ∈ s.records ↔ Brought calls q := by
  intro s
  have h : s.InStep := inStep_callAll fresh
  exact ⟨⟨h.indexed.distinct, fun _ _ => h.findByMessage?_eq_some⟩, h.guardsNames, h.movesAlone,
    fun _ => mem_callAll fresh⟩

/-- A record is refused because its name is in use. The move that is asked of it finds nothing, and
the record that has the name is found as it was moved. -/
theorem refused_record_is_not_found :
    let a := MessageRecord.sample
    let b := { a with id := .fresh 1, customerId := "b" }
    let m : Advance := ⟨.opened, ⟨5, 0⟩⟩
    let calls : List BookCall := [.create a, .create b, .advance b.id m, .advance a.id m]
    let s := empty.callAll calls
    empty.FreshCalls calls ∧ s.findByMessage? b.messageId = some (a.moveAll [m]) ∧
      (¬ ∃ t, s.create b = .ok t) ∧ s.advance b.id m.status m.time = (.notFound, s) := by
  intro a b m calls s
  have fresh : empty.FreshCalls calls := by decide
  obtain ⟨hleads, hguards, hmoves, hbrought⟩ := book_stays_in_step fresh
  have hmem : a.moveAll [m] ∈ s.records :=
    (hbrought _).mpr ⟨[], a, _, rfl, by rintro _ ⟨⟩, rfl⟩
  have hfound : s.findByMessage? b.messageId = some (a.moveAll [m]) :=
    (hleads.found _ _).mpr ⟨hmem, rfl⟩
  refine ⟨fresh, hfound, ?_, hmoves.unknown b.id m (by decide)⟩
  rw [hguards.created b]
  exact fun hunused => hunused _ hmem rfl

end RecordBook

end Outreach

import Std.Data.String.ToInt
import Outreach.Proofs.Delivery.Ledger

/-!
# Names of messages

The name of a message tells its customer and the microsecond in which it was drafted, and nothing
else. Whatever is done to a delivery, a record keeps the name that it was drafted under, and no name
is ever given to two records. So a name that is taken stays with the one record that has it.
-/

namespace Outreach

/-- Where a separator does not occur in front of itself, it splits a list in one way only. -/
theorem append_separator_inj {α : Type} {separator : α} {l m a b : List α} (hl : separator ∉ l)
    (hm : separator ∉ m) (h : l ++ separator :: a = m ++ separator :: b) : l = m ∧ a = b := by
  induction l generalizing m with
  | nil =>
    cases m with
    | nil => simpa using h
    | cons x rest =>
      obtain ⟨rfl, _⟩ := List.cons_eq_cons.mp h
      exact absurd List.mem_cons_self hm
  | cons y rest ih =>
    cases m with
    | nil =>
      obtain ⟨rfl, _⟩ := List.cons_eq_cons.mp h
      exact absurd List.mem_cons_self hl
    | cons x others =>
      obtain ⟨rfl, htail⟩ := List.cons_eq_cons.mp h
      rw [List.mem_cons, not_or] at hl hm
      obtain ⟨rfl, rfl⟩ := ih hl.2 hm.2 htail
      exact ⟨rfl, rfl⟩

theorem underscore_notMem_toList_repr (n : Int) : '_' ∉ (toString n).toList := by
  have hnat : ∀ k : Nat, '_' ∉ k.repr.toList := by
    intro k
    rw [Nat.toList_repr]
    exact Nat.underscore_not_in_toDigits
  cases n with
  | ofNat k => exact hnat k
  | negSucc k =>
    have htext : (toString (Int.negSucc k)).toList = '-' :: (k + 1).repr.toList := by
      change ("-" ++ (k + 1).repr).toList = _
      simp
    rw [htext, List.mem_cons, not_or]
    exact ⟨by decide, hnat (k + 1)⟩

/-- The name of a message tells its microsecond and its customer. -/
theorem messageName_inj {a b : Instant} {x y : String} :
    messageName a x = messageName b y ↔ a.micros = b.micros ∧ x = y := by
  constructor
  · intro h
    have hlist := congrArg String.toList h
    simp only [messageName, String.toList_append, List.append_assoc] at hlist
    obtain ⟨hmicros, hcustomer⟩ := append_separator_inj (underscore_notMem_toList_repr a.micros)
      (underscore_notMem_toList_repr b.micros) (List.append_cancel_left hlist)
    exact ⟨Int.repr_injective (String.toList_injective hmicros), String.toList_injective hcustomer⟩
  · rintro ⟨hmicros, rfl⟩
    rw [messageName, messageName, hmicros]

namespace Simulation

variable {s : Simulation}

/-- The records are found by their names, which tell their customers. -/
structure Named (s : Simulation) : Prop where
  indexed : s.state.records.Indexed
  names : ∀ r ∈ s.state.records.records, ∃ begun, r.messageId = messageName begun r.customerId

/-- Whatever is done, records are found by their names. -/
theorem indexed_act (o : s.Orderly) (h : s.state.records.Indexed) (a : Action) :
    (s.act a).state.records.Indexed := by
  cases recorded_act s a with
  | same _ book => rwa [book]
  | moved _ id status time book =>
    rw [book]
    exact RecordBook.indexed_advance h id status time
  | created r present _ m untried _ book =>
    exact RecordBook.indexed_create h book (o.fresh (dispatchAt?_eq_some present).1 untried)

theorem named_act (o : s.Orderly) (h : s.Named) (a : Action) : (s.act a).Named := by
  refine ⟨indexed_act o h.indexed a, ?_⟩
  cases recorded_act s a with
  | same _ book =>
    rw [book]
    exact h.names
  | moved _ id status time book =>
    intro r hr
    rw [book] at hr
    have hmem : r.origin ∈ s.state.records.origins := by
      rw [← s.state.records.origins_advance id status time]
      exact List.mem_map.mpr ⟨r, hr, rfl⟩
    obtain ⟨q, hq, he⟩ := List.mem_map.mp hmem
    obtain ⟨begun, hname⟩ := h.names q hq
    rw [← q.origin_messageId, ← q.origin_customerId, he] at hname
    exact ⟨begun, hname⟩
  | created r present _ m untried _ book =>
    have hr := (dispatchAt?_eq_some present).1
    intro q hq
    rcases RecordBook.mem_records_create book hq with rfl | hold
    · obtain ⟨begun, -, hname⟩ := (o.drafts r hr q untried).name
      exact ⟨begun, hname⟩
    · exact h.names q hold

theorem named_run (o : s.Orderly) (h : s.Named) (actions : List Action) :
    (s.run actions).Named := by
  induction actions generalizing s with
  | nil => exact h
  | cons a rest ih => exact ih (orderly_act o a) (named_act o h a)

/-- A record that has the name of a draft is for the customer of the draft. -/
theorem Named.customerId_eq (h : s.Named) {q r : MessageRecord} {campaign : Uuid}
    (hq : q ∈ s.state.records.records) (draft : r.DraftOf campaign)
    (same : q.messageId = r.messageId) : q.customerId = r.customerId := by
  obtain ⟨_, hname⟩ := h.names q hq
  obtain ⟨_, -, hdraft⟩ := draft.name
  rw [hname, hdraft, messageName_inj] at same
  exact same.2

/-- Two records of one name are one record. -/
theorem Named.eq_of_messageId (h : s.Named) {q r : MessageRecord}
    (hq : q ∈ s.state.records.records) (hr : r ∈ s.state.records.records)
    (same : q.messageId = r.messageId) : q = r :=
  List.inj_on_of_nodup_map h.indexed.distinct hq hr same

end Simulation

end Outreach

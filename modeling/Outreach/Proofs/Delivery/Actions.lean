import Mathlib.Data.List.Perm.Basic
import Outreach.Delivery.Simulation
import Outreach.Proofs.Delivery.Steps

/-!
# Deliveries in any order

Seen from one task, everything else can happen between any two of its steps: other tasks take
theirs, time passes, receipts arrive, campaigns are entered, cancelled or deleted, and calls go
out of order or back in order. A run is any list of such actions. An action whose task is not
there, or whose call is refused, changes nothing. Running tasks in the order of the clock gives
one of these runs.
-/

namespace Outreach

/-- What goes on in the background. -/
inductive Work
  | walk (ticket : Nat)
  | dispatch (ticket : Nat)
  /-- The records of a batch are created side by side, so each of them may be the next one. -/
  | rearrange (ticket : Nat) (untried : List MessageRecord) (tried : List (Option MessageRecord))
  | moveTo (time : Instant)

inductive Action
  | work (w : Work)
  | begin (campaign : Uuid) (recipients : List String)
  | receive (receipt : Receipt)
  /-- A receipt is applied whose record has been looked up before. -/
  | deliver (receipt : Receipt) (record : MessageRecord)
  | recompute (campaign : Uuid)
  | cancel (campaign : Uuid)
  | cancelWalk (record : Uuid)
  | unregister (campaign : Uuid)
  | drop (campaign : Uuid)
  | setOutages (outages : Outages)
  | takeId
  | enter (campaign : Campaign)
  | delete (campaign : Uuid)

namespace Dispatch

/-- Puts the records of the batch in another order. -/
def rearrange (d : Dispatch) (untried : List MessageRecord)
    (tried : List (Option MessageRecord)) : Dispatch :=
  match d.phase, untried with
  | .creating next more done rest tally, first :: others =>
    if (first :: others).Perm (next :: more) ∧ tried.Perm done then
      { d with phase := .creating first others tried rest tally }
    else d
  | _, _ => d

/-- A batch is put in another order, or nothing happens. -/
theorem rearrange_cases (d : Dispatch) (untried : List MessageRecord)
    (tried : List (Option MessageRecord)) :
    d.rearrange untried tried = d ∨ ∃ next more done rest tally first others,
      d.phase = .creating next more done rest tally ∧ (first :: others).Perm (next :: more) ∧
      tried.Perm done ∧
      d.rearrange untried tried = { d with phase := .creating first others tried rest tally } := by
  cases hp : d.phase with
  | creating next more done rest tally =>
    cases untried with
    | nil => exact Or.inl (by simp [rearrange, hp])
    | cons first others =>
      by_cases h : (first :: others).Perm (next :: more) ∧ tried.Perm done
      · right
        refine ⟨next, more, done, rest, tally, first, others, rfl, h.1, h.2, ?_⟩
        simp [rearrange, hp, h.1, h.2]
      · exact Or.inl (by simp [rearrange, hp, h])
  | _ => exact Or.inl (by simp [rearrange, hp])

end Dispatch

namespace Simulation

def walkAt? (s : Simulation) (ticket : Nat) : Option (PendingEntry Walk) :=
  s.state.agenda.pending.find? fun e => e.ticket == ticket

def dispatchAt? (s : Simulation) (ticket : Nat) : Option RunningDispatch :=
  s.running.find? fun r => r.ticket == ticket

def work (s : Simulation) : Work → Simulation
  | .walk ticket =>
    match s.walkAt? ticket with
    | some e => s.step (.walk e)
    | none => s
  | .dispatch ticket =>
    match s.dispatchAt? ticket with
    | some r => s.step (.dispatch r)
    | none => s
  | .rearrange ticket untried tried =>
    match s.dispatchAt? ticket with
    | some r => s.replace { r with dispatch := r.dispatch.rearrange untried tried }
    | none => s
  | .moveTo time => s.moveTo time

/-- Makes a call that leaves everything as it is when it is refused. -/
def attempt {α : Type} (s : Simulation) (call : DeliveryState → Answer (α × DeliveryState)) :
    Simulation :=
  match call s.state with
  | .ok (_, state) => { s with state }
  | .error _ => s

def act (s : Simulation) : Action → Simulation
  | .work w => s.work w
  | .begin campaign recipients => s.dispatchInBackground campaign recipients
  | .receive receipt => s.attempt fun state => state.receive receipt
  | .deliver receipt record => s.attempt fun state => state.deliver receipt record
  | .recompute campaign => s.attempt fun state => state.recompute campaign
  | .cancel campaign => s.withState fun state => (state.cancelAll campaign).2
  | .cancelWalk record => s.withState fun state => (state.cancelWalk record).2
  | .unregister campaign => s.unregister campaign
  | .drop campaign => s.drop campaign
  | .setOutages outages => s.withState fun state => { state with outages }
  | .takeId => s.withState fun state => state.takeId.2
  | .enter campaign =>
    s.withState fun state => { state with campaigns := state.campaigns.insert campaign }
  | .delete campaign =>
    s.withState fun state => { state with campaigns := (state.campaigns.delete campaign).2 }

def run (s : Simulation) (actions : List Action) : Simulation :=
  actions.foldl act s

@[simp] theorem run_nil (s : Simulation) : s.run [] = s := rfl

@[simp] theorem run_cons (s : Simulation) (a : Action) (actions : List Action) :
    s.run (a :: actions) = (s.act a).run actions := rfl

theorem run_append (s : Simulation) (first later : List Action) :
    s.run (first ++ later) = (s.run first).run later :=
  List.foldl_append

theorem run_concat (s : Simulation) (actions : List Action) (a : Action) :
    s.run (actions ++ [a]) = (s.run actions).act a := by
  rw [run_append]
  rfl

variable {s : Simulation}

theorem attempt_cases {α : Type} (s : Simulation)
    (call : DeliveryState → Answer (α × DeliveryState)) :
    s.attempt call = s ∨
      ∃ answer t, call s.state = .ok (answer, t) ∧ s.attempt call = { s with state := t } := by
  cases h : call s.state with
  | error e => exact Or.inl (by simp only [attempt, h])
  | ok answer =>
    obtain ⟨a, t⟩ := answer
    exact Or.inr ⟨a, t, rfl, by simp only [attempt, h]⟩

theorem step_dispatch (s : Simulation) (r : RunningDispatch) :
    s.step (.dispatch r) =
      Simulation.replace { s with state := (s.state.stepDispatch r.dispatch).2 }
        { r with dispatch := (s.state.stepDispatch r.dispatch).1 } := rfl

/-! ## Tasks that are there -/

theorem walkAt?_eq_some {ticket : Nat} {e : PendingEntry Walk} (h : s.walkAt? ticket = some e) :
    e ∈ s.state.agenda.pending ∧ e.ticket = ticket :=
  ⟨List.mem_of_find?_eq_some h, by simpa using List.find?_some h⟩

theorem dispatchAt?_eq_some {ticket : Nat} {r : RunningDispatch}
    (h : s.dispatchAt? ticket = some r) : r ∈ s.running ∧ r.ticket = ticket :=
  ⟨List.mem_of_find?_eq_some h, by simpa using List.find?_some h⟩

theorem mem_replace {r q : RunningDispatch} (h : q ∈ (s.replace r).running) :
    q = r ∨ (q ∈ s.running ∧ q.ticket ≠ r.ticket) := by
  simp only [replace] at h
  split at h
  · obtain ⟨hq, hne⟩ := List.mem_filter.mp h
    exact Or.inr ⟨hq, by simpa using hne⟩
  · obtain ⟨p, hp, rfl⟩ := List.mem_map.mp h
    by_cases he : p.ticket = r.ticket
    · exact Or.inl (by rw [if_pos he])
    · exact Or.inr (by rw [if_neg he]; exact ⟨hp, he⟩)

theorem mem_replace_of_ne {r q : RunningDispatch} (h : q ∈ s.running)
    (other : q.ticket ≠ r.ticket) :
    q ∈ (s.replace r).running := by
  simp only [replace]
  split
  · exact List.mem_filter.mpr ⟨h, by simpa using other⟩
  · exact List.mem_map.mpr ⟨q, h, if_neg other⟩

theorem mem_replace_self {r q : RunningDispatch} (h : q ∈ s.running) (same : q.ticket = r.ticket)
    (running : r.dispatch.isEnded = false) : r ∈ (s.replace r).running := by
  simp only [replace, running]
  exact List.mem_map.mpr ⟨q, h, if_pos same⟩

/-- A replaced dispatch is found under its ticket until it has ended. -/
theorem dispatchAt?_replace_self {r q : RunningDispatch} (h : s.dispatchAt? r.ticket = some q) :
    (s.replace r).dispatchAt? r.ticket = if r.dispatch.isEnded then none else some r := by
  have hpresent : ∃ p ∈ s.running, p.ticket = r.ticket :=
    ⟨q, (dispatchAt?_eq_some h).1, (dispatchAt?_eq_some h).2⟩
  simp only [dispatchAt?, replace]
  split
  · rw [List.find?_filter, List.find?_eq_none]
    intro p _
    simp
  · obtain ⟨p, hp, hticket⟩ := hpresent
    generalize s.running = running at hp
    induction running with
    | nil => cases hp
    | cons first rest ih =>
      by_cases he : first.ticket = r.ticket
      · simp [he]
      · have hrest : p ∈ rest := by
          rcases List.mem_cons.mp hp with rfl | hp
          · exact False.elim (he hticket)
          · exact hp
        simpa [List.find?_cons, he] using ih hrest

theorem dispatchAt?_replace_of_ne {r : RunningDispatch} {ticket : Nat} (hne : ticket ≠ r.ticket) :
    (s.replace r).dispatchAt? ticket = s.dispatchAt? ticket := by
  simp only [dispatchAt?, replace]
  split
  · rw [List.find?_filter]
    congr 1
    funext p
    by_cases he : p.ticket = r.ticket
    · simp [he, hne.symm]
    · simp [he]
      rfl
  · induction s.running with
    | nil => rfl
    | cons first rest ih =>
      by_cases he : first.ticket = r.ticket
      · simpa [List.find?_cons, he, hne.symm] using ih
      · by_cases ht : first.ticket = ticket
        · simp [ht, hne]
        · simpa [List.find?_cons, he, ht] using ih

/-! ## What actions do -/

/-- The ways in which an action brings a delivery from one state to the next. -/
inductive Acted (s : Simulation) (a : Action) (t : Simulation) : Prop
  /-- The task is not there, the call is refused, or the clock would go back. -/
  | idle (no_step : ∀ ticket, a = .work (.dispatch ticket) → s.dispatchAt? ticket = none)
      (state : t = s)
  | walked (e : PendingEntry Walk) (present : s.walkAt? e.ticket = some e)
      (by_action : a = .work (.walk e.ticket))
      (step : DeliveryState.WalkStep s.state e (s.state.stepWalk e))
      (state : t = { s with state := s.state.stepWalk e })
  | stepped (r : RunningDispatch) (present : s.dispatchAt? r.ticket = some r)
      (by_action : a = .work (.dispatch r.ticket))
      (step : DeliveryState.DispatchStep s.state r.dispatch (s.state.stepDispatch r.dispatch).1
        (s.state.stepDispatch r.dispatch).2)
      (state : t = Simulation.replace { s with state := (s.state.stepDispatch r.dispatch).2 }
        { r with dispatch := (s.state.stepDispatch r.dispatch).1 })
  | rearranged (r : RunningDispatch) (present : s.dispatchAt? r.ticket = some r)
      (untried : List MessageRecord) (tried : List (Option MessageRecord))
      (by_action : a = .work (.rearrange r.ticket untried tried))
      (state : t = s.replace { r with dispatch := r.dispatch.rearrange untried tried })
  | moved (time : Instant) (later : s.now < time) (by_action : a = .work (.moveTo time))
      (state : t = { s with state := { s.state with now := time } })
  | begun (campaign : Uuid) (recipients : List String) (by_action : a = .begin campaign recipients)
      (state : t = s.dispatchInBackground campaign recipients)
  | delivered (receipt : Receipt) (record : MessageRecord) (outcome : Outcome) (u : DeliveryState)
      (answered : s.state.deliver receipt record = .ok (outcome, u))
      (by_action : a = .deliver receipt record ∨ a = .receive receipt ∧
        s.state.findByMessage receipt.messageId = .ok (some record) ∧
        s.state.receive receipt = .ok (outcome, u))
      (state : t = { s with state := u })
  | recounted (c : Campaign) (book : CampaignBook) (id : Uuid)
      (present : s.state.campaigns.get? id = some c)
      (answered : s.state.campaigns.setStats id
        (c.stats.refreshed (s.state.records.find (.campaign id))) s.now = .ok book)
      (by_action : a = .recompute id)
      (state : t = { s with state := { s.state with campaigns := book } })
  | cancelled (campaign : Uuid) (by_action : a = .cancel campaign)
      (state : t = { s with state := (s.state.cancelAll campaign).2 })
  | aborted (record : Uuid) (by_action : a = .cancelWalk record)
      (state : t = { s with state := (s.state.cancelWalk record).2 })
  | unregistered (campaign : Uuid) (by_action : a = .unregister campaign)
      (state : t = s.unregister campaign)
  | dropped (campaign : Uuid) (by_action : a = .drop campaign) (state : t = s.drop campaign)
  | disturbed (outages : Outages) (by_action : a = .setOutages outages)
      (state : t = { s with state := { s.state with outages } })
  | issued (by_action : a = .takeId) (state : t = { s with state := s.state.takeId.2 })
  | entered (c : Campaign) (by_action : a = .enter c)
      (state : t = { s with state := { s.state with campaigns := s.state.campaigns.insert c } })
  | deleted (id : Uuid) (by_action : a = .delete id)
      (state : t =
        { s with state := { s.state with campaigns := (s.state.campaigns.delete id).2 } })

theorem acted_work (s : Simulation) (w : Work) : s.Acted (.work w) (s.work w) := by
  cases w with
  | walk ticket =>
    simp only [work]
    split
    · rename_i e he
      obtain ⟨_, rfl⟩ := walkAt?_eq_some he
      exact .walked e he rfl (DeliveryState.stepWalk_walkStep s.state e) rfl
    · exact .idle (fun _ hother => by cases hother) rfl
  | dispatch ticket =>
    simp only [work]
    split
    · rename_i r hr
      obtain ⟨_, rfl⟩ := dispatchAt?_eq_some hr
      exact .stepped r hr rfl (DeliveryState.stepDispatch_spec s.state r.dispatch)
        (step_dispatch s r)
    · rename_i hnone
      refine .idle ?_ rfl
      rintro _ ⟨⟩
      exact hnone
  | rearrange ticket untried tried =>
    simp only [work]
    split
    · rename_i r hr
      obtain ⟨_, rfl⟩ := dispatchAt?_eq_some hr
      exact .rearranged r hr untried tried rfl rfl
    · exact .idle (fun _ hother => by cases hother) rfl
  | moveTo time =>
    simp only [work, moveTo]
    split
    · rename_i hlater
      exact .moved time hlater rfl rfl
    · exact .idle (fun _ hother => by cases hother) rfl

theorem acted (s : Simulation) (a : Action) : s.Acted a (s.act a) := by
  cases a with
  | work w => exact s.acted_work w
  | begin campaign recipients => exact .begun campaign recipients rfl rfl
  | receive receipt =>
    rcases s.attempt_cases fun state => state.receive receipt with he | ⟨outcome, u, hok, he⟩
    · exact .idle (fun _ hother => by cases hother) he
    · obtain ⟨record, hfound, hdeliver⟩ := DeliveryState.receive_ok hok
      exact .delivered receipt record outcome u hdeliver (Or.inr ⟨rfl, hfound, hok⟩) he
  | deliver receipt record =>
    rcases s.attempt_cases fun state => state.deliver receipt record with he | ⟨outcome, u, hok, he⟩
    · exact .idle (fun _ hother => by cases hother) he
    · exact .delivered receipt record outcome u hok (Or.inl rfl) he
  | recompute id =>
    rcases s.attempt_cases fun state => state.recompute id with he | ⟨stats, u, hok, he⟩
    · exact .idle (fun _ hother => by cases hother) he
    · obtain ⟨c, book, hpresent, rfl, hbook, rfl⟩ := DeliveryState.recompute_ok hok
      exact .recounted c book id hpresent hbook rfl he
  | cancel campaign => exact .cancelled campaign rfl rfl
  | cancelWalk record => exact .aborted record rfl rfl
  | unregister campaign => exact .unregistered campaign rfl rfl
  | drop campaign => exact .dropped campaign rfl rfl
  | setOutages outages => exact .disturbed outages rfl rfl
  | takeId => exact .issued rfl rfl
  | enter c => exact .entered c rfl rfl
  | delete id => exact .deleted id rfl rfl

end Simulation

end Outreach

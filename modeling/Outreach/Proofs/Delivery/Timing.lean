import Outreach.Proofs.Delivery.Cancellation
import Outreach.Proofs.Delivery.Delays
import Outreach.Proofs.Instant

/-!
# Walks keep to their times

A delivery keeps to the clock if no walk takes a step before it is ready and the clock passes no
walk that has still to take one. Then every step of a walk is taken at the very instant for which it
was due. The delays of a walk are drawn one after the other, each from the range of its stage, so
the walk comes to a stage between the least and the longest time that the stages up to there take,
counted from the instant at which it was scheduled.
-/

namespace Outreach

variable {settings : DeliverySettings} {time : Instant}

namespace Walk

/-- The walk is where a walk can be that was scheduled at an instant. -/
def OnSchedule (w : Walk) (settings : DeliverySettings) (time : Instant) : Prop :=
  match w.progress with
  | .scheduled since => since = time
  | .waiting stage due =>
    ∃ ms, stage.earliest settings ≤ ms ∧ ms ≤ stage.latest settings ∧ due = time.addMillis ms

variable {w : Walk}

theorem OnSchedule.waiting (h : w.OnSchedule settings time) {stage : Stage} {due : Instant}
    (waits : w.progress = .waiting stage due) :
    ∃ ms, stage.earliest settings ≤ ms ∧ ms ≤ stage.latest settings ∧ due = time.addMillis ms := by
  rwa [OnSchedule, waits] at h

theorem OnSchedule.reaches_ready (h : w.OnSchedule settings time) : time.Reaches w.ready := by
  cases hp : w.progress with
  | scheduled since =>
    rw [OnSchedule, hp] at h
    rw [ready, hp, h]
    exact .refl time
  | waiting stage due =>
    obtain ⟨ms, -, -, rfl⟩ := h.waiting hp
    rw [ready, hp]
    exact time.reaches_addMillis ms

/-- A walk is ready for its last step by the end of the longest way through the funnel. -/
theorem OnSchedule.ready_le (h : w.OnSchedule settings time) {later : Instant}
    (reached : time.Reaches later) : w.ready ≤ later.addMillis settings.maxFunnelMs := by
  cases hp : w.progress with
  | scheduled since =>
    rw [OnSchedule, hp] at h
    rw [ready, hp, h]
    exact Instant.le_trans reached.le (later.le_addMillis _)
  | waiting stage due =>
    obtain ⟨ms, -, hlatest, rfl⟩ := h.waiting hp
    rw [ready, hp]
    exact reached.addMillis_le (Nat.le_trans hlatest (Stage.latest_le settings stage))

end Walk

namespace DeliveryState

variable {s t : DeliveryState} {d d' : Dispatch} {e a : PendingEntry Walk}

theorem Waits.le {stage : Stage} {due : Instant} (h : s.Waits stage due) : s.now ≤ due := by
  obtain ⟨generator, rfl⟩ := h
  exact s.now.le_addMillis _

/-- A walk that goes on at the instant it was due stays on schedule. -/
theorem Waits.onSchedule {w : Walk} {next : Stage} {due : Instant} (h : s.Waits next due)
    (valid : s.settings.validate = .ok ()) (follows : w.progress.next? = some next)
    (before : w.OnSchedule s.settings time) (now : s.now = w.ready) (turn : Nat) :
    Walk.OnSchedule { w with progress := .waiting next due, turn } s.settings time := by
  obtain ⟨generator, rfl⟩ := h
  obtain ⟨hmin, hmax⟩ := DelayRange.draw_bounds (Stage.delay_ordered valid next) generator
  cases hp : w.progress with
  | scheduled since =>
    rw [hp] at follows
    cases follows
    rw [Walk.OnSchedule, hp] at before
    rw [Walk.ready, hp] at now
    subst before
    rw [now]
    exact ⟨_, hmin, hmax, rfl⟩
  | waiting stage due =>
    rw [hp] at follows
    obtain ⟨ms, hearliest, hlatest, rfl⟩ := before.waiting hp
    rw [Walk.ready, hp] at now
    rw [now, Instant.addMillis_addMillis]
    refine ⟨_, ?_, ?_, rfl⟩
    · rw [Stage.earliest_next follows]
      exact Nat.add_le_add hearliest hmin
    · rw [Stage.latest_next follows]
      exact Nat.add_le_add hlatest hmax

theorem WalkStep.kept_clock (h : WalkStep s e t) : t.now = s.now ∧ t.settings = s.settings := by
  rcases h.book_cases with kept | ⟨_, _, _, advanced⟩
  · exact ⟨kept.now, kept.settings⟩
  · exact ⟨advanced.now, advanced.settings⟩

/-- What is pending after the step of a walk was pending before, or is the walk on its way to the
next stage. -/
theorem WalkStep.pending (h : WalkStep s e t) (ticketed : s.agenda.Ticketed)
    (he : e ∈ s.agenda.pending) (ha : a ∈ t.agenda.pending) :
    a ∈ s.agenda.pending ∨ ∃ next due turn, e.work.progress.next? = some next ∧ s.Waits next due ∧
      a = { e with work := { e.work with progress := .waiting next due, turn } } := by
  rcases h.agenda_cases with agenda | ⟨next, due, turn, follows, waits, agenda⟩
  · rw [agenda] at ha
    exact Or.inl (List.mem_filter.mp ha).1
  · rw [agenda] at ha
    rcases Agenda.mem_progress ha with ⟨hold, _⟩ | ⟨b, hb, hticket, rfl⟩
    · exact Or.inl hold
    · rw [ticketed.eq_of_ticket hb he hticket]
      exact Or.inr ⟨next, due, turn, follows, waits, rfl⟩

theorem DispatchStep.kept_clock (h : DispatchStep s d d' t) :
    t.now = s.now ∧ t.settings = s.settings := by
  cases h with
  | begun _ _ _ answered next =>
    obtain ⟨_, _, rfl⟩ := startProcessing_ok answered
    exact ⟨next.kept.now, next.kept.settings⟩
  | tried _ _ _ _ _ _ _ _ attempted after =>
    obtain ⟨_, rfl, _⟩ := attempted.book
    exact ⟨after.kept.now, after.kept.settings⟩
  | counted _ _ _ _ state => exact ⟨by rw [state], by rw [state]⟩
  | completed _ _ _ answered _ state =>
    obtain ⟨_, _, rfl⟩ := completeCampaign_ok answered
    rw [state]
    exact ⟨rfl, rfl⟩
  | stopped _ _ _ state => exact ⟨by rw [state], by rw [state]⟩
  | failed cause _ _ state =>
    obtain ⟨_, hbook, _⟩ := failCampaign_book s d.campaign cause.message
    rw [state, hbook]
    exact ⟨rfl, rfl⟩
  | ended _ _ _ state => exact ⟨by rw [state], by rw [state]⟩

/-- A dispatch is ready when it was, or whole milliseconds from now. -/
theorem NextBatch.ready {tally : Tally} {rest : List String} (h : NextBatch s d tally rest d' t) :
    d'.ready = d.ready ∨ s.now.Reaches d'.ready := by
  cases h with
  | none_left _ dispatch _ => exact Or.inl (by rw [dispatch])
  | cancelled _ dispatch _ => exact Or.inl (by rw [dispatch])
  | drafts _ _ _ _ _ _ _ _ dispatch _ wait =>
    rw [dispatch]
    exact Or.inr (Or.inr wait)

theorem DispatchStep.ready (h : DispatchStep s d d' t) :
    d'.ready = d.ready ∨ s.now.Reaches d'.ready := by
  cases h with
  | begun _ _ _ answered next =>
    obtain ⟨_, _, rfl⟩ := startProcessing_ok answered
    exact next.ready
  | tried _ _ _ _ tally _ _ _ attempted after =>
    obtain ⟨_, rfl, _⟩ := attempted.book
    cases after with
    | same_batch _ _ _ dispatch _ => exact Or.inl (by rw [dispatch])
    | settled _ next =>
      have hready := next.ready
      rwa [(kept_settleBatch _ _ _).now] at hready
  | counted _ _ _ dispatch _ => exact Or.inl (by rw [dispatch])
  | completed _ _ _ _ dispatch _ => exact Or.inl (by rw [dispatch])
  | stopped _ _ dispatch _ => exact Or.inl (by rw [dispatch])
  | failed _ _ dispatch _ => exact Or.inl (by rw [dispatch])
  | ended _ _ dispatch _ => exact Or.inl (by rw [dispatch])

end DeliveryState

namespace Simulation

variable {s : Simulation} {a : Action} {e : PendingEntry Walk}

/-- The action keeps to the clock. A walk takes no step before it is ready. The clock goes on by
whole milliseconds and past no walk that has still to take a step. -/
def Timely (s : Simulation) : Action → Prop
  | .work (.walk ticket) => ∀ e, s.walkAt? ticket = some e → e.work.ready ≤ s.now
  | .work (.moveTo time) => s.now < time →
    s.now.Reaches time ∧ ∀ e ∈ s.state.agenda.pending, time ≤ e.work.ready
  | _ => True

def TimelyRun : Simulation → List Action → Prop
  | _, [] => True
  | s, a :: rest => s.Timely a ∧ (s.act a).TimelyRun rest

theorem timelyRun_append {first later : List Action} :
    s.TimelyRun (first ++ later) ↔ s.TimelyRun first ∧ (s.run first).TimelyRun later := by
  induction first generalizing s with
  | nil => simp [TimelyRun]
  | cons a rest ih => simp [TimelyRun, ih, and_assoc]

/-- Only the clock itself moves the clock, and nothing changes the settings. -/
theorem clock_act (s : Simulation) (a : Action) :
    (s.act a).state.settings = s.state.settings ∧ ((s.act a).now = s.now ∨
      ∃ time, a = .work (.moveTo time) ∧ s.now < time ∧ (s.act a).now = time) := by
  cases s.acted a with
  | walked e _ _ step state =>
    obtain ⟨hnow, hsettings⟩ := step.kept_clock
    rw [state]
    exact ⟨hsettings, Or.inl hnow⟩
  | stepped r _ _ step state =>
    obtain ⟨hnow, hsettings⟩ := step.kept_clock
    rw [state]
    exact ⟨hsettings, Or.inl hnow⟩
  | moved time later by_action state =>
    rw [state]
    exact ⟨rfl, Or.inr ⟨time, by_action, later, rfl⟩⟩
  | delivered receipt record outcome u answered _ state =>
    obtain ⟨_, advanced, _⟩ := DeliveryState.deliver_ok answered
    rw [state]
    exact ⟨advanced.settings, Or.inl advanced.now⟩
  | idle _ state | rearranged _ _ _ _ _ state | begun _ _ _ state | recounted _ _ _ _ _ _ state
  | cancelled _ _ state | aborted _ _ state | unregistered _ _ state | dropped _ _ state
  | disturbed _ _ state | issued _ state | entered _ _ state | deleted _ _ state =>
    rw [state]
    exact ⟨rfl, Or.inl rfl⟩

/-- The clock never goes back. -/
theorem now_le_act (s : Simulation) (a : Action) : s.now ≤ (s.act a).now := by
  rcases (s.clock_act a).2 with hsame | ⟨_, _, hlater, htime⟩
  · rw [hsame]
    exact Instant.le_refl _
  · rw [htime]
    exact (Instant.of_lt hlater).1

theorem settings_act (s : Simulation) (a : Action) :
    (s.act a).state.settings = s.state.settings :=
  (s.clock_act a).1

theorem settings_run (s : Simulation) (actions : List Action) :
    (s.run actions).state.settings = s.state.settings := by
  induction actions generalizing s with
  | nil => rfl
  | cons a rest ih => exact (ih (s.act a)).trans (s.settings_act a)

theorem reaches_act (timely : s.Timely a) : s.now.Reaches (s.act a).now := by
  rcases (s.clock_act a).2 with hsame | ⟨time, rfl, hlater, htime⟩
  · rw [hsame]
    exact .refl s.now
  · rw [htime]
    exact (timely hlater).1

theorem reaches_run {actions : List Action} (timely : s.TimelyRun actions) :
    s.now.Reaches (s.run actions).now := by
  induction actions generalizing s with
  | nil => exact .refl s.now
  | cons a rest ih => exact (reaches_act timely.1).trans (ih timely.2)

/-- How a walk that is pending after an action has come about. -/
inductive Awaited (s : Simulation) (a : Action) (e : PendingEntry Walk) : Prop
  | same (before : e ∈ s.state.agenda.pending)
  | scheduled (new : s.state.agenda.nextTicket ≤ e.ticket)
      (since : e.work.progress = .scheduled s.now) (now : (s.act a).now = s.now)
  | progressed (b : PendingEntry Walk) (before : b ∈ s.state.agenda.pending)
      (by_action : a = .work (.walk b.ticket)) (next : Stage) (due : Instant) (turn : Nat)
      (follows : b.work.progress.next? = some next) (waits : s.state.Waits next due)
      (work : e = { b with work := { b.work with progress := .waiting next due, turn } })

theorem awaited_act (o : s.Orderly) (he : e ∈ (s.act a).state.agenda.pending) :
    s.Awaited a e := by
  cases s.acted a with
  | walked b present by_action step state =>
    have hb := (walkAt?_eq_some present).1
    rw [state] at he
    rcases step.pending o.agenda hb he with hold | ⟨next, due, turn, follows, waits, work⟩
    · exact .same hold
    · exact .progressed b hb by_action next due turn follows waits work
  | stepped r _ _ step state =>
    have hnow : (s.act a).now = s.now := by
      rw [state]
      exact step.kept_clock.1
    -- new walks hold tickets drawn from now on
    have hnew := step.agenda_of_created
      (P := fun g => s.state.agenda.nextTicket ≤ g.nextTicket ∧ ∀ e ∈ g.pending,
        e ∈ s.state.agenda.pending ∨
          s.state.agenda.nextTicket ≤ e.ticket ∧ e.work.progress = .scheduled s.now)
      (fun g m walk _ hsince hg =>
        ⟨Nat.le_trans hg.1 (Agenda.nextTicket_schedule g m.id m.campaignId walk), fun e he => by
          rcases Agenda.mem_schedule he with hold | rfl
          · exact hg.2 e hold
          · exact Or.inr ⟨hg.1, hsince⟩⟩)
      ⟨Nat.le_refl _, fun e he => Or.inl he⟩
    rw [state] at he
    rcases hnew.2 e he with hold | ⟨hticket, hsince⟩
    · exact .same hold
    · exact .scheduled hticket hsince hnow
  | delivered receipt record outcome u answered _ state =>
    rw [state] at he
    obtain ⟨_, _, ⟨_, hcancel⟩ | ⟨_, hsame⟩⟩ := DeliveryState.deliver_ok answered
    · simp only [hcancel] at he
      exact .same (List.mem_filter.mp he).1
    · simp only [hsame] at he
      exact .same he
  | cancelled campaign _ state =>
    rw [state] at he
    exact .same ((s.state.agenda.pending_cancelAll_sublist campaign).subset he)
  | aborted _ _ state =>
    rw [state] at he
    exact .same (List.mem_filter.mp he).1
  | idle _ state | rearranged _ _ _ _ _ state | moved _ _ _ state | begun _ _ _ state
  | recounted _ _ _ _ _ _ state | unregistered _ _ state | dropped _ _ state
  | disturbed _ _ state | issued _ state | entered _ _ state | deleted _ _ state =>
    rw [state] at he
    exact .same he

/-- A walk that was pending before a timely action stays on schedule and ahead of the clock. -/
theorem Awaited.onSchedule (h : s.Awaited a e) (o : s.Orderly)
    (valid : s.state.settings.validate = .ok ()) (timely : s.Timely a) :
    (s.state.agenda.nextTicket ≤ e.ticket ∧ e.work.progress = .scheduled s.now ∧
        (s.act a).now = s.now) ∨
      ∃ b ∈ s.state.agenda.pending, b.ticket = e.ticket ∧ b.record = e.record ∧ ∀ time,
        b.work.OnSchedule s.state.settings time → s.now ≤ b.work.ready →
          e.work.OnSchedule s.state.settings time ∧ (s.act a).now ≤ e.work.ready := by
  cases h with
  | scheduled new since now => exact Or.inl ⟨new, since, now⟩
  | same before =>
    refine Or.inr ⟨e, before, rfl, rfl, fun time hschedule hready => ⟨hschedule, ?_⟩⟩
    rcases (s.clock_act a).2 with hsame | ⟨time, rfl, hlater, htime⟩
    · rw [hsame]
      exact hready
    · rw [htime]
      exact (timely hlater).2 e before
  | progressed b before by_action next due turn follows waits work =>
    subst by_action work
    refine Or.inr ⟨b, before, rfl, rfl, fun time hschedule hready => ?_⟩
    -- neither before it was ready nor after, so at that very instant
    have hdue : s.now = b.work.ready :=
      Instant.le_antisymm hready (timely b (o.walkAt?_of_mem before))
    refine ⟨waits.onSchedule valid follows hschedule hdue turn, ?_⟩
    rcases (s.clock_act (.work (.walk b.ticket))).2 with hsame | ⟨_, hmove, _⟩
    · rw [hsame]
      exact waits.le
    · cases hmove

/-! ## One walk -/

/-- If the walk of an entry is still pending, it is on schedule and not overdue. -/
def OnTime (s : Simulation) (e : PendingEntry Walk) (time : Instant) : Prop :=
  ∀ b ∈ s.state.agenda.pending, b.ticket = e.ticket →
    b.record = e.record ∧ b.work.OnSchedule s.state.settings time ∧ s.now ≤ b.work.ready

theorem onTime_act (o : s.Orderly) (valid : s.state.settings.validate = .ok ())
    (timely : s.Timely a) (drawn : e.ticket < s.state.agenda.nextTicket) (h : s.OnTime e time) :
    (s.act a).OnTime e time := by
  intro b hb hticket
  rw [settings_act]
  rcases (awaited_act o hb).onSchedule o valid timely with
    ⟨hnew, -, -⟩ | ⟨c, hc, hsame, hrecord, hkeeps⟩
  · omega
  · obtain ⟨hc_record, hschedule, hready⟩ := h c hc (hsame.trans hticket)
    exact ⟨hrecord.symm.trans hc_record, hkeeps time hschedule hready⟩

theorem onTime_run (o : s.Orderly) (valid : s.state.settings.validate = .ok ())
    {actions : List Action} (timely : s.TimelyRun actions)
    (drawn : e.ticket < s.state.agenda.nextTicket) (h : s.OnTime e time) :
    (s.run actions).OnTime e time := by
  induction actions generalizing s with
  | nil => exact h
  | cons a rest ih =>
    refine ih (orderly_act o a) ?_ timely.2 (Nat.lt_of_lt_of_le drawn (nextTicket_act s a))
      (onTime_act o valid timely.1 drawn h)
    rw [settings_act]
    exact valid

/-- A walk that an action has scheduled is on time. -/
theorem onTime_scheduled (o : s.Orderly) (he : e ∈ (s.act a).state.agenda.pending)
    (new : s.state.agenda.nextTicket ≤ e.ticket) : (s.act a).OnTime e s.now := by
  have hnone : ∀ b ∈ s.state.agenda.pending, b.ticket ≠ e.ticket := by
    intro b hb hsame
    have hlt := o.agenda.drawn b hb
    omega
  intro b hb hticket
  obtain rfl : b = e := (orderly_act o a).agenda.eq_of_ticket hb he hticket
  cases awaited_act o hb with
  | same before => exact absurd rfl (hnone b before)
  | progressed c before _ _ _ _ _ _ work => exact absurd (by rw [work]) (hnone c before)
  | scheduled _ since now =>
    refine ⟨rfl, ?_, ?_⟩
    · rw [Walk.OnSchedule, since]
    · rw [now, Walk.ready, since]
      exact Instant.le_refl _

/-! ## All walks -/

theorem isEnded_replace (h : ∀ r ∈ s.running, r.dispatch.isEnded = false) (q : RunningDispatch) :
    ∀ r ∈ (s.replace q).running, r.dispatch.isEnded = false := by
  intro r hr
  simp only [replace] at hr
  split at hr
  · exact h r (List.mem_filter.mp hr).1
  · rename_i hrunning
    obtain ⟨p, hp, rfl⟩ := List.mem_map.mp hr
    split
    · simpa using hrunning
    · exact h p hp

/-- A dispatch that has ended is not kept. -/
theorem isEnded_act (h : ∀ r ∈ s.running, r.dispatch.isEnded = false) (a : Action) :
    ∀ r ∈ (s.act a).running, r.dispatch.isEnded = false := by
  intro r hr
  cases s.acted a with
  | stepped q _ _ _ state =>
    rw [state] at hr
    exact isEnded_replace (s := { s with state := (s.state.stepDispatch q.dispatch).2 }) h _ r hr
  | rearranged q _ _ _ _ state =>
    rw [state] at hr
    exact isEnded_replace h _ r hr
  | begun _ _ _ state =>
    rw [state] at hr
    rcases List.mem_append.mp hr with hold | hnew
    · exact h r hold
    · rw [List.mem_singleton.mp hnew]
      rfl
  | unregistered _ _ state =>
    rw [state] at hr
    obtain ⟨p, hp, rfl⟩ := List.mem_map.mp hr
    split
    · exact h p hp
    · exact h p hp
  | dropped _ _ state =>
    rw [state] at hr
    exact h r (List.mem_filter.mp hr).1
  | idle _ state | walked _ _ _ _ state | moved _ _ _ state | delivered _ _ _ _ _ _ state
  | recounted _ _ _ _ _ _ state | cancelled _ _ state | aborted _ _ state | disturbed _ _ state
  | issued _ state | entered _ _ state | deleted _ _ state =>
    rw [state] at hr
    exact h r hr

/-- All walks are on time, and no task is ready between two milliseconds of the clock. -/
structure Timed (s : Simulation) : Prop where
  order : s.Orderly
  unended : ∀ r ∈ s.running, r.dispatch.isEnded = false
  valid : s.state.settings.validate = .ok ()
  walks : ∀ e ∈ s.state.agenda.pending, ∃ time, e.work.OnSchedule s.state.settings time ∧
    time.Reaches s.now ∧ s.now ≤ e.work.ready
  dispatches : ∀ r ∈ s.running, ∃ time : Instant,
    time.Reaches s.now ∧ time.Reaches r.dispatch.ready

theorem timed_ofState {start : DeliveryState} (idle : start.Idle)
    (valid : start.settings.validate = .ok ()) : (ofState start).Timed := by
  refine ⟨orderly_ofState idle, ?_, valid, ?_, ?_⟩
  · rintro r ⟨⟩
  · simp [ofState, idle.pending]
  · rintro r ⟨⟩

theorem timed_act (h : s.Timed) (timely : s.Timely a) : (s.act a).Timed := by
  have hreaches := reaches_act timely
  refine ⟨orderly_act h.order a, isEnded_act h.unended a, ?_, ?_, ?_⟩
  · rw [settings_act]
    exact h.valid
  · intro e he
    rw [settings_act]
    rcases (awaited_act h.order he).onSchedule h.order h.valid timely with
      ⟨-, hsince, hnow⟩ | ⟨b, hb, -, -, hkeeps⟩
    · refine ⟨s.now, ?_, ?_, ?_⟩
      · rw [Walk.OnSchedule, hsince]
      · rw [hnow]
        exact .refl s.now
      · rw [hnow, Walk.ready, hsince]
        exact Instant.le_refl _
    · obtain ⟨time, hschedule, hreached, hready⟩ := h.walks b hb
      obtain ⟨hlater, hahead⟩ := hkeeps time hschedule hready
      exact ⟨time, hlater, hreached.trans hreaches, hahead⟩
  · intro r hr
    have hkept : ∀ q ∈ s.running, r.dispatch.ready = q.dispatch.ready →
        ∃ time : Instant, time.Reaches (s.act a).now ∧ time.Reaches r.dispatch.ready := by
      intro q hq hready
      obtain ⟨time, hnow, hlater⟩ := h.dispatches q hq
      exact ⟨time, hnow.trans hreaches, hready ▸ hlater⟩
    cases traced_act hr with
    | begun campaign recipients _ _ dispatch =>
      refine ⟨s.now, hreaches, ?_⟩
      rw [dispatch]
      exact .refl s.now
    | same q present _ _ dispatch => exact hkept q present (by rw [dispatch])
    | rearranged q present _ _ untried tried dispatch =>
      refine hkept q present ?_
      rcases q.dispatch.rearrange_cases untried tried with he | ⟨_, _, _, _, _, _, _, _, _, _, he⟩
      · rw [dispatch, he]
      · rw [dispatch, he]
    | stepped q present _ _ _ step =>
      rcases step.ready with hsame | hlater
      · exact hkept q (dispatchAt?_eq_some present).1 hsame
      · exact ⟨s.now, hreaches, hlater⟩

theorem timed_run (h : s.Timed) {actions : List Action} (timely : s.TimelyRun actions) :
    (s.run actions).Timed := by
  induction actions generalizing s with
  | nil => exact h
  | cons a rest ih => exact ih (timed_act h timely.1) timely.2

end Simulation

end Outreach

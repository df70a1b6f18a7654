import Outreach.Proofs.Delivery.Workload

/-!
# The clock waits for every task

A delivery that is left to the clock keeps to it. Of all tasks the one that is ready first takes its
step first, and the clock goes on to that instant and no further. Since there is never more to do
than the work that is left, the steps do not give out before everything that is due has been done.
-/

namespace Outreach

namespace Task

theorem ready_le_of_precedes {t u : Task} (h : t.precedes u = true) : t.ready ≤ u.ready := by
  rcases t.ready.compare_spec u.ready with ⟨_, hlt⟩ | ⟨_, heq⟩ | ⟨hc, _⟩
  · exact (Instant.of_lt hlt).1
  · rw [heq]
    exact Instant.le_refl _
  · simp [precedes, hc] at h

theorem ready_le_of_not_precedes {t u : Task} (h : ¬ t.precedes u = true) :
    u.ready ≤ t.ready := by
  rcases t.ready.compare_spec u.ready with ⟨hc, _⟩ | ⟨_, heq⟩ | ⟨_, hlt⟩
  · simp [precedes, hc] at h
  · rw [heq]
    exact Instant.le_refl _
  · exact (Instant.of_lt hlt).1

theorem ready_foldl_le (first : Task) (rest : List Task) :
    ∀ t ∈ first :: rest,
      (rest.foldl (fun best u => if u.precedes best then u else best) first).ready ≤ t.ready := by
  induction rest generalizing first with
  | nil =>
    intro t ht
    rw [List.mem_singleton.mp ht]
    exact Instant.le_refl _
  | cons second rest ih =>
    rw [List.foldl_cons]
    -- the better of the first two is not later than either
    have hbest : ∀ t ∈ [first, second],
        (if second.precedes first then second else first).ready ≤ t.ready := by
      intro t ht
      split
      · rename_i h
        rcases List.mem_cons.mp ht with rfl | hsecond
        · exact ready_le_of_precedes h
        · rw [List.mem_singleton.mp hsecond]
          exact Instant.le_refl _
      · rename_i h
        rcases List.mem_cons.mp ht with rfl | hsecond
        · exact Instant.le_refl _
        · rw [List.mem_singleton.mp hsecond]
          exact ready_le_of_not_precedes h
    intro t ht
    rcases List.mem_cons.mp ht with rfl | ht
    · exact Instant.le_trans (ih _ _ List.mem_cons_self) (hbest t (by simp))
    · rcases List.mem_cons.mp ht with rfl | ht
      · exact Instant.le_trans (ih _ _ List.mem_cons_self) (hbest t (by simp))
      · exact ih _ t (List.mem_cons_of_mem _ ht)

/-- No task is ready before the one that goes first. -/
theorem ready_first?_le {tasks : List Task} {t u : Task} (h : first? tasks = some t)
    (hu : u ∈ tasks) : t.ready ≤ u.ready := by
  cases tasks with
  | nil => cases hu
  | cons first rest =>
    rw [first?, Option.some.injEq] at h
    rw [← h]
    exact ready_foldl_le first rest u hu

theorem first?_eq_none {tasks : List Task} (h : first? tasks = none) : tasks = [] := by
  cases tasks with
  | nil => rfl
  | cons first rest => cases h

end Task

namespace Simulation

variable {s t u : Simulation}

/-- Work in the background that keeps to the clock brings one state to the other. -/
def TimelyTo (s t : Simulation) : Prop :=
  ∃ works : List Work, t = s.run (works.map .work) ∧ s.TimelyRun (works.map .work)

theorem TimelyTo.refl (s : Simulation) : s.TimelyTo s := ⟨[], rfl, trivial⟩

theorem TimelyTo.trans (first : s.TimelyTo t) (later : t.TimelyTo u) : s.TimelyTo u := by
  obtain ⟨works, rfl, hfirst⟩ := first
  obtain ⟨more, rfl, hlater⟩ := later
  refine ⟨works ++ more, ?_, ?_⟩
  · rw [List.map_append, run_append]
  · rw [List.map_append, timelyRun_append]
    exact ⟨hfirst, hlater⟩

theorem TimelyTo.timed (h : s.TimelyTo t) (timed : s.Timed) : t.Timed := by
  obtain ⟨works, rfl, htimely⟩ := h
  exact timed_run timed htimely

theorem TimelyTo.reaches (h : s.TimelyTo t) : s.now.Reaches t.now := by
  obtain ⟨works, rfl, htimely⟩ := h
  exact reaches_run htimely

theorem now_moveTo {time : Instant} (h : s.now ≤ time) : (s.moveTo time).now = time := by
  rw [moveTo]
  split
  · rfl
  · rename_i hnot
    exact Instant.le_antisymm h (Instant.not_lt.mp hnot)

theorem le_now_moveTo (s : Simulation) (time : Instant) : time ≤ (s.moveTo time).now := by
  rw [moveTo]
  split
  · exact Instant.le_refl _
  · rename_i hnot
    exact Instant.not_lt.mp hnot

/-- The clock keeps its time by going on to an instant in a row with its own, if no walk is ready
before. -/
theorem timelyTo_moveTo {time : Instant} (reached : s.now ≤ time → s.now.Reaches time)
    (first : ∀ e ∈ s.state.agenda.pending, time ≤ e.work.ready) : s.TimelyTo (s.moveTo time) :=
  ⟨[.moveTo time], rfl, fun later => ⟨reached (Instant.of_lt later).1, first⟩, trivial⟩

/-- Every task that is not ready yet becomes so after whole milliseconds. -/
theorem Timed.reaches_ready (h : s.Timed) {task : Task} (present : task ∈ s.tasks)
    (ahead : s.now ≤ task.ready) : s.now.Reaches task.ready := by
  rcases List.mem_append.mp present with hwalk | hdispatch
  · obtain ⟨e, he, rfl⟩ := List.mem_map.mp hwalk
    obtain ⟨time, hschedule, hnow, -⟩ := h.walks e he
    exact hnow.of_le hschedule.reaches_ready ahead
  · obtain ⟨r, hr, rfl⟩ := List.mem_map.mp hdispatch
    obtain ⟨time, hnow, hready⟩ := h.dispatches r hr
    exact hnow.of_le hready ahead

/-- A task that is ready before all walks takes its step in time. -/
theorem Timed.timelyTo_step (h : s.Timed) {task : Task} (present : task ∈ s.tasks)
    (first : ∀ e ∈ s.state.agenda.pending, task.ready ≤ e.work.ready) :
    s.TimelyTo ((s.moveTo task.ready).step task) := by
  have hmoved := timelyTo_moveTo (h.reaches_ready present) first
  refine hmoved.trans ?_
  have hdue := s.le_now_moveTo task.ready
  have horder := (hmoved.timed h).order
  rw [← s.tasks_moveTo task.ready] at present
  generalize s.moveTo task.ready = t at present hdue horder
  rcases List.mem_append.mp present with hwalk | hdispatch
  · obtain ⟨e, he, rfl⟩ := List.mem_map.mp hwalk
    refine ⟨[.walk e.ticket], ?_, ?_, trivial⟩
    · simp [act, work, horder.walkAt?_of_mem he]
    · intro b hb
      rw [horder.walkAt?_of_mem he] at hb
      rw [← Option.some.inj hb]
      exact hdue
  · obtain ⟨r, hr, rfl⟩ := List.mem_map.mp hdispatch
    refine ⟨[.dispatch r.ticket], ?_, trivial, trivial⟩
    simp [act, work, horder.dispatchAt?_of_mem hr]

theorem Timed.stepsLeft_step_lt (h : s.Timed) {task : Task} (present : task ∈ s.tasks) :
    ((s.moveTo task.ready).step task).stepsLeft < s.stepsLeft := by
  rw [← s.tasks_moveTo task.ready] at present
  have hunended : ∀ r ∈ (s.moveTo task.ready).running, r.dispatch.isEnded = false :=
    isEnded_act h.unended (.work (.moveTo task.ready))
  have hless := Simulation.stepsLeft_step_lt (orderly_act h.order (.work (.moveTo task.ready)))
    hunended present
  exact Nat.lt_of_lt_of_eq hless (s.stepsLeft_moveTo task.ready)

theorem now_step (s : Simulation) (task : Task) : (s.step task).now = s.now := by
  cases task with
  | walk e => exact (s.state.stepWalk_walkStep e).kept_clock.1
  | dispatch r => exact (s.state.stepDispatch_spec r.dispatch).kept_clock.1

/-- With enough steps, everything is done that is ready in time. The clock goes on to no instant
that is not in time. -/
theorem Timed.runSteps (h : s.Timed) (inTime : Instant → Bool)
    (closed : ∀ a b : Instant, a ≤ b → inTime b = true → inTime a = true) {fuel : Nat}
    (enough : s.stepsLeft ≤ fuel) :
    s.TimelyTo (runSteps inTime fuel s) ∧
      (∀ task ∈ (Simulation.runSteps inTime fuel s).tasks, inTime task.ready = false) ∧
      ((Simulation.runSteps inTime fuel s).now = s.now ∨
        inTime (Simulation.runSteps inTime fuel s).now = true) := by
  induction fuel generalizing s with
  | zero =>
    have hnone := tasks_of_stepsLeft h.unended (Nat.le_zero.mp enough)
    refine ⟨.refl s, fun task present => ?_, Or.inl rfl⟩
    rw [Simulation.runSteps, hnone] at present
    cases present
  | succ fuel ih =>
    rw [Simulation.runSteps]
    split
    · rename_i task next
      obtain ⟨present, hintime⟩ := List.mem_filter.mp (Task.mem_of_first? next)
      -- a walk that is not ready in time is ready after all that are
      have hfirst : ∀ e ∈ s.state.agenda.pending, task.ready ≤ e.work.ready := by
        intro e he
        by_cases hready : inTime e.work.ready = true
        · have hwalk : Task.walk e ∈ s.tasks :=
            List.mem_append_left _ (List.mem_map.mpr ⟨e, he, rfl⟩)
          exact Task.ready_first?_le next (List.mem_filter.mpr ⟨hwalk, hready⟩)
        · by_contra hearlier
          exact hready (closed _ _ (Instant.of_lt (Instant.not_le.mp hearlier)).1 hintime)
      have hstep := h.timelyTo_step present hfirst
      have hless := h.stepsLeft_step_lt present
      obtain ⟨hrest, hdone, hclock⟩ := ih (hstep.timed h) (by omega)
      refine ⟨hstep.trans hrest, hdone, ?_⟩
      rcases hclock with hsame | hlater
      · rw [hsame, now_step]
        by_cases hahead : s.now ≤ task.ready
        · exact Or.inr (by rwa [now_moveTo hahead])
        · left
          have hnot : ¬ s.now < task.ready := fun hlt => hahead (Instant.of_lt hlt).1
          rw [moveTo, if_neg hnot]
      · exact Or.inr hlater
    · rename_i hnone
      refine ⟨.refl s, fun task present => ?_, Or.inl rfl⟩
      have hempty := List.filter_eq_nil_iff.mp (Task.first?_eq_none hnone) task present
      simpa using hempty

/-- All tasks wait for a later instant. -/
def Rested (s : Simulation) : Prop :=
  ∀ task ∈ s.tasks, s.now < task.ready

/-- Letting all tasks do what they can by an instant takes the clock there in time. -/
theorem Timed.runUntil (h : s.Timed) {limit : Instant} (reached : s.now.Reaches limit) :
    s.TimelyTo (s.runUntil limit) ∧ (s.runUntil limit).now = limit ∧ (s.runUntil limit).Rested := by
  obtain ⟨hsteps, hdone, hclock⟩ := h.runSteps (fun time => time ≤ limit)
    (fun a b hle hb => by
      have hlimit : b ≤ limit := by simpa using hb
      simpa using Instant.le_trans hle hlimit) (Nat.le_refl _)
  rw [Simulation.runUntil]
  generalize Simulation.runSteps (fun time => decide (time ≤ limit)) s.stepsLeft s = t at *
  have hbefore : t.now ≤ limit := by
    rcases hclock with hsame | hle
    · rw [hsame]
      exact reached.le
    · simpa using hle
  have hlater : ∀ task ∈ t.tasks, limit < task.ready := by
    intro task present
    have hnot := hdone task present
    exact Instant.not_le.mp (by simpa using hnot)
  have hmove : t.TimelyTo (t.moveTo limit) := by
    refine timelyTo_moveTo (fun hle => hsteps.reaches.of_le reached hle) fun e he => ?_
    have hwalk : Task.walk e ∈ t.tasks := List.mem_append_left _ (List.mem_map.mpr ⟨e, he, rfl⟩)
    exact (Instant.of_lt (hlater _ hwalk)).1
  refine ⟨hsteps.trans hmove, now_moveTo hbefore, fun task present => ?_⟩
  rw [now_moveTo hbefore]
  rw [tasks_moveTo] at present
  exact hlater task present

theorem Timed.advance (h : s.Timed) (ms : Nat) :
    s.TimelyTo (s.advance ms) ∧ (s.advance ms).now = s.now.addMillis ms ∧ (s.advance ms).Rested :=
  h.runUntil (s.now.reaches_addMillis ms)

theorem Timed.settle (h : s.Timed) :
    s.TimelyTo s.settle ∧ s.settle.now = s.now ∧ s.settle.Rested :=
  h.runUntil (.refl s.now)

/-! ## Waiting for a dispatch -/

theorem isRunning_eq_false {campaign : Uuid} :
    s.isRunning campaign = false ↔ ∀ r ∈ s.running, r.dispatch.campaign ≠ campaign := by
  simp [isRunning]

/-- Everything goes on in time until no dispatch of the campaign is running. -/
theorem Timed.runToEnd (h : s.Timed) (campaign : Uuid) {fuel : Nat} (enough : s.stepsLeft ≤ fuel) :
    s.TimelyTo (runToEnd campaign fuel s) ∧
      ∀ r ∈ (Simulation.runToEnd campaign fuel s).running, r.dispatch.campaign ≠ campaign := by
  induction fuel generalizing s with
  | zero =>
    have hnone := tasks_of_stepsLeft h.unended (Nat.le_zero.mp enough)
    refine ⟨.refl s, fun r hr => ?_⟩
    have hpresent : Task.dispatch r ∈ s.tasks :=
      List.mem_append_right _ (List.mem_map.mpr ⟨r, hr, rfl⟩)
    rw [hnone] at hpresent
    cases hpresent
  | succ fuel ih =>
    rw [Simulation.runToEnd]
    split
    · rename_i hrunning
      cases hnext : Task.first? s.tasks with
      | some task =>
        have present := Task.mem_of_first? hnext
        have hfirst : ∀ e ∈ s.state.agenda.pending, task.ready ≤ e.work.ready := fun e he =>
          Task.ready_first?_le hnext (List.mem_append_left _ (List.mem_map.mpr ⟨e, he, rfl⟩))
        have hstep := h.timelyTo_step present hfirst
        have hless := h.stepsLeft_step_lt present
        obtain ⟨hrest, hgone⟩ := ih (hstep.timed h) (by omega)
        exact ⟨hstep.trans hrest, hgone⟩
      | none =>
        have hnone := (List.append_eq_nil_iff.mp (Task.first?_eq_none hnext)).2
        refine ⟨.refl s, fun r hr => ?_⟩
        rw [List.map_eq_nil_iff.mp hnone] at hr
        cases hr
    · rename_i hidle
      exact ⟨.refl s, isRunning_eq_false.mp (by simpa using hidle)⟩

theorem begin_notMem_works (works : List Work) (campaign : Uuid) (names : List String) :
    .begin campaign names ∉ works.map Action.work := by
  simp

theorem TimelyTo.gone (h : s.TimelyTo t) {campaign : Uuid}
    (gone : ∀ q ∈ s.running, q.dispatch.campaign ≠ campaign) :
    ∀ q ∈ t.running, q.dispatch.campaign ≠ campaign := by
  obtain ⟨works, rfl, -⟩ := h
  exact gone_run gone (begin_notMem_works works campaign)

theorem unregister_of_gone {campaign : Uuid}
    (gone : ∀ q ∈ s.running, q.dispatch.campaign ≠ campaign) : s.unregister campaign = s := by
  have hsame : (s.running.map fun r =>
      if r.dispatch.campaign = campaign then { r with registered := false } else r) = s.running :=
    (List.map_congr_left fun q hq => if_neg (gone q hq)).trans (List.map_id' s.running)
  rw [unregister, hsame]

/-- Whoever waits for a dispatch sees its end if it was registered while it was running, and the
delivery keeps to the clock meanwhile. -/
theorem Timed.wait (h : s.Timed) {campaign : Uuid}
    (registered : s.isRunning campaign = true → s.isRegistered campaign = true) :
    (s.unregister campaign).TimelyTo (s.wait campaign) ∧
      ∀ q ∈ (s.wait campaign).running, q.dispatch.campaign ≠ campaign := by
  rw [Simulation.wait]
  split
  · have hunregistered : (s.unregister campaign).Timed :=
      timed_act (a := .unregister campaign) h trivial
    obtain ⟨hended, hgone⟩ := hunregistered.runToEnd campaign
      (Nat.le_of_eq (s.stepsLeft_unregister campaign))
    obtain ⟨hsettled, -⟩ := (hended.timed hunregistered).settle
    exact ⟨hended.trans hsettled, hsettled.gone hgone⟩
  · rename_i hunknown
    have hgone := isRunning_eq_false.mp (by simpa using mt registered hunknown)
    rw [unregister_of_gone hgone]
    exact ⟨.refl s, hgone⟩

end Simulation

end Outreach

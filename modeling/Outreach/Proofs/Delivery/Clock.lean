import Outreach.Proofs.Delivery.Order

/-!
# The order of the clock

A delivery that is left to the clock takes the steps of its tasks in one of the orders in which they
could be taken. So whatever holds after every run of actions also holds whenever time has passed and
whenever somebody has waited for a dispatch.
-/

namespace Outreach

theorem Task.mem_foldl_first {precedes : Task → Task → Bool} (first : Task) (rest : List Task) :
    rest.foldl (fun best u => if precedes u best then u else best) first ∈ first :: rest := by
  induction rest generalizing first with
  | nil => exact List.mem_singleton.mpr rfl
  | cons second rest ih =>
    rw [List.foldl_cons]
    split
    · exact List.mem_cons_of_mem first (ih second)
    · rcases List.mem_cons.mp (ih first) with he | hrest
      · rw [he]
        exact List.mem_cons_self
      · exact List.mem_cons_of_mem first (List.mem_cons_of_mem second hrest)

theorem Task.mem_of_first? {tasks : List Task} {t : Task} (h : Task.first? tasks = some t) :
    t ∈ tasks := by
  cases tasks with
  | nil => cases h
  | cons first rest =>
    rw [first?, Option.some.injEq] at h
    rw [← h]
    exact Task.mem_foldl_first first rest

namespace Simulation

variable {s t u : Simulation}

/-- Work in the background may bring one state to the other. -/
def WorksTo (s t : Simulation) : Prop :=
  ∃ works : List Work, t = s.run (works.map .work)

theorem WorksTo.refl (s : Simulation) : s.WorksTo s := ⟨[], rfl⟩

theorem WorksTo.trans (first : s.WorksTo t) (later : t.WorksTo u) : s.WorksTo u := by
  obtain ⟨works, rfl⟩ := first
  obtain ⟨more, rfl⟩ := later
  refine ⟨works ++ more, ?_⟩
  rw [List.map_append, run_append]

theorem WorksTo.orderly (h : s.WorksTo t) (o : s.Orderly) : t.Orderly := by
  obtain ⟨works, rfl⟩ := h
  exact orderly_run o _

theorem worksTo_moveTo (s : Simulation) (time : Instant) : s.WorksTo (s.moveTo time) :=
  ⟨[.moveTo time], rfl⟩

theorem tasks_moveTo (s : Simulation) (time : Instant) : (s.moveTo time).tasks = s.tasks := by
  simp only [moveTo]
  split <;> rfl

/-- A task takes its step under its ticket. -/
theorem Orderly.worksTo_step (o : s.Orderly) {task : Task} (present : task ∈ s.tasks) :
    s.WorksTo (s.step task) := by
  rcases List.mem_append.mp present with hwalk | hdispatch
  · obtain ⟨e, he, rfl⟩ := List.mem_map.mp hwalk
    refine ⟨[.walk e.ticket], ?_⟩
    simp [act, work, o.walkAt?_of_mem he]
  · obtain ⟨r, hr, rfl⟩ := List.mem_map.mp hdispatch
    refine ⟨[.dispatch r.ticket], ?_⟩
    simp [act, work, o.dispatchAt?_of_mem hr]

theorem Orderly.worksTo_step_at (o : s.Orderly) {task : Task} (present : task ∈ s.tasks)
    (time : Instant) : s.WorksTo ((s.moveTo time).step task) := by
  have hmoved := s.worksTo_moveTo time
  rw [← s.tasks_moveTo time] at present
  exact hmoved.trans ((hmoved.orderly o).worksTo_step present)

theorem Orderly.worksTo_runSteps (o : s.Orderly) (inTime : Instant → Bool) (fuel : Nat) :
    s.WorksTo (runSteps inTime fuel s) := by
  induction fuel generalizing s with
  | zero => exact .refl s
  | succ fuel ih =>
    rw [runSteps]
    split
    · rename_i task next
      have hstep := o.worksTo_step_at (List.mem_of_mem_filter (Task.mem_of_first? next)) task.ready
      exact hstep.trans (ih (hstep.orderly o))
    · exact .refl s

theorem Orderly.worksTo_runUntil (o : s.Orderly) (limit : Instant) :
    s.WorksTo (s.runUntil limit) :=
  (o.worksTo_runSteps _ _).trans (worksTo_moveTo _ _)

theorem Orderly.worksTo_settle (o : s.Orderly) : s.WorksTo s.settle :=
  o.worksTo_runUntil _

theorem Orderly.worksTo_advance (o : s.Orderly) (ms : Nat) : s.WorksTo (s.advance ms) :=
  o.worksTo_runUntil _

theorem Orderly.worksTo_runToEnd (o : s.Orderly) (campaign : Uuid) (fuel : Nat) :
    s.WorksTo (runToEnd campaign fuel s) := by
  induction fuel generalizing s with
  | zero => exact .refl s
  | succ fuel ih =>
    rw [runToEnd]
    split
    · split
      · rename_i task next
        have hstep := o.worksTo_step_at (Task.mem_of_first? next) task.ready
        exact hstep.trans (ih (hstep.orderly o))
      · exact .refl s
    · exact .refl s

/-- To wait for a dispatch is to strike it off the register and to leave it to the background. -/
theorem Orderly.worksTo_wait (o : s.Orderly) (campaign : Uuid) :
    s.wait campaign = s ∨ (s.unregister campaign).WorksTo (s.wait campaign) := by
  rw [wait]
  split
  · right
    have hunregistered : (s.unregister campaign).Orderly := orderly_act o (.unregister campaign)
    have hend := hunregistered.worksTo_runToEnd campaign s.stepsLeft
    exact hend.trans (hend.orderly hunregistered).worksTo_settle
  · exact Or.inl rfl

end Simulation

end Outreach

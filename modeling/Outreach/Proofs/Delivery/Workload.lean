import Mathlib.Algebra.GroupWithZero.Nat
import Mathlib.Algebra.Order.BigOperators.Group.List
import Mathlib.Algebra.Order.Group.Nat
import Outreach.Proofs.Delivery.Clock
import Outreach.Proofs.Delivery.Timing

/-!
# The work that is left

A step of a walk takes it closer to its end. The step of a dispatch either tries another record or
brings the dispatch on, and the walks that it schedules have been counted with the records of the
batch. So every step leaves less work than there was, and a delivery can take no more steps than it
has work left.
-/

namespace Outreach

namespace Walk

theorem stepsLeft_pos (w : Walk) : 0 < w.stepsLeft := by
  unfold stepsLeft
  split <;> decide

theorem stepsLeft_next {w : Walk} {next : Stage} (follows : w.progress.next? = some next)
    (due : Instant) (turn : Nat) :
    stepsLeft { w with progress := .waiting next due, turn } < w.stepsLeft := by
  cases hp : w.progress with
  | scheduled since =>
    rw [hp] at follows
    cases follows
    simp [stepsLeft, hp]
  | waiting stage before =>
    rw [hp] at follows
    cases stage <;> cases follows <;> simp [stepsLeft, hp]

end Walk

namespace Agenda

variable {s : Agenda Walk} {e : PendingEntry Walk}

/-- How many steps the pending walks can still take. -/
def stepsLeft (s : Agenda Walk) : Nat :=
  (s.pending.map fun e => e.work.stepsLeft).sum

theorem Ticketed.stepsLeft_finish (h : s.Ticketed) (he : e ∈ s.pending) :
    s.stepsLeft = e.work.stepsLeft + (s.finish e.ticket).stepsLeft := by
  have hperm := (ticket_perm h.distinct he).map fun e => e.work.stepsLeft
  simpa [stepsLeft, finish] using hperm.sum_eq

theorem Ticketed.stepsLeft_progress (h : s.Ticketed) (he : e ∈ s.pending) (work : Walk) :
    (s.progress e.ticket work).stepsLeft = work.stepsLeft + (s.finish e.ticket).stepsLeft := by
  have hperm := (map_ticket_perm h.distinct he fun b => { b with work }).map
    fun e => e.work.stepsLeft
  simpa [stepsLeft, progress, finish] using hperm.sum_eq

theorem stepsLeft_schedule (s : Agenda Walk) (record campaign : Uuid) (work : Walk) :
    (s.schedule record campaign work).2.stepsLeft ≤ s.stepsLeft + work.stepsLeft := by
  simp only [schedule]
  split
  · exact Nat.le_add_right _ _
  · have hsub : (s.pending.filter fun e => e.record != record).Sublist s.pending :=
      List.filter_sublist
    simp only [stepsLeft, List.map_append, List.sum_append, List.map_cons, List.map_nil,
      List.sum_cons, List.sum_nil, Nat.add_zero]
    exact Nat.add_le_add_right ((hsub.map _).sum_le_sum fun _ _ => Nat.zero_le _) _

end Agenda

theorem Dispatch.stepsLeft_pos {d : Dispatch} (running : d.isEnded = false) : 0 < d.stepsLeft := by
  cases hp : d.phase with
  | ended how => simp [isEnded, hp] at running
  | _ => simp [stepsLeft, hp]

namespace DeliveryState

variable {s t : DeliveryState} {d d' : Dispatch} {e : PendingEntry Walk}

theorem WalkStep.stepsLeft_lt (h : WalkStep s e t) (ticketed : s.agenda.Ticketed)
    (he : e ∈ s.agenda.pending) : t.agenda.stepsLeft < s.agenda.stepsLeft := by
  have htotal := ticketed.stepsLeft_finish he
  rcases h.agenda_cases with agenda | ⟨next, due, turn, follows, _, agenda⟩
  · have hpos := e.work.stepsLeft_pos
    rw [agenda]
    omega
  · have hless := Walk.stepsLeft_next follows due turn
    rw [agenda, ticketed.stepsLeft_progress he, htotal]
    exact Nat.add_lt_add_right hless _

theorem stepsLeft_settleAttempt (tally : Tally) (s : DeliveryState)
    (attempt : Option MessageRecord) :
    (settleAttempt tally s attempt).2.agenda.stepsLeft ≤ s.agenda.stepsLeft + 4 := by
  cases attempt with
  | none => exact Nat.le_add_right _ _
  | some r =>
    by_cases h : r.status = .queued
    · rw [settleAttempt_sent tally s h]
      exact s.agenda.stepsLeft_schedule r.id r.campaignId
        ⟨r.customerId, r.messageId, .scheduled s.now, s.turns⟩
    · rw [settleAttempt_unsent tally s h]
      exact Nat.le_add_right _ _

/-- A batch starts at most one walk for each of its records. -/
theorem stepsLeft_settleBatch (tally : Tally) (s : DeliveryState)
    (tried : List (Option MessageRecord)) :
    (settleBatch tally s tried).2.agenda.stepsLeft ≤ s.agenda.stepsLeft + 4 * tried.length := by
  induction tried generalizing tally s with
  | nil => exact Nat.le_refl _
  | cons attempt rest ih =>
    have hfirst := stepsLeft_settleAttempt tally s attempt
    have hrest := ih (settleAttempt tally s attempt).1 (settleAttempt tally s attempt).2
    rw [settleBatch_cons, List.length_cons]
    omega

theorem NextBatch.stepsLeft_le {tally : Tally} {rest : List String}
    (h : NextBatch s d tally rest d' t) : d'.stepsLeft ≤ 5 * rest.length + 4 := by
  cases h with
  | none_left _ dispatch _ => simp [dispatch, Dispatch.stepsLeft]
  | cancelled _ dispatch _ => simp [dispatch, Dispatch.stepsLeft]
  | drafts batch later next more _ _ left _ dispatch drafted =>
    have hbatch := congrArg List.length drafted.names
    simp only [List.map_cons, List.length_cons, List.length_map] at hbatch
    simp only [dispatch, Dispatch.stepsLeft, left, List.length_append, List.length_nil]
    omega

/-- A step of a dispatch that has not ended uses up some of the work of the dispatch and of its
walks. -/
theorem DispatchStep.stepsLeft_lt (h : DispatchStep s d d' t) (running : d.isEnded = false) :
    t.agenda.stepsLeft + d'.stepsLeft < s.agenda.stepsLeft + d.stepsLeft := by
  cases h with
  | begun recipients _ phase answered next =>
    obtain ⟨_, _, rfl⟩ := startProcessing_ok answered
    have hless := next.stepsLeft_le
    have hagenda : t.agenda = s.agenda := next.kept.agenda
    simp only [hagenda, Dispatch.stepsLeft, phase] at *
    omega
  | tried first more tried rest tally attempt u phase attempted after =>
    obtain ⟨book, rfl, _⟩ := attempted.book
    cases after with
    | same_batch following later left dispatch state =>
      simp only [state, dispatch, Dispatch.stepsLeft, phase, left, List.length_cons,
        List.length_append, List.length_nil]
      omega
    -- each record of the batch has been counted with the four steps of its walk
    | settled left next =>
      have hless := next.stepsLeft_le
      have hsettled := stepsLeft_settleBatch tally { s with records := book } (tried ++ [attempt])
      rw [← next.kept.agenda] at hsettled
      simp only [Dispatch.stepsLeft, phase, left, List.length_nil, List.length_append,
        List.length_cons] at *
      omega
  | counted _ phase _ dispatch state =>
    simp [state, dispatch, Dispatch.stepsLeft, phase]
  | completed _ _ phase answered dispatch state =>
    obtain ⟨_, _, rfl⟩ := completeCampaign_ok answered
    have hagenda : t.agenda = s.agenda := by rw [state]; rfl
    simp [hagenda, dispatch, Dispatch.stepsLeft, phase]
  | stopped _ failed dispatch state =>
    rcases failed with ⟨_, phase, _⟩ | ⟨_, phase, _⟩ | ⟨_, phase, _⟩
    · simp only [state, dispatch, Dispatch.stepsLeft, phase]
      omega
    · simp [state, dispatch, Dispatch.stepsLeft, phase]
    · simp [state, dispatch, Dispatch.stepsLeft, phase]
  | failed cause phase dispatch state =>
    obtain ⟨_, hbook, _⟩ := failCampaign_book s d.campaign cause.message
    have hagenda : t.agenda = s.agenda := by rw [state, hbook]; rfl
    simp [hagenda, dispatch, Dispatch.stepsLeft, phase]
  | ended how phase _ _ => simp [Dispatch.isEnded, phase] at running

end DeliveryState

namespace Simulation

variable {s : Simulation}

/-- How many steps the running dispatches can still take, with the walks that they start. -/
def dispatchSteps (running : List RunningDispatch) : Nat :=
  (running.map fun r => r.dispatch.stepsLeft).sum

theorem stepsLeft_eq (s : Simulation) :
    s.stepsLeft = s.state.agenda.stepsLeft + dispatchSteps s.running := by
  have hfold : ∀ (tasks : List Task) (n : Nat),
      tasks.foldl (fun n t => n + t.stepsLeft) n = n + (tasks.map Task.stepsLeft).sum := by
    intro tasks
    induction tasks with
    | nil => simp
    | cons t rest ih =>
      intro n
      rw [List.foldl_cons, ih, List.map_cons, List.sum_cons, Nat.add_assoc]
  rw [stepsLeft, hfold, Nat.zero_add, tasks, List.map_append, List.sum_append, List.map_map,
    List.map_map]
  rfl

theorem stepsLeft_moveTo (s : Simulation) (time : Instant) :
    (s.moveTo time).stepsLeft = s.stepsLeft := by
  rw [stepsLeft, tasks_moveTo]
  rfl

theorem stepsLeft_unregister (s : Simulation) (campaign : Uuid) :
    (s.unregister campaign).stepsLeft = s.stepsLeft := by
  rw [stepsLeft_eq, stepsLeft_eq, unregister, dispatchSteps, dispatchSteps, List.map_map]
  congr 3
  funext r
  simp only [Function.comp_apply]
  split <;> rfl

theorem dispatchSteps_replace (distinct : (s.running.map RunningDispatch.ticket).Nodup)
    {r : RunningDispatch} (hr : r ∈ s.running) (state : DeliveryState) (d : Dispatch) :
    dispatchSteps (Simulation.replace { s with state } { r with dispatch := d }).running +
      r.dispatch.stepsLeft ≤ dispatchSteps s.running + d.stepsLeft := by
  have htotal := ((ticket_perm distinct hr).map fun r => r.dispatch.stepsLeft).sum_eq
  have hset := ((map_ticket_perm distinct hr fun _ => { r with dispatch := d }).map
    fun r => r.dispatch.stepsLeft).sum_eq
  simp only [List.map_cons, List.sum_cons] at htotal hset
  simp only [replace, dispatchSteps]
  split
  · omega
  · omega

/-- Every step that a task takes leaves less to do. -/
theorem stepsLeft_step_lt (o : s.Orderly) (unended : ∀ r ∈ s.running, r.dispatch.isEnded = false)
    {task : Task} (present : task ∈ s.tasks) : (s.step task).stepsLeft < s.stepsLeft := by
  rw [stepsLeft_eq, stepsLeft_eq]
  rcases List.mem_append.mp present with hwalk | hdispatch
  · obtain ⟨e, he, rfl⟩ := List.mem_map.mp hwalk
    have hless := (s.state.stepWalk_walkStep e).stepsLeft_lt o.agenda he
    exact Nat.add_lt_add_right hless _
  · obtain ⟨r, hr, rfl⟩ := List.mem_map.mp hdispatch
    have hless := (s.state.stepDispatch_spec r.dispatch).stepsLeft_lt (unended r hr)
    have hreplaced := dispatchSteps_replace o.tickets hr (s.state.stepDispatch r.dispatch).2
      (s.state.stepDispatch r.dispatch).1
    have hagenda : (s.step (.dispatch r)).state.agenda =
        (s.state.stepDispatch r.dispatch).2.agenda := rfl
    rw [hagenda, step_dispatch]
    omega

/-- Where no work is left, there are no tasks. -/
theorem tasks_of_stepsLeft (unended : ∀ r ∈ s.running, r.dispatch.isEnded = false)
    (none_left : s.stepsLeft = 0) : s.tasks = [] := by
  rw [stepsLeft_eq, Nat.add_eq_zero_iff, Agenda.stepsLeft, dispatchSteps, List.sum_eq_zero_iff,
    List.sum_eq_zero_iff] at none_left
  obtain ⟨hwalks, hdispatches⟩ := none_left
  rw [List.eq_nil_iff_forall_not_mem]
  intro task present
  rcases List.mem_append.mp present with hwalk | hdispatch
  · obtain ⟨e, he, rfl⟩ := List.mem_map.mp hwalk
    have hpos := e.work.stepsLeft_pos
    have hzero := hwalks _ (List.mem_map.mpr ⟨e, he, rfl⟩)
    omega
  · obtain ⟨r, hr, rfl⟩ := List.mem_map.mp hdispatch
    have hpos := Dispatch.stepsLeft_pos (unended r hr)
    have hzero := hdispatches _ (List.mem_map.mpr ⟨r, hr, rfl⟩)
    omega

end Simulation

end Outreach

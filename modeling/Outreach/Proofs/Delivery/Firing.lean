import Mathlib.Algebra.BigOperators.Group.Finset.Piecewise
import Mathlib.Algebra.GroupWithZero.Nat
import Mathlib.Data.List.Induction
import Outreach.Proofs.Delivery.Timetable

/-!
# When a task ends

A task that was accepted has one of three fates. It still runs, it has ended once and at its due
time, or it was aborted. Which of them it is depends on the requests alone: the task ends with the
first advance that reaches its due time, unless an earlier request disturbs it. To disturb it is to
cancel its record or its campaign, or to have another task accepted for its record.
-/

namespace Outreach.Timetable

/-! ## What the requests say -/

/-- The time that the requests let pass. -/
def elapsed (requests : List Request) : Nat :=
  (requests.map Request.span).sum

/-- The names of the tasks that the requests bring, those of refused calls included. -/
def names (requests : List Request) : List Nat :=
  requests.filterMap Request.name?

/-- After the history, the request aborts what is registered for the record and the campaign. -/
def Disturbs (history : List Request) (record campaign : Uuid) : Request → Prop
  | .schedule other ofCampaign ms name =>
    ((start.performAll history).schedule other ofCampaign ms name).1 = true ∧ record = other
  | .cancel other => record = other
  | .cancelAll other => campaign = other
  | .advance _ => False

/-- None of the requests that follow the history disturbs the record and the campaign. -/
def Undisturbed (history later : List Request) (record campaign : Uuid) : Prop :=
  ∀ sofar request, sofar ++ [request] <+: later →
    ¬ Disturbs (history ++ sofar) record campaign request

/-- Among the requests that follow the history, some advance reaches the due time, and nothing
disturbs the record and the campaign before it. -/
def EndsIn (history later : List Request) (record campaign : Uuid) (due : Nat) : Prop :=
  ∃ sofar ms, sofar ++ [.advance ms] <+: later ∧ Undisturbed history sofar record campaign ∧
    due ≤ elapsed (history ++ sofar) + ms

variable {history later : List Request} {request : Request} {record campaign : Uuid} {due : Nat}

theorem elapsed_concat (requests : List Request) (request : Request) :
    elapsed (requests ++ [request]) = elapsed requests + request.span := by
  simp [elapsed]

theorem names_concat (requests : List Request) (request : Request) :
    names (requests ++ [request]) = names requests ++ request.name?.toList := by
  cases hname : request.name? <;> simp [names, hname]

theorem undisturbed_nil (history : List Request) (record campaign : Uuid) :
    Undisturbed history [] record campaign := by
  intro sofar request isPrefix
  exact absurd (List.prefix_nil.mp isPrefix) (by simp)

theorem undisturbed_concat :
    Undisturbed history (later ++ [request]) record campaign ↔
      Undisturbed history later record campaign ∧
        ¬ Disturbs (history ++ later) record campaign request := by
  constructor
  · intro undisturbed
    refine ⟨fun sofar other isPrefix => ?_, undisturbed later request (List.prefix_refl _)⟩
    exact undisturbed sofar other (isPrefix.trans (List.prefix_append _ _))
  · rintro ⟨undisturbed, last⟩ sofar other isPrefix
    rcases List.prefix_concat_iff.mp isPrefix with heq | hwithin
    · obtain ⟨rfl, hlast⟩ := List.append_inj' heq rfl
      obtain rfl := List.cons.inj hlast |>.1
      exact last
    · exact undisturbed sofar other hwithin

theorem endsIn_concat :
    EndsIn history (later ++ [request]) record campaign due ↔
      EndsIn history later record campaign due ∨
        ∃ ms, request = .advance ms ∧ Undisturbed history later record campaign ∧
          due ≤ elapsed (history ++ later) + ms := by
  constructor
  · rintro ⟨sofar, ms, isPrefix, undisturbed, reached⟩
    rcases List.prefix_concat_iff.mp isPrefix with heq | hwithin
    · obtain ⟨rfl, hlast⟩ := List.append_inj' heq rfl
      exact Or.inr ⟨ms, (List.cons.inj hlast).1.symm, undisturbed, reached⟩
    · exact Or.inl ⟨sofar, ms, hwithin, undisturbed, reached⟩
  · rintro (⟨sofar, ms, isPrefix, undisturbed, reached⟩ | ⟨ms, rfl, undisturbed, reached⟩)
    · exact ⟨sofar, ms, isPrefix.trans (List.prefix_append _ _), undisturbed, reached⟩
    · exact ⟨later, ms, List.prefix_refl _, undisturbed, reached⟩

theorem not_endsIn_nil : ¬ EndsIn history [] record campaign due := by
  rintro ⟨sofar, ms, isPrefix, -⟩
  exact absurd (List.prefix_nil.mp isPrefix) (by simp)

/-! ## What the timetable shows of it -/

theorem clock_perform (t : Timetable) (request : Request) :
    (t.perform request).clock = t.clock + request.span := by
  cases request with
  | schedule record campaign ms name =>
    simp only [perform, schedule]
    split <;> rfl
  | cancel record => rfl
  | cancelAll campaign => rfl
  | advance ms => rfl

theorem clock_performAll (requests : List Request) :
    (start.performAll requests).clock = elapsed requests := by
  induction requests using List.reverseRecOn with
  | nil => rfl
  | append_singleton requests request ih =>
    rw [performAll_concat, clock_perform, ih, elapsed_concat]

theorem refuses_perform (t : Timetable) (request : Request) (campaign : Uuid) :
    (t.perform request).agenda.refuses campaign = true ↔
      t.agenda.refuses campaign = true ∨ request = .cancelAll campaign := by
  cases request with
  | schedule record other ms name =>
    simp only [perform, schedule]
    split <;> simp [Agenda.refuses]
  | cancel record => simp [perform, cancel, Agenda.cancel, Agenda.refuses]
  | cancelAll other =>
    simp only [perform, cancelAll, Agenda.cancelAll_snd, Agenda.refuses, List.contains_iff_mem,
      List.mem_cons, Request.cancelAll.injEq]
    rw [or_comm, eq_comm]
  | advance ms => simp [perform, advance, Agenda.refuses]

/-- A campaign is refused once all its work has been cancelled. -/
theorem refuses_performAll (requests : List Request) (campaign : Uuid) :
    (start.performAll requests).agenda.refuses campaign = true ↔
      .cancelAll campaign ∈ requests := by
  induction requests using List.reverseRecOn with
  | nil => simp [performAll, start, Agenda.refuses, Agenda.empty]
  | append_singleton requests request ih =>
    rw [performAll_concat, refuses_perform, ih, List.mem_append, List.mem_singleton, eq_comm]

theorem schedule_refused_iff (requests : List Request) (record campaign : Uuid) (ms name : Nat) :
    ((start.performAll requests).schedule record campaign ms name).1 = false ↔
      .cancelAll campaign ∈ requests := by
  rw [schedule_fst, Bool.not_eq_false', refuses_performAll]

/-- Every end is that of a task that ran. -/
theorem ended_perform_eq (t : Timetable) (request : Request) :
    ∃ more, (t.perform request).ended = t.ended ++ more ∧
      ∀ x ∈ more, ∃ task ∈ t.tasks, x.2 = task.name := by
  by_cases hadvance : ∃ ms, request = .advance ms
  · obtain ⟨ms, rfl⟩ := hadvance
    refine ⟨_, ended_advance t ms, fun x hx => ?_⟩
    obtain ⟨task, hdue, rfl⟩ := List.mem_map.mp hx
    exact ⟨task, (mem_dueBy.mp hdue).1, rfl⟩
  · rw [ended_perform fun ms heq => hadvance ⟨ms, heq⟩]
    exact ⟨[], (List.append_nil _).symm, by simp⟩

theorem names_performAll (requests : List Request) :
    (∀ task ∈ (start.performAll requests).tasks, task.name ∈ names requests) ∧
      ∀ x ∈ (start.performAll requests).ended, x.2 ∈ names requests := by
  induction requests using List.reverseRecOn with
  | nil => exact ⟨by simp [performAll, start], by simp [performAll, start]⟩
  | append_singleton requests request ih =>
    rw [performAll_concat, names_concat]
    obtain ⟨kept, added, htasks, hkept, hadded⟩ :=
      tasks_perform (start.performAll requests) request
    obtain ⟨more, hended, hmore⟩ := ended_perform_eq (start.performAll requests) request
    constructor
    · intro task running
      rw [htasks] at running
      rcases List.mem_append.mp running with hold | hnew
      · exact List.mem_append_left _ (ih.1 task (hkept.subset hold))
      · rw [hadded task hnew]
        exact List.mem_append_right _ List.mem_cons_self
    · intro x hx
      rw [hended] at hx
      rcases List.mem_append.mp hx with hold | hnew
      · exact List.mem_append_left _ (ih.2 x hold)
      · obtain ⟨task, running, hname⟩ := hmore x hnew
        rw [hname]
        exact List.mem_append_left _ (ih.1 task running)

/-- The ends of tasks of a name. -/
def endsOf (t : Timetable) (name : Nat) : List (Nat × Nat) :=
  t.ended.filter fun x => x.2 == name

/-- The tasks of a name that run. -/
def runningAs (t : Timetable) (name : Nat) : List TimedTask :=
  t.tasks.filter fun task => task.name == name

variable {t : Timetable} {task : TimedTask}

/-- Nothing runs or ends under a name that no call has brought. -/
theorem idle_of_unnamed {requests : List Request} {name : Nat} (unnamed : name ∉ names requests) :
    (start.performAll requests).runningAs name = [] ∧
      (start.performAll requests).endsOf name = [] := by
  obtain ⟨hrunning, hended⟩ := names_performAll requests
  constructor
  · rw [runningAs, List.filter_eq_nil_iff]
    intro task running hname
    exact unnamed (beq_iff_eq.mp hname ▸ hrunning task running)
  · rw [endsOf, List.filter_eq_nil_iff]
    intro x hx hname
    exact unnamed (beq_iff_eq.mp hname ▸ hended x hx)

theorem runningAs_perform {name : Nat} (fresh : request.name? ≠ some name) :
    ((t.perform request).runningAs name).Sublist (t.runningAs name) := by
  obtain ⟨kept, added, htasks, hkept, hadded⟩ := tasks_perform t request
  have hnone : added.filter (fun task => task.name == name) = [] := by
    rw [List.filter_eq_nil_iff]
    intro task htask hname
    rw [beq_iff_eq] at hname
    exact fresh (hname ▸ hadded task htask)
  rw [runningAs, htasks, List.filter_append, hnone, List.append_nil]
  exact hkept.filter _

/-- A name under which nothing runs gets no further end. -/
theorem endsOf_perform {name : Nat} (idle : t.runningAs name = []) (request : Request) :
    (t.perform request).endsOf name = t.endsOf name := by
  obtain ⟨more, hended, hmore⟩ := ended_perform_eq t request
  have hnone : more.filter (fun x => x.2 == name) = [] := by
    rw [List.filter_eq_nil_iff]
    intro x hx hname
    obtain ⟨task, running, htask⟩ := hmore x hx
    rw [beq_iff_eq, htask] at hname
    exact absurd (beq_iff_eq.mpr hname) (List.filter_eq_nil_iff.mp idle task running)
  rw [endsOf, hended, List.filter_append, hnone, List.append_nil, endsOf]

/-- The only task of a name ends in the advance that reaches its due time. -/
theorem endsOf_advance (only : t.runningAs task.name = [task]) (ms : Nat) :
    (t.advance ms).endsOf task.name =
      t.endsOf task.name ++ if task.due ≤ t.clock + ms then [(task.due, task.name)] else [] := by
  have hdue : ((t.dueBy (t.clock + ms)).filter fun k => k.name == task.name).Perm
      (if task.due ≤ t.clock + ms then [task] else []) := by
    refine ((List.mergeSort_perm _ _).filter _).trans (List.Perm.of_eq ?_)
    rw [List.filter_comm, ← runningAs, only]
    by_cases hreached : task.due ≤ t.clock + ms <;> simp [hreached]
  rw [endsOf, ended_advance, List.filter_append, List.filter_map, ← endsOf]
  congr 1
  by_cases hreached : task.due ≤ t.clock + ms
  · rw [if_pos hreached] at hdue ⊢
    exact congrArg _ (List.perm_singleton.mp hdue)
  · rw [if_neg hreached] at hdue ⊢
    exact congrArg _ (List.perm_nil.mp hdue)

/-! ## The three fates -/

/-- What has become of a task for which a call was accepted at the end of the history, once the
later requests have been made. -/
inductive Fate (history later : List Request) (task : TimedTask) (campaign : Uuid) : Prop
  | running (holds : (start.performAll (history ++ later)).Holds task campaign)
      (only : (start.performAll (history ++ later)).runningAs task.name = [task])
      (unended : (start.performAll (history ++ later)).endsOf task.name = [])
      (undisturbed : Undisturbed history later task.record campaign)
      (notYet : ¬ EndsIn history later task.record campaign task.due)
  | ended (idle : (start.performAll (history ++ later)).runningAs task.name = [])
      (once : (start.performAll (history ++ later)).endsOf task.name = [(task.due, task.name)])
      (ends : EndsIn history later task.record campaign task.due)
  | aborted (idle : (start.performAll (history ++ later)).runningAs task.name = [])
      (unended : (start.performAll (history ++ later)).endsOf task.name = [])
      (disturbed : ¬ Undisturbed history later task.record campaign)
      (notYet : ¬ EndsIn history later task.record campaign task.due)

/-- A request removes a task by disturbing it or by letting its due time come. -/
theorem removes_iff : (start.performAll history).Removes task campaign request ↔
    Disturbs history task.record campaign request ∨
      ∃ ms, request = .advance ms ∧ task.due ≤ elapsed history + ms := by
  rw [← clock_performAll]
  cases request <;> simp [Removes, Disturbs]

theorem Registered.runningAs_removed (h : t.Registered) (fresh : request.name? ≠ some task.name)
    (only : t.runningAs task.name = [task]) (holds : t.Holds task campaign)
    (removes : t.Removes task campaign request) :
    (t.perform request).runningAs task.name = [] := by
  have hsub := runningAs_perform (t := t) fresh
  rw [only] at hsub
  rcases List.sublist_singleton.mp hsub with hnil | hsame
  · exact hnil
  · have running := (List.mem_filter.mp (hsame ▸ List.mem_singleton_self task)).1
    obtain ⟨other, hother⟩ := (registered_perform h request).exists_holds running
    obtain ⟨hbefore, hkept⟩ := (h.holds_perform_iff fresh).mp hother
    -- the ticket has one entry only, so the task is held for one campaign only
    have hentry := h.ticketed.eq_of_ticket hbefore.2 holds.2 rfl
    obtain rfl : other = campaign := congrArg PendingEntry.campaign hentry
    exact absurd removes hkept

theorem runningAs_kept (fresh : request.name? ≠ some task.name)
    (only : t.runningAs task.name = [task]) (kept : (t.perform request).Holds task campaign) :
    (t.perform request).runningAs task.name = [task] := by
  have hsub := runningAs_perform (t := t) fresh
  rw [only] at hsub
  rcases List.sublist_singleton.mp hsub with hnil | hsame
  · exact absurd (beq_self_eq_true task.name) (List.filter_eq_nil_iff.mp hnil task kept.1)
  · exact hsame

theorem endsOf_not_due (only : t.runningAs task.name = [task])
    (notDue : ∀ ms, request = .advance ms → ¬ task.due ≤ t.clock + ms) :
    (t.perform request).endsOf task.name = t.endsOf task.name := by
  by_cases hadvance : ∃ ms, request = .advance ms
  · obtain ⟨ms, rfl⟩ := hadvance
    rw [perform, endsOf_advance only, if_neg (notDue ms rfl), List.append_nil]
  · rw [endsOf, ended_perform fun ms heq => hadvance ⟨ms, heq⟩, endsOf]

/-- A running task goes on, ends or is aborted with the next request. -/
theorem fate_of_running (fresh : request.name? ≠ some task.name)
    (holds : (start.performAll (history ++ later)).Holds task campaign)
    (only : (start.performAll (history ++ later)).runningAs task.name = [task])
    (unended : (start.performAll (history ++ later)).endsOf task.name = [])
    (undisturbed : Undisturbed history later task.record campaign)
    (notYet : ¬ EndsIn history later task.record campaign task.due) :
    Fate history (later ++ [request]) task campaign := by
  have hregistered := registered_performAll (history ++ later)
  have hclock := clock_performAll (history ++ later)
  have hstate : start.performAll (history ++ (later ++ [request])) =
      (start.performAll (history ++ later)).perform request := by
    rw [← List.append_assoc, performAll_concat]
  by_cases hdue : ∃ ms, request = .advance ms ∧ task.due ≤ elapsed (history ++ later) + ms
  · have hremoved : Removes _ task campaign request := removes_iff.mpr (Or.inr hdue)
    obtain ⟨ms, rfl, hreached⟩ := hdue
    apply Fate.ended
    · rw [hstate]
      exact hregistered.runningAs_removed fresh only holds hremoved
    · rw [hstate, perform, endsOf_advance only, unended, hclock, if_pos hreached, List.nil_append]
    · exact endsIn_concat.mpr (Or.inr ⟨ms, rfl, undisturbed, hreached⟩)
  have hends : (Timetable.perform _ request).endsOf task.name = _ :=
    endsOf_not_due only fun ms heq hreached => hdue ⟨ms, heq, hclock ▸ hreached⟩
  have hnotYet : ¬ EndsIn history (later ++ [request]) task.record campaign task.due := by
    rw [endsIn_concat]
    rintro (hbefore | ⟨ms, heq, -, hreached⟩)
    · exact notYet hbefore
    · exact hdue ⟨ms, heq, hreached⟩
  by_cases hdisturbs : Disturbs (history ++ later) task.record campaign request
  · apply Fate.aborted
    · rw [hstate]
      exact hregistered.runningAs_removed fresh only holds (removes_iff.mpr (Or.inl hdisturbs))
    · rw [hstate, hends, unended]
    · exact fun h => (undisturbed_concat.mp h).2 hdisturbs
    · exact hnotYet
  · have hkept := (hregistered.holds_perform_iff fresh).mpr ⟨holds, fun hremoves =>
      (removes_iff.mp hremoves).elim hdisturbs hdue⟩
    apply Fate.running
    · rwa [hstate]
    · rw [hstate]
      exact runningAs_kept fresh only hkept
    · rw [hstate, hends, unended]
    · exact undisturbed_concat.mpr ⟨undisturbed, hdisturbs⟩
    · exact hnotYet

theorem fate_concat (h : Fate history later task campaign)
    (fresh : request.name? ≠ some task.name) :
    Fate history (later ++ [request]) task campaign := by
  have hstate : start.performAll (history ++ (later ++ [request])) =
      (start.performAll (history ++ later)).perform request := by
    rw [← List.append_assoc, performAll_concat]
  have hsub := runningAs_perform (t := start.performAll (history ++ later)) fresh
  cases h with
  | running holds only unended undisturbed notYet =>
    exact fate_of_running fresh holds only unended undisturbed notYet
  | ended idle once ends =>
    rw [idle, List.sublist_nil] at hsub
    apply Fate.ended
    · rwa [hstate]
    · rwa [hstate, endsOf_perform idle]
    · exact endsIn_concat.mpr (Or.inl ends)
  | aborted idle unended disturbed notYet =>
    rw [idle, List.sublist_nil] at hsub
    apply Fate.aborted
    · rwa [hstate]
    · rwa [hstate, endsOf_perform idle]
    · exact fun h => disturbed (undisturbed_concat.mp h).1
    · rw [endsIn_concat]
      rintro (hbefore | ⟨_, -, undisturbed, -⟩)
      · exact notYet hbefore
      · exact disturbed undisturbed

/-- An accepted call starts the task, which its campaign and record hold from then on. -/
theorem fate_begin {before : List Request} {ms name : Nat}
    (accepted : ((start.performAll before).schedule record campaign ms name).1 = true)
    (fresh : name ∉ names before) :
    ∃ ticket, Fate (before ++ [.schedule record campaign ms name]) []
      ⟨name, record, ticket, elapsed before + ms⟩ campaign := by
  have hstate := performAll_concat start before (.schedule record campaign ms name)
  have hstep := schedule_accepted accepted
  have hpending := pending_schedule_accepted accepted
  obtain ⟨hidle, hends⟩ := idle_of_unnamed fresh
  rw [perform, hstep, clock_performAll] at hstate
  refine ⟨(start.performAll before).agenda.nextTicket, Fate.running ?_ ?_ ?_
    (undisturbed_nil _ _ _) not_endsIn_nil⟩
  · rw [List.append_nil, hstate]
    refine ⟨List.mem_append_right _ List.mem_cons_self, ?_⟩
    simp only [hpending]
    exact List.mem_append_right _ List.mem_cons_self
  · have hspared : ((start.performAll before).sparedBy
        ((start.performAll before).agenda.pending.filter fun e => e.record == record)).filter
          (fun task => task.name == name) = [] :=
      List.sublist_nil.mp (hidle ▸ List.filter_sublist.filter _)
    rw [List.append_nil, hstate, runningAs, List.filter_append, hspared]
    simp
  · rw [List.append_nil, hstate]
    exact hends

theorem fate_performAll {before : List Request} {ms name : Nat}
    (accepted : ((start.performAll before).schedule record campaign ms name).1 = true)
    (fresh : name ∉ names before) (later : List Request) (unshared : name ∉ names later) :
    ∃ ticket, Fate (before ++ [.schedule record campaign ms name]) later
      ⟨name, record, ticket, elapsed before + ms⟩ campaign := by
  obtain ⟨ticket, hbegin⟩ := fate_begin accepted fresh
  refine ⟨ticket, ?_⟩
  induction later using List.reverseRecOn with
  | nil => exact hbegin
  | append_singleton later request ih =>
    rw [names_concat, List.mem_append, not_or] at unshared
    refine fate_concat (ih unshared.1) fun hname => unshared.2 ?_
    rw [hname]
    exact List.mem_cons_self

/-! ## The law -/

/-- What is registered after an accepted call was registered before, or it is the new task. -/
theorem Registered.holds_schedule (h : t.Registered) {other : Uuid} {ms name : Nat}
    (accepted : (t.schedule record other ms name).1 = true)
    (holds : (t.schedule record other ms name).2.Holds task campaign) :
    t.Holds task campaign ∨
      task = ⟨name, record, t.agenda.nextTicket, t.clock + ms⟩ ∧ campaign = other := by
  have hpending := pending_schedule_accepted accepted
  rw [schedule_accepted accepted] at holds
  obtain ⟨running, he⟩ := holds
  simp only [hpending] at he
  rcases List.mem_append.mp running with hold | hnew
  · rcases List.mem_append.mp he with heold | henew
    · exact Or.inl ⟨(List.mem_filter.mp hold).1, (List.mem_filter.mp heold).1⟩
    · -- the entry is the new one, whose ticket no older task has
      obtain ⟨e, hentry, hticket, -⟩ := h.entry task (List.mem_filter.mp hold).1
      have hdrawn := h.ticketed.drawn e hentry
      have heq := congrArg PendingEntry.ticket (List.mem_singleton.mp henew)
      simp only at heq
      omega
  · obtain rfl := List.mem_singleton.mp hnew
    rcases List.mem_append.mp he with heold | henew
    · have hdrawn := h.ticketed.drawn _ (List.mem_filter.mp heold).1
      exact absurd hdrawn (Nat.lt_irrefl _)
    · exact Or.inr ⟨rfl, congrArg PendingEntry.campaign (List.mem_singleton.mp henew)⟩

theorem Registered.holds_perform (h : t.Registered)
    (holds : (t.perform request).Holds task campaign) :
    t.Holds task campaign ∨
      ∃ ms, request = .schedule task.record campaign ms task.name ∧ task.due = t.clock + ms := by
  by_cases hfresh : request.name? = some task.name
  · cases request with
    | schedule record other ms name =>
      cases haccepted : (t.schedule record other ms name).1 with
      | false =>
        rw [perform, schedule_refused haccepted] at holds
        exact Or.inl holds
      | true =>
        rcases h.holds_schedule haccepted holds with hbefore | ⟨rfl, rfl⟩
        · exact Or.inl hbefore
        · exact Or.inr ⟨ms, rfl, rfl⟩
    | cancel record => cases hfresh
    | cancelAll other => cases hfresh
    | advance ms => cases hfresh
  · exact Or.inl ((h.holds_perform_iff hfresh).mp holds).1

/-- Every registered task was brought by a call. -/
theorem holds_performAll (requests : List Request)
    (holds : (start.performAll requests).Holds task campaign) :
    ∃ before ms later, requests = before ++ .schedule task.record campaign ms task.name :: later ∧
      task.due = elapsed before + ms := by
  induction requests using List.reverseRecOn with
  | nil => exact absurd holds.1 List.not_mem_nil
  | append_singleton requests request ih =>
    rw [performAll_concat] at holds
    rcases (registered_performAll requests).holds_perform holds with hbefore | ⟨ms, rfl, hdue⟩
    · obtain ⟨before, ms, later, rfl, hdue⟩ := ih hbefore
      exact ⟨before, ms, later ++ [request], by simp, hdue⟩
    · rw [clock_performAll] at hdue
      exact ⟨requests, ms, [], rfl, hdue⟩

theorem names_split {before later : List Request} {ms name : Nat} :
    (names (before ++ .schedule record campaign ms name :: later)).Nodup →
      name ∉ names before ∧ name ∉ names later := by
  intro distinct
  simp only [names, List.filterMap_append, List.filterMap_cons, Request.name?] at distinct
  have hparts := List.nodup_append.mp distinct
  exact ⟨fun h => hparts.2.2 name h name List.mem_cons_self rfl,
    (List.nodup_cons.mp hparts.2.1).1⟩

/-- Under a name whose only call was refused, nothing runs or ends. -/
theorem idle_of_refused {before : List Request} {ms name : Nat}
    (refused : ((start.performAll before).schedule record campaign ms name).1 = false)
    (fresh : name ∉ names before) (unshared : name ∉ names later) :
    let t := start.performAll (before ++ [.schedule record campaign ms name] ++ later)
    t.runningAs name = [] ∧ t.endsOf name = [] := by
  induction later using List.reverseRecOn with
  | nil =>
    rw [List.append_nil, performAll_concat, perform, schedule_refused refused]
    exact idle_of_unnamed fresh
  | append_singleton later request ih =>
    rw [names_concat, List.mem_append, not_or] at unshared
    obtain ⟨hidle, hends⟩ := ih unshared.1
    have hfresh : request.name? ≠ some name := by
      intro hname
      rw [hname] at unshared
      exact unshared.2 List.mem_cons_self
    rw [← List.append_assoc, performAll_concat]
    refine ⟨?_, (endsOf_perform hidle request).trans hends⟩
    exact List.sublist_nil.mp (hidle ▸ runningAs_perform hfresh)

theorem size_eq_sum (agenda : Agenda Unit) (campaigns : Finset Uuid)
    (covers : ∀ e ∈ agenda.pending, e.campaign ∈ campaigns) :
    agenda.size = ∑ campaign ∈ campaigns, agenda.countFor campaign := by
  obtain ⟨pending, cancelled, nextTicket⟩ := agenda
  simp only [Agenda.size, Agenda.countFor] at covers ⊢
  induction pending with
  | nil => simp
  | cons e pending ih =>
    obtain ⟨he, hpending⟩ := List.forall_mem_cons.mp covers
    simp only [List.countP_cons, beq_iff_eq, List.length_cons, Finset.sum_add_distrib,
      Finset.sum_ite_eq, if_pos he]
    rw [ih hpending]

/-- A scheduled task ends exactly once, and at its due time, if its call was accepted and some
advance reaches that time before anything disturbs the task. It is registered as long as it was
accepted and has neither ended nor been disturbed. A call is refused exactly if the work of its
campaign was cancelled before, and then changes nothing. -/
theorem scheduled_task_ends_once (requests : List Request) (distinct : (names requests).Nodup) :
    let t := start.performAll requests
    (∀ before record campaign ms name later,
      requests = before ++ .schedule record campaign ms name :: later →
      let call := (start.performAll before).schedule record campaign ms name
      let history := before ++ [.schedule record campaign ms name]
      let due := elapsed before + ms
      (call.1 = false ↔ .cancelAll campaign ∈ before) ∧
      (call.1 = false → call.2 = start.performAll before) ∧
      (call.1 = true ∧ EndsIn history later record campaign due → t.endsOf name = [(due, name)]) ∧
      (¬ (call.1 = true ∧ EndsIn history later record campaign due) → t.endsOf name = []) ∧
      ((∃ ticket, t.Holds ⟨name, record, ticket, due⟩ campaign) ↔
        call.1 = true ∧ Undisturbed history later record campaign ∧
          ¬ EndsIn history later record campaign due)) ∧
    (∀ e ∈ t.agenda.pending, ∃ before ms name later,
      requests = before ++ .schedule e.record e.campaign ms name :: later ∧
        t.Holds ⟨name, e.record, e.ticket, elapsed before + ms⟩ e.campaign) ∧
    (t.agenda.pending.map PendingEntry.record).Nodup ∧
    ∀ campaigns : Finset Uuid, (∀ e ∈ t.agenda.pending, e.campaign ∈ campaigns) →
      t.agenda.size = ∑ campaign ∈ campaigns, t.agenda.countFor campaign := by
  intro t
  have hregistered : t.Registered := registered_performAll requests
  refine ⟨?_, ?_, hregistered.ticketed.records, size_eq_sum t.agenda⟩
  · intro before record campaign ms name later hrequests call history due
    obtain ⟨hbefore, hlater⟩ := names_split (hrequests ▸ distinct)
    have hstate : t = start.performAll (history ++ later) := by
      rw [show t = start.performAll requests from rfl, hrequests, List.append_cons]
    refine ⟨schedule_refused_iff before record campaign ms name, schedule_refused, ?_⟩
    cases haccepted : call.1 with
    | false =>
      have hidle := idle_of_refused haccepted hbefore hlater
      rw [← hstate] at hidle
      refine ⟨fun h => absurd h.1 (by decide), fun _ => hidle.2, ?_⟩
      constructor
      · rintro ⟨ticket, running, -⟩
        exact absurd (beq_self_eq_true name) (List.filter_eq_nil_iff.mp hidle.1 _ running)
      · exact fun h => absurd h.1 (by decide)
    | true =>
      obtain ⟨ticket, hfate⟩ := fate_performAll haccepted hbefore later hlater
      simp only [true_and]
      cases hfate with
      | running holds only unended undisturbed notYet =>
        rw [← hstate] at holds unended
        exact ⟨fun ends => absurd ends notYet, fun _ => unended,
          fun _ => ⟨undisturbed, notYet⟩, fun _ => ⟨ticket, holds⟩⟩
      | ended idle once ends =>
        rw [← hstate] at idle once
        refine ⟨fun _ => once, fun notYet => absurd ends notYet, ?_, fun h => absurd ends h.2⟩
        rintro ⟨_, running, -⟩
        exact absurd (beq_self_eq_true name) (List.filter_eq_nil_iff.mp idle _ running)
      | aborted idle unended disturbed notYet =>
        rw [← hstate] at idle unended
        refine ⟨fun ends => absurd ends notYet, fun _ => unended, ?_, fun h => absurd h.1 disturbed⟩
        rintro ⟨_, running, -⟩
        exact absurd (beq_self_eq_true name) (List.filter_eq_nil_iff.mp idle _ running)
  · intro e he
    obtain ⟨⟨name, record, ticket, due⟩, holds, hrecord, hticket⟩ := hregistered.holds_of_entry he
    obtain ⟨before, ms, later, hrequests, hdue⟩ := holds_performAll requests holds
    simp only at hrecord hticket hdue
    subst hrecord hticket hdue
    exact ⟨before, ms, name, later, hrequests, holds⟩

/-- A second task replaces the first one of its record, ends at its own time, and has its campaign
cancelled only then. -/
def replacing : List Request :=
  [.schedule ⟨1⟩ ⟨7⟩ 100 0, .schedule ⟨1⟩ ⟨7⟩ 300 1, .advance 200, .advance 200, .cancelAll ⟨7⟩,
    .schedule ⟨1⟩ ⟨7⟩ 50 2]

theorem replacing_task_ends_once :
    (names replacing).Nodup ∧ (start.performAll replacing).endsOf 1 = [(300, 1)] ∧
      (start.performAll replacing).endsOf 0 = [] ∧ (start.performAll replacing).endsOf 2 = [] := by
  have hnames : (names replacing).Nodup := by decide
  have law := (scheduled_task_ends_once replacing hnames).1
  refine ⟨hnames, ?_, ?_, ?_⟩
  · refine (law [.schedule ⟨1⟩ ⟨7⟩ 100 0] ⟨1⟩ ⟨7⟩ 300 1 _ rfl).2.2.1 ⟨rfl, [.advance 200], 200, ?_⟩
    refine ⟨⟨_, rfl⟩, ?_, by decide⟩
    exact undisturbed_concat.mpr ⟨undisturbed_nil _ _ _, id⟩
  · refine (law [] ⟨1⟩ ⟨7⟩ 100 0 _ rfl).2.2.2.1 ?_
    rintro ⟨-, sofar, ms, isPrefix, undisturbed, -⟩
    -- the first later request already disturbs the task
    cases sofar with
    | nil => exact nomatch (List.cons_prefix_cons.mp isPrefix).1
    | cons request sofar =>
      obtain ⟨rfl, -⟩ := List.cons_prefix_cons.mp isPrefix
      exact undisturbed [] _ ⟨sofar, rfl⟩ ⟨rfl, rfl⟩
  · refine (law (replacing.take 5) ⟨1⟩ ⟨7⟩ 50 2 [] rfl).2.2.2.1 ?_
    rintro ⟨-, ends⟩
    exact not_endsIn_nil ends

end Outreach.Timetable

import Outreach.Proofs.Delivery.Punctuality
import Outreach.Proofs.Desk.Ownership
import Outreach.Proofs.Desk.Visits

/-!
# Waiting for a dispatch

A call that waits for a dispatch and finds it on the register answers when no dispatch of the
campaign is left. A second one does not find it there any more and answers at once, although the
dispatch goes on, and while somebody waits for a dispatch the register counts it no longer. So the
register tells what has not ended, and nobody is answered too early, exactly as long as no call is
kept waiting.
-/

namespace Outreach.Lobby

variable {a : Lobby} {campaign : Uuid}

/-- How many calls wait for a dispatch that has not ended. -/
def keptWaiting (a : Lobby) : Nat :=
  a.taken.countP fun x => (a.simulation.dispatchAt? x.2).isSome

/-- A call that waits for a dispatch of the campaign answers. -/
inductive Answers (a : Lobby) (campaign : Uuid) : Move → Prop
  | at_once (unregistered : a.simulation.registered? campaign = none) :
      Answers a campaign (.wait campaign)
  | after (ticket : Nat) (due : a.isDue (.waiting campaign ticket) = true) :
      Answers a campaign (.resume (.waiting campaign ticket))

theorem isSome_dispatchAt? {s : Simulation} {ticket : Nat} :
    (s.dispatchAt? ticket).isSome = true ↔ ∃ b ∈ s.badges, b.ticket = ticket := by
  rw [Option.isSome_iff_ne_none, Ne, Simulation.dispatchAt?_eq_none]
  simp

theorem isRegistered_eq_isSome {s : Simulation} :
    s.isRegistered campaign = (s.registered? campaign).isSome := by
  rw [Simulation.isRegistered, Simulation.registered?, List.isSome_find?]

/-! ## The register and the calls -/

/-- The dispatches that calls have taken are those that are off the register. -/
theorem Tidy.off_register (h : a.Tidy) :
    ((a.simulation.badges.filter fun b => !b.registered).map Badge.ticket).Perm
      ((a.taken.filter fun x => (a.simulation.dispatchAt? x.2).isSome).map Prod.snd) := by
  refine (List.perm_ext_iff_of_nodup (h.tickets.sublist (List.filter_sublist.map _))
    (h.distinct.sublist (List.filter_sublist.map _))).mpr fun ticket => ?_
  simp only [List.mem_map, List.mem_filter, Bool.not_eq_true', isSome_dispatchAt?]
  constructor
  · rintro ⟨b, ⟨hb, hoff⟩, rfl⟩
    exact ⟨(b.campaign, b.ticket), ⟨h.held b hb hoff, b, hb, rfl⟩, rfl⟩
  · rintro ⟨x, ⟨hx, b, hb, hticket⟩, rfl⟩
    have hbadge := h.sole x hx b hb (Or.inl hticket)
    exact ⟨b, ⟨hb, by rw [hbadge]⟩, hticket⟩

/-- Every dispatch that has not ended is on the register or keeps one call waiting. -/
theorem Tidy.active_add_keptWaiting (h : a.Tidy) :
    a.simulation.active + a.keptWaiting = a.simulation.running.length := by
  have hlength : a.simulation.running.length = a.simulation.badges.length := by
    rw [Simulation.badges, List.length_map]
  have hsplit := List.length_eq_countP_add_countP Badge.registered (l := a.simulation.badges)
  have hoff := h.off_register.length_eq
  rw [List.length_map, List.length_map, ← List.countP_eq_length_filter,
    ← List.countP_eq_length_filter] at hoff
  have hnot : (fun b : Badge => decide (¬ b.registered = true)) = fun b => !b.registered := by
    funext b
    simp
  rw [hnot, hoff] at hsplit
  rw [hlength, hsplit, Simulation.active_eq_badges]
  rfl

/-- No dispatch of the campaign is left if the one that was taken has ended. -/
theorem Tidy.isRunning_of_taken (h : a.Tidy) {ticket : Nat} (taken : (campaign, ticket) ∈ a.taken)
    (ended : a.simulation.dispatchAt? ticket = none) :
    a.simulation.isRunning campaign = false := by
  rw [Simulation.isRunning_eq_false_iff_badges]
  intro b hb hcampaign
  have hbadge := h.sole _ taken b hb (Or.inr hcampaign)
  refine Simulation.dispatchAt?_eq_none.mp ended b hb ?_
  rw [hbadge]

/-- A call that has taken a dispatch goes on when no dispatch of the campaign is left. -/
theorem Tidy.isRunning_of_due (h : a.Tidy) {ticket : Nat}
    (due : a.isDue (.waiting campaign ticket) = true) :
    a.simulation.isRunning campaign = false := by
  obtain ⟨present, _, _, takes, ended⟩ := isDue_iff.mp due
  cases takes
  exact h.isRunning_of_taken (List.mem_filterMap.mpr ⟨_, present, rfl⟩) ended

/-- Without a dispatch on the register, one of the campaign is left exactly if it keeps a call
waiting. -/
theorem Tidy.isRunning_of_unregistered (h : a.Tidy)
    (unregistered : a.simulation.registered? campaign = none) :
    a.simulation.isRunning campaign = false ↔
      ∀ ticket, (campaign, ticket) ∈ a.taken → a.simulation.dispatchAt? ticket = none := by
  rw [Simulation.isRunning_eq_false_iff_badges]
  constructor
  · intro gone ticket taken
    rw [Simulation.dispatchAt?_eq_none]
    intro b hb hticket
    have hbadge := h.sole _ taken b hb (Or.inl hticket)
    exact gone b hb (by rw [hbadge])
  · intro ended b hb hcampaign
    have hoff := Simulation.registered?_eq_none.mp unregistered b hb hcampaign
    have htaken := h.held b hb hoff
    rw [hcampaign] at htaken
    exact Simulation.dispatchAt?_eq_none.mp (ended b.ticket htaken) b hb rfl

/-- A call that has taken a dispatch and is kept waiting leaves nothing on the register. -/
theorem Tidy.registered?_of_taken (h : a.Tidy) {ticket : Nat}
    (taken : (campaign, ticket) ∈ a.taken) : a.simulation.registered? campaign = none := by
  rw [Simulation.registered?_eq_none]
  intro b hb hcampaign
  rw [h.sole _ taken b hb (Or.inr hcampaign)]

theorem keptWaiting_eq_zero : a.keptWaiting = 0 ↔
    ∀ campaign ticket, (campaign, ticket) ∈ a.taken → a.simulation.dispatchAt? ticket = none := by
  simp [keptWaiting, List.countP_eq_zero]

/-- Nobody is answered too early exactly as long as no call is kept waiting. -/
theorem Tidy.answers_iff (h : a.Tidy) :
    (∀ campaign m, a.Answers campaign m → a.simulation.isRunning campaign = false) ↔
      a.keptWaiting = 0 := by
  rw [keptWaiting_eq_zero]
  constructor
  · intro truthful campaign ticket taken
    have hnone := h.registered?_of_taken taken
    have hgone := truthful campaign _ (.at_once hnone)
    exact (h.isRunning_of_unregistered hnone).mp hgone ticket taken
  · rintro ended campaign m (⟨unregistered⟩ | ⟨ticket, due⟩)
    · exact (h.isRunning_of_unregistered unregistered).mpr fun ticket => ended campaign ticket
    · exact h.isRunning_of_due due

/-! ## One call at a time -/

/-- What goes on in the background, as moves. -/
def background (works : List Work) : List Move :=
  works.map fun w => .operate (.background (.work w))

theorem makeAll_append (a : Lobby) (first later : List Move) :
    a.makeAll (first ++ later) = (a.makeAll first).makeAll later :=
  List.foldl_append

/-- No dispatch that has been aborted is still running. -/
def Settled (a : Lobby) : Prop :=
  ∀ ticket, a.visits.any (Visit.aborts ticket) = true → a.simulation.dispatchAt? ticket = none

theorem operate_work (h : a.Settled) (w : Work) :
    a.operate (.background (.work w)) = a.withSimulation (a.simulation.act (.work w)) := by
  cases w with
  | dispatch ticket =>
    cases haborted : a.visits.any (Visit.aborts ticket) with
    | false =>
      simp only [operate, Desk.Operation.isCall, Desk.Operation.stepOf?, haborted]
      rfl
    | true =>
      have hnone := h ticket haborted
      have hact : a.simulation.act (.work (.dispatch ticket)) = a.simulation := by
        simp only [Simulation.act, Simulation.work, hnone]
      have hdiscard : a.simulation.discard ticket = a.simulation := by
        have hkept : a.simulation.running.filter (fun r => r.ticket != ticket) =
            a.simulation.running := by
          rw [List.filter_eq_self]
          intro r hr
          have hne := Simulation.dispatchAt?_eq_none.mp hnone r.badge
            (Simulation.mem_badges.mpr ⟨r, hr, rfl⟩)
          exact bne_iff_ne.mpr hne
        rw [Simulation.discard, hkept]
      simp only [operate, Desk.Operation.isCall, Desk.Operation.stepOf?, haborted, hact]
      exact congrArg a.withSimulation hdiscard
  | _ => rfl

/-- Where no aborted dispatch is left, the background goes on as it does without calls. -/
theorem makeAll_background (h : a.Settled) (o : a.simulation.Orderly) (works : List Work) :
    let b := a.withSimulation (a.simulation.run (works.map .work))
    a.makeAll (background works) = b ∧ b.Settled := by
  induction works generalizing a with
  | nil => exact ⟨rfl, h⟩
  | cons w rest ih =>
    have hsettled : (a.withSimulation (a.simulation.act (.work w))).Settled := by
      intro ticket haborted
      have hsub := Simulation.badges_act (a := .work w) o rfl fun _ => ⟨nofun, nofun⟩
      have hnone := Simulation.dispatchAt?_eq_none.mp (h ticket haborted)
      exact Simulation.dispatchAt?_eq_none.mpr fun b hb => hnone b (hsub.subset hb)
    obtain ⟨hrest, hlast⟩ := ih hsettled (Simulation.orderly_act o (.work w))
    have hfirst : a.makeAll (background (w :: rest)) =
        (a.operate (.background (.work w))).makeAll (background rest) := rfl
    rw [hfirst, operate_work h, hrest]
    exact ⟨rfl, hlast⟩

theorem leave_only {v : Visit} (only : a.visits = [v]) : a.leave v = { a with visits := [] } := by
  rw [leave, only, List.erase_cons_head]

/-- A call that opens a campaign while no other call is made does what it does in one go. -/
theorem open_alone (alone : a.visits = []) {request : CampaignRequest} {owner : String}
    {opened : Campaign} {t : Desk}
    (answered : a.desk.openCampaign request owner = .ok (opened, t)) :
    ∃ recipients, a.makeAll [.openCampaign request owner, .resume (.opening opened.id recipients)] =
      { a with desk := t } := by
  rw [Desk.openCampaign_eq] at answered
  cases hopening : a.desk.opening request owner with
  | error e =>
    rw [hopening] at answered
    cases answered
  | ok found =>
    rw [hopening] at answered
    cases answered
    refine ⟨found.2.map Customer.id, ?_⟩
    simp only [makeAll, List.foldl_cons, List.foldl_nil, make, openCampaign, hopening, alone,
      List.nil_append, resume, List.contains_cons, BEq.rfl, Bool.true_or, if_true]
    exact leave_only rfl

/-- A call that waits while no other call is made does what a call to wait does in one go. -/
theorem wait_alone (h : a.Tidy) (timed : a.simulation.Timed) (alone : a.visits = [])
    {r : RunningDispatch} (present : a.simulation.registered? campaign = some r) :
    ∃ works,
      a.makeAll (.wait campaign :: background works ++ [.resume (.waiting campaign r.ticket)]) =
        { a with desk := a.desk.awaitDispatch campaign } := by
  let v : Visit := .waiting campaign r.ticket
  let b : Lobby :=
    { a.withSimulation (a.simulation.unregister campaign) with visits := [v] }
  have hwait : a.wait campaign = b := by
    simp only [wait, present, alone]
    rfl
  have htidy : b.Tidy := hwait ▸ tidy_wait h campaign
  have hsettled : b.Settled := by
    intro ticket haborted
    simp [b, v, Visit.aborts] at haborted
  have hregistered : a.simulation.isRegistered campaign = true := by
    rw [isRegistered_eq_isSome, present, Option.isSome_some]
  obtain ⟨⟨works, hworks, -⟩, hgone⟩ := timed.wait fun _ => hregistered
  have hrun := (makeAll_background hsettled htidy.orderly works).1
  have hafter : (b.makeAll (background works)).Tidy := tidy_makeAll htidy _
  have hend : b.simulation.run (works.map .work) = a.simulation.wait campaign := hworks.symm
  rw [hrun, hend] at hafter
  have hdue : (b.withSimulation (a.simulation.wait campaign)).isDue v = true := by
    refine isDue_iff.mpr ⟨List.mem_singleton.mpr rfl, campaign, r.ticket, rfl, ?_⟩
    rw [Simulation.dispatchAt?_eq_none]
    intro x hx hticket
    have htaken : (campaign, r.ticket) ∈ (b.withSimulation (a.simulation.wait campaign)).taken :=
      List.mem_singleton.mpr rfl
    have hbadge := hafter.sole _ htaken x hx (Or.inl hticket)
    obtain ⟨q, hq, rfl⟩ := Simulation.mem_badges.mp hx
    exact hgone q hq (congrArg Badge.campaign hbadge)
  refine ⟨works, ?_⟩
  rw [List.cons_append]
  change (a.wait campaign).makeAll (background works ++ [.resume v]) = _
  rw [hwait, makeAll_append, hrun, hend]
  change (b.withSimulation (a.simulation.wait campaign)).resume v = _
  rw [resume, if_pos hdue, leave_only rfl]
  exact congrArg (Lobby.mk _) alone.symm

/-- Between two calls, to abort a dispatch that has been taken off the register is to drop it. -/
theorem Tidy.discard_unregister (h : a.Tidy) (alone : a.visits = []) {r : RunningDispatch}
    (present : a.simulation.registered? campaign = some r) :
    (a.simulation.unregister campaign).discard r.ticket = a.simulation.drop campaign := by
  obtain ⟨hr, hbadge⟩ := Simulation.registered?_eq_some present
  have hcampaign : r.dispatch.campaign = campaign := congrArg Badge.campaign hbadge
  have hsame : ∀ q ∈ a.simulation.running,
      q.dispatch.campaign = campaign ↔ q.ticket = r.ticket := by
    intro q hq
    have hqin := Simulation.mem_badges.mpr ⟨q, hq, rfl⟩
    have hrin := Simulation.mem_badges.mpr ⟨r, hr, rfl⟩
    constructor
    · intro he
      exact congrArg Badge.ticket (h.badge_eq_of_campaign hqin hrin (he.trans hcampaign.symm))
    · intro he
      exact (congrArg Badge.campaign (h.badge_eq_of_ticket hqin hrin he)).trans hcampaign
  have hregistered : ∀ q ∈ a.simulation.running, q.registered = true := by
    intro q hq
    by_contra hoff
    have hfalse : q.badge.registered = false := Bool.eq_false_iff.mpr hoff
    have htaken := h.held q.badge (Simulation.mem_badges.mpr ⟨q, hq, rfl⟩) hfalse
    simp [taken, alone] at htaken
  simp only [Simulation.discard, Simulation.unregister, Simulation.drop, List.filter_map]
  congr 1
  have hkept : a.simulation.running.filter ((fun q => q.ticket != r.ticket) ∘ fun q =>
      if q.dispatch.campaign = campaign then { q with registered := false } else q) =
      a.simulation.running.filter fun q => !(q.registered && q.dispatch.campaign == campaign) := by
    refine List.filter_congr fun q hq => ?_
    rw [Function.comp_apply, hregistered q hq]
    by_cases he : q.dispatch.campaign = campaign
    · simp [he, (hsame q hq).mp he]
    · have hne : q.ticket ≠ r.ticket := fun ht => he ((hsame q hq).mpr ht)
      rw [if_neg he, bne_iff_ne.mpr hne, beq_eq_false_iff_ne.mpr he]
      rfl
  rw [hkept]
  refine (List.map_congr_left fun q hq => ?_).trans (List.map_id _)
  have hother := (List.mem_filter.mp hq).2
  rw [hregistered q (List.mem_filter.mp hq).1] at hother
  rw [if_neg (by simpa using hother), id]

/-- The dispatch that a call has aborted ends with its next step. -/
theorem abort_alone (h : a.Tidy) (alone : a.visits = []) {owner : String} {c : Campaign}
    (owned : a.desk.ownedCampaign campaign owner = .ok c) {r : RunningDispatch}
    (present : a.simulation.registered? campaign = some r) :
    let s := (a.simulation.act (.cancel campaign)).drop campaign
    let b : Lobby := { a.withSimulation s with visits := [.deleting campaign r.ticket] }
    (a.remove campaign owner).operate (.background (.work (.dispatch r.ticket))) = b ∧
      b.Tidy ∧ b.Settled := by
  intro s b
  let u := (a.simulation.act (.cancel campaign)).unregister campaign
  have htidy : (a.withSimulation (a.simulation.act (.cancel campaign))).Tidy :=
    h.act rfl fun _ => ⟨nofun, nofun⟩
  have hdiscard : u.discard r.ticket = s := htidy.discard_unregister alone present
  have hremove : a.remove campaign owner =
      { a.withSimulation u with visits := [.deleting campaign r.ticket] } := by
    simp only [remove, owned, present, alone]
    rfl
  have haborted : (a.remove campaign owner).operate (.background (.work (.dispatch r.ticket))) =
      b := by
    rw [hremove]
    simp only [b, ← hdiscard]
    simp [operate, Desk.Operation.isCall, Desk.Operation.stepOf?, Visit.aborts]
    rfl
  refine ⟨haborted, haborted ▸ tidy_operate (tidy_remove h campaign owner) _, ?_⟩
  intro ticket hany
  have hticket : r.ticket = ticket := by simpa [b, Visit.aborts] using hany
  rw [Simulation.dispatchAt?_eq_none, ← hticket]
  intro x hx
  have hleft : x ∈ (u.discard r.ticket).badges := hdiscard ▸ hx
  obtain ⟨q, hq, rfl⟩ := Simulation.mem_badges.mp hleft
  exact bne_iff_ne.mp (List.mem_filter.mp hq).2

/-- A call that deletes a campaign while no other call is made does what it does in one go. -/
theorem remove_alone (h : a.Tidy) (alone : a.visits = []) {owner : String} {n : Nat} {t : Desk}
    (answered : a.desk.removeCampaign campaign owner = .ok (n, t)) :
    ∃ moves, a.makeAll (.remove campaign owner :: moves) = { a with desk := t } := by
  obtain ⟨⟨c, howned⟩, hawaits, -, rfl⟩ := Desk.removeCampaign_eq answered
  have hregister : a.desk.simulation.isRegistered campaign =
      (a.simulation.registered? campaign).isSome := isRegistered_eq_isSome
  rw [hregister] at hawaits
  cases hpresent : a.simulation.registered? campaign with
  | none =>
    rw [hpresent, Option.isSome_none] at hawaits
    refine ⟨[], ?_⟩
    change a.remove campaign owner = _
    simp only [remove, howned, hpresent, Desk.meanwhile, hawaits]
    rfl
  | some r =>
    rw [hpresent, Option.isSome_some] at hawaits
    obtain ⟨haborted, htidy, hsettled⟩ := abort_alone h alone howned hpresent
    let v : Visit := .deleting campaign r.ticket
    let s := (a.simulation.act (.cancel campaign)).drop campaign
    let b : Lobby := { a.withSimulation s with visits := [v] }
    obtain ⟨works, hworks⟩ := htidy.orderly.worksTo_settle
    have hend : s.run (works.map .work) = s.settle := hworks.symm
    obtain ⟨hrun, hlast⟩ := makeAll_background hsettled htidy.orderly works
    have hdue : (b.withSimulation s.settle).isDue v = true := by
      have hended := hlast r.ticket (by simp [withSimulation, Visit.aborts])
      exact isDue_iff.mpr ⟨List.mem_singleton.mpr rfl, campaign, r.ticket, rfl, hend ▸ hended⟩
    refine ⟨.operate (.background (.work (.dispatch r.ticket))) :: background works ++
      [.resume v], ?_⟩
    rw [List.cons_append]
    change ((a.remove campaign owner).operate (.background (.work (.dispatch r.ticket)))).makeAll
      (background works ++ [.resume v]) = _
    rw [haborted, makeAll_append, hrun]
    change (b.withSimulation (s.run (works.map .work))).resume v = _
    rw [hend, resume, if_pos hdue, leave_only rfl]
    simp only [Desk.meanwhile, hawaits]
    exact congrArg (Lobby.mk _) alone.symm

/-! ## Overlapping calls -/

/-- In whatever order calls are made and go on, the register counts the dispatches that have not
ended but for those that keep a call waiting, and a call that has taken one answers when no dispatch
of the campaign is left. The register counts all of them, and every call that waits is answered
then only, exactly as long as no call is kept waiting. -/
theorem waits_are_truthful_iff {settings : Settings} {directory : Directory} {now : Instant}
    {start : Desk} (h : Desk.start settings directory now = .ok start) (moves : List Move) :
    let a := (ofDesk start).makeAll moves
    let running := a.simulation.running
    (a.simulation.active + a.keptWaiting = running.length ∧
      (running = [] → a.simulation.active = 0)) ∧
      (∀ campaign ticket, a.isDue (.waiting campaign ticket) = true →
        a.simulation.isRunning campaign = false) ∧
      (∀ campaign, a.simulation.registered? campaign = none →
        (a.simulation.isRunning campaign = false ↔ ∀ ticket, (campaign, ticket) ∈ a.taken →
          a.simulation.dispatchAt? ticket = none)) ∧
      ((∀ campaign m, a.Answers campaign m → a.simulation.isRunning campaign = false) ↔
        a.keptWaiting = 0) ∧
      (a.simulation.active = running.length ↔ a.keptWaiting = 0) := by
  intro a running
  have htidy : a.Tidy := tidy_makeAll (tidy_start h) moves
  have hcount : a.simulation.active + a.keptWaiting = running.length := htidy.active_add_keptWaiting
  refine ⟨⟨hcount, ?_⟩, fun _ _ => htidy.isRunning_of_due,
    fun _ => htidy.isRunning_of_unregistered, htidy.answers_iff, by omega⟩
  intro none_left
  rw [none_left, List.length_nil] at hcount
  omega

/-- The second of two calls that wait for the same dispatch is answered before it has begun. -/
theorem second_wait_answers_early :
    let customer : Customer :=
      ⟨"cust-00", "Customer 0", none, true, .empty, ⟨none, none, none⟩, ⟨none⟩, []⟩
    let settings : Settings := ⟨"node", .default, Sample.settings 1⟩
    let start : Desk := ⟨.start (.ofList [customer]) .default, .ofState (Sample.delivery 1)⟩
    let segment : SegmentRequest :=
      ⟨"Active", none, .and, [.make "is_active" "==" (.bool true)]⟩
    let moves : List Move := [.operate (.defineSegment segment "ana"),
      .openCampaign ⟨"Sale", some (.fresh 0), some ⟨"Hi", "Sale"⟩⟩ "ana",
      .resume (.opening (.fresh 1) ["cust-00"]), .wait (.fresh 1)]
    let a := (ofDesk start).makeAll moves
    Desk.start settings (.ofList [customer]) ⟨0, 0⟩ = .ok start ∧
      a.visits = [.waiting (.fresh 1) 0] ∧ a.Answers (.fresh 1) (.wait (.fresh 1)) ∧
      a.simulation.isRunning (.fresh 1) = true ∧ a.simulation.running.length = 1 ∧
      a.simulation.active = 0 ∧ a.keptWaiting = 1 := by
  intro customer settings start segment moves a
  have hstart : Desk.start settings (.ofList [customer]) ⟨0, 0⟩ = .ok start :=
    Sample.start_desk [customer]
  obtain ⟨⟨hcount, -⟩, -, truthful, -, -⟩ := waits_are_truthful_iff hstart moves
  have hvisits : a.visits = [.waiting (.fresh 1) 0] := by decide +kernel
  have hactive : a.simulation.active = 0 := by decide +kernel
  have hrunning : a.simulation.running.length = 1 := by decide +kernel
  have unregistered : a.simulation.registered? (.fresh 1) = none :=
    Option.isNone_iff_eq_none.mp (by decide +kernel)
  have under_way : (a.simulation.dispatchAt? 0).isSome = true := by decide +kernel
  have hleft : a.simulation.isRunning (.fresh 1) = true := by
    rw [← Bool.not_eq_false, truthful (.fresh 1) unregistered]
    intro ended
    have hnone := ended 0 (by rw [taken, hvisits]; exact List.mem_singleton.mpr rfl)
    rw [hnone] at under_way
    cases under_way
  refine ⟨hstart, hvisits, .at_once unregistered, hleft, hrunning, hactive, ?_⟩
  rw [hactive, hrunning] at hcount
  exact (Nat.zero_add _).symm.trans hcount

end Outreach.Lobby

import Outreach.Proofs.Delivery.Interleaving

/-!
# Recounts side by side with a dispatch

Where other calls come between those of a recount, the statistics that it has fetched may be out of
date when it replaces them. As long as the dispatch of the campaign is on its way, no harm is done,
since its last call replaces them once more. A recount that has fetched the campaign before that
call and keeps its statistics afterwards puts back a campaign without any failure, and with as many
recipients as it had then.
-/

namespace Outreach

/-! ## While the dispatch is on its way -/

/-- What the recount has seen of a campaign is from before its dispatch has counted any failure, and
when no more messages were sent than now. -/
def Recount.Early (sent : Nat) : Recount → Prop
  | counting c => c.stats.failed = 0
  | keeping stats => stats.failed = 0 ∧ stats.sent ≤ sent
  | _ => True

theorem Recount.Early.mono {r : Recount} {sent more : Nat} (h : r.Early sent)
    (grown : sent ≤ more) : r.Early more := by
  cases r with
  | keeping stats => exact ⟨h.1, Nat.le_trans h.2 grown⟩
  | fetching | counting | ended => exact h

namespace Simulation

variable {s : Simulation} {campaign : Uuid} {ticket : Nat} {deeds : List Deed}

/-- The records of a campaign and its dispatch have nothing to do with what is stored of it. -/
theorem Booked.of_book (h : s.Booked campaign ticket deeds) (book : CampaignBook) :
    Booked { s with state := { s.state with campaigns := book } } campaign ticket deeds :=
  ⟨h.drawn, h.only, h.records, h.named, h.distinct⟩

theorem Orderly.of_book (h : s.Orderly) (book : CampaignBook) :
    Orderly { s with state := { s.state with campaigns := book } } :=
  h.of_state h.agenda (Nat.le_refl _) rfl (Nat.le_refl _)

end Simulation

namespace Contended

variable {s : Contended} {campaign : Uuid} {recipients : List String} {now : Instant}
  {turn ticket : Nat} {deeds : List Deed} {d : Dispatch}

/-- The dispatch of the campaign is on its way, and nobody knows of a failure yet. -/
structure Awaits (s : Contended) (campaign : Uuid) (recipients : List String) (now : Instant)
    (turn ticket : Nat) (deeds : List Deed) (d : Dispatch) : Prop where
  orderly : s.simulation.Orderly
  holds : s.simulation.Holds ticket d
  running : d.isEnded = false
  reached : Reached (.start campaign recipients now turn) deeds d
  carries : s.simulation.Carries campaign recipients.length ticket deeds
  early : ∀ r ∈ s.recounts, r.Early (Deed.sent deeds)

/-- The dispatch has ended, or somebody has aborted it. -/
def Gone (s : Contended) (ticket : Nat) : Prop :=
  ∃ d : Dispatch, d.isEnded = true ∧ s.simulation.Holds ticket d

theorem Gone.move (h : s.Gone ticket) (campaign : Uuid) (m : Move) :
    (s.move campaign m).Gone ticket := by
  obtain ⟨d, ended, holds⟩ := h
  cases m with
  | other a =>
    obtain ⟨d', holds', followed⟩ := Simulation.followed_act holds (a := a) (Or.inl ended)
    exact ⟨d', (followed.of_ended ended).1, holds'⟩
  | recount place =>
    rcases s.move_recount_cases campaign place with hsame | ⟨r, next, state, _, step, hmove⟩
    · rw [hsame]
      exact ⟨d, ended, holds⟩
    · obtain ⟨book, rfl⟩ := step.book
      rw [hmove]
      exact ⟨d, ended, holds.of_state (Nat.le_refl _)⟩

theorem Gone.run (h : s.Gone ticket) (campaign : Uuid) (moves : List Move) :
    (s.run campaign moves).Gone ticket := by
  induction moves generalizing s with
  | nil => exact h
  | cons m rest ih => exact ih (h.move campaign m)

/-- A dispatch on its way takes a step, is left alone, or is gone. -/
theorem Awaits.followed (h : s.Awaits campaign recipients now turn ticket deeds d) (a : Action) :
    (s.move campaign (.other a)).Gone ticket ∨
      ∃ d', d'.isEnded = false ∧ (s.simulation.act a).Holds ticket d' ∧
        Reached (.start campaign recipients now turn)
          (deeds ++ (s.simulation.deedOf? ticket a).toList) d' := by
  by_cases hdrop : a = .drop d.campaign
  · have hdeed : s.simulation.deedOf? ticket a = none := by
      rw [hdrop]
      exact Simulation.deedOf?_of_isStepOf rfl
    have hact : s.simulation.act a = s.simulation.drop d.campaign := by rw [hdrop]; rfl
    rcases Simulation.holds_drop h.orderly h.holds d.campaign with hstays | ⟨gone, ended, hgone⟩
    · right
      refine ⟨d, h.running, by rwa [hact], ?_⟩
      rw [hdeed, Option.toList_none, List.append_nil]
      exact h.reached
    · refine Or.inl ⟨gone, ended, ?_⟩
      change (s.simulation.act a).Holds ticket gone
      rwa [hact]
  · obtain ⟨d', holds, followed⟩ := Simulation.followed_act h.holds (Or.inr hdrop)
    cases hended : d'.isEnded with
    | true => exact Or.inl ⟨d', hended, holds⟩
    | false => exact Or.inr ⟨d', hended, holds, followed.reached h.reached⟩

theorem Awaits.move_other (h : s.Awaits campaign recipients now turn ticket deeds d) {a : Action}
    (leaves : a.Leaves campaign) :
    (s.move campaign (.other a)).Gone ticket ∨
      ∃ deeds' d', (s.move campaign (.other a)).Awaits campaign recipients now turn ticket
        deeds' d' := by
  rcases h.followed a with hgone | ⟨d', running, holds, reached⟩
  · exact Or.inl hgone
  · refine Or.inr ⟨_, d', Simulation.orderly_act h.orderly a, holds, running, reached,
      Simulation.carries_act h.orderly h.carries leaves reached, ?_⟩
    intro r hr
    exact (h.early r hr).mono (Deed.sent_le_append _ _)

/-- A recount that is kept while the dispatch is on its way brings no failure. -/
theorem Awaits.carries_step (h : s.Awaits campaign recipients now turn ticket deeds d)
    {r next : Recount} {state : DeliveryState} (present : r ∈ s.recounts)
    (step : s.simulation.state.RecountStep campaign r next state) :
    Simulation.Carries { s.simulation with state } campaign recipients.length ticket deeds := by
  have hearly := h.early r present
  have hstored : ∀ c, state.campaigns.get? campaign = some c →
      c.Carries recipients.length deeds (s.simulation.stages campaign) := by
    intro c hc
    obtain ⟨b, hb, hstatus, hsame | rfl⟩ := step.of_get? hc
    · exact (h.carries.stored b hb).of_same hstatus hsame (.refl _)
    · have hrunning := (h.carries.not_completed h.reached rfl h.running hb).1
      exact ⟨fun _ => hearly.1, fun completed => absurd (hstatus.symm.trans completed) hrunning⟩
  obtain ⟨book, rfl⟩ := step.book
  exact { h.carries.toBooked.of_book book with seen := h.carries.seen, stored := hstored }

/-- What a recount fetches and finds while the dispatch is on its way is early. -/
theorem Awaits.early_step (h : s.Awaits campaign recipients now turn ticket deeds d)
    {r next : Recount} {state : DeliveryState} (present : r ∈ s.recounts)
    (step : s.simulation.state.RecountStep campaign r next state) :
    next.Early (Deed.sent deeds) := by
  have hearly := h.early r present
  cases step with
  | fetched c hc => exact (h.carries.not_completed h.reached rfl h.running hc).2
  | counted c =>
    refine ⟨hearly, Nat.le_of_eq ?_⟩
    rw [CampaignStats.sent_refreshed]
    exact h.carries.countP_sent
  | kept | stopped => trivial

theorem Awaits.move_recount (h : s.Awaits campaign recipients now turn ticket deeds d)
    (place : Nat) :
    (s.move campaign (.recount place)).Awaits campaign recipients now turn ticket deeds d := by
  rcases s.move_recount_cases campaign place with hsame | ⟨r, next, state, hr, step, hmove⟩
  · rw [hsame]
    exact h
  · have hmem := List.mem_of_getElem? hr
    have hcarries := h.carries_step hmem step
    have hearly := h.early_step hmem step
    obtain ⟨book, rfl⟩ := step.book
    rw [hmove]
    refine ⟨h.orderly.of_book book, h.holds.of_state (Nat.le_refl _), h.running, h.reached,
      hcarries, ?_⟩
    intro q hq
    rcases List.mem_or_eq_of_mem_set hq with hold | rfl
    · exact h.early q hold
    · exact hearly

theorem Awaits.run (h : s.Awaits campaign recipients now turn ticket deeds d) (moves : List Move)
    (leaves : ∀ m ∈ moves, m.Leaves campaign) :
    (s.run campaign moves).Gone ticket ∨
      ∃ deeds' d', (s.run campaign moves).Awaits campaign recipients now turn ticket
        deeds' d' := by
  induction moves generalizing s deeds d with
  | nil => exact Or.inr ⟨deeds, d, h⟩
  | cons m rest ih =>
    have hrest : ∀ m ∈ rest, m.Leaves campaign := fun n hn => leaves n (List.mem_cons_of_mem m hn)
    cases m with
    | other a =>
      rcases h.move_other (leaves _ List.mem_cons_self) with hgone | ⟨_, _, hmoved⟩
      · exact Or.inl (hgone.run campaign rest)
      · exact ih hmoved hrest
    | recount place => exact ih (h.move_recount place) hrest

theorem awaits_begin {s : Simulation} (o : s.Orderly)
    (alone : ∀ r ∈ s.running, r.dispatch.campaign ≠ campaign)
    (unlogged : s.state.records.find (.campaign campaign) = [])
    (uncounted : ∀ c, s.state.campaigns.get? campaign = some c →
      c.status ≠ .completed ∧ c.stats.failed = 0) (recipients : List String) (count : Nat) :
    Awaits ⟨s.act (.begin campaign recipients), .replicate count .fetching⟩ campaign recipients
      s.now s.state.turns s.state.agenda.nextTicket [] (.start campaign recipients s.now
        s.state.turns) where
  orderly := Simulation.orderly_act o (.begin campaign recipients)
  holds := Simulation.holds_begin o campaign recipients
  running := rfl
  reached := .start
  carries := Simulation.carries_begin o alone unlogged uncounted recipients
  early := by
    intro r hr
    rw [List.eq_of_mem_replicate hr]
    trivial

end Contended

/-! ## After the campaign is completed -/

namespace CampaignStats

/-- Each of so many recipients has a message that was sent or has failed. -/
structure Accounts (stats : CampaignStats) (total : Nat) : Prop where
  recipients : stats.totalRecipients = total
  all : stats.sent + stats.failed = total

/-- The statistics show so many recipients and what has become of their messages. -/
structure Shows (stats : CampaignStats) (total : Nat) (tally : Tally) : Prop where
  recipients : stats.totalRecipients = total
  sent : stats.sent = tally.sent
  failed : stats.failed = tally.failed

variable {stats : CampaignStats} {total : Nat} {tally : Tally} {records : List MessageRecord}

theorem Shows.accounts (h : stats.Shows total tally) (all : tally.attempted = total) :
    stats.Accounts total :=
  ⟨h.recipients, by rw [h.sent, h.failed]; exact all⟩

theorem Shows.refreshed (h : stats.Shows total tally)
    (sent : records.countP (fun r => decide (r.status ≠ .failed)) = tally.sent) :
    (stats.refreshed records).Shows total tally :=
  ⟨h.recipients, (sent_refreshed stats records).trans sent, h.failed⟩

/-- Statistics that are refreshed later show the same where the messages sent are still the same. -/
theorem Shows.recounted {old : List MessageRecord} (h : (stats.refreshed old).Shows total tally)
    (sent : records.countP (fun r => decide (r.status ≠ .failed)) = tally.sent) :
    (stats.refreshed records).Shows total tally :=
  ⟨h.recipients, (sent_refreshed stats records).trans sent, h.failed⟩

end CampaignStats

/-- What the steps of a history have sent and failed to send. -/
def Deed.tally (deeds : List Deed) : Tally :=
  ⟨Deed.sent deeds, Deed.failed deeds⟩

/-- An early recount knows of no failure. If what it keeps accounts for everybody all the same, then
no message has failed. -/
theorem Recount.Early.toKeep? {r : Recount} {sent total : Nat} {tally : Tally}
    {records : List MessageRecord} {kept : CampaignStats} (h : r.Early sent)
    (grown : sent ≤ tally.sent) (all : tally.attempted = total)
    (found : records.countP (fun r => decide (r.status ≠ .failed)) = tally.sent)
    (keeps : r.toKeep? records = some kept) :
    kept.failed = 0 ∧ (kept.Accounts total → kept.Shows total tally) := by
  have hnone : kept.failed = 0 ∧ kept.sent ≤ tally.sent := by
    cases r with
    | counting c =>
      cases keeps
      exact ⟨h, Nat.le_of_eq ((CampaignStats.sent_refreshed _ _).trans found)⟩
    | keeping stats =>
      cases keeps
      exact ⟨h.1, Nat.le_trans h.2 grown⟩
    | fetching | ended => cases keeps
  refine ⟨hnone.1, fun accounts => ?_⟩
  have hall := accounts.all
  rw [Tally.attempted] at all
  exact ⟨accounts.recipients, by omega, by omega⟩

namespace Contended

variable {s : Contended} {campaign : Uuid} {recipients : List String} {now : Instant}
  {turn ticket total : Nat} {deeds : List Deed} {d : Dispatch}

/-- The dispatch of a campaign has ended, and what it has counted is what the campaign shows and
what every recount will keep. -/
structure Rests (s : Contended) (campaign : Uuid) (total ticket : Nat) (deeds : List Deed) :
    Prop where
  orderly : s.simulation.Orderly
  gone : ∀ r ∈ s.simulation.running, r.dispatch.campaign ≠ campaign
  booked : s.simulation.Booked campaign ticket deeds
  shown : ∀ c, s.stored? campaign = some c → c.stats.Shows total (Deed.tally deeds)
  pending : ∀ r ∈ s.recounts, ∀ kept, r.toKeep? (s.records campaign) = some kept →
    kept.Shows total (Deed.tally deeds)

theorem Rests.move_other (h : s.Rests campaign total ticket deeds) {a : Action}
    (leaves : a.Leaves campaign) :
    (s.move campaign (.other a)).Rests campaign total ticket deeds := by
  have hidle := h.booked.deedOf?_of_gone h.gone a
  have hbooked := Simulation.booked_act h.orderly h.booked (Action.single_of_leaves leaves)
  rw [hidle, Option.toList_none, List.append_nil] at hbooked
  have hgone := Simulation.gone_act h.gone (Action.single_of_leaves leaves)
  refine ⟨Simulation.orderly_act h.orderly a, hgone, hbooked, ?_, ?_⟩
  · intro c hc
    obtain ⟨b, hb, -, hsame | hrecount⟩ := h.booked.keeps_act leaves hidle c hc
    · rw [hsame]
      exact h.shown b hb
    · rw [hrecount]
      exact (h.shown b hb).refreshed h.booked.countP_sent
  · intro r hr kept keeps
    cases r with
    | counting c =>
      cases keeps
      exact (h.pending _ hr _ rfl).recounted hbooked.countP_sent
    | keeping stats => exact h.pending _ hr kept keeps
    | fetching | ended => cases keeps

theorem Rests.move_recount (h : s.Rests campaign total ticket deeds) (place : Nat) :
    (s.move campaign (.recount place)).Rests campaign total ticket deeds := by
  rcases s.move_recount_cases campaign place with hsame | ⟨r, next, state, hr, step, hmove⟩
  · rw [hsame]
    exact h
  · have hmem := List.mem_of_getElem? hr
    have hshown : ∀ c, state.campaigns.get? campaign = some c →
        c.stats.Shows total (Deed.tally deeds) := by
      intro c hc
      obtain ⟨b, hb, -, hsame | rfl⟩ := step.of_get? hc
      · rw [hsame]
        exact h.shown b hb
      · exact h.pending _ hmem _ rfl
    have hnext : ∀ kept, next.toKeep? (s.records campaign) = some kept →
        kept.Shows total (Deed.tally deeds) := by
      intro kept keeps
      cases step with
      | fetched c hc =>
        cases keeps
        exact (h.shown c hc).refreshed h.booked.countP_sent
      | counted c => exact h.pending _ hmem kept keeps
      | kept | stopped => cases keeps
    obtain ⟨book, rfl⟩ := step.book
    rw [hmove]
    refine ⟨h.orderly.of_book book, h.gone, h.booked.of_book book, hshown, ?_⟩
    intro q hq
    rcases List.mem_or_eq_of_mem_set hq with hold | rfl
    · exact h.pending q hold
    · exact hnext

theorem Rests.run (h : s.Rests campaign total ticket deeds) (moves : List Move)
    (leaves : ∀ m ∈ moves, m.Leaves campaign) :
    (s.run campaign moves).Rests campaign total ticket deeds := by
  induction moves generalizing s with
  | nil => exact h
  | cons m rest ih =>
    have hrest : ∀ m ∈ rest, m.Leaves campaign := fun n hn => leaves n (List.mem_cons_of_mem m hn)
    cases m with
    | other a => exact ih (h.move_other (leaves _ List.mem_cons_self)) hrest
    | recount place => exact ih (h.move_recount place) hrest

/-! ## The call that completes the campaign -/

/-- Where a dispatch on its way completes the campaign, it has tried everybody, and the campaign
shows what it has counted. -/
theorem Awaits.completes (h : s.Awaits campaign recipients now turn ticket deeds d) {c : Campaign}
    (present : (s.move campaign (.other (.work (.dispatch ticket)))).stored? campaign = some c)
    (completed : c.status = .completed) :
    ∃ deeds', Deed.sent deeds ≤ Deed.sent deeds' ∧
      (Deed.tally deeds').attempted = recipients.length ∧
      c.stats.Shows recipients.length (Deed.tally deeds') ∧
      (s.move campaign (.other (.work (.dispatch ticket)))).simulation.Booked campaign ticket
        deeds' ∧
      ∀ r ∈ (s.move campaign (.other (.work (.dispatch ticket)))).simulation.running,
        r.dispatch.campaign ≠ campaign := by
  obtain ⟨d', holds, followed⟩ := Simulation.followed_act h.holds (a := .work (.dispatch ticket))
    (Or.inr (by rintro ⟨⟩))
  have reached := followed.reached h.reached
  have leaves : Action.Leaves campaign (.work (.dispatch ticket)) := trivial
  have carries := Simulation.carries_act h.orderly h.carries leaves reached
  obtain ⟨found, shown, ended, hstats, -⟩ := (carries.stored c present).finished completed
  have hsettled := (reached.settled ended).2.1
  refine ⟨_, Deed.sent_le_append _ _, hsettled, ?_, carries.toBooked, ?_⟩
  · rw [hstats]
    exact ⟨rfl, rfl, rfl⟩
  · intro r hr hcampaign
    have hticket := (carries.only r hr).mp hcampaign
    have hpresent := (Simulation.orderly_act h.orderly _).dispatchAt?_of_mem hr
    rw [hticket] at hpresent
    have hrunning := (holds.running hpresent).1
    rw [reached.end? rfl] at ended
    simp [Dispatch.isEnded, d'.phase_of_end? ended] at hrunning

/-- A dispatch that is gone takes no step. -/
theorem Gone.move_dispatch (h : s.Gone ticket) (campaign : Uuid) :
    s.move campaign (.other (.work (.dispatch ticket))) = s := by
  obtain ⟨d, ended, holds⟩ := h
  have hfound := holds.found
  rw [if_pos ended, Option.map_eq_none_iff] at hfound
  simp only [Contended.move, Simulation.act, Simulation.work, hfound]

end Contended

namespace Simulation

open Contended

/-- When the dispatch completes the campaign, the campaign accounts for all recipients, and no
recount that is on its way knows of a failure. The campaign accounts for all recipients whenever all
recounts have ended, whatever happens until then, exactly if each recount that has fetched the
campaign already would keep statistics that account for all recipients as well. -/
theorem completion_outlasts_recounts_iff {s : Simulation} (reachable : s.Reachable)
    (campaign : Uuid) (recipients : List String) (count : Nat) (moves : List Move)
    (alone : ∀ r ∈ s.running, r.dispatch.campaign ≠ campaign)
    (unlogged : s.state.records.find (.campaign campaign) = [])
    (uncounted : ∀ c, s.state.campaigns.get? campaign = some c →
      c.status ≠ .completed ∧ c.stats.failed = 0)
    (leaves : ∀ m ∈ moves, m.Leaves campaign) :
    let begun : Contended := ⟨s.act (.begin campaign recipients), .replicate count .fetching⟩
    let t := begun.run campaign moves
    let u := t.move campaign (.other (.work (.dispatch s.state.agenda.nextTicket)))
    let pending := fun kept => ∃ r ∈ u.recounts, r.toKeep? (u.records campaign) = some kept
    ∀ c, (∀ b, t.stored? campaign = some b → b.status ≠ .completed) →
      u.stored? campaign = some c → c.status = .completed →
      c.stats.Accounts recipients.length ∧ (∀ kept, pending kept → kept.failed = 0) ∧
      ((∀ later, (∀ m ∈ later, m.Leaves campaign) → (u.run campaign later).Settled →
          ∀ d, (u.run campaign later).stored? campaign = some d → d.status = .completed →
            d.stats.Accounts recipients.length) ↔
        ∀ kept, pending kept → kept.Accounts recipients.length) := by
  intro begun t u pending c unfinished present completed
  have begins := awaits_begin reachable.orderly alone unlogged uncounted recipients count
  rcases begins.run moves leaves with hgone | ⟨deeds, d, awaits⟩
  · -- nobody else completes a campaign
    exfalso
    have hsame : u = t := hgone.move_dispatch campaign
    rw [hsame] at present
    exact unfinished c present completed
  obtain ⟨deeds', grown, all, shown, booked, gone⟩ := awaits.completes present completed
  have hpending : ∀ kept, pending kept → kept.failed = 0 ∧
      (kept.Accounts recipients.length → kept.Shows recipients.length (Deed.tally deeds')) := by
    rintro kept ⟨r, hr, keeps⟩
    exact (awaits.early r hr).toKeep? grown all booked.countP_sent keeps
  refine ⟨shown.accounts all, fun kept hkept => (hpending kept hkept).1, ?_, ?_⟩
  · rintro always kept ⟨r, hr, keeps⟩
    obtain ⟨later, hlater, settled, d, hd, hcompleted, rfl⟩ :=
      exists_last_word ⟨c, present, completed⟩ hr keeps
    exact always later hlater settled d hd hcompleted
  · intro harmless later hlater settled d hd _
    have rests : u.Rests campaign recipients.length s.state.agenda.nextTicket deeds' := by
      refine ⟨orderly_act awaits.orderly (.work (.dispatch _)), gone, booked, ?_, ?_⟩
      · intro b hb
        obtain rfl : c = b := Option.some.inj (present.symm.trans hb)
        exact shown
      · intro r hr kept keeps
        exact (hpending kept ⟨r, hr, keeps⟩).2 (harmless kept ⟨r, hr, keeps⟩)
    exact ((rests.run later hlater).shown d hd).accounts all

/-- The only message fails. A recount has fetched the campaign before that, and keeps its statistics
when the campaign is completed. The message is then neither sent nor failed. -/
theorem stale_recount_undoes_completion :
    let start : DeliveryState :=
      { Sample.delivery 1 with settings := { Sample.settings 1 with sendSuccessRate := 0.0 } }
    let s := (ofState start).run [.enter Sample.campaign]
    let step : Move := .other (.work (.dispatch 0))
    let begun : Contended := ⟨s.act (.begin .nil ["a"]), .replicate 1 .fetching⟩
    let u := (begun.run .nil [step, .recount 0, step, step]).move .nil step
    ∃ c, u.stored? .nil = some c ∧ c.status = .completed ∧ c.stats.Accounts 1 ∧
      ∃ later, (∀ m ∈ later, m.Leaves .nil) ∧ (u.run .nil later).Settled ∧
        ∃ d, (u.run .nil later).stored? .nil = some d ∧ d.status = .completed ∧
          ¬ d.stats.Accounts 1 := by
  intro start s step begun u
  have hidle : start.Idle := ⟨rfl, List.nodup_nil, by rintro n ⟨⟩⟩
  have reachable : s.Reachable := ⟨start, hidle, _, rfl⟩
  have alone : ∀ r ∈ s.running, r.dispatch.campaign ≠ .nil := fun r hr => by cases hr
  have uncounted : ∀ c, s.state.campaigns.get? .nil = some c →
      c.status ≠ .completed ∧ c.stats.failed = 0 := by
    have hstored : s.state.campaigns.get? .nil = some Sample.campaign :=
      CampaignBook.get?_insert_self _ _
    intro c hc
    cases hstored.symm.trans hc
    exact ⟨by decide, rfl⟩
  have leaves : ∀ m ∈ [step, .recount 0, step, step], m.Leaves .nil := by
    simp [step, Move.Leaves, Action.Leaves]
  obtain ⟨hbefore, hafter, hkept⟩ :
      ((begun.run .nil [step, .recount 0, step, step]).stored? .nil).map Campaign.status =
        some .processing ∧
      (u.stored? .nil).map Campaign.status = some .completed ∧
      u.recounts.map (fun r => (r.toKeep? (u.records .nil)).map CampaignStats.sent) =
        [some 0] := by decide +kernel
  obtain ⟨c, present, completed⟩ := Option.map_eq_some_iff.mp hafter
  have unfinished : ∀ b, (begun.run .nil [step, .recount 0, step, step]).stored? .nil = some b →
      b.status ≠ .completed := by
    intro b hb
    rw [hb, Option.map_some, Option.some.injEq] at hbefore
    rw [hbefore]
    decide
  obtain ⟨accounts, unaware, law⟩ := completion_outlasts_recounts_iff reachable .nil ["a"] 1
    [step, .recount 0, step, step] alone rfl uncounted leaves c unfinished present completed
  refine ⟨c, present, completed, accounts, ?_⟩
  by_contra hnever
  obtain ⟨r, hr, hsent⟩ := List.mem_map.mp (hkept ▸ List.mem_cons_self)
  obtain ⟨kept, keeps, hnone⟩ := Option.map_eq_some_iff.mp hsent
  have hall := law.mp (fun later hlater settled d hd hcompleted => by
    by_contra hwrong
    exact hnever ⟨later, hlater, settled, d, hd, hcompleted, hwrong⟩) kept ⟨r, hr, keeps⟩
  have hsum := hall.all
  rw [hnone, unaware kept ⟨r, hr, keeps⟩] at hsum
  cases hsum

end Simulation

end Outreach

import Outreach.Proofs.Delivery.Recounts

/-!
# Recounts that take their time

A recount makes three calls. It fetches the campaign, finds the records, and replaces the statistics
of the campaign by what it has made of the two. Anything may happen between these calls, steps of
other recounts included. Undisturbed, the three calls are the recount of a delivery. Each recount
can be brought to its end, and any of them can be made the last to keep what it has found.
-/

namespace Outreach

/-- A recount on its way, which asks the books one thing at a time. -/
inductive Recount
  /-- About to fetch the campaign. -/
  | fetching
  /-- About to find the records of a campaign as it was fetched. -/
  | counting (campaign : Campaign)
  /-- About to keep the statistics. -/
  | keeping (stats : CampaignStats)
  | ended (answer : Answer CampaignStats)

namespace Recount

/-- How many calls the recount makes before it ends, if all are answered. -/
def stepsLeft : Recount → Nat
  | fetching => 3
  | counting _ => 2
  | keeping _ => 1
  | ended _ => 0

theorem stepsLeft_le (r : Recount) : r.stepsLeft ≤ 3 := by
  cases r <;> simp [stepsLeft]

/-- What the recount is about to keep where these are the records. -/
def toKeep? (records : List MessageRecord) : Recount → Option CampaignStats
  | counting c => some (c.stats.refreshed records)
  | keeping stats => some stats
  | _ => none

theorem stepsLeft_of_toKeep? {records : List MessageRecord} {r : Recount} {kept : CampaignStats}
    (h : r.toKeep? records = some kept) : 0 < r.stepsLeft := by
  cases r with
  | counting c => exact Nat.two_pos
  | keeping stats => exact Nat.one_pos
  | fetching | ended => cases h

end Recount

namespace DeliveryState

variable {s t : DeliveryState} {id : Uuid} {r next : Recount}

/-- The next step of a recount, which makes at most one call to a book. -/
def stepRecount (s : DeliveryState) (id : Uuid) : Recount → Recount × DeliveryState
  | .fetching =>
    match s.fetchCampaign id with
    | .ok (some c) => (.counting c, s)
    | .ok none => (.ended (.error (.campaignNotFound id)), s)
    | .error e => (.ended (.error e), s)
  | .counting c =>
    match s.findRecords (.campaign id) with
    | .ok records => (.keeping (c.stats.refreshed records), s)
    | .error e => (.ended (.error e), s)
  | .keeping stats =>
    match s.setStats id stats with
    | .ok s => (.ended (.ok stats), s)
    | .error e => (.ended (.error e), s)
  | .ended answer => (.ended answer, s)

/-- A recount takes some steps and nothing comes between them. -/
def stepsRecount (s : DeliveryState) (id : Uuid) : Nat → Recount → Recount × DeliveryState
  | 0, r => (r, s)
  | n + 1, r => (s.stepRecount id r).2.stepsRecount id n (s.stepRecount id r).1

/-- Undisturbed, the steps of a recount are the recount. -/
theorem stepsRecount_eq (s : DeliveryState) (id : Uuid) :
    s.stepsRecount id 3 .fetching =
      match s.recompute id with
      | .ok (stats, t) => (.ended (.ok stats), t)
      | .error e => (.ended (.error e), s) := by
  simp only [recompute, bind, Except.bind, pure, Except.pure]
  cases hfetch : s.fetchCampaign id with
  | error e => simp only [stepsRecount, stepRecount, hfetch]
  | ok found =>
    cases found with
    | none => simp only [stepsRecount, stepRecount, hfetch, throw, throwThe, MonadExceptOf.throw]
    | some c =>
      cases hfind : s.findRecords (.campaign id) with
      | error e => simp only [stepsRecount, stepRecount, hfetch, hfind]
      | ok records =>
        cases hkeep : s.setStats id (c.stats.refreshed records) with
        | error e => simp only [stepsRecount, stepRecount, hfetch, hfind, hkeep]
        | ok t => simp only [stepsRecount, stepRecount, hfetch, hfind, hkeep]

/-- What a step of a recount does. -/
inductive RecountStep (s : DeliveryState) (id : Uuid) : Recount → Recount → DeliveryState → Prop
  | fetched (c : Campaign) (present : s.campaigns.get? id = some c) :
      RecountStep s id .fetching (.counting c) s
  | counted (c : Campaign) :
      RecountStep s id (.counting c)
        (.keeping (c.stats.refreshed (s.records.find (.campaign id)))) s
  | kept (stats : CampaignStats) (book : CampaignBook)
      (answered : s.campaigns.setStats id stats s.now = .ok book) :
      RecountStep s id (.keeping stats) (.ended (.ok stats)) { s with campaigns := book }
  /-- A call was refused, or the recount has ended before. -/
  | stopped (r : Recount) (answer : Answer CampaignStats) :
      RecountStep s id r (.ended answer) s

theorem stepRecount_spec (s : DeliveryState) (id : Uuid) (r : Recount) :
    s.RecountStep id r (s.stepRecount id r).1 (s.stepRecount id r).2 := by
  cases r with
  | fetching =>
    simp only [stepRecount]
    split
    · rename_i c hfetch
      exact .fetched c (fetchCampaign_ok hfetch)
    · exact .stopped _ _
    · exact .stopped _ _
  | counting c =>
    simp only [stepRecount]
    split
    · rename_i records hfind
      rw [findRecords_ok hfind]
      exact .counted c
    · exact .stopped _ _
  | keeping stats =>
    simp only [stepRecount]
    split
    · rename_i t hkeep
      obtain ⟨book, hbook, rfl⟩ := setStats_ok hkeep
      exact .kept stats book hbook
    · exact .stopped _ _
  | ended answer => exact .stopped _ _

theorem RecountStep.book (h : s.RecountStep id r next t) :
    ∃ book, t = { s with campaigns := book } := by
  cases h with
  | kept stats book _ => exact ⟨book, rfl⟩
  | fetched | counted | stopped => exact ⟨s.campaigns, rfl⟩

theorem RecountStep.stepsLeft_le (h : s.RecountStep id r next t) :
    next.stepsLeft ≤ r.stepsLeft - 1 := by
  cases h with
  | fetched | counted | kept => exact Nat.le_refl _
  | stopped => exact Nat.zero_le _

/-- A recount leaves the status of a campaign. -/
theorem RecountStep.get? (h : s.RecountStep id r next t) {b : Campaign}
    (present : s.campaigns.get? id = some b) :
    ∃ c, t.campaigns.get? id = some c ∧ c.status = b.status ∧
      (c.stats = b.stats ∨ r = .keeping c.stats) := by
  cases h with
  | kept stats book answered =>
    refine ⟨{ b with stats, updatedAt := s.now }, ?_, rfl, Or.inr rfl⟩
    rw [CampaignBook.get?_setStats answered, if_pos rfl, present]
    rfl
  | fetched | counted | stopped => exact ⟨b, present, rfl, Or.inl rfl⟩

/-- Where a campaign is that a recount has left, there was one before. -/
theorem RecountStep.of_get? (h : s.RecountStep id r next t) {c : Campaign}
    (present : t.campaigns.get? id = some c) :
    ∃ b, s.campaigns.get? id = some b ∧ c.status = b.status ∧
      (c.stats = b.stats ∨ r = .keeping c.stats) := by
  cases hb : s.campaigns.get? id with
  | some b =>
    obtain ⟨c', hc', hstatus, hstats⟩ := h.get? hb
    obtain rfl : c' = c := Option.some.inj (hc'.symm.trans present)
    exact ⟨b, rfl, hstatus, hstats⟩
  | none =>
    exfalso
    cases h with
    | kept stats book answered =>
      rw [CampaignBook.get?_setStats answered, if_pos rfl, hb] at present
      cases present
    | fetched | counted | stopped =>
      rw [hb] at present
      cases present

end DeliveryState

/-! ## Recounts on their way -/

/-- A simulation with some recounts of one campaign on their way. -/
structure Contended where
  simulation : Simulation
  recounts : List Recount

namespace Contended

/-- What happens next: something in the simulation, or a step of one of the recounts. -/
inductive Move
  | other (a : Action)
  | recount (place : Nat)

/-- The move neither enters nor dispatches the campaign. -/
def Move.Leaves (campaign : Uuid) : Move → Prop
  | other a => a.Leaves campaign
  | recount _ => True

def move (s : Contended) (campaign : Uuid) : Move → Contended
  | .other a => { s with simulation := s.simulation.act a }
  | .recount place =>
    match s.recounts[place]? with
    | some r =>
      let (r, state) := s.simulation.state.stepRecount campaign r
      { simulation := { s.simulation with state }, recounts := s.recounts.set place r }
    | none => s

def run (s : Contended) (campaign : Uuid) (moves : List Move) : Contended :=
  moves.foldl (fun s m => s.move campaign m) s

def stored? (s : Contended) (campaign : Uuid) : Option Campaign :=
  s.simulation.state.campaigns.get? campaign

def records (s : Contended) (campaign : Uuid) : List MessageRecord :=
  s.simulation.state.records.find (.campaign campaign)

/-- How many calls the recount at a place still makes. -/
def stepsLeft (s : Contended) (place : Nat) : Nat :=
  ((s.recounts[place]?).map Recount.stepsLeft).getD 0

/-- Every recount has ended. -/
def Settled (s : Contended) : Prop :=
  ∀ r ∈ s.recounts, ∃ answer, r = .ended answer

variable {s : Contended} {campaign : Uuid}

theorem run_cons (s : Contended) (campaign : Uuid) (m : Move) (rest : List Move) :
    s.run campaign (m :: rest) = (s.move campaign m).run campaign rest := rfl

theorem run_append (s : Contended) (campaign : Uuid) (first later : List Move) :
    s.run campaign (first ++ later) = (s.run campaign first).run campaign later :=
  List.foldl_append

theorem move_recount_eq (s : Contended) (campaign : Uuid) {place : Nat} {r : Recount}
    (present : s.recounts[place]? = some r) :
    s.move campaign (.recount place) =
      { simulation := { s.simulation with state := (s.simulation.state.stepRecount campaign r).2 }
        recounts := s.recounts.set place (s.simulation.state.stepRecount campaign r).1 } := by
  simp only [move, present]

/-- A recount takes its step, unless there is none at the place. -/
theorem move_recount_cases (s : Contended) (campaign : Uuid) (place : Nat) :
    s.move campaign (.recount place) = s ∨
      ∃ r next state, s.recounts[place]? = some r ∧
        s.simulation.state.RecountStep campaign r next state ∧
        s.move campaign (.recount place) =
          { simulation := { s.simulation with state }, recounts := s.recounts.set place next } := by
  cases hr : s.recounts[place]? with
  | none => exact Or.inl (by simp only [move, hr])
  | some r =>
    exact Or.inr ⟨r, _, _, rfl, DeliveryState.stepRecount_spec s.simulation.state campaign r,
      s.move_recount_eq campaign hr⟩

theorem getElem?_move_self (s : Contended) (campaign : Uuid) {place : Nat} {r : Recount}
    (present : s.recounts[place]? = some r) :
    (s.move campaign (.recount place)).recounts[place]? =
      some (s.simulation.state.stepRecount campaign r).1 := by
  rw [s.move_recount_eq campaign present]
  exact List.getElem?_set_self (List.getElem?_eq_some_iff.mp present).1

theorem getElem?_move_recount (s : Contended) (campaign : Uuid) {place other : Nat}
    (hne : place ≠ other) :
    (s.move campaign (.recount place)).recounts[other]? = s.recounts[other]? := by
  rcases s.move_recount_cases campaign place with hsame | ⟨r, next, state, _, _, hmove⟩
  · rw [hsame]
  · rw [hmove, List.getElem?_set_ne hne]

/-! ## Bringing recounts to their end -/

theorem stepsLeft_move_self (s : Contended) (campaign : Uuid) (place : Nat) :
    (s.move campaign (.recount place)).stepsLeft place ≤ s.stepsLeft place - 1 := by
  cases hr : s.recounts[place]? with
  | none =>
    rw [move, hr, stepsLeft, hr]
    exact Nat.zero_le _
  | some r =>
    rw [stepsLeft, stepsLeft, s.getElem?_move_self campaign hr, hr]
    exact (DeliveryState.stepRecount_spec s.simulation.state campaign r).stepsLeft_le

theorem stepsLeft_move_le (s : Contended) (campaign : Uuid) (place other : Nat) :
    (s.move campaign (.recount place)).stepsLeft other ≤ s.stepsLeft other := by
  by_cases hne : place = other
  · subst hne
    exact Nat.le_trans (s.stepsLeft_move_self campaign place) (Nat.sub_le _ _)
  · rw [stepsLeft, s.getElem?_move_recount campaign hne]
    exact Nat.le_refl _

/-- As many steps of a recount as it can need. -/
def finishing (place : Nat) : List Move :=
  .replicate 3 (.recount place)

theorem leaves_finishing {campaign : Uuid} {place : Nat} :
    ∀ m ∈ finishing place, m.Leaves campaign := by
  intro m hm
  rw [List.eq_of_mem_replicate hm]
  trivial

theorem run_finishing (s : Contended) (campaign : Uuid) (place : Nat) :
    s.run campaign (finishing place) =
      ((s.move campaign (.recount place)).move campaign (.recount place)).move campaign
        (.recount place) := rfl

theorem stepsLeft_finishing (s : Contended) (campaign : Uuid) (place : Nat) :
    (s.run campaign (finishing place)).stepsLeft place = 0 := by
  have hbound : s.stepsLeft place ≤ 3 := by
    rw [stepsLeft]
    cases s.recounts[place]? with
    | none => exact Nat.zero_le 3
    | some r => exact r.stepsLeft_le
  have hfirst := s.stepsLeft_move_self campaign place
  have hsecond := (s.move campaign (.recount place)).stepsLeft_move_self campaign place
  have hthird := ((s.move campaign (.recount place)).move campaign
    (.recount place)).stepsLeft_move_self campaign place
  rw [run_finishing]
  omega

theorem stepsLeft_finishing_le (s : Contended) (campaign : Uuid) (place other : Nat) :
    (s.run campaign (finishing place)).stepsLeft other ≤ s.stepsLeft other :=
  Nat.le_trans (stepsLeft_move_le _ campaign place other)
    (Nat.le_trans (stepsLeft_move_le _ campaign place other)
      (stepsLeft_move_le s campaign place other))

/-- Calls are in order, the campaign is completed, and these are its records. -/
structure Calm (s : Contended) (campaign : Uuid) (records : List MessageRecord) : Prop where
  calm : s.simulation.state.outages = .none
  completed : ∃ c, s.stored? campaign = some c ∧ c.status = .completed
  found : s.records campaign = records

variable {records : List MessageRecord} {kept : CampaignStats} {place : Nat}

theorem Calm.move_recount (h : s.Calm campaign records) (place : Nat) :
    (s.move campaign (.recount place)).Calm campaign records := by
  rcases s.move_recount_cases campaign place with hsame | ⟨r, next, state, _, step, hmove⟩
  · rw [hsame]
    exact h
  · obtain ⟨b, hb, hcompleted⟩ := h.completed
    obtain ⟨c, hc, hstatus, _⟩ := step.get? hb
    obtain ⟨book, rfl⟩ := step.book
    rw [hmove]
    exact ⟨h.calm, ⟨c, hc, hstatus.trans hcompleted⟩, h.found⟩

theorem Calm.finishing (h : s.Calm campaign records) (place : Nat) :
    (s.run campaign (finishing place)).Calm campaign records :=
  ((h.move_recount place).move_recount place).move_recount place

/-- The recount at a place is about to keep some statistics. -/
def Insists (s : Contended) (place : Nat) (records : List MessageRecord) (kept : CampaignStats) :
    Prop :=
  ∃ r, s.recounts[place]? = some r ∧ r.toKeep? records = some kept

/-- The recount at a place has ended, and the campaign shows what it has kept. -/
def Kept (s : Contended) (campaign : Uuid) (place : Nat) (kept : CampaignStats) : Prop :=
  s.stepsLeft place = 0 ∧ ∃ c, s.stored? campaign = some c ∧ c.stats = kept

theorem Kept.move_self (h : s.Kept campaign place kept) :
    (s.move campaign (.recount place)).Kept campaign place kept := by
  obtain ⟨hended, b, hb, rfl⟩ := h
  refine ⟨Nat.le_zero.mp (hended ▸ s.stepsLeft_move_le campaign place place), ?_⟩
  rcases s.move_recount_cases campaign place with hsame | ⟨r, next, state, hr, step, hmove⟩
  · rw [hsame]
    exact ⟨b, hb, rfl⟩
  · obtain ⟨c, hc, -, hstats | rfl⟩ := step.get? hb
    · rw [hmove]
      exact ⟨c, hc, hstats⟩
    · simp [stepsLeft, hr, Recount.stepsLeft] at hended

/-- Where calls are in order, a recount that is about to keep some statistics comes to keep them. -/
theorem Insists.move_self (h : s.Insists place records kept) (calm : s.Calm campaign records) :
    (s.move campaign (.recount place)).Insists place records kept ∨
      (s.move campaign (.recount place)).Kept campaign place kept := by
  obtain ⟨r, hr, hkeeps⟩ := h
  have hnext := s.getElem?_move_self campaign hr
  cases r with
  | fetching | ended => cases hkeeps
  | counting c =>
    left
    have hfind := Simulation.findRecords_calm calm.calm (.campaign campaign)
    simp only [DeliveryState.stepRecount, hfind] at hnext
    have hfound := calm.found
    rw [Contended.records] at hfound
    rw [hfound] at hnext
    exact ⟨_, hnext, hkeeps⟩
  | keeping stats =>
    right
    cases hkeeps
    obtain ⟨b, hb, _⟩ := calm.completed
    obtain ⟨book, hbook, hstored⟩ := Simulation.setStats_calm calm.calm hb kept
    have hmove := s.move_recount_eq campaign hr
    simp only [DeliveryState.stepRecount, hstored] at hnext hmove
    refine ⟨by rw [stepsLeft, hnext]; rfl,
      { b with stats := kept, updatedAt := s.simulation.state.now }, ?_, rfl⟩
    rw [hmove]
    have hget := CampaignBook.get?_setStats hbook campaign
    rw [if_pos rfl] at hget
    exact hget.trans (congrArg _ hb)

theorem Insists.finishing (h : s.Insists place records kept) (calm : s.Calm campaign records) :
    (s.run campaign (finishing place)).Kept campaign place kept := by
  have hmove : ∀ {t : Contended}, t.Calm campaign records →
      (t.Insists place records kept ∨ t.Kept campaign place kept) →
      (t.move campaign (.recount place)).Insists place records kept ∨
        (t.move campaign (.recount place)).Kept campaign place kept := by
    intro t hcalm ht
    rcases ht with hinsists | hkept
    · exact hinsists.move_self hcalm
    · exact Or.inr hkept.move_self
  have hfirst := calm.move_recount place
  have hsecond := hfirst.move_recount place
  have hended := s.stepsLeft_finishing campaign place
  rw [run_finishing] at hended ⊢
  rcases hmove hsecond (hmove hfirst (hmove calm (Or.inl h))) with ⟨r, hr, hkeeps⟩ | hkept
  · -- after three steps the recount has nothing left to keep
    have hleft := Recount.stepsLeft_of_toKeep? hkeeps
    rw [stepsLeft, hr, Option.map_some, Option.getD_some] at hended
    omega
  · exact hkept

/-- The other recounts can all be brought to their end first. -/
theorem Insists.others (h : s.Insists place records kept) (calm : s.Calm campaign records)
    {places : List Nat} (others : ∀ other ∈ places, other ≠ place) :
    let t := s.run campaign (places.flatMap Contended.finishing)
    t.Insists place records kept ∧ t.Calm campaign records ∧
      (∀ other ∈ places, t.stepsLeft other = 0) ∧
      ∀ other, t.stepsLeft other ≤ s.stepsLeft other := by
  induction places generalizing s with
  | nil => exact ⟨h, calm, by simp, fun _ => Nat.le_refl _⟩
  | cons first rest ih =>
    have hne := others first List.mem_cons_self
    have hinsists : (s.run campaign (Contended.finishing first)).Insists place records kept := by
      obtain ⟨r, hr, hkeeps⟩ := h
      refine ⟨r, ?_, hkeeps⟩
      rw [run_finishing, getElem?_move_recount _ campaign hne,
        getElem?_move_recount _ campaign hne, getElem?_move_recount _ campaign hne, hr]
    have hcalm := calm.finishing first
    obtain ⟨hlast, hstill, hended, hle⟩ := ih hinsists hcalm
      fun other hother => others other (List.mem_cons_of_mem first hother)
    simp only [List.flatMap_cons, run_append]
    refine ⟨hlast, hstill, ?_, fun other => Nat.le_trans (hle other)
      (s.stepsLeft_finishing_le campaign first other)⟩
    intro other hother
    rcases List.mem_cons.mp hother with rfl | hother
    · exact Nat.le_zero.mp (s.stepsLeft_finishing campaign other ▸ hle other)
    · exact hended other hother

theorem settled_of_stepsLeft (h : ∀ place, s.stepsLeft place = 0) : s.Settled := by
  intro r hr
  obtain ⟨place, hplace⟩ := List.getElem?_of_mem hr
  have hleft := h place
  rw [stepsLeft, hplace, Option.map_some, Option.getD_some] at hleft
  cases r with
  | ended answer => exact ⟨answer, rfl⟩
  | fetching | counting | keeping => cases hleft

/-- A recount can be the last to keep its statistics. -/
theorem exists_last_word (completed : ∃ c, s.stored? campaign = some c ∧ c.status = .completed)
    {r : Recount} (present : r ∈ s.recounts) (keeps : r.toKeep? (s.records campaign) = some kept) :
    ∃ later, (∀ m ∈ later, m.Leaves campaign) ∧ (s.run campaign later).Settled ∧
      ∃ c, (s.run campaign later).stored? campaign = some c ∧ c.status = .completed ∧
        c.stats = kept := by
  obtain ⟨place, hplace⟩ := List.getElem?_of_mem present
  -- first all calls are put in order, then the others end, then this one
  let others := (List.range s.recounts.length).filter (· ≠ place)
  let calmed := s.move campaign (.other (.setOutages .none))
  have hcalm : calmed.Calm campaign (s.records campaign) := ⟨rfl, completed, rfl⟩
  have hinsists : calmed.Insists place (s.records campaign) kept := ⟨r, hplace, keeps⟩
  have hothers : ∀ other ∈ others, other ≠ place := fun other hother => by
    simpa using (List.mem_filter.mp hother).2
  obtain ⟨hlast, hstill, hended, hle⟩ := hinsists.others hcalm hothers
  have hkept := hlast.finishing hstill
  obtain ⟨hself, c, hc, hstats⟩ := hkept
  obtain ⟨c', hc', hstatus⟩ := (hstill.finishing place).completed
  obtain rfl : c = c' := Option.some.inj (hc.symm.trans hc')
  refine ⟨.other (.setOutages .none) ::
    (others.flatMap Contended.finishing ++ Contended.finishing place), ?_, ?_, c, ?_, hstatus,
    hstats⟩
  · intro m hm
    simp only [List.mem_cons, List.mem_append, List.mem_flatMap] at hm
    rcases hm with rfl | ⟨other, _, hother⟩ | hself
    · trivial
    · exact leaves_finishing m hother
    · exact leaves_finishing m hself
  · rw [run_cons, run_append]
    refine settled_of_stepsLeft fun other => ?_
    by_cases hother : other = place
    · rw [hother]
      exact hself
    · have hle' := stepsLeft_finishing_le (calmed.run campaign (others.flatMap Contended.finishing))
        campaign place other
      by_cases hlt : other < s.recounts.length
      · have hmem : other ∈ others := List.mem_filter.mpr ⟨List.mem_range.mpr hlt, by simpa⟩
        rw [hended other hmem] at hle'
        exact Nat.le_zero.mp hle'
      · have hnone : calmed.stepsLeft other = 0 := by
          have hout : s.recounts[other]? = none := List.getElem?_eq_none (Nat.le_of_not_lt hlt)
          simp only [stepsLeft, calmed, move, hout]
          rfl
        exact Nat.le_zero.mp (Nat.le_trans hle' (hnone ▸ hle other))
  · rw [run_cons, run_append]
    exact hc

end Contended

end Outreach

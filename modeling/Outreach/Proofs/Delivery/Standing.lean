import Outreach.Proofs.Campaign.Book
import Outreach.Proofs.Delivery.Recipients

/-!
# Campaigns while they are dispatched

The status of a campaign and the number of its recipients are changed by its own dispatch
and by nothing else. Other dispatches leave the campaign alone, a recount changes only what
it counts, and a campaign that is deleted is gone. So a campaign that is completed has had
its dispatch complete it.
-/

namespace Outreach

open DeliveryState

/-- What a book has of a campaign agrees with an earlier book on its status, and on its statistics
unless the records of the campaign have been counted again. -/
def CampaignBook.Keeps (s t : CampaignBook) (records : RecordBook) (id : Uuid) : Prop :=
  ∀ c, t.get? id = some c → ∃ b, s.get? id = some b ∧ c.status = b.status ∧
    (c.stats = b.stats ∨ c.stats = b.stats.refreshed (records.find (.campaign id)))

/-- The action neither enters nor dispatches a campaign, and leaves all calls in order. -/
def Action.Spares (campaign : Uuid) : Action → Prop
  | .begin c _ => c ≠ campaign
  | .enter c => c.id ≠ campaign
  | .setOutages _ => False
  | _ => True

theorem CampaignBook.keeps_of_get?_eq {s t : CampaignBook} {id : Uuid}
    (h : t.get? id = s.get? id) (records : RecordBook) : s.Keeps t records id := by
  intro c hc
  rw [h] at hc
  exact ⟨c, hc, rfl, Or.inl rfl⟩

theorem CampaignBook.keeps_setStats {s t : CampaignBook} {records : RecordBook} {id : Uuid}
    {now : Instant} {b : Campaign} (present : s.get? id = some b)
    (h : s.setStats id (b.stats.refreshed (records.find (.campaign id))) now = .ok t) (j : Uuid) :
    s.Keeps t records j := by
  by_cases hj : j = id
  · subst hj
    intro c hc
    rw [get?_setStats h, if_pos rfl, present] at hc
    cases hc
    exact ⟨b, present, rfl, Or.inr rfl⟩
  · refine keeps_of_get?_eq ?_ records
    rw [get?_setStats h, if_neg hj]

theorem CampaignBook.keeps_delete (s : CampaignBook) (id j : Uuid) (records : RecordBook) :
    s.Keeps (s.delete id).2 records j := by
  intro c hc
  rw [get?_delete] at hc
  split at hc
  · cases hc
  · exact ⟨c, hc, rfl, Or.inl rfl⟩

/-! ## Steps of walks and dispatches -/

namespace DeliveryState

variable {s t : DeliveryState} {d d' : Dispatch}

theorem WalkStep.standing {e : PendingEntry Walk} (h : WalkStep s e t) :
    t.outages = s.outages ∧ t.campaigns = s.campaigns := by
  rcases h.book_cases with kept | ⟨_, _, _, advanced⟩
  · exact ⟨kept.outages, kept.campaigns⟩
  · exact ⟨advanced.outages, advanced.campaigns⟩

theorem DispatchStep.outages (h : DispatchStep s d d' t) : t.outages = s.outages := by
  cases h with
  | begun _ _ _ answered next =>
    obtain ⟨_, _, rfl⟩ := startProcessing_ok answered
    exact next.kept.outages
  | tried _ _ _ _ _ _ _ _ attempted after =>
    obtain ⟨_, rfl, _⟩ := attempted.book
    exact after.kept.outages
  | counted _ _ _ _ state => rw [state]
  | completed _ _ _ answered _ state =>
    obtain ⟨_, _, rfl⟩ := completeCampaign_ok answered
    rw [state]
    rfl
  | stopped _ _ _ state => rw [state]
  | failed cause _ _ state =>
    obtain ⟨_, hbook, _⟩ := failCampaign_book s d.campaign cause.message
    rw [state, hbook]
    rfl
  | ended _ _ _ state => rw [state]

/-- A step of a dispatch changes its own campaign in the book if it changes any. -/
theorem DispatchStep.campaigns (h : DispatchStep s d d' t) :
    t.campaigns = s.campaigns ∨
      (∃ recipients, d.phase = .starting recipients ∧
        s.campaigns.startProcessing d.campaign d.total s.now = .ok t.campaigns) ∨
      (∃ stats, d.phase = .completing stats ∧ d'.end? = some (.completed stats) ∧
        s.campaigns.complete d.campaign stats s.now = .ok t.campaigns) ∨
      ∃ reason, s.campaigns.failCampaign d.campaign reason s.now = .ok t.campaigns := by
  cases h with
  | begun recipients _ phase answered next =>
    obtain ⟨book, hbook, rfl⟩ := startProcessing_ok answered
    right
    left
    refine ⟨recipients, phase, ?_⟩
    rw [next.kept.campaigns]
    exact hbook
  | tried _ _ _ _ _ _ _ _ attempted after =>
    obtain ⟨_, rfl, _⟩ := attempted.book
    exact Or.inl after.kept.campaigns
  | counted _ _ _ _ state => exact Or.inl (by rw [state])
  | completed stats _ phase answered dispatch state =>
    obtain ⟨book, hbook, rfl⟩ := completeCampaign_ok answered
    right
    right
    left
    refine ⟨stats, phase, by rw [dispatch]; rfl, ?_⟩
    rw [state]
    exact hbook
  | stopped _ _ _ state => exact Or.inl (by rw [state])
  | failed cause _ _ state =>
    obtain ⟨book, hbook, rfl | hfailed⟩ := failCampaign_book s d.campaign cause.message
    · exact Or.inl (by rw [state, hbook]; rfl)
    · right
      right
      right
      refine ⟨cause.message, ?_⟩
      rw [state, hbook]
      exact hfailed
  | ended _ _ _ state => exact Or.inl (by rw [state])

theorem DispatchStep.get?_campaigns (h : DispatchStep s d d' t) {id : Uuid}
    (other : id ≠ d.campaign) : t.campaigns.get? id = s.campaigns.get? id := by
  rcases h.campaigns with hsame | ⟨_, _, hbook⟩ | ⟨_, _, _, hbook⟩ | ⟨_, hbook⟩
  · rw [hsame]
  · rw [CampaignBook.get?_startProcessing hbook, if_neg other]
  · rw [CampaignBook.get?_complete hbook, if_neg other]
  · rw [CampaignBook.get?_failCampaign hbook, if_neg other]

/-- A step of a dispatch brings no campaign into the book. -/
theorem DispatchStep.present (h : DispatchStep s d d' t)
    (hpresent : (t.campaigns.get? d.campaign).isSome) :
    (s.campaigns.get? d.campaign).isSome := by
  rcases h.campaigns with hsame | ⟨_, _, hbook⟩ | ⟨_, _, _, hbook⟩ | ⟨_, hbook⟩
  · rwa [hsame] at hpresent
  · rwa [CampaignBook.get?_startProcessing hbook, if_pos rfl, Option.isSome_map] at hpresent
  · rwa [CampaignBook.get?_complete hbook, if_pos rfl, Option.isSome_map] at hpresent
  · rwa [CampaignBook.get?_failCampaign hbook, if_pos rfl, Option.isSome_map] at hpresent

theorem DispatchStep.issued (h : DispatchStep s d d' t) : s.issued ≤ t.issued := by
  obtain ⟨first, n, hfirst, hlast, _⟩ := h.ids
  omega

end DeliveryState

/-- The step of a dispatch completes its campaign only as the one that ends it so, and never counts
other recipients than its own. -/
theorem Reached.campaign_step {campaign : Uuid} {recipients : List String} {now : Instant}
    {turn : Nat} {deeds : List Deed} {d : Dispatch}
    (h : Reached (.start campaign recipients now turn) deeds d) (s : DeliveryState) {c : Campaign}
    (present : (s.stepDispatch d).2.campaigns.get? campaign = some c) :
    ∃ b, s.campaigns.get? campaign = some b ∧
      (c.stats.totalRecipients = b.stats.totalRecipients ∨
        c.stats.totalRecipients = recipients.length) ∧
      (c.status = .completed → b.status = .completed ∨
        ∃ stats, (s.stepDispatch d).1.end? = some (.completed stats)) := by
  obtain ⟨hcampaign, htotal, hpast⟩ := h.past
  have step := s.stepDispatch_spec d
  rcases step.campaigns with
    hsame | ⟨_, _, hbook⟩ | ⟨stats, phase, hend, hbook⟩ | ⟨reason, hbook⟩
  · rw [hsame] at present
    exact ⟨c, present, Or.inl rfl, Or.inl⟩
  · rw [hcampaign] at hbook
    rw [CampaignBook.get?_startProcessing hbook, if_pos rfl] at present
    obtain ⟨b, hb, rfl⟩ := Option.map_eq_some_iff.mp present
    refine ⟨b, hb, Or.inr htotal, ?_⟩
    rintro ⟨⟩
  · rw [hcampaign] at hbook
    rw [CampaignBook.get?_complete hbook, if_pos rfl] at present
    obtain ⟨b, hb, rfl⟩ := Option.map_eq_some_iff.mp present
    rw [phase] at hpast
    obtain ⟨_, _, _, _, _, _, _, rfl⟩ := hpast
    exact ⟨b, hb, Or.inr rfl, fun _ => Or.inr ⟨_, hend⟩⟩
  · rw [hcampaign] at hbook
    rw [CampaignBook.get?_failCampaign hbook, if_pos rfl] at present
    obtain ⟨b, hb, rfl⟩ := Option.map_eq_some_iff.mp present
    refine ⟨b, hb, Or.inl rfl, ?_⟩
    rintro ⟨⟩

/-! ## Actions -/

namespace Simulation

variable {s : Simulation} {campaign : Uuid}

/-- What an action does to the calls, the supply of identifiers and a campaign. Only the campaign's
own dispatch changes more of it than a recount does. -/
structure Standing (s : Simulation) (campaign : Uuid) (a : Action) (t : DeliveryState) : Prop where
  outages : t.outages = s.state.outages
  issued : s.state.issued ≤ t.issued
  present : (t.campaigns.get? campaign).isSome → (s.state.campaigns.get? campaign).isSome
  keeps : s.state.campaigns.Keeps t.campaigns s.state.records campaign ∨
    ∃ r, s.dispatchAt? r.ticket = some r ∧ r.dispatch.campaign = campaign ∧
      a = .work (.dispatch r.ticket)

theorem Standing.of_keeps {a : Action} {t : DeliveryState} (outages : t.outages = s.state.outages)
    (issued : s.state.issued ≤ t.issued)
    (keeps : s.state.campaigns.Keeps t.campaigns s.state.records campaign) :
    s.Standing campaign a t := by
  refine ⟨outages, issued, ?_, Or.inl keeps⟩
  intro hpresent
  obtain ⟨c, hc⟩ := Option.isSome_iff_exists.mp hpresent
  obtain ⟨b, hb, _⟩ := keeps c hc
  rw [hb]
  rfl

theorem Standing.of_get?_eq {a : Action} {t : DeliveryState}
    (outages : t.outages = s.state.outages) (issued : s.state.issued ≤ t.issued)
    (same : t.campaigns.get? campaign = s.state.campaigns.get? campaign) :
    s.Standing campaign a t :=
  .of_keeps outages issued (CampaignBook.keeps_of_get?_eq same s.state.records)

theorem standing_act (s : Simulation) {a : Action} (spares : a.Spares campaign) :
    s.Standing campaign a (s.act a).state := by
  cases s.acted a with
  | walked e _ _ step state =>
    obtain ⟨houtages, hcampaigns⟩ := step.standing
    rw [state]
    exact .of_get?_eq houtages (ids_walkStep step).2
      (congrArg (CampaignBook.get? · campaign) hcampaigns)
  | stepped r present by_action step state =>
    rw [state]
    by_cases hcampaign : r.dispatch.campaign = campaign
    · refine ⟨step.outages, step.issued, ?_, Or.inr ⟨r, present, hcampaign, by_action⟩⟩
      exact hcampaign ▸ step.present
    · exact .of_get?_eq step.outages step.issued
        (step.get?_campaigns fun he => hcampaign he.symm)
  | delivered receipt record outcome u answered _ state =>
    obtain ⟨_, advanced, _⟩ := DeliveryState.deliver_ok answered
    rw [state]
    exact .of_get?_eq advanced.outages advanced.issued (by rw [advanced.campaigns])
  | recounted c book id present answered _ state =>
    have hkeeps := CampaignBook.keeps_setStats present answered campaign
    rw [state]
    exact .of_keeps rfl (Nat.le_refl _) hkeeps
  | disturbed outages by_action _ =>
    rw [by_action] at spares
    exact False.elim spares
  | issued _ state =>
    rw [state]
    exact .of_get?_eq rfl (Nat.le_succ _) rfl
  | entered c by_action state =>
    rw [by_action] at spares
    rw [state]
    exact .of_get?_eq rfl (Nat.le_refl _) (CampaignBook.get?_insert_of_ne spares _)
  | deleted id _ state =>
    rw [state]
    exact .of_keeps rfl (Nat.le_refl _) (s.state.campaigns.keeps_delete id campaign s.state.records)
  | idle _ state | rearranged _ _ _ _ _ state | moved _ _ _ state | begun _ _ _ state
  | cancelled _ _ state | aborted _ _ state | unregistered _ _ state | dropped _ _ state =>
    rw [state]
    exact .of_get?_eq rfl (Nat.le_refl _) rfl

end Simulation

end Outreach

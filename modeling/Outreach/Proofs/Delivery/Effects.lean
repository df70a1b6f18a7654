import Mathlib.Data.List.Perm.Subperm
import Mathlib.Data.List.ReduceOption
import Outreach.Proofs.Delivery.Actions

/-!
# What the steps of a dispatch do

A step keeps the campaign of its dispatch, creates at most one record and adds no work to the agenda
but walks that have not begun. The identifiers of the records in the book and of those that are
still to be created are kept together here, since a step only moves them from one to the other and
adds new ones from the supply.
-/

namespace Outreach

namespace Sorted

universe u v

variable {κ : Type u} {α : Type v} [LT κ] [DecidableLT κ] [DecidableEq κ]

/-- Putting an entry adds no key but its own. -/
theorem keys_put_subperm (key : α → κ) (a : α) (entries : List α) :
    ((put key a entries).map key).Subperm (key a :: entries.map key) := by
  induction entries with
  | nil => exact List.Subperm.refl _
  | cons b rest ih =>
    simp only [put]
    split
    · exact List.Subperm.refl _
    · split
      · exact ((List.sublist_cons_self (key b) (rest.map key)).cons_cons (key a)).subperm
      · have hrest := (List.subperm_cons (key b)).mpr ih
        exact hrest.trans (List.Perm.swap _ _ _).subperm

end Sorted

/-- The identifiers of the records in the book. -/
def RecordBook.ids (s : RecordBook) : List Uuid :=
  s.records.map MessageRecord.id

/-- The identifiers of the records that are still to be created. -/
def Dispatch.untriedIds (d : Dispatch) : List Uuid :=
  d.untried.map MessageRecord.id

@[simp] theorem RecordBook.ids_advance (s : RecordBook) (id : Uuid) (status : DeliveryStatus)
    (time : Instant) : (s.advance id status time).2.ids = s.ids :=
  map_records_advance MessageRecord.id s id status time fun r => r.id_advance status time

theorem RecordBook.ids_create {s t : RecordBook} {r : MessageRecord} (h : s.create r = .ok t) :
    t.ids.Subperm (r.id :: s.ids) := by
  obtain ⟨_, rfl⟩ := create_eq_ok.mp h
  exact Sorted.keys_put_subperm MessageRecord.id r s.records

theorem Dispatch.untriedIds_ended {d : Dispatch} (h : d.isEnded = true) : d.untriedIds = [] := by
  cases hp : d.phase with
  | ended how => simp [untriedIds, untried, hp]
  | _ => simp [isEnded, hp] at h

theorem Dispatch.untried_rearrange_perm (d : Dispatch) (untried : List MessageRecord)
    (tried : List (Option MessageRecord)) : (d.rearrange untried tried).untried.Perm d.untried := by
  rcases d.rearrange_cases untried tried with h | ⟨_, _, _, _, _, _, _, hp, hperm, _, h⟩
  · rw [h]
  · rw [h]
    simpa [Dispatch.untried, hp] using hperm

theorem Dispatch.created_rearrange_perm (d : Dispatch) (untried : List MessageRecord)
    (tried : List (Option MessageRecord)) : (d.rearrange untried tried).created.Perm d.created := by
  rcases d.rearrange_cases untried tried with h | ⟨_, _, _, _, _, _, _, hp, _, hperm, h⟩
  · rw [h]
  · rw [h]
    simp only [Dispatch.created, hp]
    exact hperm.filterMap id

@[simp] theorem Dispatch.campaign_rearrange (d : Dispatch) (untried : List MessageRecord)
    (tried : List (Option MessageRecord)) : (d.rearrange untried tried).campaign = d.campaign := by
  rcases d.rearrange_cases untried tried with h | ⟨_, _, _, _, _, _, _, _, _, _, h⟩
  · rw [h]
  · rw [h]

namespace DeliveryState

variable {s t : DeliveryState} {d d' : Dispatch}

theorem NextBatch.untriedIds {tally : Tally} {rest : List String}
    (h : NextBatch s d tally rest d' t) :
    ∃ n, s.issued + n ≤ t.issued ∧ d'.untriedIds = (List.range' s.issued n).map Uuid.fresh := by
  cases h with
  | none_left _ dispatch state =>
    subst dispatch state
    exact ⟨0, Nat.le_refl _, rfl⟩
  | cancelled _ dispatch state =>
    subst dispatch state
    exact ⟨0, Nat.le_refl _, rfl⟩
  | drafts batch later next more ready turn _ _ dispatch drafted =>
    subst dispatch
    exact ⟨batch.length, Nat.le_of_eq drafted.issued.symm, drafted.ids⟩

theorem NextBatch.kept {tally : Tally} {rest : List String} (h : NextBatch s d tally rest d' t) :
    Quiet s t := by
  cases h with
  | none_left _ _ state =>
    subst state
    exact Quiet.refl t
  | cancelled _ _ state =>
    subst state
    exact Quiet.refl t
  | drafts _ _ _ _ _ _ _ _ _ drafted => exact drafted.quiet

theorem NextBatch.campaign {tally : Tally} {rest : List String}
    (h : NextBatch s d tally rest d' t) : d'.campaign = d.campaign := by
  cases h with
  | none_left _ dispatch _ => rw [dispatch]
  | cancelled _ dispatch _ => rw [dispatch]
  | drafts _ _ _ _ _ _ _ _ dispatch _ => rw [dispatch]

theorem NextBatch.untried {tally : Tally} {rest : List String}
    (h : NextBatch s d tally rest d' t) {m : MessageRecord} (hm : m ∈ d'.untried) :
    m.DraftIn s d.campaign := by
  cases h with
  | none_left _ dispatch _ =>
    subst dispatch
    cases hm
  | cancelled _ dispatch _ =>
    subst dispatch
    cases hm
  | drafts _ _ _ _ _ _ _ accepts dispatch drafted =>
    subst dispatch
    exact { drafted.each m hm with
      named := drafted.named m hm
      sentAt := drafted.sent m hm
      coherent := drafted.coherent m hm
      accepted := accepts
      sure := fun sure => drafted.sure sure m hm }

theorem Attempted.ids {r : MessageRecord} {attempt : Option MessageRecord}
    (h : Attempted s r attempt t) : t.records.ids.Subperm (r.id :: s.records.ids) := by
  obtain ⟨book, rfl, ⟨_, hcreate⟩ | ⟨_, rfl⟩⟩ := h.book
  · exact RecordBook.ids_create hcreate
  · exact (List.sublist_cons_self _ _).subperm

/-- After an attempt the batch goes on or is settled, and neither touches the books. -/
theorem AfterAttempt.kept {tried : List (Option MessageRecord)} {rest : List String}
    {tally : Tally} {more : List MessageRecord}
    (h : AfterAttempt s d tried rest tally more d' t) : Kept s t := by
  cases h with
  | same_batch _ _ _ _ state =>
    rw [state]
    exact Kept.refl s
  | settled _ next => exact (kept_settleBatch _ _ _).trans next.kept.toKept

theorem DispatchStep.campaign (h : DispatchStep s d d' t) : d'.campaign = d.campaign := by
  cases h with
  | begun _ _ _ _ next => exact next.campaign
  | tried _ _ _ _ _ _ _ _ _ after =>
    cases after with
    | same_batch _ _ _ dispatch _ => rw [dispatch]
    | settled _ next => exact next.campaign
  | counted _ _ _ dispatch _ => rw [dispatch]
  | completed _ _ _ _ dispatch _ => rw [dispatch]
  | stopped _ _ dispatch _ => rw [dispatch]
  | failed _ _ dispatch _ => rw [dispatch]
  | ended _ _ dispatch _ => rw [dispatch]

theorem subperm_of_untriedIds_nil (ids : List Uuid) (first : Nat) (h : d'.untriedIds = []) :
    (ids ++ d'.untriedIds).Subperm
      ((ids ++ d.untriedIds) ++ (List.range' first 0).map Uuid.fresh) := by
  rw [h, List.range'_zero, List.map_nil, List.append_nil, List.append_nil]
  exact (List.sublist_append_left ids d.untriedIds).subperm

/-- A step drafts records under identifiers that have not been issued, and none of the others that
are in the book or still to be created is used twice. -/
theorem DispatchStep.ids (h : DispatchStep s d d' t) :
    ∃ first n, s.issued ≤ first ∧ first + n ≤ t.issued ∧
      (t.records.ids ++ d'.untriedIds).Subperm
        ((s.records.ids ++ d.untriedIds) ++ (List.range' first n).map Uuid.fresh) := by
  cases h with
  | begun recipients u phase answered next =>
    obtain ⟨book, _, rfl⟩ := startProcessing_ok answered
    obtain ⟨n, hn, hids⟩ := next.untriedIds
    have hnone : d.untriedIds = [] := by simp [Dispatch.untriedIds, Dispatch.untried, phase]
    refine ⟨s.issued + 1, n, Nat.le_succ _, hn, ?_⟩
    rw [next.kept.records, hids, hnone, List.append_nil]
    exact List.Subperm.refl _
  | tried next more tried rest tally attempt u phase attempted after =>
    have hcreated := attempted.ids
    obtain ⟨book, rfl, _⟩ := attempted.book
    have hd : d.untriedIds = next.id :: more.map MessageRecord.id := by
      simp [Dispatch.untriedIds, Dispatch.untried, phase]
    have hmoved : (book.ids ++ more.map MessageRecord.id).Subperm
        (s.records.ids ++ d.untriedIds) := by
      have happ := (List.subperm_append_right (more.map MessageRecord.id)).mpr hcreated
      rw [hd]
      exact happ.trans List.perm_middle.symm.subperm
    cases after with
    | same_batch following later left dispatch state =>
      subst dispatch state
      refine ⟨s.issued, 0, Nat.le_refl _, Nat.le_refl _, ?_⟩
      rw [List.range'_zero, List.map_nil, List.append_nil]
      rw [left] at hmoved
      exact hmoved
    | settled left next' =>
      have hkept := kept_settleBatch tally { s with records := book } (tried ++ [attempt])
      obtain ⟨n, hn, hids⟩ := next'.untriedIds
      refine ⟨_, n, hkept.issued, hn, ?_⟩
      rw [next'.kept.records, hkept.records, hids]
      rw [left, List.map_nil, List.append_nil] at hmoved
      exact (List.subperm_append_right _).mpr hmoved
  | counted tally _ _ dispatch state =>
    subst dispatch state
    exact ⟨t.issued, 0, Nat.le_refl _, Nat.le_refl _, subperm_of_untriedIds_nil _ _ rfl⟩
  | completed stats u _ answered dispatch state =>
    obtain ⟨book, _, rfl⟩ := completeCampaign_ok answered
    subst dispatch state
    exact ⟨s.issued, 0, Nat.le_refl _, Nat.le_succ _, subperm_of_untriedIds_nil _ _ rfl⟩
  | stopped cause _ dispatch state =>
    subst dispatch state
    exact ⟨t.issued, 0, Nat.le_refl _, Nat.le_refl _, subperm_of_untriedIds_nil _ _ rfl⟩
  | failed cause _ dispatch state =>
    obtain ⟨book, hbook, _⟩ := failCampaign_book s d.campaign cause.message
    rw [hbook] at state
    subst dispatch state
    exact ⟨s.issued, 0, Nat.le_refl _, Nat.le_succ _, subperm_of_untriedIds_nil _ _ rfl⟩
  | ended how phase dispatch state =>
    subst dispatch state
    have hnone : d'.untriedIds = [] := by simp [Dispatch.untriedIds, Dispatch.untried, phase]
    exact ⟨t.issued, 0, Nat.le_refl _, Nat.le_refl _, subperm_of_untriedIds_nil _ _ hnone⟩

/-- A step creates the first untried record or leaves the book of records alone. -/
theorem DispatchStep.records (h : DispatchStep s d d' t) :
    t.records = s.records ∨ ∃ m ∈ d.untried, s.records.create m = .ok t.records := by
  cases h with
  | begun _ _ _ answered next =>
    obtain ⟨_, _, rfl⟩ := startProcessing_ok answered
    exact Or.inl next.kept.records
  | tried next _ _ _ _ _ _ phase attempted after =>
    obtain ⟨book, rfl, ⟨_, hcreate⟩ | ⟨_, rfl⟩⟩ := attempted.book
    · right
      refine ⟨next, by simp [Dispatch.untried, phase], ?_⟩
      rw [after.kept.records]
      exact hcreate
    · exact Or.inl after.kept.records
  | counted _ _ _ _ state => exact Or.inl (by rw [state])
  | completed _ _ _ answered _ state =>
    obtain ⟨_, _, rfl⟩ := completeCampaign_ok answered
    exact Or.inl (by rw [state]; rfl)
  | stopped _ _ _ state => exact Or.inl (by rw [state])
  | failed cause _ _ state =>
    obtain ⟨_, hbook, _⟩ := failCampaign_book s d.campaign cause.message
    exact Or.inl (by rw [state, hbook]; rfl)
  | ended _ _ _ state => exact Or.inl (by rw [state])

/-- A step that puts a batch aside has created the last of its records, or none. -/
theorem Attempted.mem_created {next m : MessageRecord} {more : List MessageRecord}
    {tried : List (Option MessageRecord)} {rest : List String} {tally : Tally}
    {attempt : Option MessageRecord}
    (phase : d.phase = .creating next more tried rest tally) (h : Attempted s next attempt t)
    (hm : some m ∈ tried ++ [attempt]) :
    m ∈ d.created ∨ m ∈ d.untried ∧ s.records.create m = .ok t.records := by
  rcases List.mem_append.mp hm with hold | hnew
  · left
    simpa [Dispatch.created, phase, List.reduceOption_mem_iff] using hold
  · right
    obtain ⟨book, rfl, ⟨rfl, hcreate⟩ | ⟨rfl, _⟩⟩ := h.book
    · cases List.mem_singleton.mp hnew
      exact ⟨by simp [Dispatch.untried, phase], hcreate⟩
    · cases List.mem_singleton.mp hnew

/-- A step changes the agenda only by scheduling walks, which have not begun and may begin at once,
for records of the batch that have been created, the last of them by the step. -/
theorem DispatchStep.agenda_of_created {P : Agenda Walk → Prop} (h : DispatchStep s d d' t)
    (scheduled : ∀ a m (walk : Walk),
      m ∈ d.created ∨ m ∈ d.untried ∧ s.records.create m = .ok t.records →
      walk.progress = .scheduled s.now → P a → P (a.schedule m.id m.campaignId walk).2)
    (hs : P s.agenda) : P t.agenda := by
  cases h with
  | begun _ _ _ answered next =>
    obtain ⟨_, _, rfl⟩ := startProcessing_ok answered
    rw [next.kept.agenda]
    exact hs
  | tried next more tried rest tally attempt u phase attempted after =>
    have hbook := after.kept.records
    obtain ⟨book, hu, _⟩ := attempted.book
    have hagenda : u.agenda = s.agenda := by rw [hu]
    have hnow : u.now = s.now := by rw [hu]
    cases after with
    | same_batch _ _ _ _ state =>
      rw [state, hagenda]
      exact hs
    | settled _ next' =>
      rw [next'.kept.agenda]
      refine agenda_settleBatch_of_created tally (tried ++ [attempt]) ?_ (hagenda ▸ hs)
      intro a m walk hm hsince
      refine scheduled a m walk ?_ (hnow ▸ hsince)
      rw [hbook]
      exact attempted.mem_created phase hm
  | counted _ _ _ _ state => rwa [state]
  | completed _ _ _ answered _ state =>
    obtain ⟨_, _, rfl⟩ := completeCampaign_ok answered
    rw [state]
    exact hs
  | stopped _ _ _ state => rwa [state]
  | failed cause _ _ state =>
    obtain ⟨_, hbook, _⟩ := failCampaign_book s d.campaign cause.message
    rw [state, hbook]
    exact hs
  | ended _ _ _ state => rwa [state]

/-- A step changes the agenda only by scheduling walks that have not begun. -/
theorem DispatchStep.agenda {P : Agenda Walk → Prop}
    (scheduled : ∀ a r c (walk : Walk) since, walk.progress = .scheduled since → P a →
      P (a.schedule r c walk).2)
    (h : DispatchStep s d d' t) (hs : P s.agenda) : P t.agenda :=
  h.agenda_of_created
    (fun a m walk _ hsince ha => scheduled a m.id m.campaignId walk s.now hsince ha) hs

/-- What is still to be created after a step has been drafted before it or by it. -/
theorem DispatchStep.untried (h : DispatchStep s d d' t) {m : MessageRecord}
    (hm : m ∈ d'.untried) : m ∈ d.untried ∨ m.DraftIn s d.campaign := by
  cases h with
  | begun _ _ _ answered next =>
    obtain ⟨_, _, rfl⟩ := startProcessing_ok answered
    exact Or.inr { next.untried hm with }
  | tried next more tried _ tally attempt _ phase attempted after =>
    obtain ⟨book, rfl, _⟩ := attempted.book
    cases after with
    | same_batch following later left dispatch _ =>
      subst dispatch
      left
      have hlater : m ∈ more := by
        rw [left]
        exact hm
      simp only [Dispatch.untried, phase]
      exact List.mem_cons_of_mem next hlater
    | settled _ next' =>
      have hrefuses := refuses_settleBatch tally { s with records := book } (tried ++ [attempt])
        d.campaign
      have hkept := kept_settleBatch tally { s with records := book } (tried ++ [attempt])
      exact Or.inr { next'.untried hm with
        named := (next'.untried hm).named.trans
          (congrArg (messageName · m.customerId) hkept.now)
        sentAt := (next'.untried hm).sentAt.trans hkept.now
        accepted := hrefuses.symm.trans (next'.untried hm).accepted
        sure := fun sure =>
          (next'.untried hm).sure
            ((congrArg DeliverySettings.sendSuccessRate hkept.settings).trans sure) }
  | counted _ _ _ dispatch _ =>
    subst dispatch
    cases hm
  | completed _ _ _ _ dispatch _ =>
    subst dispatch
    cases hm
  | stopped _ _ dispatch _ =>
    subst dispatch
    cases hm
  | failed _ _ dispatch _ =>
    subst dispatch
    cases hm
  | ended _ _ dispatch _ =>
    subst dispatch
    exact Or.inl hm

theorem NextBatch.created {tally : Tally} {rest : List String}
    (h : NextBatch s d tally rest d' t) : d'.created = [] := by
  cases h with
  | none_left _ dispatch _ => rw [dispatch]; rfl
  | cancelled _ dispatch _ => rw [dispatch]; rfl
  | drafts _ _ _ _ _ _ _ _ dispatch _ => rw [dispatch]; rfl

/-- What the batch of a dispatch has created after a step has been created before it or by it. -/
theorem DispatchStep.created (h : DispatchStep s d d' t) {m : MessageRecord}
    (hm : m ∈ d'.created) :
    m ∈ d.created ∨ m ∈ d.untried ∧ s.records.create m = .ok t.records := by
  have hnone : d'.created = [] → m ∈ d.created ∨ m ∈ d.untried ∧
      s.records.create m = .ok t.records := by
    intro he
    rw [he] at hm
    cases hm
  cases h with
  | begun _ _ _ _ next => exact hnone next.created
  | tried next more tried rest tally attempt u phase attempted after =>
    cases after with
    | same_batch following later left dispatch state =>
      subst dispatch state
      exact attempted.mem_created phase
        (by simpa [Dispatch.created, List.reduceOption_mem_iff] using hm)
    | settled _ next' => exact hnone next'.created
  | counted _ _ _ dispatch _ => exact hnone (by rw [dispatch]; rfl)
  | completed _ _ _ _ dispatch _ => exact hnone (by rw [dispatch]; rfl)
  | stopped _ _ dispatch _ => exact hnone (by rw [dispatch]; rfl)
  | failed _ _ dispatch _ => exact hnone (by rw [dispatch]; rfl)
  | ended _ _ dispatch _ =>
    subst dispatch
    exact Or.inl hm

end DeliveryState

end Outreach

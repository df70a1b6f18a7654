import Outreach.Campaign.Book
import Outreach.Proofs.Sorted

/-!
# What changes of the campaign book do

A change of a campaign is seen under the id of that campaign and under no other, and is refused only
when the campaign is not there. Entering and deleting a campaign concern its own id as well.
-/

namespace Outreach.CampaignBook

variable {s t : CampaignBook} {id : Uuid} {now : Instant}

theorem get?_update {change : Campaign → Campaign} (h : s.update id now change = .ok t)
    (keeps : ∀ c, (change c).id = c.id) (j : Uuid) :
    t.get? j =
      if j = id then (s.get? j).map fun c => { change c with updatedAt := now } else s.get? j := by
  cases hg : s.get? id with
  | none => simp [update, hg] at h
  | some c =>
    simp only [update, hg, Except.ok.injEq] at h
    subst h
    exact Sorted.get?_modify (fun c => { change c with updatedAt := now }) keeps id j s.campaigns

theorem exists_of_update {change : Campaign → Campaign} (h : s.update id now change = .ok t) :
    ∃ c, s.get? id = some c := by
  cases hg : s.get? id with
  | none => simp [update, hg] at h
  | some c => exact ⟨c, rfl⟩

theorem exists_update (present : (s.get? id).isSome) (now : Instant)
    (change : Campaign → Campaign) : ∃ t, s.update id now change = .ok t := by
  obtain ⟨c, hc⟩ := Option.isSome_iff_exists.mp present
  rw [update, hc]
  exact ⟨_, rfl⟩

theorem get?_startProcessing {total : Nat} (h : s.startProcessing id total now = .ok t)
    (j : Uuid) : t.get? j = if j = id then (s.get? j).map fun c =>
      { c with
        status := .processing
        stats := { c.stats with totalRecipients := total }
        updatedAt := now } else s.get? j :=
  get?_update h (fun _ => rfl) j

theorem get?_complete {stats : CampaignStats} (h : s.complete id stats now = .ok t) (j : Uuid) :
    t.get? j = if j = id then (s.get? j).map fun c =>
      { c with status := .completed, stats, updatedAt := now } else s.get? j :=
  get?_update h (fun _ => rfl) j

theorem get?_failCampaign {reason : String} (h : s.failCampaign id reason now = .ok t)
    (j : Uuid) : t.get? j = if j = id then (s.get? j).map fun c =>
      { c with
        status := .failed
        stats := { c.stats with failureReason := some reason }
        updatedAt := now } else s.get? j :=
  get?_update h (fun _ => rfl) j

theorem get?_setStats {stats : CampaignStats} (h : s.setStats id stats now = .ok t) (j : Uuid) :
    t.get? j = if j = id then (s.get? j).map fun c => { c with stats, updatedAt := now }
      else s.get? j :=
  get?_update h (fun _ => rfl) j

theorem get?_insert_self (s : CampaignBook) (c : Campaign) : (s.insert c).get? c.id = some c :=
  Sorted.get?_put_self Campaign.id c s.campaigns

theorem get?_insert_of_ne {c : Campaign} (other : c.id ≠ id) (s : CampaignBook) :
    (s.insert c).get? id = s.get? id :=
  Sorted.get?_put_of_ne other s.campaigns

theorem get?_delete (s : CampaignBook) (id j : Uuid) :
    (s.delete id).2.get? j = if j = id then none else s.get? j :=
  Sorted.get?_remove Campaign.id id j s.campaigns

/-- A completed campaign is in the book with its status and statistics. -/
theorem exists_of_complete {stats : CampaignStats} (h : s.complete id stats now = .ok t) :
    ∃ c, t.get? id = some c ∧ c.status = .completed ∧ c.stats = stats := by
  obtain ⟨c, hc⟩ := exists_of_update h
  have hget := get?_complete h id
  rw [if_pos rfl, hc] at hget
  exact ⟨_, hget, rfl, rfl⟩

end Outreach.CampaignBook

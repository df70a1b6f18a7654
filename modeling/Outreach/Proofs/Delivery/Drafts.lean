import Outreach.Proofs.Delivery.Naming
import Outreach.Proofs.Delivery.Recipients
import Outreach.Proofs.Segment.DayCount

/-!
# The drafts of a dispatch

A message is named after the microsecond of its batch and its customer. The microsecond is written
as a decimal number, in which the separator does not occur, so the name can be taken apart again,
even if the customer's own name holds digits and separators. A dispatch drafts one record for each
of its recipients. If these are different customers, no two of its records have the same name,
whenever its batches have begun.
-/

namespace Outreach

namespace Instant

variable {a b : Instant}

/-- The start of 1970. -/
def epoch : Instant := ⟨0, 0⟩

/-- Both instants lie in one and the same microsecond, these being counted from the start of 1970 in
both directions. A leap second has none of its own there, since universal time counts it together
with the second after it. -/
def SameMicrosecond (a b : Instant) : Prop :=
  ∃ k : Int, ∀ i ∈ [a, b], k * 1000 ≤ i.nanosSince epoch ∧ i.nanosSince epoch < (k + 1) * 1000

theorem sameMicrosecond_iff : a.SameMicrosecond b ↔ a.micros = b.micros := by
  have hmicros : ∀ (i : Instant) (k : Int), k * 1000 ≤ i.nanosSince epoch ∧
      i.nanosSince epoch < (k + 1) * 1000 ↔ i.micros = k := by
    intro i k
    simp only [nanosSince, epoch, micros, nanosPerSecond]
    omega
  simp only [SameMicrosecond, hmicros, List.mem_cons, List.not_mem_nil, or_false]
  constructor
  · rintro ⟨k, hall⟩
    rw [hall a (Or.inl rfl), hall b (Or.inr rfl)]
  · intro same
    refine ⟨b.micros, ?_⟩
    rintro i (rfl | rfl)
    · exact same
    · rfl

/-- Leap seconds apart, the microseconds are those of the seconds. -/
theorem sameMicrosecond_iff_of_plain (ha : a.nanos < nanosPerSecond)
    (hb : b.nanos < nanosPerSecond) :
    a.SameMicrosecond b ↔ a.seconds = b.seconds ∧ a.nanos / 1000 = b.nanos / 1000 := by
  rw [sameMicrosecond_iff]
  simp only [micros, nanosPerSecond] at *
  omega

end Instant

variable {campaign : Uuid} {recipients : List String} {deeds : List Deed} {d : Dispatch}

/-- The records that a dispatch has drafted: those that it has asked for and those of its batch. -/
def Dispatch.drafts (d : Dispatch) (deeds : List Deed) : List MessageRecord :=
  Deed.asked deeds ++ d.untried

/-- Nobody but the recipients has a draft, and nobody has two. -/
theorem Asked.exists_rest {asked : List MessageRecord} (h : Asked recipients asked d.phase) :
    ∃ rest, ((asked ++ d.untried).map MessageRecord.customerId ++ rest).Perm recipients := by
  cases hp : d.phase with
  | creating next more tried rest tally =>
    rw [hp] at h
    refine ⟨rest, ?_⟩
    rwa [Dispatch.untried, hp, List.map_append, List.append_assoc]
  | _ =>
    rw [Dispatch.untried, hp, List.append_nil]
    exact h.exists_left

theorem Reached.drafts {now : Instant} {turn : Nat}
    (h : Reached (.start campaign recipients now turn) deeds d) :
    ∀ r ∈ d.drafts deeds, r.DraftOf campaign := by
  intro r hr
  rcases List.mem_append.mp hr with hasked | huntried
  · exact h.asked_drafts r hasked
  · have hpast := h.past.2.2
    cases hp : d.phase with
    | creating next more tried rest tally =>
      rw [hp] at hpast
      rw [Dispatch.untried, hp] at huntried
      exact hpast.2.2 r huntried
    | _ =>
      rw [Dispatch.untried, hp] at huntried
      cases huntried

/-- The drafts of a dispatch to different customers have different names. -/
theorem Reached.nodup_names {now : Instant} {turn : Nat}
    (h : Reached (.start campaign recipients now turn) deeds d) (distinct : recipients.Nodup) :
    ((d.drafts deeds).map MessageRecord.messageId).Nodup := by
  obtain ⟨rest, hperm⟩ := h.asked.exists_rest
  have hcustomers : ((d.drafts deeds).map MessageRecord.customerId).Nodup :=
    (List.nodup_append.mp (hperm.nodup_iff.mpr distinct)).1
  refine List.Nodup.map_on ?_ (List.Nodup.of_map _ hcustomers)
  intro q hq r hr same
  obtain ⟨_, -, hfirst⟩ := (h.drafts q hq).name
  obtain ⟨_, -, hsecond⟩ := (h.drafts r hr).name
  rw [hfirst, hsecond, messageName_inj] at same
  exact List.inj_on_of_nodup_map hcustomers hq hr same.2

/-- Two messages have the same name exactly if they go to the same customer and their batches began
in the same microsecond. So the records that a dispatch drafts for different customers have
different names, whatever the states are that its steps meet, and whatever instants its batches
begin at. -/
theorem messages_are_told_apart :
    (∀ (a b : Instant) (x y : String),
        messageName a x = messageName b y ↔ a.SameMicrosecond b ∧ x = y) ∧
      ∀ (campaign : Uuid) (recipients : List String) (now : Instant) (turn : Nat)
        (deeds : List Deed) (d : Dispatch), recipients.Nodup →
        Reached (.start campaign recipients now turn) deeds d →
        ((d.drafts deeds).map MessageRecord.messageId).Nodup := by
  constructor
  · intro a b x y
    rw [messageName_inj, Instant.sameMicrosecond_iff]
  · intro campaign recipients now turn deeds d distinct reached
    exact reached.nodup_names distinct

/-- Two customers whose names hold digits and the separator, one batch half a microsecond before the
start of 1970 and one after it. -/
theorem batches_around_the_epoch_are_told_apart :
    let before : DeliveryState := { Sample.delivery 1 with
      now := ⟨-1, 999999500⟩
      campaigns := CampaignBook.empty.insert Sample.campaign }
    let after : DeliveryState := { Sample.delivery 1 with now := ⟨0, 2500⟩ }
    let started : Dispatch := .start .nil ["2_1", "1"] before.now 0
    let first : Dispatch := (before.stepDispatch started).1
    let second : Dispatch := (after.stepDispatch first).1
    let deeds : List Deed := [⟨before, started⟩, ⟨after, first⟩]
    Reached started deeds second ∧
      (second.drafts deeds).map MessageRecord.messageId = ["msg_-1_2_1", "msg_2_1"] ∧
      ((second.drafts deeds).map MessageRecord.messageId).Nodup ∧
      (messageName before.now "1" = messageName ⟨-1, 999999999⟩ "1") ∧
      messageName before.now "1" ≠ messageName ⟨0, 0⟩ "1" := by
  intro before after started first second deeds
  have reached : Reached started deeds second :=
    .step (.step .start rfl before) (by decide +kernel) after
  obtain ⟨named, distinct⟩ := messages_are_told_apart
  refine ⟨reached, by decide +kernel, distinct _ _ _ _ _ _ (by decide) reached, ?_, ?_⟩
  · exact (named _ _ _ _).mpr ⟨⟨-1, by decide⟩, rfl⟩
  · rw [Ne, named, Instant.sameMicrosecond_iff_of_plain (by decide) (by decide)]
    decide

end Outreach

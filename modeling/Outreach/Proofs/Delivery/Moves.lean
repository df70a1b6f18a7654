import Outreach.Proofs.Delivery.Records

/-!
# What a sequence of moves makes of a record

Moves may ask for stages in any order, skip some of them and ask again. A record that has just been
queued ends at the furthest stage that was asked for. The stamp of a stage is the time of the first
move that asked for this stage or for a later one. A move is applied if it asks for more than all
moves before it and is stale otherwise, so neither another order of the moves nor a move that is
made again leads to other stages.
-/

namespace Outreach

/-- A request to move a record forward. -/
structure Advance where
  status : DeliveryStatus
  time : Instant

namespace Advance

/-- The statuses that a queued record has had or was asked to have. -/
def asked (moves : List Advance) : List DeliveryStatus :=
  .queued :: moves.map Advance.status

/-- The move asks for the stage of a rank or for a later one. -/
def reaches (rank : Nat) (m : Advance) : Bool :=
  m.status.rank?.any fun n => decide (rank ≤ n)

/-- The move asks for a stage past the queue and past all that earlier moves have asked for. -/
def Exceeds (m : Advance) (earlier : List Advance) : Prop :=
  ∃ n, m.status.rank? = some n ∧ ∀ d ∈ asked earlier, ∀ k, d.rank? = some k → k < n

theorem asked_concat (moves : List Advance) (m : Advance) :
    asked (moves ++ [m]) = asked moves ++ [m.status] := by
  simp [asked]

theorem reaches_eq {m : Advance} {n : Nat} (hm : m.status.rank? = some n) (rank : Nat) :
    m.reaches rank = decide (rank ≤ n) := by
  rw [reaches, hm, Option.any_some]

end Advance

theorem DeliveryStatus.rank?_injective : Function.Injective DeliveryStatus.rank? := by
  intro a b
  cases a <;> cases b <;> decide

namespace MessageRecord

variable {r t : MessageRecord} {m : Advance} {moves : List Advance}

/-- The record after some moves. -/
def moveAll (r : MessageRecord) (moves : List Advance) : MessageRecord :=
  moves.foldl (fun r m => (r.advance m.status m.time).2) r

/-- Which stages carry a stamp. -/
def stamped (r : MessageRecord) : List Bool :=
  [r.deliveredAt.isSome, r.openedAt.isSome, r.clickedAt.isSome]

/-- The record is queued and has not been moved. -/
structure JustQueued (r : MessageRecord) : Prop where
  status : r.status = .queued
  undelivered : r.deliveredAt = none
  unopened : r.openedAt = none
  unclicked : r.clickedAt = none

/-- What some moves make of a record that has just been queued. -/
structure MovesTo (r : MessageRecord) (moves : List Advance) (t : MessageRecord) : Prop where
  among : t.status ∈ Advance.asked moves
  furthest : ∃ n, t.status.rank? = some n ∧
    ∀ d ∈ Advance.asked moves, ∀ k, d.rank? = some k → k ≤ n
  delivered : t.deliveredAt = (moves.find? (Advance.reaches 1)).map Advance.time
  opened : t.openedAt = (moves.find? (Advance.reaches 2)).map Advance.time
  clicked : t.clickedAt = (moves.find? (Advance.reaches 3)).map Advance.time
  origin : t.origin = r.origin

theorem moveAll_cons (r : MessageRecord) (m : Advance) (moves : List Advance) :
    r.moveAll (m :: moves) = (r.advance m.status m.time).2.moveAll moves := rfl

theorem moveAll_append (r : MessageRecord) (first later : List Advance) :
    r.moveAll (first ++ later) = (r.moveAll first).moveAll later :=
  List.foldl_append

theorem moveAll_concat (r : MessageRecord) (moves : List Advance) (m : Advance) :
    r.moveAll (moves ++ [m]) = ((r.moveAll moves).advance m.status m.time).2 :=
  moveAll_append r moves [m]

/-! ## One more move -/

/-- A move is applied exactly if it leads forward from a stage of the funnel. -/
theorem advance_of_rank? {n : Nat} (hr : r.status.rank? = some n) (status : DeliveryStatus)
    (time : Instant) :
    (∃ k, status.rank? = some k ∧ n < k ∧
        r.advance status time = (.applied, r.moved status k time)) ∨
      (∀ k, status.rank? = some k → k ≤ n) ∧ r.advance status time = (.stale, r) := by
  cases hs : status.rank? with
  | none =>
    right
    exact ⟨nofun, by simp [advance, hr, hs]⟩
  | some k =>
    by_cases hlt : n < k
    · left
      exact ⟨k, rfl, hlt, by simp [advance, hr, hs, hlt]⟩
    · right
      refine ⟨?_, by simp [advance, hr, hs, hlt]⟩
      rintro _ ⟨⟩
      omega

/-- Where a record is at the furthest stage asked for, a move exceeds the earlier ones if it leads
forward from that stage. -/
theorem MovesTo.exceeds_iff (h : r.MovesTo moves t) {n : Nat} (ht : t.status.rank? = some n) :
    m.Exceeds moves ↔ ∃ k, m.status.rank? = some k ∧ n < k := by
  constructor
  · rintro ⟨k, hk, hless⟩
    exact ⟨k, hk, hless t.status h.among n ht⟩
  · rintro ⟨k, hk, hlt⟩
    obtain ⟨n', hn', hmost⟩ := h.furthest
    obtain rfl : n = n' := Option.some.inj (ht.symm.trans hn')
    exact ⟨k, hk, fun d hd j hj => Nat.lt_of_le_of_lt (hmost d hd j hj) hlt⟩

/-- Every stage up to the one that a record is at was reached by a move. -/
theorem MovesTo.isSome_find? (h : r.MovesTo moves t) {n : Nat} (ht : t.status.rank? = some n)
    {stage : Nat} (after_queue : 0 < stage) (upTo : stage ≤ n) :
    (moves.find? (Advance.reaches stage)).isSome := by
  rcases List.mem_cons.mp h.among with hqueued | hmoved
  · rw [hqueued] at ht
    cases ht
    omega
  · obtain ⟨e, he, hstatus⟩ := List.mem_map.mp hmoved
    rw [List.find?_isSome]
    refine ⟨e, he, ?_⟩
    rw [Advance.reaches_eq (hstatus ▸ ht)]
    exact decide_eq_true upTo

/-- A move that leads forward stamps the stages that no earlier move has reached. -/
theorem stamp_find? {k : Nat} (hm : m.status.rank? = some k) (stage : Nat) :
    stamp stage k m.time ((moves.find? (Advance.reaches stage)).map Advance.time) =
      ((moves ++ [m]).find? (Advance.reaches stage)).map Advance.time := by
  rw [List.find?_append, stamp]
  by_cases hle : stage ≤ k
  · rw [if_pos hle]
    cases hfound : moves.find? (Advance.reaches stage) with
    | none => simp [Advance.reaches_eq hm, hle]
    | some e => simp
  · rw [if_neg hle]
    simp [Advance.reaches_eq hm, hle]

/-- A move that does not lead forward reaches no stage for the first time. -/
theorem MovesTo.find?_concat (h : r.MovesTo moves t) {n : Nat} (ht : t.status.rank? = some n)
    (behind : ∀ k, m.status.rank? = some k → k ≤ n) {stage : Nat} (after_queue : 0 < stage) :
    (moves ++ [m]).find? (Advance.reaches stage) = moves.find? (Advance.reaches stage) := by
  rw [List.find?_append]
  cases hreaches : m.reaches stage with
  | false => simp [hreaches]
  | true =>
    rw [Advance.reaches, Option.any_eq_true] at hreaches
    obtain ⟨k, hk, hle⟩ := hreaches
    rw [decide_eq_true_eq] at hle
    have hfound := h.isSome_find? ht after_queue (Nat.le_trans hle (behind k hk))
    obtain ⟨e, he⟩ := Option.isSome_iff_exists.mp hfound
    rw [he, Option.some_or]

theorem movesTo_nil (queued : r.JustQueued) : r.MovesTo [] r := by
  constructor
  · rw [queued.status]
    exact List.mem_cons_self
  · refine ⟨0, by rw [queued.status]; rfl, ?_⟩
    intro d hd k hk
    rw [List.mem_singleton.mp hd] at hk
    cases hk
    exact Nat.le_refl 0
  · exact queued.undelivered
  · exact queued.unopened
  · exact queued.unclicked
  · rfl

theorem MovesTo.concat (h : r.MovesTo moves t) (m : Advance) :
    r.MovesTo (moves ++ [m]) (t.advance m.status m.time).2 := by
  obtain ⟨n, ht, hmost⟩ := h.furthest
  have horigin : (t.advance m.status m.time).2.origin = r.origin :=
    (t.origin_advance m.status m.time).trans h.origin
  rcases advance_of_rank? ht m.status m.time with ⟨k, hk, hlt, happlied⟩ | ⟨hbehind, hstale⟩
  · rw [happlied] at horigin ⊢
    constructor
    case origin => exact horigin
    case among =>
      rw [Advance.asked_concat]
      exact List.mem_append_right _ (List.mem_singleton.mpr rfl)
    case furthest =>
      refine ⟨k, hk, ?_⟩
      intro d hd j hj
      rw [Advance.asked_concat] at hd
      rcases List.mem_append.mp hd with hold | hnew
      · exact Nat.le_trans (hmost d hold j hj) (Nat.le_of_lt hlt)
      · rw [List.mem_singleton.mp hnew, hk] at hj
        exact Nat.le_of_eq (Option.some.inj hj).symm
    case delivered =>
      rw [← stamp_find? hk, ← h.delivered]
      rfl
    case opened =>
      rw [← stamp_find? hk, ← h.opened]
      rfl
    case clicked =>
      rw [← stamp_find? hk, ← h.clicked]
      rfl
  · rw [hstale] at horigin ⊢
    constructor
    case origin => exact horigin
    case among =>
      rw [Advance.asked_concat]
      exact List.mem_append_left _ h.among
    case furthest =>
      refine ⟨n, ht, ?_⟩
      intro d hd j hj
      rw [Advance.asked_concat] at hd
      rcases List.mem_append.mp hd with hold | hnew
      · exact hmost d hold j hj
      · rw [List.mem_singleton.mp hnew] at hj
        exact hbehind j hj
    case delivered => rw [h.find?_concat ht hbehind (by omega), h.delivered]
    case opened => rw [h.find?_concat ht hbehind (by omega), h.opened]
    case clicked => rw [h.find?_concat ht hbehind (by omega), h.clicked]

/-! ## Sequences of moves -/

theorem movesTo_moveAll (queued : r.JustQueued) (moves : List Advance) :
    r.MovesTo moves (r.moveAll moves) := by
  induction moves using List.reverseRecOn with
  | nil => exact movesTo_nil queued
  | append_singleton rest m ih =>
    rw [moveAll_concat]
    exact ih.concat m

/-- A move is applied if it exceeds the earlier ones, and otherwise changes nothing. -/
theorem MovesTo.answer (h : r.MovesTo moves t) (m : Advance) :
    (m.Exceeds moves ∧ (t.advance m.status m.time).1 = .applied) ∨
      (¬ m.Exceeds moves ∧ t.advance m.status m.time = (.stale, t)) := by
  obtain ⟨n, ht, -⟩ := h.furthest
  rw [h.exceeds_iff ht]
  rcases advance_of_rank? ht m.status m.time with ⟨k, hk, hlt, happlied⟩ | ⟨hbehind, hstale⟩
  · exact Or.inl ⟨⟨k, hk, hlt⟩, congrArg Prod.fst happlied⟩
  · refine Or.inr ⟨?_, hstale⟩
    rintro ⟨k, hk, hlt⟩
    have hle := hbehind k hk
    omega

/-- The furthest stage does not depend on the order of the moves, nor do the stages reached. -/
theorem MovesTo.perm {reordered : List Advance} {t' : MessageRecord} (h : r.MovesTo moves t)
    (h' : r.MovesTo reordered t') (perm : reordered.Perm moves) :
    t'.status = t.status ∧ t'.stamped = t.stamped := by
  have hasked : ∀ d, d ∈ Advance.asked reordered ↔ d ∈ Advance.asked moves := fun d =>
    ((perm.map Advance.status).cons _).mem_iff
  obtain ⟨n, hn, hmost⟩ := h.furthest
  obtain ⟨n', hn', hmost'⟩ := h'.furthest
  constructor
  · apply DeliveryStatus.rank?_injective
    have hle := hmost _ ((hasked _).mp h'.among) n' hn'
    have hge := hmost' _ ((hasked _).mpr h.among) n hn
    rw [hn, hn', Nat.le_antisymm hle hge]
  · have hfound : ∀ stage, (reordered.find? (Advance.reaches stage)).isSome =
        (moves.find? (Advance.reaches stage)).isSome := by
      intro stage
      rw [List.isSome_find?, List.isSome_find?]
      exact perm.any_eq
    simp only [stamped, h.delivered, h.opened, h.clicked, h'.delivered, h'.opened, h'.clicked,
      Option.isSome_map, hfound]

/-- What an earlier move has asked for, a later one does not exceed. -/
theorem not_exceeds {earlier : List Advance} {e : Advance} (he : e ∈ earlier)
    (same : e.status = m.status) : ¬ m.Exceeds earlier := by
  rintro ⟨n, hn, hless⟩
  have hasked : e.status ∈ Advance.asked earlier :=
    List.mem_cons_of_mem _ (List.mem_map_of_mem he)
  have hlt := hless e.status hasked n (same ▸ hn)
  omega

/-- Whatever a queued record is asked to do, it ends at the furthest stage that it was asked for,
each stage has the time of the first move that reached it, and exactly the moves that exceed all
earlier ones are applied. So the moves lead to the same stages in any order, and a move that is made
again changes nothing. -/
theorem moves_take_effect (queued : r.JustQueued) (moves : List Advance) :
    r.MovesTo moves (r.moveAll moves) ∧
      (∀ earlier m later, moves = earlier ++ m :: later →
        let t := r.moveAll earlier
        (m.Exceeds earlier ∧ (t.advance m.status m.time).1 = .applied) ∨
          (¬ m.Exceeds earlier ∧ t.advance m.status m.time = (.stale, t))) ∧
      (∀ reordered, reordered.Perm moves →
        (r.moveAll reordered).status = (r.moveAll moves).status ∧
          (r.moveAll reordered).stamped = (r.moveAll moves).stamped) ∧
      ∀ earlier later m, moves = earlier ++ later → (∃ e ∈ earlier, e.status = m.status) →
        r.moveAll (earlier ++ m :: later) = r.moveAll moves := by
  have heffect := movesTo_moveAll queued
  refine ⟨heffect moves, ?_, ?_, ?_⟩
  · rintro earlier m later -
    exact (heffect earlier).answer m
  · exact fun reordered perm => (heffect moves).perm (heffect reordered) perm
  · rintro earlier later m rfl ⟨e, he, same⟩
    have hstale : ((r.moveAll earlier).advance m.status m.time).2 = r.moveAll earlier := by
      rcases (heffect earlier).answer m with ⟨hexceeds, -⟩ | ⟨-, hstale⟩
      · exact absurd hexceeds (not_exceeds he same)
      · exact congrArg Prod.snd hstale
    rw [moveAll_append, moveAll_append, moveAll_cons, hstale]

/-- A record that was queued a second after the epoch. -/
def sample : MessageRecord where
  id := .nil
  campaignId := .nil
  customerId := "a"
  messageId := "msg_1000000_a"
  status := .queued
  sentAt := ⟨1, 0⟩
  deliveredAt := none
  openedAt := none
  clickedAt := none
  failureReason := none

/-- A stage is skipped, a failure and an earlier stage are asked for in vain, and the last stage is
reached, after which a repeated move comes too late. -/
theorem skipping_moves_take_effect :
    let moves : List Advance := [⟨.opened, ⟨5, 0⟩⟩, ⟨.failed, ⟨6, 0⟩⟩, ⟨.delivered, ⟨4, 0⟩⟩,
      ⟨.clicked, ⟨9, 0⟩⟩]
    let t := sample.moveAll moves
    sample.JustQueued ∧ t.status = .clicked ∧ t.deliveredAt = some ⟨5, 0⟩ ∧
      t.openedAt = some ⟨5, 0⟩ ∧ t.clickedAt = some ⟨9, 0⟩ ∧
      (sample.moveAll moves.reverse).status = t.status ∧
      sample.moveAll (moves ++ [⟨.opened, ⟨5, 0⟩⟩]) = t := by
  intro moves t
  have queued : sample.JustQueued := ⟨rfl, rfl, rfl, rfl⟩
  obtain ⟨heffect, -, hreordered, hrepeated⟩ := moves_take_effect queued moves
  refine ⟨queued, by decide, heffect.delivered, heffect.opened, heffect.clicked,
    (hreordered moves.reverse (List.reverse_perm moves)).1, ?_⟩
  exact hrepeated moves [] ⟨.opened, ⟨5, 0⟩⟩ (List.append_nil moves).symm
    ⟨⟨.opened, ⟨5, 0⟩⟩, List.mem_cons_self, rfl⟩

end MessageRecord

end Outreach

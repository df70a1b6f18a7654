import Mathlib.Algebra.GroupWithZero.Nat
import Outreach.Delivery.Settings
import Outreach.Proofs.Answer

/-!
# How long the stages of the funnel take

Under valid settings every delay that is drawn for a stage lies in the range of the stage, whatever
the generator gives. So the delays of the stages up to one of them add up to a time between the sums
of the least and of the longest delays, and all three stages take no longer than the funnel may. A
probability of one always comes true.
-/

namespace Outreach

namespace Generator

theorem long_lt (g : Generator) : g.long.1 < Nat.pow 2 64 := by
  have hlow := (g.stream g.position).toNat_lt
  have hhigh := (g.stream (g.position + 1)).toNat_lt
  have hhalf : Nat.pow 2 32 = 4294967296 := rfl
  have hwhole : Nat.pow 2 64 = 4294967296 * 4294967296 := rfl
  simp only [long, hhalf, hwhole]
  omega

/-- A number drawn below a bound is below it, also when the draws give out. -/
theorem below_lt {range : Nat} (positive : 0 < range) (fuel : Nat) (g : Generator) :
    (below 64 range fuel g).1 < range := by
  induction fuel generalizing g with
  | zero => exact positive
  | succ fuel ih =>
    have hv : (g.draw 64).1 < Nat.pow 2 64 := g.long_lt
    simp only [below]
    split
    · exact Nat.div_lt_of_lt_mul (Nat.mul_lt_mul_of_pos_right hv positive)
    · exact ih _

theorem chance_one (g : Generator) : g.chance 1.0 = (true, g) := by
  have hone : Decimal.compare? 1.0 1.0 = some .eq := by decide +kernel
  simp only [chance, hone]

end Generator

/-- A delay that is drawn lies in its range. -/
theorem DelayRange.draw_bounds {w : DelayRange} (ordered : w.minMs ≤ w.maxMs) (g : Generator) :
    w.minMs ≤ (w.draw g).1 ∧ (w.draw g).1 ≤ w.maxMs := by
  rw [draw]
  split
  · exact ⟨Nat.le_refl _, ordered⟩
  · rename_i hwide
    have hpositive : 0 < w.maxMs - w.minMs := by omega
    have hbelow := Generator.below_lt hpositive Generator.maxDraws g
    simp only [Generator.uniform]
    omega

/-- Valid settings have no range that ends before it begins. -/
theorem DeliverySettings.delays_ordered {s : DeliverySettings} (valid : s.validate = .ok ()) :
    ∀ delay ∈ s.delays, delay.2.minMs ≤ delay.2.maxMs := by
  have hfault : s.fault? = none := by
    cases hf : s.fault? with
    | none => rfl
    | some reason => simp [validate, hf] at valid
  rw [fault?] at hfault
  split at hfault
  · cases hfault
  · obtain ⟨-, hdelays⟩ := Option.or_eq_none_iff.mp hfault
    intro delay hdelay
    have hnone := List.findSome?_eq_none_iff.mp hdelays delay hdelay
    rw [delayFault?] at hnone
    split at hnone
    · assumption
    · cases hnone

namespace Stage

variable {settings : DeliverySettings} {stage next : Stage}

theorem delay_ordered (valid : settings.validate = .ok ()) (stage : Stage) :
    (stage.delay settings).minMs ≤ (stage.delay settings).maxMs := by
  have hmem : stage.delay settings ∈ settings.delays.map Prod.snd := by
    cases stage <;> simp [delay, DeliverySettings.delays]
  obtain ⟨delay, hdelay, hsame⟩ := List.mem_map.mp hmem
  rw [← hsame]
  exact DeliverySettings.delays_ordered valid delay hdelay

/-- The stages that a message passes on the way to a stage, the stage included. -/
def upTo : Stage → List Stage
  | delivered => [delivered]
  | opened => [delivered, opened]
  | clicked => [delivered, opened, clicked]

/-- The least time that a message takes to a stage. -/
def earliest (settings : DeliverySettings) (stage : Stage) : Nat :=
  (stage.upTo.map fun k => (k.delay settings).minMs).sum

/-- The longest time that a message takes to a stage. -/
def latest (settings : DeliverySettings) (stage : Stage) : Nat :=
  (stage.upTo.map fun k => (k.delay settings).maxMs).sum

theorem upTo_next (h : stage.next? = some next) : next.upTo = stage.upTo ++ [next] := by
  cases stage <;> cases h <;> rfl

theorem earliest_next (h : stage.next? = some next) :
    earliest settings next = earliest settings stage + (next.delay settings).minMs := by
  simp [earliest, upTo_next h]

theorem latest_next (h : stage.next? = some next) :
    latest settings next = latest settings stage + (next.delay settings).maxMs := by
  simp [latest, upTo_next h]

theorem latest_le (settings : DeliverySettings) (stage : Stage) :
    latest settings stage ≤ settings.maxFunnelMs := by
  cases stage <;> simp [latest, upTo, delay, DeliverySettings.maxFunnelMs] <;> omega

end Stage

end Outreach

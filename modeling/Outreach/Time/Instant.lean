import Outreach.Time.Calendar

/-!
# Instants

An instant is a second of universal time and a part of it in nanoseconds. A part of a full second or
more lies inside the leap second that follows the given second. Instants are ordered by second and
part. Moving an instant that lies inside a leap second leaves that second first, to the side of
the move, and then counts in ordinary seconds.
-/

namespace Outreach

structure Instant where
  seconds : Int
  nanos : Nat
  deriving DecidableEq, Repr

namespace Instant

def nanosPerSecond : Nat := 1000000000

def inLeapSecond (i : Instant) : Bool :=
  decide (nanosPerSecond ≤ i.nanos)

instance : LT Instant :=
  ⟨fun a b => a.seconds < b.seconds ∨ (a.seconds = b.seconds ∧ a.nanos < b.nanos)⟩

instance : LE Instant :=
  ⟨fun a b => a.seconds < b.seconds ∨ (a.seconds = b.seconds ∧ a.nanos ≤ b.nanos)⟩

instance (a b : Instant) : Decidable (a < b) :=
  inferInstanceAs (Decidable (a.seconds < b.seconds ∨ (a.seconds = b.seconds ∧ a.nanos < b.nanos)))

instance (a b : Instant) : Decidable (a ≤ b) :=
  inferInstanceAs (Decidable (a.seconds < b.seconds ∨ (a.seconds = b.seconds ∧ a.nanos ≤ b.nanos)))

def compare (a b : Instant) : Ordering :=
  (Ord.compare a.seconds b.seconds).then (Ord.compare a.nanos b.nanos)

/-- The first instant that can be represented, at the start of the year -262143. -/
def first : Instant :=
  ⟨(Time.Date.mk (-262143) 1 1).toDays * 86400, 0⟩

/-- The last second that can be represented, at the end of the year 262142. -/
def lastSecond : Int :=
  (Time.Date.mk 262142 12 31).toDays * 86400 + 86399

def inRange (i : Instant) : Bool :=
  decide (first.seconds ≤ i.seconds) && decide (i.seconds ≤ lastSecond)

/-- The instant a number of milliseconds later. -/
def addMillis (i : Instant) (ms : Nat) : Instant :=
  let part := ms % 1000 * 1000000
  let plain (nanos : Nat) : Instant :=
    ⟨i.seconds + (ms / 1000 : Nat) + ((nanos + part) / nanosPerSecond : Nat),
      (nanos + part) % nanosPerSecond⟩
  if i.nanos < nanosPerSecond then plain i.nanos
  else if 1000 ≤ ms ∨ 2 * nanosPerSecond ≤ i.nanos + part then plain (i.nanos - nanosPerSecond)
  else ⟨i.seconds, i.nanos + part⟩

/-- The instant a number of days of 24 hours earlier. -/
def subDays (i : Instant) (days : Int) : Instant :=
  let moved (seconds : Int) (nanos : Nat) : Instant := ⟨seconds - days * 86400, nanos⟩
  if i.inLeapSecond ∧ days ≠ 0 then
    moved (if 0 < days then i.seconds + 1 else i.seconds) (i.nanos - nanosPerSecond)
  else moved i.seconds i.nanos

/-- The instant a number of days earlier, if it can be represented. -/
def subDays? (i : Instant) (days : Int) : Option Instant :=
  let j := i.subDays days
  if j.inRange then some j else none

/-- Microseconds since the start of 1970, rounded toward the past. -/
def micros (i : Instant) : Int :=
  i.seconds * 1000000 + (i.nanos / 1000 : Nat)

theorem lt_iff (a b : Instant) :
    a < b ↔ a.seconds < b.seconds ∨ (a.seconds = b.seconds ∧ a.nanos < b.nanos) := Iff.rfl

theorem le_iff (a b : Instant) :
    a ≤ b ↔ a.seconds < b.seconds ∨ (a.seconds = b.seconds ∧ a.nanos ≤ b.nanos) := Iff.rfl

theorem le_refl (a : Instant) : a ≤ a := .inr ⟨rfl, Nat.le_refl _⟩

theorem le_trans {a b c : Instant} (h : a ≤ b) (k : b ≤ c) : a ≤ c := by
  simp only [le_iff] at *
  omega

theorem le_addMillis (i : Instant) (ms : Nat) : i ≤ i.addMillis ms := by
  rw [addMillis, le_iff]
  by_cases h : i.nanos < nanosPerSecond
  · rw [if_pos h]
    simp only [nanosPerSecond] at *
    omega
  · rw [if_neg h]
    by_cases k : 1000 ≤ ms ∨ 2 * nanosPerSecond ≤ i.nanos + ms % 1000 * 1000000
    · rw [if_pos k]
      simp only [nanosPerSecond] at *
      omega
    · rw [if_neg k]
      simp

end Instant

end Outreach

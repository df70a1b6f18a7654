import Outreach.Decimal.Layout
import Outreach.Delivery.Event
import Outreach.Random.Generator

/-!
# Settings of the delivery simulation

Messages are sent in batches, each with a chance of success. A sent message then passes through
three stages. Each stage waits for a time drawn from a range and succeeds with a probability of its
own. Settings are valid if batches are not empty, probabilities lie between zero and one, and no
range ends before it begins.
-/

namespace Outreach

/-- Delays in milliseconds from `minMs` on and below `maxMs`. -/
structure DelayRange where
  minMs : Nat
  maxMs : Nat
  deriving DecidableEq, Repr

structure DeliverySettings where
  batchSize : Nat
  /-- Probability that a message is sent rather than failed. -/
  sendSuccessRate : Float
  deliveryRate : Float
  openRate : Float
  clickRate : Float
  deliveryDelay : DelayRange
  openDelay : DelayRange
  clickDelay : DelayRange
  /-- Seed of the generator, so that a run can be repeated. -/
  rngSeed : Option UInt64

/-- A stage that a sent message can still reach. -/
inductive Stage
  | delivered
  | opened
  | clicked
  deriving DecidableEq, Repr

namespace DelayRange

def encode (w : DelayRange) : Json :=
  .object [("min_ms", .ofNat w.minMs), ("max_ms", .ofNat w.maxMs)]

def decodeWith? (r : Json.Reading) (j : Json) : Option DelayRange :=
  match r.parts? [.required "min_ms", .required "max_ms"] j with
  | some [min, max] => do
    let minMs ← Json.given? r.word? min
    let maxMs ← Json.given? r.word? max
    some { minMs, maxMs }
  | _ => none

/-- A delay from the range. One that ends where it begins, or before, gives its beginning and
draws nothing. -/
def draw (w : DelayRange) (g : Generator) : Nat × Generator :=
  if w.maxMs ≤ w.minMs then (w.minMs, g) else g.uniform 64 w.minMs w.maxMs

end DelayRange

namespace DeliverySettings

def default : DeliverySettings where
  batchSize := 100
  sendSuccessRate := 0.9
  deliveryRate := 0.95
  openRate := 0.7
  clickRate := 0.3
  deliveryDelay := ⟨0, 5000⟩
  openDelay := ⟨0, 10000⟩
  clickDelay := ⟨0, 15000⟩
  rngSeed := none

def layout : List Json.Part :=
  [.defaulted "batch_size", .defaulted "send_success_rate", .defaulted "delivery_rate",
    .defaulted "open_rate", .defaulted "click_rate", .defaulted "delivery_delay",
    .defaulted "open_delay", .defaulted "click_delay", .defaulted "rng_seed"]

def encode (s : DeliverySettings) : Json :=
  .object [("batch_size", .ofNat s.batchSize), ("send_success_rate", .float s.sendSuccessRate),
    ("delivery_rate", .float s.deliveryRate), ("open_rate", .float s.openRate),
    ("click_rate", .float s.clickRate), ("delivery_delay", s.deliveryDelay.encode),
    ("open_delay", s.openDelay.encode), ("click_delay", s.clickDelay.encode),
    ("rng_seed", .ofOption (fun n => .ofNat n.toNat) s.rngSeed)]

def decodeWith? (r : Json.Reading) (j : Json) : Option DeliverySettings :=
  match r.parts? layout j with
  | some [batch, send, delivery, opens, click, deliveryDelay, openDelay, clickDelay, seed] => do
    let batchSize ← Json.givenOr? default.batchSize r.word? batch
    let sendSuccessRate ← Json.givenOr? default.sendSuccessRate r.float? send
    let deliveryRate ← Json.givenOr? default.deliveryRate r.float? delivery
    let openRate ← Json.givenOr? default.openRate r.float? opens
    let clickRate ← Json.givenOr? default.clickRate r.float? click
    let range := DelayRange.decodeWith? r
    let deliveryDelay ← Json.givenOr? default.deliveryDelay range deliveryDelay
    let openDelay ← Json.givenOr? default.openDelay range openDelay
    let clickDelay ← Json.givenOr? default.clickDelay range clickDelay
    let rngSeed ← Json.givenOr? none (Json.option? fun j => (r.word? j).map UInt64.ofNat) seed
    some { batchSize, sendSuccessRate, deliveryRate, openRate, clickRate, deliveryDelay,
           openDelay, clickDelay, rngSeed }
  | _ => none

def decode? : Json → Option DeliverySettings :=
  decodeWith? .strict

/-- A number from zero to one, both included. -/
def isProbability (p : Float) : Bool :=
  match Decimal.compare? p 0.0, Decimal.compare? p 1.0 with
  | some low, some high => low != .lt && high != .gt
  | _, _ => false

def rates (s : DeliverySettings) : List (String × Float) :=
  [("send_success_rate", s.sendSuccessRate), ("delivery_rate", s.deliveryRate),
    ("open_rate", s.openRate), ("click_rate", s.clickRate)]

def delays (s : DeliverySettings) : List (String × DelayRange) :=
  [("delivery_delay", s.deliveryDelay), ("open_delay", s.openDelay),
    ("click_delay", s.clickDelay)]

def rateFault? (rate : String × Float) : Option String :=
  if isProbability rate.2 then none
  else some ("delivery." ++ rate.1 ++ " must be within [0, 1], got " ++
    Decimal.Layout.message.write rate.2)

def delayFault? (delay : String × DelayRange) : Option String :=
  if delay.2.minMs ≤ delay.2.maxMs then none
  else some ("delivery." ++ delay.1 ++ ": min_ms " ++ toString delay.2.minMs ++
    " exceeds max_ms " ++ toString delay.2.maxMs)

/-- What is wrong with the settings, the first fault if there are several. -/
def fault? (s : DeliverySettings) : Option String :=
  if s.batchSize = 0 then some "delivery.batch_size must be at least 1"
  else (s.rates.findSome? rateFault?).or (s.delays.findSome? delayFault?)

def validate (s : DeliverySettings) : Answer Unit :=
  match s.fault? with
  | some reason => .error (.validation reason)
  | none => .ok ()

/-- The longest time that a message can spend in the funnel, in milliseconds. -/
def maxFunnelMs (s : DeliverySettings) : Nat :=
  s.deliveryDelay.maxMs + s.openDelay.maxMs + s.clickDelay.maxMs

end DeliverySettings

namespace Stage

def all : List Stage := [delivered, opened, clicked]

def status : Stage → DeliveryStatus
  | delivered => .delivered
  | opened => .opened
  | clicked => .clicked

def probability (s : Stage) (settings : DeliverySettings) : Float :=
  match s with
  | delivered => settings.deliveryRate
  | opened => settings.openRate
  | clicked => settings.clickRate

def delay (s : Stage) (settings : DeliverySettings) : DelayRange :=
  match s with
  | delivered => settings.deliveryDelay
  | opened => settings.openDelay
  | clicked => settings.clickDelay

/-- The stage that follows in the funnel. -/
def next? : Stage → Option Stage
  | delivered => some opened
  | opened => some clicked
  | clicked => none

end Stage

end Outreach

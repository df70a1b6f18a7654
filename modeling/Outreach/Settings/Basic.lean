import Outreach.Delivery.Settings
import Outreach.Directory.Overview

/-!
# Settings of the whole program

The settings name the node, shape the overviews of segments and drive the delivery. Every part has a
default, so that no settings at all are settings too.
-/

namespace Outreach

structure Settings where
  nodeId : String
  segmentation : OverviewSettings
  delivery : DeliverySettings

namespace Settings

def default : Settings := ⟨"node-01", .default, .default⟩

def layout : List Json.Part :=
  [.defaulted "node_id", .defaulted "segmentation", .defaulted "delivery"]

def encode (s : Settings) : Json :=
  .object [("node_id", .text s.nodeId), ("segmentation", s.segmentation.encode),
    ("delivery", s.delivery.encode)]

def decodeWith? (r : Json.Reading) (j : Json) : Option Settings :=
  match r.parts? layout j with
  | some [nodeId, segmentation, delivery] => do
    let nodeId ← Json.givenOr? default.nodeId r.text? nodeId
    let segmentation ←
      Json.givenOr? default.segmentation (OverviewSettings.decodeWith? r) segmentation
    let delivery ← Json.givenOr? default.delivery (DeliverySettings.decodeWith? r) delivery
    some { nodeId, segmentation, delivery }
  | _ => none

def decode? : Json → Option Settings :=
  decodeWith? .strict

end Settings

end Outreach

import Tandem.Json.Tree
import Tandem.Session.Input
/-!
# Inputs in JSON text

An input is a record with its kind and the particulars of that kind: an object in which further keys are
ignored, or an array of the kind and the particulars in order.
-/

namespace Tandem

/-- Reads a number of 8 bits. -/
def Json.uint8? (j : Json) : Option UInt8 := (j.natBelow? 256).map UInt8.ofNat

/-- Reads a gauge: an object whose only key is the kind of gauge, with its number. -/
def Gauge.ofJson? : Json → Option Gauge
  | .object [(some "light", n)] => n.uint8?.map Gauge.light
  | .object [(some "scale", n)] => n.uint8?.map Gauge.scale
  | _ => none

namespace InputPayload

/-- The names of the particulars of a kind. -/
def particulars? : String → Option (List String)
  | "monitoring_ack" => some ["gauge"]
  | "tracking_move" => some ["dx", "dy"]
  | "communication_tune" => some ["radio", "frequency"]
  | "pump_toggle" => some ["pump"]
  | "match_select" => some ["object"]
  | "match_centering" => some ["score"]
  | _ => none

/-- Reads an input from its kind and particulars. -/
def ofParts? : String → List Json → Option InputPayload
  | "monitoring_ack", [gauge] => do
    pure (monitoringAck (← Gauge.ofJson? gauge))
  | "tracking_move", [dx, dy] => do
    pure (trackingMove (← dx.binary64?) (← dy.binary64?))
  | "communication_tune", [radio, frequency] => do
    pure (communicationTune (← radio.text?) (← frequency.binary64?))
  | "pump_toggle", [pump] => do
    pure (pumpToggle (← pump.uint8?))
  | "match_select", [object] => do
    pure (matchSelect ⟨UInt32.ofNat (← object.natBelow? UInt32.size)⟩)
  | "match_centering", [score] => do
    pure (matchCentering (← score.binary64?))
  | _, _ => none

/-- Reads an input. -/
def ofJson? : Json → Option InputPayload
  | .object members => do
    let kind ← (← Json.member? members "kind").bind Json.text?
    let parts ← (← particulars? kind).mapM (Json.member? members)
    ofParts? kind (← parts.mapM id)
  | .array (kind :: parts) => do
    ofParts? (← kind.text?) parts
  | _ => none

/-- Reads an input from text. -/
def ofText? (text : String) : Option InputPayload := (Json.parseStrict? text).bind ofJson?

end InputPayload

end Tandem

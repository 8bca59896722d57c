import Tandem.Peer.Config
import Tandem.Json.Tree
import Tandem.Json.Writer
import Tandem.Duration.Text
/-!
# Configurations in JSON text

A configuration is a JSON record.  A setting that is absent has its standard value, a key that is no setting
is ignored, and a setting given twice or of another type makes the text no configuration.
-/

namespace Tandem

/-- The value of a setting: its standard if it is absent. -/
def setting? {α : Type} (standard : α) (read : Json → Option α) : Option Json → Option α
  | none => some standard
  | some j => read j

/-- A duration, written as text. -/
def Duration.ofJson? (j : Json) : Option Duration := j.text?.bind Duration.ofText?

/-- A number of 64 bits. -/
def Json.uint64? (j : Json) : Option UInt64 := j.nat?.map UInt64.ofNat

/-- A socket address, written as text. -/
def SocketAddress.ofJson? (j : Json) : Option SocketAddress := j.text?.bind SocketAddress.ofText?

/-- A socket address, or null for none. -/
def SocketAddress.ofJsonOrNull? : Json → Option (Option SocketAddress)
  | .null => some none
  | j => (SocketAddress.ofJson? j).map some

namespace LinkSettings

/-- The names of the settings. -/
def names : List String :=
  ["heartbeat_interval", "heartbeat_timeout", "reconnect_grace", "outbound_capacity", "high_watermark",
    "inbound_capacity"]

/-- Reads link settings. -/
def ofJson? (j : Json) : Option LinkSettings := do
  match ← j.record? names with
  | [interval, timeout, grace, capacity, watermark, inbound] =>
    pure
      { heartbeatInterval := ← setting? standard.heartbeatInterval Duration.ofJson? interval
        heartbeatTimeout := ← setting? standard.heartbeatTimeout Duration.ofJson? timeout
        reconnectGrace := ← setting? standard.reconnectGrace Duration.ofJson? grace
        outboundCapacity := ← setting? standard.outboundCapacity Json.nat? capacity
        highWatermark := ← setting? standard.highWatermark Json.nat? watermark
        inboundCapacity := ← setting? standard.inboundCapacity Json.nat? inbound }
  | _ => none

/-- Writes link settings. -/
def toJsonText (s : LinkSettings) : String :=
  Json.writeObject
    [("heartbeat_interval", Json.quote s.heartbeatInterval.toText),
      ("heartbeat_timeout", Json.quote s.heartbeatTimeout.toText),
      ("reconnect_grace", Json.quote s.reconnectGrace.toText),
      ("outbound_capacity", toString s.outboundCapacity), ("high_watermark", toString s.highWatermark),
      ("inbound_capacity", toString s.inboundCapacity)]

end LinkSettings

namespace ReconnectSettings

/-- The names of the settings. -/
def names : List String := ["initial_backoff", "max_backoff"]

/-- Reads reconnect settings. -/
def ofJson? (j : Json) : Option ReconnectSettings := do
  match ← j.record? names with
  | [initial, max] =>
    pure
      { initialBackoff := ← setting? standard.initialBackoff Duration.ofJson? initial
        maxBackoff := ← setting? standard.maxBackoff Duration.ofJson? max }
  | _ => none

/-- Writes reconnect settings. -/
def toJsonText (s : ReconnectSettings) : String :=
  Json.writeObject
    [("initial_backoff", Json.quote s.initialBackoff.toText),
      ("max_backoff", Json.quote s.maxBackoff.toText)]

end ReconnectSettings

namespace PeerConfig

/-- The names of the settings. -/
def names : List String :=
  ["session_id", "participant", "peer_participant", "role", "listen", "connect", "tick_interval",
    "load_policy", "notification_capacity", "link", "reconnect"]

/-- Reads a configuration, whether or not a session can run with it.  An absent setting is that of `base`. -/
def ofJson? (base : PeerConfig) (j : Json) : Option PeerConfig := do
  match ← j.record? names with
  | [sessionId, participant, peerParticipant, role, listen, connect, tick, policy, capacity, link, reconnect] =>
    pure
      { sessionId := ← setting? base.sessionId Json.uint64? sessionId
        participant := ← setting? base.participant Json.uint64? participant
        peerParticipant := ← setting? base.peerParticipant Json.uint64? peerParticipant
        role := ← setting? base.role (fun j => j.choice?.bind Role.ofName?) role
        listen := ← setting? base.listen SocketAddress.ofJson? listen
        connect := ← setting? base.connect SocketAddress.ofJsonOrNull? connect
        tickInterval := ← setting? base.tickInterval Duration.ofJson? tick
        loadPolicy := ← setting? base.loadPolicy (fun j => j.choice?.bind LoadPolicy.ofName?) policy
        notificationCapacity := ← setting? base.notificationCapacity Json.nat? capacity
        link := ← setting? base.link LinkSettings.ofJson? link
        reconnect := ← setting? base.reconnect ReconnectSettings.ofJson? reconnect }
  | _ => none

/-- Reads a configuration over that of `base` and makes sure that a session can run with it. -/
def ofJson (base : PeerConfig) (j : Json) : Except SetupFault PeerConfig :=
  match ofJson? base j with
  | none => .error .notJson
  | some c =>
    match c.check? with
    | some fault => .error (.config fault)
    | none => .ok c

/-- Reads the text of a configuration and makes sure that a session can run with it. -/
def ofText (text : String) : Except SetupFault PeerConfig :=
  match Json.parse? text with
  | none => .error .notJson
  | some j => ofJson standard j

/-- Writes a configuration. -/
def toJsonText (c : PeerConfig) : String :=
  Json.writeObject
    [("session_id", toString c.sessionId.toNat), ("participant", toString c.participant.toNat),
      ("peer_participant", toString c.peerParticipant.toNat), ("role", Json.quote c.role.name),
      ("listen", Json.quote c.listen.toText),
      ("connect", (c.connect.map (fun a => Json.quote a.toText)).getD "null"),
      ("tick_interval", Json.quote c.tickInterval.toText), ("load_policy", Json.quote c.loadPolicy.name),
      ("notification_capacity", toString c.notificationCapacity), ("link", c.link.toJsonText),
      ("reconnect", c.reconnect.toJsonText)]

end PeerConfig

end Tandem

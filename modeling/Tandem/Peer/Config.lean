import Tandem.Link.Basic
import Tandem.Scenario.Load
import Tandem.Peer.Address
/-!
# The configuration of a peer

Every setting has a standard value, so a configuration names only what it changes.  `PeerConfig.check?`
tells why no session can run with a configuration.
-/

namespace Tandem

/-- Which end of the session a peer is. -/
inductive Role where
  /-- Waits for the connection and starts the session clock. -/
  | host
  /-- Makes the connection and starts on the signal of the host. -/
  | guest
deriving DecidableEq

namespace Role

/-- The name of a role. -/
def name : Role → String
  | host => "host"
  | guest => "guest"

/-- Every role. -/
def all : List Role := [host, guest]

/-- The role of a name. -/
def ofName? (s : String) : Option Role := all.find? (fun r => r.name = s)

/-- The role of a name in any case, or what is wrong with it. -/
def ofText (s : String) : Except String Role :=
  let name := Text.lowercase s
  match ofName? name with
  | some r => .ok r
  | none => .error s!"unknown role '{name}', expected host or guest"

end Role

/-- How long to wait before connecting again. -/
structure ReconnectPolicy where
  initialBackoff : Duration
  maxBackoff : Duration
deriving DecidableEq

namespace ReconnectPolicy

/-- The policy when none is chosen. -/
def standard : ReconnectPolicy := ⟨.ofMillis 100, .ofSeconds 5⟩

/-- The delay before an attempt, counted from zero, without jitter: it doubles with each attempt up to the
sixteenth and stays below the maximum. -/
def baseDelay (p : ReconnectPolicy) (attempt : Nat) : Duration :=
  (p.initialBackoff.scale (1 <<< min attempt 16)).shorter p.maxBackoff

/-- Whether a delay gets jitter, which is up to a quarter of its whole milliseconds. -/
def isJittered (base : Duration) : Bool := 4 ≤ base.wholeMillis

end ReconnectPolicy

/-- The settings of the link. -/
structure LinkSettings where
  heartbeatInterval : Duration
  heartbeatTimeout : Duration
  reconnectGrace : Duration
  outboundCapacity : Nat
  highWatermark : Nat
  /-- The frames that may wait between the connection and the session. -/
  inboundCapacity : Nat
deriving DecidableEq

namespace LinkSettings

/-- The settings when none are chosen. -/
def standard : LinkSettings :=
  let link := LinkConfig.standard
  ⟨link.heartbeatInterval, link.heartbeatTimeout, link.reconnectGrace, link.outboundCapacity,
    link.highWatermark, 1024⟩

/-- The configuration of the link; the watermark is not above the capacity. -/
def linkConfig (s : LinkSettings) : LinkConfig :=
  ⟨s.heartbeatInterval, s.heartbeatTimeout, s.reconnectGrace, s.outboundCapacity,
    min s.highWatermark s.outboundCapacity⟩

end LinkSettings

/-- The settings of reconnecting. -/
structure ReconnectSettings where
  initialBackoff : Duration
  maxBackoff : Duration
deriving DecidableEq

namespace ReconnectSettings

/-- The settings when none are chosen. -/
def standard : ReconnectSettings :=
  ⟨ReconnectPolicy.standard.initialBackoff, ReconnectPolicy.standard.maxBackoff⟩

/-- The policy; the maximum is not below the initial delay. -/
def policy (s : ReconnectSettings) : ReconnectPolicy :=
  ⟨s.initialBackoff, s.maxBackoff.longer s.initialBackoff⟩

end ReconnectSettings

/-- The configuration of a peer. -/
structure PeerConfig where
  sessionId : UInt64
  /-- The participant at this peer. -/
  participant : UInt64
  /-- The participant at the other peer. -/
  peerParticipant : UInt64
  role : Role
  /-- Where a host listens. -/
  listen : SocketAddress
  /-- Where a guest connects to. -/
  connect : Option SocketAddress
  tickInterval : Duration
  loadPolicy : LoadPolicy
  /-- How many notifications are kept for a renderer. -/
  notificationCapacity : Nat
  link : LinkSettings
  reconnect : ReconnectSettings
deriving DecidableEq

/-- Why no session can run with a configuration. -/
inductive ConfigFault where
  | sameParticipant
  | noOutboundCapacity
  | timeoutTooShort
  | guestWithoutAddress
deriving DecidableEq

/-- The wording for people. -/
def ConfigFault.message : ConfigFault → String
  | sameParticipant => "participant and peer_participant must differ"
  | noOutboundCapacity => "outbound_capacity must be positive"
  | timeoutTooShort => "heartbeat_timeout must exceed heartbeat_interval"
  | guestWithoutAddress => "a guest needs a connect address"

namespace PeerConfig

/-- The configuration when nothing is chosen. -/
def standard : PeerConfig :=
  { sessionId := 1
    participant := 1
    peerParticipant := 2
    role := .host
    listen := .v4 [0, 0, 0, 0] 7400
    connect := none
    tickInterval := .ofMillis 10
    loadPolicy := .failFast
    notificationCapacity := 0
    link := .standard
    reconnect := .standard }

/-- The first reason why no session can run with a configuration. -/
def check? (c : PeerConfig) : Option ConfigFault :=
  if c.participant = c.peerParticipant then some .sameParticipant
  else if c.link.outboundCapacity = 0 then some .noOutboundCapacity
  else if c.link.heartbeatTimeout ≤ c.link.heartbeatInterval then some .timeoutTooShort
  else if c.role = .guest ∧ c.connect = none then some .guestWithoutAddress
  else none

/-- The session of the peer. -/
def session (c : PeerConfig) : SessionId := ⟨c.sessionId⟩

/-- The participant at this peer. -/
def localId (c : PeerConfig) : ParticipantId := ⟨c.participant⟩

/-- The participant at the other peer. -/
def remoteId (c : PeerConfig) : ParticipantId := ⟨c.peerParticipant⟩

/-- The participants in the order of their windows: the host's comes first. -/
def participants (c : PeerConfig) : ParticipantId × ParticipantId :=
  match c.role with
  | .host => (c.localId, c.remoteId)
  | .guest => (c.remoteId, c.localId)

end PeerConfig

/-- Where the transport of a peer begins. -/
inductive Endpoint where
  | listen (address : SocketAddress)
  | connect (address : SocketAddress)
deriving DecidableEq

/-- The endpoint of a peer; a guest has none without an address to connect to. -/
def PeerConfig.endpoint (c : PeerConfig) : Except ConfigFault Endpoint :=
  match c.role, c.connect with
  | .host, _ => .ok (.listen c.listen)
  | .guest, some address => .ok (.connect address)
  | .guest, none => .error .guestWithoutAddress

/-- Why a peer cannot be set up, or why its session ended. -/
inductive SetupFault where
  /-- The configuration file cannot be read. -/
  | unreadable
  /-- The configuration is not the JSON text of one. -/
  | notJson
  | config (fault : ConfigFault)
  | session (fault : Fault)
deriving DecidableEq

/-- The wording for people.  The text of what cannot be read is not this library's to tell. -/
def SetupFault.message? : SetupFault → Option String
  | unreadable | notJson => none
  | config fault => some s!"Invalid config: {fault.message}"
  | session fault => some fault.message

/-- The exit code of a program that ends with a fault: 2 for a bad configuration, 3 for a bad scenario line, 1
for anything else. -/
def SetupFault.exitCode : SetupFault → Nat
  | unreadable | notJson | config _ => 2
  | session (.malformedCommand ..) => 3
  | session _ => 1

end Tandem

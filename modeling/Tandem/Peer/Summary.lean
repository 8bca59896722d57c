import Tandem.Peer.Step
/-!
# The figures at the end of a session
-/

namespace Tandem

/-- The figures of a session, as one peer counts them. -/
structure SessionSummary where
  phase : PeerPhase
  sessionTime : SessionTime
  commandsDispatched : Nat
  commandsSkipped : Nat
  inputsSubmitted : Nat
  remoteInputs : Nat
  /-- Repeated inputs and repeated frames together. -/
  duplicates : Nat
  rejected : Nat
  messagesSent : Nat
  messagesReceived : Nat
  framesResent : Nat
  reconnects : Nat
  mutationsLogged : Nat

/-- The figures under the names they are reported by. -/
def SessionSummary.figures (s : SessionSummary) : List (String × Nat) :=
  [("session_time_ms", s.sessionTime.ms.toNat), ("commands_dispatched", s.commandsDispatched),
    ("commands_skipped", s.commandsSkipped), ("inputs_submitted", s.inputsSubmitted),
    ("remote_inputs", s.remoteInputs), ("duplicates", s.duplicates), ("rejected", s.rejected),
    ("messages_sent", s.messagesSent), ("messages_received", s.messagesReceived),
    ("frames_resent", s.framesResent), ("reconnects", s.reconnects), ("mutations_logged", s.mutationsLogged)]

/-- The figures of a peer. -/
def Peer.summary (p : Peer) : SessionSummary :=
  { phase := p.phase
    sessionTime := p.now
    commandsDispatched := p.stats.commandsDispatched
    commandsSkipped := p.stats.commandsSkipped
    inputsSubmitted := p.stats.inputsSubmitted
    remoteInputs := p.reconciler.stats.remoteInputs
    duplicates := p.reconciler.stats.duplicates + p.link.stats.duplicates
    rejected := p.reconciler.stats.rejected
    messagesSent := p.link.stats.messagesSent
    messagesReceived := p.link.stats.messagesReceived
    framesResent := p.link.stats.framesResent
    reconnects := p.link.stats.reconnects
    mutationsLogged := p.stats.mutationsLogged }

end Tandem

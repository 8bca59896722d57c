import Tandem.Peer.Basic
/-!
# A step of a peer

A step lets a duration pass and then goes through fixed stages:

1. messages that the link has received are reconciled;
2. local input is applied and forwarded;
3. scenario commands that have come due are run, after which messages that waited for them are reconciled;
4. a matching round whose deadline both peers have passed expires;
5. the timers of the link run;
6. the log is completed.

A message of the other peer whose writes are stamped ahead of local scripted time waits: a write stamped at
`t` has to see every scripted write due by `t`, as it did where it was made.
-/

namespace Tandem.Peer

/-! ## Messages of the other peer -/

/-- Whether a message has to wait for the clock or the scenario of this peer. -/
def mustWait (p : Peer) (m : SyncMessage) : Bool :=
  p.phase = .running &&
    match m.writeTime? with
    | none => false
    | some time =>
      p.now < time ||
        match p.queue.nextDue? with
        | some second => SessionTime.ofSeconds second ≤ time
        | none => false

/-- The session starts on the signal of the other peer, once. -/
def onStart (p : Peer) (seed : SessionTime) : Peer :=
  let p := p.noteRemoteTime seed
  if p.phase = .waiting then { p with clock := p.clock.startAt seed, phase := .running } else p

/-- The other peer paused a running session. -/
def onPause (p : Peer) (time : SessionTime) : Peer :=
  let p := p.noteRemoteTime time
  if p.phase = .running then { p with clock := (p.clock.syncTo time).pause, phase := .paused } else p

/-- The other peer resumed a paused session. -/
def onResume (p : Peer) (time : SessionTime) : Peer :=
  let p := p.noteRemoteTime time
  if p.phase = .paused then { p with clock := (p.clock.syncTo time).resume, phase := .running } else p

/-- Follows a message that steers the session; any other message is of no concern here. -/
def onControl (p : Peer) (m : SyncMessage) : Peer :=
  match m with
  | .start seed => p.onStart seed
  | .pause time => p.onPause time
  | .resume time => p.onResume time
  | .finish => if p.isFinished then p else p.conclude p.now
  | _ => p

/-- Reconciles a message of the other peer. -/
def reconcile (p : Peer) (m : SyncMessage) : Peer :=
  let p := match m.writeTime? with
    | some time => p.noteRemoteTime time
    | none => p
  let (reconciler, battery, outcome) := p.reconciler.onRemoteMessage p.battery p.config.remoteId m
  let p := { p with reconciler := reconciler, battery := battery }
  match outcome with
  | .applied _ | .duplicate | .localTask _ => p
  | .rejected _ => p.count (fun s => { s with remoteRejected := s.remoteRejected + 1 })
  | .passthrough m => p.onControl m

/-- Reconciles up to `limit` held messages in order, as far as none has to wait. -/
def releaseUpTo : (limit : Nat) → Peer → Peer
  | 0, p => p
  | limit + 1, p =>
    match p.held with
    | [] => p
    | m :: rest => if p.mustWait m then p else releaseUpTo limit ({ p with held := rest }.reconcile m)

/-- Reconciles held messages in order, as far as none has to wait. -/
def releaseHeld (p : Peer) : Peer := releaseUpTo p.held.length p

/-- Holds the messages that the link has received. -/
def ingest (p : Peer) : Peer :=
  let (messages, link) := p.link.drainInbound
  { p with link := link, held := p.held ++ messages }

/-! ## Local input -/

/-- Applies a local input and sends what it leads to. -/
def applyInput (p : Peer) (payload : InputPayload) (now : SessionTime) : Peer :=
  let e := InputEvent.captured p.config.localId now payload
  let (reconciler, battery, messages) := p.reconciler.onLocalInput p.battery e now
  messages.foldl (fun p m => p.send m now) { p with reconciler := reconciler, battery := battery }

/-- Applies the pending local input.  While the session is not running it is discarded. -/
def applyLocalInputs (p : Peer) (now : SessionTime) : Peer :=
  let inputs := p.pendingInputs.toList
  let p := { p with pendingInputs := .empty }
  if p.phase ≠ .running then
    p.count (fun s => { s with inputsDropped := s.inputsDropped + inputs.length })
  else inputs.foldl (fun p payload => p.applyInput payload now) p

/-! ## The scenario -/

/-- Follows a command for the session as a whole. -/
def onSessionCommand (p : Peer) (c : SessionCommand) (now : SessionTime) : Peer :=
  match c with
  | .finish => p.terminate
  | .pause => p.pause
  | .resume => p.resume
  | .log message => { p with log := p.log.push (.message now message) }
  | .showLabels on => { p with options := { p.options with showLabels := on } }
  | .allowEscape on => { p with options := { p.options with allowEscape := on } }
  | .allowAltF4 on => { p with options := { p.options with allowAltF4 := on } }

/-- Counts a command that has been run. -/
def countDispatched (p : Peer) : Peer :=
  p.count (fun s => { s with commandsDispatched := s.commandsDispatched + 1 })

/-- Runs a scenario command. -/
def runCommand (p : Peer) (c : ScenarioCommand) (now : SessionTime) : Peer :=
  let (battery, dispatch) := p.battery.run c
  let p := { p with reconciler := p.reconciler.observe c.stamp, battery := battery }
  match dispatch with
  | .applied .. => p.countDispatched
  | .session command => p.countDispatched.onSessionCommand command now
  | .skipped => p.count (fun s => { s with commandsSkipped := s.commandsSkipped + 1 })

/-- Runs scenario commands until the session is over. -/
def runCommands (p : Peer) (now : SessionTime) : List ScenarioCommand → Peer
  | [] => p
  | c :: rest =>
    let p := p.runCommand c now
    if p.isFinished then p else runCommands p now rest

/-- Runs the scenario commands that have come due.  While the link asks to be spared they are held back; a later
step catches up. -/
def dispatchScenario (p : Peer) (now : SessionTime) : Peer :=
  if p.phase ≠ .running then p
  else if p.link.isBackpressured then
    p.count (fun s => { s with dispatchWithheld := s.dispatchWithheld + 1 })
  else
    let (due, queue) := p.queue.advance now.wholeSeconds
    { p with queue := queue }.runCommands now due

/-! ## Rounds and the link -/

/-- Expires a matching round.  Its deadline counts only once the other peer is known to have passed it too, so
that a selection made there just before the deadline is not lost here. -/
def expireRounds (p : Peer) (now : SessionTime) : Peer :=
  if p.phase ≠ .running then p
  else { p with battery := (p.battery.expireRounds (now.earliest p.peerWatermark)).1 }

/-- Lets the timers of the link run.  The session is aborted when the other peer has not come back in
time. -/
def runLinkTimers (p : Peer) (now : SessionTime) : Peer :=
  match p.link.tick now with
  | (link, .ok ()) => { p with link := link }
  | (link, .error .sessionAborted) =>
    let p := { p with link := link }
    if p.isFinished then p else { p.finish now with phase := .aborted }
  | (link, .error _) => { p with link := link }.count (fun s => { s with linkErrors := s.linkErrors + 1 })

/-! ## A whole step -/

/-- The stages of a step at the session time that has been reached.  Messages of the first stage may move the
clock; the stages after it share the time they find. -/
def run (p : Peer) : Peer :=
  let p := (p.count (fun s => { s with ticks := s.ticks + 1 })).ingest.releaseHeld
  let now := p.now
  let p := (p.applyLocalInputs now).dispatchScenario now
  ((p.releaseHeld.expireRounds now).runLinkTimers now).flushLog now

/-- Lets a duration pass; yields the session time it led to, before the stages of the step. -/
def step (p : Peer) (dt : Duration) : SessionTime × Peer :=
  let p := { p with clock := p.clock.advance dt }
  (p.now, p.run)

end Tandem.Peer

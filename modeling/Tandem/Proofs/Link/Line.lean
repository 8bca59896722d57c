import Tandem.Proofs.Link.Recovery
/-!
# Two links and an ordered connection between them

A *line* is an exchange over connections that keep the order and lose nothing while they last.  The ends share one
connection at a time.  When it drops, everything on the way is lost; after that each end is told so, at its own time,
and later that there is a new one.  The first end that is told of a new connection can send on it at once, and the
other one takes those frames when it has been told too.  An end that has not been told yet that its connection is gone
goes on sending, in vain.

The frames on the way are kept in two parts, `early` and `late`: those that the sender put on the connection before it
had taken a hello of the other end on it, and the ones after that.  On one connection all early frames are in front of
the late ones, so the two parts are one queue.  No link reads these parts, and neither what is recorded of the frames
that have been taken.

A frame is `Premature` when it was sent early and is ahead of its place when it is taken.  An end whose line has been
`Continuous` has never found a frame to be missing.
-/

namespace Tandem

/-- What an end may do on its own. -/
inductive OwnAction where
  | send (m : SyncMessage)
  | tick
  | requeue
  | close
  | drainInbound

/-- The same, as something that happens to a link. -/
def OwnAction.toLinkAction : OwnAction → LinkAction
  | send m => .send m
  | tick => .tick
  | requeue => .requeue
  | close => .close
  | drainInbound => .drainInbound

/-- What may happen on a line. -/
inductive LineAction where
  | own (action : OwnAction)
  /-- The connection drops. -/
  | drop
  /-- The end is told that its connection is gone. -/
  | disconnected
  /-- The end is told that there is a new connection. -/
  | connected
  /-- The end puts what it has queued on the connection. -/
  | transmit
  /-- The end takes the next frame. -/
  | receive

/-- Whether the frame is a hello outside the sequence. -/
def Frame.isGreeting (f : Frame) : Bool :=
  f.seq = unsequenced && match f.message with
    | .ok (.hello _ _) => true
    | _ => false

theorem Frame.isGreeting_iff {f : Frame} : f.isGreeting = true ↔
    f.seq = unsequenced ∧ ∃ participant resumeFrom, f.message = .ok (.hello participant resumeFrom) := by
  unfold isGreeting
  rw [Bool.and_eq_true, decide_eq_true_eq]
  refine and_congr_right (fun _ => ?_)
  split
  · exact ⟨fun _ => ⟨_, _, ‹_›⟩, fun _ => rfl⟩
  · rename_i other
    constructor
    · intro never
      cases never
    · rintro ⟨participant, resumeFrom, same⟩
      exact absurd same (other participant resumeFrom)

/-- A frame that has been taken, and the link that took it as it was before. -/
structure Taken where
  before : Link
  frame : Frame
  now : SessionTime
  early : Bool

namespace Taken

/-- What became of the frame. -/
def verdict (t : Taken) : Except Fault Unit := (t.before.onFrame t.frame t.now).2

/-- The frame was sent early and comes before its turn. -/
structure Premature (t : Taken) : Prop where
  early : t.early = true
  isOpen : t.before.state ≠ .closed
  numbered : t.frame.seq ≠ unsequenced
  ahead : t.before.receivedThrough.toNat + 1 < t.frame.seq.toNat

end Taken

/-- An end of a line. -/
structure LineEnd where
  base : LinkEnd
  /-- Whether it has been told of the connection that there is. -/
  joined : Bool
  /-- Whether it has taken a hello on that connection. -/
  greeted : Bool
  early : List Frame
  late : List Frame
  taken : List Taken

namespace LineEnd

/-- An end before its first connection. -/
def fresh (config : LinkConfig) (session : SessionId) (localId : ParticipantId) : LineEnd :=
  ⟨.fresh config session localId, false, false, [], [], []⟩

/-- The connection is gone, with everything on the way. -/
def cut (e : LineEnd) : LineEnd := { e with joined := false, greeted := false, early := [], late := [] }

/-- Something happens to the link. -/
def act (e : LineEnd) (now : SessionTime) (action : LinkAction) : LineEnd :=
  { e with base := e.base.perform [] now action }

/-- What the link has queued is put on the connection, if there is one. -/
def transmit (e : LineEnd) (now : SessionTime) : LineEnd :=
  let frames := e.base.link.drainOutbound.1
  let e := e.act now .drainOutbound
  if !e.joined then e
  else if e.greeted then { e with late := e.late ++ frames }
  else { e with early := e.early ++ frames }

/-- The next frame on the way, whether it was sent early, and the end without it. -/
def offer (e : LineEnd) : Option (Frame × Bool × LineEnd) :=
  match e.early, e.late with
  | f :: rest, _ => some (f, true, { e with early := rest })
  | [], f :: rest => some (f, false, { e with late := rest })
  | [], [] => none

/-- Whether taking the frame makes the link believe a hello. -/
def isMetBy (l : Link) (f : Frame) (now : SessionTime) : Bool :=
  f.isGreeting && l.state ≠ .closed && (l.onFrame f now).2.isOk

/-- The link takes a frame. -/
def take (e : LineEnd) (f : Frame) (early : Bool) (now : SessionTime) : LineEnd :=
  { e with
    base := e.base.perform [f] now (.deliver 0)
    greeted := e.greeted || isMetBy e.base.link f now
    taken := e.taken ++ [⟨e.base.link, f, now, early⟩] }

/-- The end has never found a frame to be missing. -/
structure Continuous (e : LineEnd) : Prop where
  verdicts : ∀ t ∈ e.taken, Verdict.isGap t.verdict = false
  gaps : e.base.link.received.gaps = 0
  reported : e.base.link.stats.gaps = 0

end LineEnd

/-- Something that happens on a line, at a session time. -/
structure LineMove where
  side : Role
  now : SessionTime
  action : LineAction

namespace LineMove

/-- The line after a move.  What is not possible does not happen. -/
def act (x : Ends LineEnd) (move : LineMove) : Ends LineEnd :=
  let e := x.get move.side
  match move.action with
  | .own action => x.set move.side (e.act move.now action.toLinkAction)
  | .drop => ⟨x.host.cut, x.guest.cut⟩
  | .disconnected => if e.joined then x else x.set move.side (e.act move.now .disconnected)
  | .connected => if e.joined then x else x.set move.side { e.act move.now .connected with joined := true }
  | .transmit => x.set move.side (e.transmit move.now)
  | .receive =>
    if e.joined then
      match (x.get move.side.other).offer with
      | some (f, early, sender) => (x.set move.side (e.take f early move.now)).set move.side.other sender
      | none => x
    else x

/-- The line after a run. -/
def run (x : Ends LineEnd) (moves : List LineMove) : Ends LineEnd := moves.foldl act x

/-- A hello that is sent does not claim more than the end has received. -/
def Honest (x : Ends LineEnd) (move : LineMove) : Prop :=
  ∀ participant resumeFrom, move.action = .own (.send (.hello participant resumeFrom)) →
    resumeFrom ≤ (x.get move.side).base.link.receivedThrough

/-- No hello that is sent in a run claims more than its end has received by then. -/
def HonestRun (x : Ends LineEnd) : List LineMove → Prop
  | [] => True
  | move :: rest => move.Honest x ∧ HonestRun (act x move) rest

end LineMove

/-- Two new links of a session, without a connection. -/
def Line.fresh (session : SessionId) (config : Ends LinkConfig) (localId : Ends ParticipantId) : Ends LineEnd :=
  ⟨.fresh config.host session localId.host, .fresh config.guest session localId.guest⟩

end Tandem

import Mathlib.Data.List.Induction
import Tandem.Proofs.Link.Connection
/-!
# The life of a link

A link is called in any order, at any times and with any frames: `LinkCall` lists what can be done to it, and a life is
a list of calls, each with its session time.

Where a link stands is its state, since when it is degraded and who is at the other end (`Link.standing`).  A
call leaves that alone or enters one state, and it closes the link only if it also drops what was to be sent
(`Link.turns_call`).  All that is said of whole lives follows from this.  Since when a link is degraded is told by the
life alone: `Link.DegradedFrom` is the call before which it was not and after which it has been ever since.
-/

namespace Tandem

/-- What can be done to a link. -/
inductive LinkCall where
  | send (m : SyncMessage)
  | tick
  | connected
  | disconnected
  | requeue
  | close
  | drainOutbound
  | drainInbound
  /-- A frame arrives, be it of the other end or not. -/
  | frame (f : Frame)

/-! ## Where a link stands -/

/-- The state of a link and what goes with it. -/
structure LinkStanding where
  config : LinkConfig
  state : LinkState
  since : Option SessionTime
  remote : Option ParticipantId

namespace LinkStanding

/-- The standing in a state that is entered at a time. -/
def enter (s : LinkStanding) (state : LinkState) (now : SessionTime) : LinkStanding :=
  if s.state = state then s else { s with state := state, since := if state = .degraded then some now else none }

/-- How an open link may come to stand. -/
inductive Goes (now : SessionTime) (s : LinkStanding) : LinkStanding → Prop where
  | stays : Goes now s s
  /-- The other end is heard, and known from then on. -/
  | establishes (isOpen : s.state ≠ .closed) (participant : ParticipantId)
      (agrees : ∀ known ∈ s.remote, known = participant) :
      Goes now s ({ s with remote := some participant }.enter .established now)
  | degrades (isOpen : s.state ≠ .closed) : Goes now s (s.enter .degraded now)

/-- What holds of the standing of a link at any time. -/
structure Sound (s : LinkStanding) : Prop where
  known : s.state = .established → s.remote.isSome = true
  timed : s.since.isSome = true ↔ s.state = .degraded

variable {s s' : LinkStanding} {now : SessionTime}

theorem state_enter (s : LinkStanding) (state : LinkState) (now : SessionTime) : (s.enter state now).state = state := by
  unfold enter
  split
  · assumption
  · rfl

theorem remote_enter (s : LinkStanding) (state : LinkState) (now : SessionTime) :
    (s.enter state now).remote = s.remote := by
  unfold enter
  split <;> rfl

theorem config_enter (s : LinkStanding) (state : LinkState) (now : SessionTime) :
    (s.enter state now).config = s.config := by
  unfold enter
  split <;> rfl

/-- A link that stays degraded has been so since the time at which it was before; another one has been so since now. -/
theorem since_enter (s : LinkStanding) (state : LinkState) (now : SessionTime) :
    (s.enter state now).since = if s.state = state then s.since else if state = .degraded then some now else none := by
  unfold enter
  split <;> rfl

theorem Sound.enter (h : s.Sound) {state : LinkState} (known : state = .established → s.remote.isSome = true)
    (now : SessionTime) : (s.enter state now).Sound where
  known isEstablished := by
    rw [state_enter] at isEstablished
    rw [remote_enter]
    exact known isEstablished
  timed := by
    rw [state_enter, since_enter]
    by_cases same : s.state = state
    · rw [if_pos same, ← same]
      exact h.timed
    · rw [if_neg same]
      by_cases degraded : state = .degraded <;> simp [degraded]

theorem Goes.sound (h : s.Goes now s') (sound : s.Sound) : s'.Sound := by
  cases h with
  | stays => exact sound
  | establishes isOpen participant =>
    exact Sound.enter (s := { s with remote := some participant }) ⟨fun _ => rfl, sound.timed⟩ (fun _ => rfl) now
  | degrades => exact sound.enter (fun established => by cases established) now

/-- Who is at the other end does not change once it is known, nor does the configuration. -/
theorem Goes.keeps (h : s.Goes now s') : s'.config = s.config ∧ ∀ known ∈ s.remote, s'.remote = some known := by
  cases h with
  | stays => exact ⟨rfl, fun _ same => same⟩
  | establishes isOpen participant agrees =>
    refine ⟨config_enter _ _ now, fun known same => ?_⟩
    rw [remote_enter, agrees known same]
  | degrades => exact ⟨config_enter s _ now, fun known same => (remote_enter s _ now).trans same⟩

theorem Goes.isOpen (h : s.Goes now s') (isOpen : s.state ≠ .closed) : s'.state ≠ .closed := by
  cases h with
  | stays => exact isOpen
  | establishes | degrades => rw [state_enter]; exact nofun

end LinkStanding

namespace Link

/-- Where a link stands. -/
def standing (l : Link) : LinkStanding := ⟨l.config, l.state, l.degradedSince, l.remote⟩

variable {l : Link} {now : SessionTime}

@[simp] theorem standing_count (l : Link) (f : LinkStats → LinkStats) : (l.count f).standing = l.standing := rfl

@[simp] theorem standing_releaseAcked (l : Link) (ack : UInt64) : (l.releaseAcked ack).standing = l.standing := rfl

@[simp] theorem standing_enter (l : Link) (state : LinkState) (now : SessionTime) :
    (l.enter state now).standing = l.standing.enter state now := by
  unfold enter LinkStanding.enter
  by_cases same : l.state = state
  · rw [if_pos same]
    exact (if_pos same).symm
  · rw [if_neg same]
    exact (if_neg same).symm

@[simp] theorem standing_pushUnsequenced (l : Link) (m : SyncMessage) (now : SessionTime) :
    (l.pushUnsequenced m now).standing = l.standing := by
  unfold pushUnsequenced
  split
  · split <;> rfl
  · rfl

@[simp] theorem standing_beat (l : Link) (now : SessionTime) : (l.beat now).standing = l.standing := by
  unfold beat
  split
  · exact standing_pushUnsequenced _ _ now
  · rfl

@[simp] theorem standing_resend (l : Link) (now : SessionTime) : (l.resend now).standing = l.standing := by
  unfold resend
  split <;> rfl

@[simp] theorem standing_requeue (l : Link) (now : SessionTime) : (l.requeue now).standing = l.standing := by
  unfold requeue
  split
  · exact standing_resend l now
  · rfl

@[simp] theorem standing_onConnected (l : Link) (now : SessionTime) : (l.onConnected now).standing = l.standing := by
  unfold onConnected
  split
  · rfl
  · dsimp only
    rw [standing_pushUnsequenced]
    split <;> rfl

theorem standing_send (l : Link) (m : SyncMessage) (now : SessionTime) : (l.send m now).1.standing = l.standing := by
  rcases l.send_cases m now with ⟨fault, sent⟩ | ⟨-, sent⟩ | ⟨-, -, f, -, sent⟩
  · rw [sent]
  · rw [sent]
    exact l.standing_pushUnsequenced m now
  · rw [sent]
    rfl

/-! ## What a call does -/

/-- Only a degraded link that knows the other end is revived. -/
theorem goes_revive (l : Link) (now : SessionTime) : l.standing.Goes now (l.revive now).standing := by
  unfold revive
  split
  · rename_i silent
    simp only [Bool.and_eq_true, decide_eq_true_eq] at silent
    obtain ⟨⟨degraded, -⟩, isKnown⟩ := silent
    obtain ⟨participant, known⟩ := Option.isSome_iff_exists.mp isKnown
    have same : { l.standing with remote := some participant } = l.standing := by rw [← known]; rfl
    have isOpen : l.standing.state ≠ .closed := fun closed => by cases degraded.symm.trans closed
    have established : LinkStanding.Goes now _ _ := .establishes isOpen participant
      fun other here => Option.some.inj (here.symm.trans known)
    rw [standing_enter]
    rwa [same] at established
  · exact .stays

theorem goes_onDisconnected (l : Link) (now : SessionTime) : l.standing.Goes now (l.onDisconnected now).standing := by
  unfold onDisconnected
  split
  · exact .stays
  · dsimp only
    split
    · rename_i established
      have isOpen : l.standing.state ≠ .closed := fun closed => by cases established.symm.trans closed
      rw [standing_enter]
      exact .degrades isOpen
    · exact .stays

theorem goes_onLinkMessage (isOpen : l.state ≠ .closed) (m : SyncMessage) (now : SessionTime) :
    l.standing.Goes now (l.onLinkMessage m now).1.standing := by
  cases m with
  | hello participant resumeFrom =>
    unfold onLinkMessage
    dsimp only
    split
    · exact .stays
    · rename_i unknown
      rw [standing_resend, standing_enter, standing_releaseAcked]
      refine .establishes isOpen participant fun known same => ?_
      simpa using Option.filter_eq_none_iff.mp unknown known same
  | heartbeat time => exact goes_revive { l with peerTime := l.peerTime.latest time } now
  | delta | forward | start | pause | resume | finish => exact .stays

theorem goes_onSequenced (isOpen : l.state ≠ .closed) (seq : UInt64) (m : SyncMessage) (now : SessionTime) :
    l.standing.Goes now (l.onSequenced seq m now).1.standing := by
  by_cases next : seq = l.receivedThrough + 1
  · rw [onSequenced_next next]
    exact goes_revive { l with received := { l.received with highest := seq } } now
  · by_cases before : seq < l.receivedThrough + 1
    · rw [onSequenced_before before]
      exact .stays
    · rw [onSequenced_ahead next before, standing_pushUnsequenced, noteGap, standing_enter]
      exact .degrades isOpen

theorem goes_onFrame (l : Link) (f : Frame) (now : SessionTime) :
    l.standing.Goes now (l.onFrame f now).1.standing := by
  unfold onFrame
  split
  · exact .stays
  · split
    · exact .stays
    · rename_i isOpen
      dsimp only
      cases f.message with
      | error fault => exact .stays
      | ok m =>
        dsimp only
        split
        · exact goes_onLinkMessage (l := l.heard f.header.ack now) isOpen m now
        · exact goes_onSequenced (l := l.heard f.header.ack now) isOpen f.seq m now

/-- What a call can do to a link. -/
inductive Turns (l : Link) (now : SessionTime) (l' : Link) : Prop where
  | goes (goes : l.standing.Goes now l'.standing)
  /-- The link is closed, and what was to be sent is dropped. -/
  | closes (standing : l'.standing = l.standing.enter .closed now) (outbox : l'.outbox.toList = [])

/-- A tick degrades a link whose other end is silent, and closes one that has been degraded for too long. -/
theorem turns_tick (l : Link) (now : SessionTime) : l.Turns now (l.tick now).1 := by
  unfold tick
  cases state : l.state with
  | closed | connecting => exact .goes .stays
  | established =>
    dsimp only
    have isOpen : l.standing.state ≠ .closed := fun closed => by cases state.symm.trans closed
    split
    · refine .goes ?_
      rw [standing_beat, standing_enter]
      exact .degrades isOpen
    · refine .goes ?_
      rw [standing_beat]
      exact .stays
  | degraded =>
    dsimp only
    split
    · exact .closes (l.standing_enter .closed now) rfl
    · refine .goes ?_
      rw [standing_beat]
      exact .stays

/-- The link after a call. -/
def call (l : Link) (now : SessionTime) : LinkCall → Link
  | .send m => (l.send m now).1
  | .tick => (l.tick now).1
  | .connected => l.onConnected now
  | .disconnected => l.onDisconnected now
  | .requeue => l.requeue now
  | .close => l.close now
  | .drainOutbound => l.drainOutbound.2
  | .drainInbound => l.drainInbound.2
  | .frame f => (l.onFrame f now).1

/-- **What a call does** to where a link stands. -/
theorem turns_call (l : Link) (now : SessionTime) (c : LinkCall) : l.Turns now (l.call now c) := by
  have still : ∀ {l' : Link}, l'.standing = l.standing → l.Turns now l' := fun same => .goes (same ▸ .stays)
  cases c with
  | send m => exact still (l.standing_send m now)
  | tick => exact l.turns_tick now
  | connected => exact still (l.standing_onConnected now)
  | disconnected => exact .goes (l.goes_onDisconnected now)
  | requeue => exact still (l.standing_requeue now)
  | close => exact .closes (l.standing_enter .closed now) rfl
  | drainOutbound | drainInbound => exact still rfl
  | frame f => exact .goes (l.goes_onFrame f now)

theorem Turns.sound {l' : Link} (h : l.Turns now l') (sound : l.standing.Sound) : l'.standing.Sound := by
  cases h with
  | goes goes => exact goes.sound sound
  | closes standing =>
    rw [standing]
    exact sound.enter (fun established => by cases established) now

end Link

/-! ## A closed link -/

namespace Link

/-- The link takes and sends nothing any more. -/
structure Sealed (l : Link) : Prop where
  state : l.state = .closed
  outbox : l.outbox.toList = []

variable {l : Link}

theorem sealed_close (l : Link) (now : SessionTime) : (l.close now).Sealed := by
  refine ⟨?_, rfl⟩
  unfold close enter
  dsimp only
  split
  · assumption
  · rfl

/-- The session is given up only with the link. -/
theorem sealed_of_aborted {now : SessionTime} {fault : Fault} (h : (l.tick now).2 = .error fault) :
    (l.tick now).1.Sealed ∧ fault = .sessionAborted := by
  unfold tick at h ⊢
  cases state : l.state with
  | closed | connecting | established =>
    rw [state] at h
    cases h
  | degraded =>
    rw [state] at h
    dsimp only at h ⊢
    split at h
    · rename_i late
      rw [if_pos late]
      cases h
      exact ⟨l.sealed_close now, rfl⟩
    · cases h

namespace Sealed

variable (h : l.Sealed)
include h

theorem send (m : SyncMessage) (now : SessionTime) : (l.send m now).1 = l := by
  unfold Link.send
  rw [if_pos h.state]

theorem onConnected (now : SessionTime) : l.onConnected now = l := by
  unfold Link.onConnected
  rw [if_pos h.state]

theorem tick (now : SessionTime) : l.tick now = (l, .ok ()) := by
  unfold Link.tick
  rw [h.state]

theorem onFrame (f : Frame) (now : SessionTime) : (l.onFrame f now).1 = l := by
  unfold Link.onFrame
  rw [if_pos h.state]
  split <;> rfl

theorem requeue (now : SessionTime) : l.requeue now = l := by
  unfold Link.requeue canTransmit
  rw [h.state]
  simp

theorem drainOutbound : l.drainOutbound.1 = [] ∧ l.drainOutbound.2.Sealed := by
  refine ⟨?_, h.state, rfl⟩
  unfold Link.drainOutbound
  dsimp only
  rw [h.outbox]
  rfl

theorem onDisconnected (now : SessionTime) : (l.onDisconnected now).Sealed := by
  unfold Link.onDisconnected
  split
  · exact h
  · dsimp only
    rw [if_neg (by rw [h.state]; decide)]
    exact ⟨h.state, rfl⟩

end Sealed

end Link

namespace Link

variable {l : Link} {now : SessionTime}

/-- A link that was closed, and the link after further calls: nothing has come of them. -/
structure Final (l l' : Link) : Prop where
  state : l'.state = .closed
  retained : l'.retained.toList = l.retained.toList
  received : l'.receivedThrough = l.receivedThrough
  /-- Every message is refused. -/
  sends : ∀ m now, l'.send m now = (l', .error (.connectionLost "link closed"))
  /-- No frame is noted, so none is delivered. -/
  takes : ∀ f now, (l'.onFrame f now).1 = l'
  drains : l'.drainOutbound.1 = []

theorem Sealed.call (h : l.Sealed) (now : SessionTime) (c : LinkCall) : (l.call now c).Sealed ∧
    (l.call now c).stream.retained = l.stream.retained ∧ (l.call now c).stream.through = l.stream.through := by
  have still : ∀ {l' : Link}, l' = l → l'.Sealed ∧ l'.stream.retained = l.stream.retained ∧
      l'.stream.through = l.stream.through := fun same => by rw [same]; exact ⟨h, rfl, rfl⟩
  cases c with
  | send m => exact still (h.send m now)
  | tick => exact still (congrArg Prod.fst (h.tick now))
  | connected => exact still (h.onConnected now)
  | disconnected =>
    refine ⟨h.onDisconnected now, ?_⟩
    rw [Link.call, stream_onDisconnected]
    exact ⟨rfl, rfl⟩
  | requeue => exact still (h.requeue now)
  | close =>
    refine ⟨l.sealed_close now, ?_⟩
    rw [Link.call, stream_close]
    exact ⟨rfl, rfl⟩
  | drainOutbound => exact ⟨h.drainOutbound.2, rfl, rfl⟩
  | drainInbound => exact ⟨⟨h.state, h.outbox⟩, rfl, rfl⟩
  | frame f => exact still (h.onFrame f now)

/-- A link that a call closes is sealed. -/
theorem Turns.sealed {l' : Link} (h : l.Turns now l') (isOpen : l.state ≠ .closed) (closed : l'.state = .closed) :
    l'.Sealed := by
  cases h with
  | goes goes => exact absurd closed (goes.isOpen isOpen)
  | closes _ outbox => exact ⟨closed, outbox⟩

/-! ## Whole lives -/

/-- The link after calls at their times. -/
def callAll (l : Link) (calls : List (SessionTime × LinkCall)) : Link := calls.foldl (fun l c => l.call c.1 c.2) l

theorem callAll_append (l : Link) (calls later : List (SessionTime × LinkCall)) :
    l.callAll (calls ++ later) = (l.callAll calls).callAll later := List.foldl_append

theorem callAll_concat (l : Link) (calls : List (SessionTime × LinkCall)) (now : SessionTime) (c : LinkCall) :
    l.callAll (calls ++ [(now, c)]) = (l.callAll calls).call now c := l.callAll_append calls _

/-- The link was not degraded before the call at this time, and it has been ever since. -/
def DegradedFrom (l : Link) (calls : List (SessionTime × LinkCall)) (t : SessionTime) : Prop :=
  ∃ n, calls[n]?.map Prod.fst = some t ∧ (l.callAll (calls.take n)).state ≠ .degraded ∧
    ∀ k, n < k → (l.callAll (calls.take k)).state = .degraded

/-- Whether a call is a tick that gives the session up. -/
def givesUp (l : Link) (now : SessionTime) : LinkCall → Bool
  | .tick =>
    match (l.tick now).2 with
    | .error .sessionAborted => true
    | _ => false
  | _ => false

/-- The times at which a tick gives the session up. -/
def abortions : Link → List (SessionTime × LinkCall) → List SessionTime
  | _, [] => []
  | l, (now, c) :: rest => (if l.givesUp now c then [now] else []) ++ abortions (l.call now c) rest

/-- **What a link has lived through**, from the calls on it. -/
structure Lives (l : Link) (calls : List (SessionTime × LinkCall)) : Prop where
  known : (l.callAll calls).state = .established → (l.callAll calls).remote.isSome = true
  /-- The link says since when it is degraded exactly while it is. -/
  timed : (l.callAll calls).degradedSince.isSome = true ↔ (l.callAll calls).state = .degraded
  began : ∀ t, (l.callAll calls).degradedSince = some t ↔ l.DegradedFrom calls t
  /-- The next tick gives the session up exactly if the link has been degraded for too long. -/
  aborts : ∀ now, ((l.callAll calls).tick now).2 = .error .sessionAborted ↔
    ∃ t, l.DegradedFrom calls t ∧ l.config.reconnectGrace < now.since t
  closes : ∀ now, ((l.callAll calls).tick now).2 = .error .sessionAborted →
    ((l.callAll calls).tick now).1.state = .closed
  once : (l.abortions calls).length ≤ 1
  final : (l.callAll calls).state = .closed → ∀ later, (l.callAll calls).Final (l.callAll (calls ++ later))

/-- A link is degraded since the time at which it became so. -/
theorem Turns.since {l' : Link} (h : l.Turns now l') (degraded : l'.state = .degraded) :
    l'.degradedSince = if l.state = .degraded then l.degradedSince else some now := by
  have state : l'.standing.state = .degraded := degraded
  show l'.standing.since = if l.standing.state = .degraded then l.standing.since else some now
  cases h with
  | closes standing =>
    rw [standing, LinkStanding.state_enter] at state
    cases state
  | goes goes =>
    generalize l'.standing = s' at goes state ⊢
    cases goes with
    | stays => rw [if_pos state]
    | establishes =>
      rw [LinkStanding.state_enter] at state
      cases state
    | degrades => rw [LinkStanding.since_enter, if_pos rfl]

/-- A call changes neither the configuration of a link nor who is known to be at the other end. -/
theorem Turns.keeps {l' : Link} (h : l.Turns now l') :
    l'.config = l.config ∧ ∀ known, l.remote = some known → l'.remote = some known := by
  cases h with
  | goes goes => exact goes.keeps
  | closes standing =>
    refine ⟨?_, fun known same => ?_⟩
    · exact (congrArg LinkStanding.config standing).trans (LinkStanding.config_enter _ _ now)
    · exact (congrArg LinkStanding.remote standing).trans ((LinkStanding.remote_enter _ _ now).trans same)

/-- A fact that every call keeps holds after all of them. -/
theorem callAll_keeps {P : Link → Prop} (each : ∀ {l : Link} (now : SessionTime) (c : LinkCall), P l → P (l.call now c))
    (calls : List (SessionTime × LinkCall)) {l : Link} (before : P l) : P (l.callAll calls) := by
  induction calls generalizing l with
  | nil => exact before
  | cons c rest ih => exact ih (each c.1 c.2 before)

theorem sound_callAll (sound : l.standing.Sound) (calls : List (SessionTime × LinkCall)) :
    (l.callAll calls).standing.Sound :=
  callAll_keeps (P := fun l => l.standing.Sound) (fun {l} now c => (l.turns_call now c).sound) calls sound

theorem sealed_callAll (before : l.state = .closed → l.Sealed) (calls : List (SessionTime × LinkCall)) :
    (l.callAll calls).state = .closed → (l.callAll calls).Sealed := by
  refine callAll_keeps (P := fun l => l.state = .closed → l.Sealed) (fun {l} now c before closed => ?_) calls before
  by_cases isOpen : l.state = .closed
  · exact ((before isOpen).call now c).1
  · exact (l.turns_call now c).sealed isOpen closed

theorem config_callAll (l : Link) (calls : List (SessionTime × LinkCall)) : (l.callAll calls).config = l.config :=
  callAll_keeps (P := fun l' => l'.config = l.config)
    (fun {l'} now c same => (l'.turns_call now c).keeps.1.trans same) calls rfl

namespace DegradedFrom

variable {calls : List (SessionTime × LinkCall)} {t t' : SessionTime}

theorem degraded (h : l.DegradedFrom calls t) : (l.callAll calls).state = .degraded := by
  obtain ⟨n, -, -, since⟩ := h
  have last := since (calls.length + n + 1) (by omega)
  rwa [List.take_of_length_le (by omega)] at last

/-- There is only one such call. -/
theorem unique (h : l.DegradedFrom calls t) (h' : l.DegradedFrom calls t') : t = t' := by
  obtain ⟨n, here, notBefore, since⟩ := h
  obtain ⟨n', here', notBefore', since'⟩ := h'
  obtain before | same | after := Nat.lt_trichotomy n n'
  · exact absurd (since n' before) notBefore'
  · rw [same] at here
    exact Option.some.inj (here.symm.trans here')
  · exact absurd (since' n after) notBefore

/-- A link that was degraded before a call and is so after it has been since then. -/
theorem concat (h : l.DegradedFrom calls t) {now : SessionTime} {c : LinkCall}
    (still : (l.callAll (calls ++ [(now, c)])).state = .degraded) : l.DegradedFrom (calls ++ [(now, c)]) t := by
  obtain ⟨n, here, notBefore, since⟩ := h
  have within : n < calls.length := by
    obtain ⟨x, found, -⟩ := Option.map_eq_some_iff.mp here
    exact (List.getElem?_eq_some_iff.mp found).1
  refine ⟨n, ?_, ?_, fun k after => ?_⟩
  · rwa [List.getElem?_append_left within]
  · rwa [List.take_append_of_le_length (Nat.le_of_lt within)]
  · by_cases inside : k ≤ calls.length
    · rw [List.take_append_of_le_length inside]
      exact since k after
    · rw [List.take_of_length_le (by simp; omega)]
      exact still

/-- A link that becomes degraded in a call is so from then on. -/
theorem here {now : SessionTime} {c : LinkCall} (notBefore : (l.callAll calls).state ≠ .degraded)
    (degraded : (l.callAll (calls ++ [(now, c)])).state = .degraded) : l.DegradedFrom (calls ++ [(now, c)]) now := by
  refine ⟨calls.length, by simp, ?_, fun k after => ?_⟩
  · rwa [List.take_left]
  · rwa [List.take_of_length_le (by simp; omega)]

end DegradedFrom

/-- **Since when a link is degraded.** -/
theorem degradedFrom_of_since (sound : l.standing.Sound) (fresh : l.state ≠ .degraded)
    (calls : List (SessionTime × LinkCall)) {t : SessionTime} (since : (l.callAll calls).degradedSince = some t) :
    l.DegradedFrom calls t := by
  have degraded : ∀ calls, (l.callAll calls).degradedSince.isSome = true → (l.callAll calls).state = .degraded :=
    fun calls => (sound_callAll sound calls).timed.mp
  -- The last call is looked at: it has left the link degraded, or made it so.
  induction calls using List.reverseRecOn generalizing t with
  | nil => exact absurd (degraded [] (Option.isSome_of_eq_some since)) fresh
  | append_singleton calls last ih =>
    obtain ⟨now, c⟩ := last
    have after := degraded _ (Option.isSome_of_eq_some since)
    have known := ((l.callAll calls).turns_call now c).since (by rwa [callAll_concat] at after)
    rw [callAll_concat, known] at since
    by_cases before : (l.callAll calls).state = .degraded
    · rw [if_pos before] at since
      exact (ih since).concat after
    · rw [if_neg before] at since
      exact Option.some.inj since ▸ .here before after

/-- The session is given up by a tick of a link that has been degraded for longer than the grace period. -/
theorem tick_aborted_iff (l : Link) (now : SessionTime) : (l.tick now).2 = .error .sessionAborted ↔
    l.state = .degraded ∧ l.config.reconnectGrace < now.since (l.degradedSince.getD now) := by
  unfold tick
  cases l.state with
  | closed | connecting | established => simp
  | degraded =>
    dsimp only
    split
    · rename_i late
      exact iff_of_true rfl ⟨rfl, late⟩
    · rename_i early
      exact iff_of_false nofun fun both => early both.2

/-- A sealed link has nothing to give up. -/
theorem abortions_sealed (h : l.Sealed) (calls : List (SessionTime × LinkCall)) : l.abortions calls = [] := by
  induction calls generalizing l with
  | nil => rfl
  | cons first rest ih =>
    obtain ⟨now, c⟩ := first
    have quiet : l.givesUp now c = false := by
      cases c with
      | tick => simp [givesUp, h.tick now]
      | send | connected | disconnected | requeue | close | drainOutbound | drainInbound | frame => rfl
    unfold abortions
    rw [quiet, ih (h.call now c).1]
    rfl

/-- **The session is given up once**, if at all: the link is closed then. -/
theorem length_abortions_le (l : Link) (calls : List (SessionTime × LinkCall)) : (l.abortions calls).length ≤ 1 := by
  induction calls generalizing l with
  | nil => exact Nat.zero_le 1
  | cons first rest ih =>
    obtain ⟨now, c⟩ := first
    unfold abortions
    cases up : l.givesUp now c with
    | false => exact ih (l.call now c)
    | true =>
      have sealed : (l.call now c).Sealed := by
        cases c with
        | tick =>
          unfold givesUp at up
          dsimp only at up
          split at up
          · exact (sealed_of_aborted ‹_›).1
          · cases up
        | send | connected | disconnected | requeue | close | drainOutbound | drainInbound | frame => cases up
      rw [abortions_sealed sealed]
      exact Nat.le_refl 1

theorem Sealed.callAll (h : l.Sealed) (calls : List (SessionTime × LinkCall)) : l.Final (l.callAll calls) := by
  have kept : (l.callAll calls).Sealed ∧ (l.callAll calls).stream.retained = l.stream.retained ∧
      (l.callAll calls).stream.through = l.stream.through := by
    refine callAll_keeps (P := fun l' => l'.Sealed ∧ l'.stream.retained = l.stream.retained ∧
      l'.stream.through = l.stream.through) (fun {l'} now c before => ?_) calls ⟨h, rfl, rfl⟩
    obtain ⟨sealed, retained, through⟩ := before.1.call now c
    exact ⟨sealed, retained.trans before.2.1, through.trans before.2.2⟩
  obtain ⟨sealed, retained, through⟩ := kept
  exact ⟨sealed.state, retained, through, fun _ _ => if_pos sealed.state, sealed.onFrame, sealed.drainOutbound.1⟩

theorem sound_new (config : LinkConfig) (session : SessionId) (localId : ParticipantId) :
    (Link.new config session localId).standing.Sound :=
  ⟨nofun, iff_of_false nofun nofun⟩

/-- **The life of a link**, whatever is done to it and at whatever times. -/
theorem lives_new (config : LinkConfig) (session : SessionId) (localId : ParticipantId)
    (calls : List (SessionTime × LinkCall)) : (Link.new config session localId).Lives calls := by
  have sound := sound_new config session localId
  have fresh : (Link.new config session localId).state ≠ .degraded := nofun
  have isOpen : (Link.new config session localId).state ≠ .closed := nofun
  have timed : ((Link.new config session localId).callAll calls).degradedSince.isSome = true ↔
      ((Link.new config session localId).callAll calls).state = .degraded := (sound_callAll sound calls).timed
  have kept := (Link.new config session localId).config_callAll calls
  have began : ∀ t, ((Link.new config session localId).callAll calls).degradedSince = some t ↔
      (Link.new config session localId).DegradedFrom calls t := by
    refine fun t => ⟨degradedFrom_of_since sound fresh calls, fun degraded => ?_⟩
    obtain ⟨t', since⟩ := Option.isSome_iff_exists.mp (timed.mpr degraded.degraded)
    rw [since, degraded.unique (degradedFrom_of_since sound fresh calls since)]
  refine ⟨(sound_callAll sound calls).known, timed, began, fun now => ?_,
    fun now aborted => (sealed_of_aborted aborted).1.state, length_abortions_le _ calls, fun closed later => ?_⟩
  · rw [tick_aborted_iff, kept]
    constructor
    · rintro ⟨degraded, late⟩
      obtain ⟨t, since⟩ := Option.isSome_iff_exists.mp (timed.mpr degraded)
      rw [since] at late
      exact ⟨t, (began t).mp since, late⟩
    · rintro ⟨t, degraded, late⟩
      rw [(began t).mpr degraded]
      exact ⟨degraded.degraded, late⟩
  · rw [callAll_append]
    exact (sealed_callAll (fun same => absurd same isOpen) calls closed).callAll later

end Link

end Tandem

import Mathlib.Logic.Relation
import Tandem.Proofs.Link.Continuity
import Tandem.Proofs.Link.Heartbeats
/-!
# Who speaks over a link

A link does not know what the times in its messages mean; whoever owns it does.  A *voice* is an end of a session
together with what its owner answers for: a time, the *horizon*, before which nothing that is still to be said is
stamped.  `Voice.Acts` lists what the owner may do with the link: let time pass, say something that is stamped neither
before the horizon nor after the new one, let the timer run, fetch what has arrived, hang up.

`Voice.Changes` says once what any of these does to the messages that have been said, to the queue and to the
heartbeats.  From it follows that what is said is `Orderly`: a message is never stamped before the time that an
earlier message, or an earlier heartbeat, has told.
-/

namespace Tandem

open Link

namespace SyncMessage

/-- The session time that a message tells: the time of its writes, or the time at which it steers the session. -/
def moment? : SyncMessage → Option SessionTime
  | start time | pause time | resume time => some time
  | m => m.writeTime?

@[simp] theorem moment?_arrived (m : SyncMessage) : m.arrived.moment? = m.moment? := by
  cases m <;> rfl

end SyncMessage

/-- The message is not stamped before a time. -/
def SyncMessage.NotBefore (m : SyncMessage) (t : SessionTime) : Prop := ∀ e s, m = .forward e s → t ≤ s.time

theorem SyncMessage.NotBefore.mono {m : SyncMessage} {t t' : SessionTime} (h : m.NotBefore t) (le : t' ≤ t) :
    m.NotBefore t' :=
  fun e s same => Std.le_trans le (h e s same)

theorem SyncMessage.notBefore_arrived {m : SyncMessage} {t : SessionTime} (h : m.NotBefore t) :
    m.arrived.NotBefore t := by
  intro e s same
  cases m with
  | forward event stamp =>
    cases same
    exact h event s rfl
  | delta | heartbeat | hello | start | pause | resume | finish => cases same

namespace LinkEnd

/-- The numbered messages that have been accepted, as the other end reads them. -/
def said (e : LinkEnd) : List SyncMessage := e.numbered.map (fun p => p.2.arrived)

/-- How far an end has received. -/
def through (e : LinkEnd) : Nat := e.link.stream.through.toNat

@[simp] theorem length_said (e : LinkEnd) : e.said.length = e.numbered.length := List.length_map _

/-- What is retained is no heartbeat. -/
theorem Coherent.silent {e : LinkEnd} (h : e.Coherent) : ∀ f ∈ e.link.stream.retained, f.beat? = none := by
  intro f mem
  obtain ⟨p, said, carries⟩ := h.carries_of_retained mem
  refine Frame.beat?_eq_none fun t carried => ?_
  have isLocal := isLinkLocal_of_mem_numbered said
  rw [carries.2, Except.ok.injEq] at carried
  rw [← SyncMessage.isLinkLocal_arrived, carried] at isLocal
  exact absurd isLocal (by simp [SyncMessage.isLinkLocal])

end LinkEnd

/-- An end of a session and what its owner keeps beside the link. -/
structure Voice where
  record : LinkEnd
  /-- Nothing that is still to be said is stamped before this time. -/
  horizon : SessionTime
  /-- Frames that have been drained and not yet been put on a connection. -/
  finals : List Frame

namespace Voice

/-- What the owner of a link may do with it on its own. -/
inductive Acts (v : Voice) : Voice → Prop
  /-- Time passes. -/
  | waits {horizon : SessionTime} (later : v.horizon ≤ horizon) : Acts v { v with horizon := horizon }
  /-- A message is handed to the link. -/
  | tells {m : SyncMessage} {horizon : SessionTime} (now : SessionTime) (later : v.horizon ≤ horizon)
      (isLocal : m.isLinkLocal = false) (known : ∀ t, m.moment? = some t → t ≤ horizon)
      (fresh : m.NotBefore v.horizon) :
      Acts v { v with record := v.record.perform [] now (.send m), horizon := horizon }
  | ticks {now : SessionTime} (past : now ≤ v.horizon) : Acts v { v with record := v.record.perform [] now .tick }
  | requeues (now : SessionTime) : Acts v { v with record := v.record.perform [] now .requeue }
  | fetches (now : SessionTime) : Acts v { v with record := v.record.perform [] now .drainInbound }
  | closes (now : SessionTime) : Acts v { v with record := v.record.perform [] now .close }
  /-- The queue is kept for the last, and the link is closed. -/
  | hangsUp (drained closed : SessionTime) :
      Acts v { v with
        record := (v.record.perform [] drained .drainOutbound).perform [] closed .close
        finals := v.finals ++ v.record.link.drainOutbound.1 }

/-- The owner does one thing after the other. -/
abbrev Goes : Voice → Voice → Prop := Relation.ReflTransGen Acts

/-- What every operation of the link keeps that is no hello of the owner's, the owner keeps. -/
theorem Goes.record {P : LinkEnd → Prop} {v v' : Voice} (goes : v.Goes v')
    (step : ∀ e now action, (∀ participant resumeFrom, action ≠ .send (.hello participant resumeFrom)) → P e →
      P (e.perform [] now action)) (h : P v.record) : P v'.record := by
  induction goes with
  | refl => exact h
  | tail _ act ih =>
    have quiet : ∀ {action : LinkAction}, (∀ m, action ≠ .send m) → ∀ participant resumeFrom,
        action ≠ .send (.hello participant resumeFrom) := fun other _ _ => other _
    cases act with
    | waits => exact ih
    | @tells m _ now _ isLocal =>
      refine step _ now (.send m) (fun participant resumeFrom same => ?_) ih
      cases same
      cases isLocal
    | @ticks now => exact step _ now .tick (quiet fun _ same => by cases same) ih
    | requeues now => exact step _ now .requeue (quiet fun _ same => by cases same) ih
    | fetches now => exact step _ now .drainInbound (quiet fun _ same => by cases same) ih
    | closes now => exact step _ now .close (quiet fun _ same => by cases same) ih
    | hangsUp drained closed =>
      have queueKept := step _ drained .drainOutbound (quiet fun _ same => by cases same) ih
      exact step _ closed .close (quiet fun _ same => by cases same) queueKept

/-- The times in the heartbeats that have not been put on a connection. -/
def beats (v : Voice) : List SessionTime := Frame.beats v.finals ++ v.record.link.pulse.beats

/-- What an act changes. -/
structure Changes (v v' : Voice) : Prop where
  later : v.horizon ≤ v'.horizon
  said : v'.record.said = v.record.said ∨ ∃ m, v'.record.said = v.record.said ++ [m] ∧
    (∀ t, m.moment? = some t → t ≤ v'.horizon) ∧ m.NotBefore v.horizon
  drained : v.record.drained ⊆ v'.record.drained ∧
    ∀ f ∈ v'.record.drained, f ∈ v.record.drained ∨ ∀ t, f.beat? = some t → t ∈ v.beats
  finals : ∀ f ∈ v'.finals, f ∈ v.finals ∨ f ∈ v'.record.drained
  bond : v'.record.link.bond = v.record.link.bond
  stage : v.record.link.state.stage ≤ v'.record.link.state.stage
  requeues : v.record.Requeues v'.record
  /-- A heartbeat is new only if nothing else was ready to be sent. -/
  beats : ∀ t ∈ v'.beats, t ∈ v.beats ∨
    v.record.link.state ≠ .closed ∧ v.record.link.outbox.toList = [] ∧ t ≤ v.horizon
  through : v'.record.through = v.record.through
  peerTime : v'.record.link.pulse.peerTime = v.record.link.pulse.peerTime

/-- What is said keeps the order of times. -/
structure Orderly (v : Voice) : Prop where
  timely : v.record.said.Pairwise (fun m m' => ∀ t, m.moment? = some t → m'.NotBefore t)
  known : ∀ m ∈ v.record.said, ∀ t, m.moment? = some t → t ≤ v.horizon
  beats : ∀ t ∈ Frame.beats v.record.drained ++ v.beats, t ≤ v.horizon
  finals : v.finals ⊆ v.record.drained

variable {v v' : Voice}

/-- **What is said keeps the order of times.** -/
theorem Orderly.change (h : v.Orderly) (changes : v.Changes v') : v'.Orderly := by
  refine ⟨?_, ?_, ?_, ?_⟩
  · rcases changes.said with same | ⟨m, more, -, fresh⟩
    · rw [same]
      exact h.timely
    · rw [more, List.pairwise_append]
      refine ⟨h.timely, List.pairwise_singleton _ _, fun earlier mem later new t told => ?_⟩
      rw [List.mem_singleton.mp new]
      exact fresh.mono (h.known earlier mem t told)
  · intro m mem t told
    rcases changes.said with same | ⟨new, more, known, -⟩
    · rw [same] at mem
      exact Std.le_trans (h.known m mem t told) changes.later
    · rw [more, List.mem_append, List.mem_singleton] at mem
      rcases mem with old | rfl
      · exact Std.le_trans (h.known m old t told) changes.later
      · exact known t told
  · intro t mem
    -- A heartbeat that is drained was ready to be sent before, and a new one tells a time that has come.
    have before : t ∈ Frame.beats v.record.drained ++ v.beats ∨ t ≤ v.horizon := by
      rcases List.mem_append.mp mem with drained | waiting
      · obtain ⟨f, old, beat⟩ := Frame.mem_beats.mp drained
        left
        rcases changes.drained.2 f old with there | waits
        · exact List.mem_append_left _ (Frame.mem_beats.mpr ⟨f, there, beat⟩)
        · exact List.mem_append_right _ (waits t beat)
      · rcases changes.beats t waiting with old | ⟨-, -, past⟩
        · exact Or.inl (List.mem_append_right _ old)
        · exact Or.inr past
    rcases before with old | past
    · exact Std.le_trans (h.beats t old) changes.later
    · exact Std.le_trans past changes.later
  · intro f mem
    rcases changes.finals f mem with old | drained
    · exact changes.drained.1 (h.finals old)
    · exact drained

/-- What the link does with its owner's act, as far as it does not depend on the act. -/
theorem changes_own (action : OwnAction) {now horizon : SessionTime} (coherent : v.record.Coherent)
    (fewer : v.record.numbered.length + 1 < UInt64.size) (later : v.horizon ≤ horizon)
    (drained : (v.record.perform [] now action.toLinkAction).drained = v.record.drained)
    (said : (v.record.perform [] now action.toLinkAction).said = v.record.said ∨
      ∃ m, (v.record.perform [] now action.toLinkAction).said = v.record.said ++ [m] ∧
        (∀ t, m.moment? = some t → t ≤ horizon) ∧ m.NotBefore v.horizon)
    (pulse : (v.record.perform [] now action.toLinkAction).link.pulse = v.record.link.pulse ∨
      (v.record.perform [] now action.toLinkAction).link.pulse = ⟨v.record.link.pulse.peerTime, []⟩ ∨
      v.record.link.state ≠ .closed ∧ v.record.link.outbox.toList = [] ∧ ∃ t ≤ v.horizon,
        (v.record.perform [] now action.toLinkAction).link.pulse = ⟨v.record.link.pulse.peerTime, [t]⟩) :
    v.Changes { v with record := v.record.perform [] now action.toLinkAction, horizon := horizon } where
  later := later
  said := said
  drained := by
    constructor
    · exact v.record.drained_perform [] now action.toLinkAction
    · intro f mem
      have mem : f ∈ (v.record.perform [] now action.toLinkAction).drained := mem
      rw [drained] at mem
      exact Or.inl mem
  finals _ := Or.inl
  bond := v.record.bond_own now action
  stage := v.record.stage_perform [] now action.toLinkAction
  requeues := LinkEnd.requeues_own coherent fewer
  beats := by
    intro t mem
    rcases List.mem_append.mp mem with kept | queued
    · exact Or.inl (List.mem_append_left _ kept)
    · rcases pulse with same | none | ⟨isOpen, empty, beat, past, one⟩
      · rw [same] at queued
        exact Or.inl (List.mem_append_right _ queued)
      · rw [none] at queued
        exact absurd queued List.not_mem_nil
      · rw [one, List.mem_singleton] at queued
        exact Or.inr ⟨isOpen, empty, queued ▸ past⟩
  through := congrArg UInt64.toNat (v.record.through_perform now action.toLinkAction)
  peerTime := v.record.peerTime_perform now action.toLinkAction

/-- **What an act changes.** -/
theorem changes_of_acts (acts : v.Acts v') (coherent : v.record.Coherent)
    (fewer : v.record.numbered.length + 1 < UInt64.size) : v.Changes v' := by
  have still : v.horizon ≤ v.horizon := Std.le_refl _
  cases acts with
  | waits later =>
    exact ⟨later, Or.inl rfl, ⟨fun _ => id, fun _ => Or.inl⟩, fun _ => Or.inl, rfl, Nat.le_refl _, .still rfl rfl,
      fun _ => Or.inl, rfl, rfl⟩
  | @tells m horizon now later isLocal known fresh =>
    refine changes_own (.send m) coherent fewer later ?_ ?_ ?_
    · dsimp only [OwnAction.toLinkAction, LinkEnd.perform]
      split <;> rfl
    · dsimp only [OwnAction.toLinkAction, LinkEnd.perform]
      rcases v.record.link.send_cases m now with ⟨fault, sent⟩ | ⟨outside, -⟩ | ⟨-, -, f, -, sent⟩
      · rw [sent]
        exact Or.inl rfl
      · rw [isLocal] at outside
        cases outside
      · rw [sent]
        right
        refine ⟨m.arrived, ?_, fun t told => known t (by rwa [SyncMessage.moment?_arrived] at told),
          SyncMessage.notBefore_arrived fresh⟩
        rw [LinkEnd.said, LinkEnd.numbered_enqueue _ _ _ _ isLocal, List.map_append]
        rfl
    · left
      dsimp only [OwnAction.toLinkAction, LinkEnd.perform]
      rcases v.record.link.send_cases m now with ⟨fault, sent⟩ | ⟨outside, -⟩ | ⟨-, -, f, written, sent⟩
      · rw [sent]
      · rw [isLocal] at outside
        cases outside
      · rw [sent]
        exact pulse_enqueue isLocal written now
  | @ticks now past =>
    refine changes_own .tick coherent fewer still rfl (Or.inl rfl) ?_
    rcases pulse_tick v.record.link now with same | none | ⟨isOpen, empty, one⟩
    · exact Or.inl same
    · exact Or.inr (Or.inl none)
    · exact Or.inr (Or.inr ⟨isOpen, empty, now, past, one⟩)
  | requeues now =>
    exact changes_own .requeue coherent fewer still rfl (Or.inl rfl)
      (Or.inl (pulse_requeue coherent.silent now))
  | fetches now =>
    exact changes_own .drainInbound coherent fewer still rfl (Or.inl rfl) (Or.inl rfl)
  | closes now =>
    exact changes_own .close coherent fewer still rfl (Or.inl rfl)
      (Or.inr (Or.inl (pulse_close _ now)))
  | hangsUp drained closed =>
    have gone : v.record.link.drainOutbound.2.pulse = ⟨v.record.link.pulse.peerTime, []⟩ ∧
        Frame.beats v.record.link.drainOutbound.1 = v.record.link.pulse.beats := pulse_drainOutbound v.record.link
    have none : (v.record.link.drainOutbound.2.close closed).pulse = ⟨v.record.link.pulse.peerTime, []⟩ := by
      rw [pulse_close, gone.1]
    -- The heartbeats in the queue are among the last frames now, so none is new and none is lost.
    refine ⟨still, Or.inl rfl, ⟨List.subset_append_left _ _, ?_⟩, ?_, ?_, ?_, ?_, ?_, ?_, ?_⟩
    · intro f mem
      refine (List.mem_append.mp mem).imp_right fun new t beat => ?_
      refine List.mem_append_right _ ?_
      rw [← gone.2]
      exact Frame.mem_beats.mpr ⟨f, new, beat⟩
    · exact fun f mem => (List.mem_append.mp mem).imp_right (List.mem_append_right _)
    · exact bond_close v.record.link.drainOutbound.2 closed
    · exact Nat.le_trans (v.record.stage_perform [] drained .drainOutbound) (LinkEnd.stage_perform _ [] closed .close)
    · exact .closed (state_enter v.record.link.drainOutbound.2 .closed closed) rfl rfl
    · intro t mem
      left
      dsimp only [beats, LinkEnd.perform] at mem
      rw [Frame.beats_append, gone.2, none, List.append_nil] at mem
      exact mem
    · exact congrArg UInt64.toNat
        (((v.record.perform [] drained .drainOutbound).through_perform closed .close).trans
          (v.record.through_perform drained .drainOutbound))
    · exact ((v.record.perform [] drained .drainOutbound).peerTime_perform closed .close).trans
        (v.record.peerTime_perform drained .drainOutbound)

end Voice

end Tandem

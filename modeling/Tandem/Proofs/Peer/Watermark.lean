import Tandem.Proofs.Peer.Chronicle
import Tandem.Simulation.Pair
/-!
# What the watermark of a peer promises

A peer lets a matching round expire only up to its *watermark*, a session time up to which every input of the other
peer is supposed to have been reconciled.  The watermark comes from three sources: the first message that is held, the
messages that have been reconciled, and the heartbeats.

The first two never promise too much, since what is said keeps the order of times.  A heartbeat promises too much when
it has overtaken an input: it is put on a connection before the hello of the other peer makes the link send again what
was lost with the last connection.  `Chronicle.Kept.watermarkSound_iff` says that this is all that can go wrong, and
`Meeting.watermark_sound` that it does not happen while heartbeats wait for hellos.
-/

namespace Tandem

namespace SyncMessage

theorem moment?_of_writeTime? {m : SyncMessage} {t : SessionTime} (h : m.writeTime? = some t) : m.moment? = some t := by
  cases m with
  | forward | delta => exact h
  | heartbeat | hello | start | pause | resume | finish => cases h

/-- What has been heeded is no later than any bound of the times that have been told. -/
theorem foldl_heed_le {l : List SyncMessage} {t bound : SessionTime} (start : t ≤ bound)
    (told : ∀ m ∈ l, ∀ t', m.moment? = some t' → t' ≤ bound) : l.foldl heed t ≤ bound := by
  induction l generalizing t with
  | nil => exact start
  | cons m rest ih =>
    refine ih ?_ fun m' mem => told m' (List.mem_cons_of_mem m mem)
    unfold heed
    split
    · exact SessionTime.latest_le start (told m List.mem_cons_self _ ‹_›)
    · exact start

end SyncMessage

/-! ## The watermark -/

namespace Chronicle

/-- The messages that the peer at an end has reconciled when its rounds are looked at in a step. -/
def reconciled (c : Chronicle) (r : Role) (dt : Duration) : List SyncMessage :=
  let fetched := c.fetched.get r ++ (c.duet.peer r).link.inbox.toList
  fetched.take (fetched.length - ((c.duet.peer r).judged dt).held.length)

/-- The watermark holds what it promises when the rounds of a peer are looked at in a step: each input that the other
peer has forwarded with a stamp before the watermark has been reconciled. -/
def WatermarkSound (c : Chronicle) (r : Role) (dt : Duration) : Prop := ∀ (i : Nat) (e : InputEvent) (s : Stamp),
  (c.said.get r.other)[i]? = some (.forward e s) → s.time < ((c.duet.peer r).judged dt).peerWatermark →
    (c.reconciled r dt)[i]? = some (.forward e s)

end Chronicle

/-! ## What can go wrong -/

section watermark

variable {said heeded held : List SyncMessage} {k : Nat} {peer : SessionTime}

/-- What has been reconciled tells no time after an input that is still to be reconciled. -/
theorem heeded_le (timely : said.Pairwise (fun m m' => ∀ t, m.moment? = some t → m'.NotBefore t))
    (front : heeded <+: said) {i : Nat} {e : InputEvent} {s : Stamp} (later : heeded.length ≤ i)
    (forwarded : said[i]? = some (.forward e s)) : heeded.foldl SyncMessage.heed .zero ≤ s.time := by
  refine SyncMessage.foldl_heed_le (SessionTime.zero_le _) fun m mem t told => ?_
  obtain ⟨j, place, rfl⟩ := List.getElem_of_mem mem
  obtain ⟨inside, here⟩ := List.getElem?_eq_some_iff.mp forwarded
  have earlier := List.pairwise_iff_getElem.mp timely j i (by omega) inside (by omega) t
  rw [← front.getElem place] at earlier
  exact earlier told e s here

/-- A message that is still to be reconciled tells no time after an input that comes with it or later. -/
theorem held_le (timely : said.Pairwise (fun m m' => ∀ t, m.moment? = some t → m'.NotBefore t)) {i j : Nat}
    {m : SyncMessage} {e : InputEvent} {s : Stamp} (waiting : said[j]? = some m) (later : j ≤ i)
    (forwarded : said[i]? = some (.forward e s)) {t : SessionTime} (told : m.writeTime? = some t) : t ≤ s.time := by
  rcases Nat.eq_or_lt_of_le later with rfl | before
  · rw [waiting, Option.some.injEq] at forwarded
    rw [forwarded] at told
    cases told
    exact Std.le_refl _
  · obtain ⟨place, rfl⟩ := List.getElem?_eq_some_iff.mp waiting
    obtain ⟨inside, here⟩ := List.getElem?_eq_some_iff.mp forwarded
    have earlier := List.pairwise_iff_getElem.mp timely j i place inside before
    exact earlier t (SyncMessage.moment?_of_writeTime? told) e s here

/-- **What can go wrong** when everything up to `k` has been fetched: nothing as long as a message is held, and
otherwise only that a heartbeat has told a time after an input that is missing. -/
theorem promises_iff {q : Peer} (timely : said.Pairwise (fun m m' => ∀ t, m.moment? = some t → m'.NotBefore t))
    (front : said.take k = heeded ++ q.held) (remoteTime : q.remoteTime = heeded.foldl SyncMessage.heed .zero) :
    (∀ (i : Nat) (e : InputEvent) (s : Stamp), said[i]? = some (.forward e s) → s.time < q.peerWatermark →
      heeded[i]? = some (.forward e s)) ↔ (q.held = [] → After said k q.link.peerTime) := by
  have start : heeded <+: said := ⟨q.held ++ said.drop k, by rw [← List.append_assoc, ← front, List.take_append_drop]⟩
  have known : ∀ {i : Nat} {e : InputEvent} {s : Stamp}, heeded.length ≤ i → said[i]? = some (.forward e s) →
      q.remoteTime ≤ s.time := fun later forwarded => remoteTime ▸ heeded_le timely start later forwarded
  constructor
  · intro sound nothing m mem e s same
    rw [nothing, List.append_nil] at front
    obtain ⟨j, place⟩ := List.mem_iff_getElem?.mp mem
    rw [List.getElem?_drop, same] at place
    -- An input that is missing cannot have been reconciled.
    have missing : heeded[k + j]? = none := by
      rw [← front]
      exact List.getElem?_eq_none (Nat.le_trans (List.length_take_le k said) (Nat.le_add_right k j))
    have late : ¬ s.time < q.peerWatermark := fun early => by
      rw [sound (k + j) e s place early] at missing
      cases missing
    refine Std.le_trans ?_ (Std.not_lt.mp late)
    rw [Peer.peerWatermark, nothing]
    exact SessionTime.le_latest_right _ _
  · intro after i e s forwarded early
    by_cases before : i < heeded.length
    · rw [List.getElem?_eq_getElem before, start.getElem before, ← forwarded]
      exact (List.getElem?_eq_getElem _).symm
    · -- The input has not been reconciled, so each source of the watermark tells a time no later than its stamp.
      have late := known (Nat.le_of_not_lt before) forwarded
      refine absurd early (Std.not_lt.mpr ?_)
      unfold Peer.peerWatermark
      cases held : q.held with
      | nil =>
        rw [held, List.append_nil] at front
        refine SessionTime.latest_le late (after held _ ?_ e s rfl)
        have length : heeded.length = min k said.length := by rw [← front, List.length_take]
        have inside := (List.getElem?_eq_some_iff.mp forwarded).1
        refine List.mem_iff_getElem?.mpr ⟨i - k, ?_⟩
        rw [List.getElem?_drop, Nat.add_sub_cancel' (by omega), forwarded]
      | cons m rest =>
        have waiting : said[heeded.length]? = some m := by
          have place : (said.take k)[heeded.length]? = some m := by
            rw [front, held, List.getElem?_append_right (Nat.le_refl _), Nat.sub_self]
            rfl
          rw [List.getElem?_take] at place
          split at place
          · exact place
          · cases place
        dsimp only
        cases told : m.writeTime? with
        | none => exact late
        | some t => exact held_le timely waiting (Nat.le_of_not_lt before) forwarded told

end watermark

namespace Chronicle

variable {session : SessionId} {c : Chronicle} {x : Ends LinkEnd} {r : Role} {dt : Duration}

/-- What has been fetched is the front of what the other peer has said. -/
theorem Kept.fetched_eq (h : c.Kept session x) (r : Role) : c.fetched.get r ++ (c.duet.peer r).link.inbox.toList =
    (c.said.get r.other).take (c.duet.peer r).link.receivedThrough.toNat := by
  have inOrder := (h.sure.sound.flow r.other).inOrder
  rw [records_crossing, Role.other_other, LinkEnd.delivered, h.fetched r, h.link r] at inOrder
  rw [← h.said r.other, LinkEnd.said, ← List.map_take]
  exact inOrder

/-- **The watermark of a running peer holds what it promises** exactly if no heartbeat has told a time after an input
that has not arrived; with a message held it always does. -/
theorem Kept.watermarkSound_iff (h : c.Kept session x) (running : ((c.duet.peer r).judged dt).phase = .running) :
    c.WatermarkSound r dt ↔ (((c.duet.peer r).judged dt).held = [] →
      After (c.said.get r.other) (c.duet.peer r).link.receivedThrough.toNat (c.duet.peer r).link.peerTime) := by
  have lives := (h.wise r).livesJudged dt
  have on : ((c.duet.peer r).judged dt).isFinished = false := by
    rw [Peer.isFinished, running]
    rfl
  obtain ⟨heeded, split, remoteTime⟩ := lives.listens (h.listens r) on
  obtain ⟨e, link, -, goes⟩ := lives.speaks (x.get r) (h.link r)
  -- Until the rounds are looked at the peer takes no frame.
  have peerTime : ((c.duet.peer r).judged dt).link.peerTime = (c.duet.peer r).link.peerTime := by
    rw [← link, ← h.link r]
    exact goes.record (P := fun e => e.link.peerTime = (x.get r).link.peerTime)
      (fun e now action _ same => (e.peerTime_perform now action).trans same) rfl
  have reconciled : c.reconciled r dt = heeded := by
    rw [Chronicle.reconciled, split, List.length_append, Nat.add_sub_cancel, List.take_left]
  have said : ((c.crossing x).voices.get r.other).record.said = c.said.get r.other := by
    rw [voices_crossing, ← h.said]
    rfl
  have timely : (c.said.get r.other).Pairwise _ := said ▸ (h.sure.ground r.other).orderly.timely
  rw [h.fetched_eq] at split
  rw [WatermarkSound, reconciled, ← peerTime]
  exact promises_iff timely split remoteTime

/-- On fair lanes no heartbeat has overtaken an input. -/
theorem Kept.heard (h : c.Kept session x) (fair : (c.crossing x).Fair) (r : Role) :
    After (c.said.get r.other) (c.duet.peer r).link.receivedThrough.toNat (c.duet.peer r).link.peerTime := by
  have heard := (fair r.other).heard
  have voice : ((c.crossing x).lane r.other).voice.record = x.get r.other := by cases r <;> rfl
  have ear : ((c.crossing x).lane r.other).ear = x.get r := by cases r <;> rfl
  rw [voice, ear, h.said r.other, LinkEnd.through, h.link r] at heard
  exact heard

end Chronicle

/-- **The watermark holds what it promises** whenever a running peer looks at its rounds, in every run in which
heartbeats wait for hellos. -/
theorem Meeting.watermark_sound {w : Meeting} {moves : List DuetMove}
    (joins : w.configs.guest.session = w.configs.host.session)
    (room : ∀ r, (w.configs.get r).link.outboundCapacity < UInt64.size) (few : (w.chronicle.after moves).Few)
    (patient : w.chronicle.PatientRun moves) (r : Role) (dt : Duration)
    (running : (((w.chronicle.after moves).duet.peer r).judged dt).phase = .running) :
    (w.chronicle.after moves).WatermarkSound r dt := by
  obtain ⟨started, beginning⟩ := w.kept (fun r => by cases r; exacts [rfl, joins]) room
  obtain ⟨x, kept, fair⟩ := started.after few
  exact (kept.watermarkSound_iff running).mpr fun _ => kept.heard (fair patient beginning) r

/-- A script that starts the tracking task and ends the session after half a minute. -/
def trackingScript : List ScenarioCommand :=
  [⟨0, 0, .act (.task .tracking) .start, 1, 0⟩, ⟨30, 0, .act .session .finish, 2, 1⟩]

/-- The peers of the examples. -/
def trackingMeeting : Meeting := ⟨⟨.simulated .host, .simulated .guest⟩, trackingScript⟩

/-- The peers meet, and both run. -/
def trackingStart : List DuetMove :=
  [.connected .host, .connected .guest, .transmit .host, .transmit .guest, .receive .guest, .receive .host,
    .transmit .host, .receive .guest, .own .host (.step (.ofMillis 0)) rfl, .own .guest (.step (.ofMillis 0)) rfl]

/-- The connection breaks, the guest's participant moves the cursor, and both are told of the next connection. -/
def trackingBreak : List DuetMove :=
  [.reopen, .disconnected .host "reset", .disconnected .guest "reset",
    .own .guest (.submit (.trackingMove .zero .zero)) rfl, .own .guest (.step (.ofMillis 100)) rfl,
    .connected .host, .connected .guest]

/-- A second passes at the guest when both have taken the hellos. -/
def calmRun : List DuetMove := trackingStart ++ trackingBreak ++
  [.transmit .host, .transmit .guest, .receive .guest, .receive .host, .transmit .guest,
    .own .guest (.step (.ofMillis 1000)) rfl, .transmit .guest, .receive .host, .receive .host, .receive .host]

/-- A second passes at the guest before it has taken the hello of the host. -/
def hastyRun : List DuetMove := trackingStart ++ trackingBreak ++
  [.transmit .guest, .receive .host, .own .guest (.step (.ofMillis 1000)) rfl, .transmit .guest, .receive .host]

/-- What the guest forwards, as the host reads it. -/
def cursorInput : SyncMessage :=
  .forward (InputEvent.captured ⟨2⟩ ⟨100⟩ (.trackingMove .zero .zero)).asRemote ⟨⟨100⟩, 0, .participant ⟨2⟩⟩

/-- The heartbeat comes behind the input, which is reconciled before the watermark passes it. -/
theorem Meeting.watermark_sound_calmRun :
    ((trackingMeeting.chronicle.after calmRun).said.guest[0]? = some cursorInput ∧
      (((trackingMeeting.chronicle.after calmRun).duet.peer .host).judged (.ofMillis 1200)).peerWatermark = ⟨1100⟩) ∧
    (trackingMeeting.chronicle.after calmRun).WatermarkSound .host (.ofMillis 1200) := by
  have facts : (trackingMeeting.chronicle.after calmRun).Few ∧ trackingMeeting.chronicle.PatientRun calmRun ∧
      (((trackingMeeting.chronicle.after calmRun).duet.peer .host).judged (.ofMillis 1200)).phase = .running ∧
      (trackingMeeting.chronicle.after calmRun).said.guest[0]? = some cursorInput ∧
      (((trackingMeeting.chronicle.after calmRun).duet.peer .host).judged (.ofMillis 1200)).peerWatermark = ⟨1100⟩ := by
    rw [Meeting.chronicle, Meeting.start_of_sorted (by decide)]
    decide +kernel
  obtain ⟨few, patient, running, forwarded⟩ := facts
  exact ⟨forwarded,
    Meeting.watermark_sound rfl (fun r => by cases r <;> decide) few patient .host (.ofMillis 1200) running⟩

/-- The heartbeat overtakes the input, and the watermark passes it before it has arrived. -/
theorem Meeting.not_watermark_sound_hastyRun :
    (((trackingMeeting.chronicle.after hastyRun).duet.peer .host).judged (.ofMillis 1200)).phase = .running ∧
    (∀ r, ((trackingMeeting.chronicle.after hastyRun).duet.peer r).stats.sendFailures = 0) ∧
    ¬ (trackingMeeting.chronicle.after hastyRun).WatermarkSound .host (.ofMillis 1200) := by
  have facts : (((trackingMeeting.chronicle.after hastyRun).duet.peer .host).judged (.ofMillis 1200)).phase = .running ∧
      (∀ r, ((trackingMeeting.chronicle.after hastyRun).duet.peer r).stats.sendFailures = 0) ∧
      (trackingMeeting.chronicle.after hastyRun).said.guest[0]? = some cursorInput ∧
      (((trackingMeeting.chronicle.after hastyRun).duet.peer .host).judged (.ofMillis 1200)).peerWatermark = ⟨1100⟩ ∧
      (trackingMeeting.chronicle.after hastyRun).reconciled .host (.ofMillis 1200) = [] := by
    rw [Meeting.chronicle, Meeting.start_of_sorted (by decide)]
    decide +kernel
  obtain ⟨running, sent, forwarded, watermark, nothing⟩ := facts
  refine ⟨running, sent, fun sound => ?_⟩
  have reconciled := sound 0 _ _ forwarded (by rw [watermark]; decide)
  rw [nothing] at reconciled
  cases reconciled

end Tandem

import Tandem.Proofs.Matching.Entries
import Tandem.Proofs.Peer.Finished
import Tandem.Proofs.Reconcile.Messages
import Tandem.Proofs.Wire.Frames
/-!
# The two messages of an input

An own input that takes effect leads to two messages: the input itself, which the other peer runs on its own state, and
the values that it came to here, which settle what that run left different.  They are to travel together.  With the
first alone, the other peer has values that its originator never had.

The link is asked for each of them.  When it is closed or has no room it refuses both, and when the input cannot be
written, because the name of a radio is too long, neither can its values (`InputPayload.texts_in_writes`).  But it may
take the input into its last place, or the values alone may not fit into a frame.  `Link.Parts` names these cases, and
`Peer.together_iff` says that the messages are parted in no others.
-/

namespace Tandem

open Wire

/-! ## What fits into a frame -/

theorem SessionTime.length_octets (t : SessionTime) : t.octets.length = 8 := length_littleEndian 8 _

theorem ParticipantId.length_octets (p : ParticipantId) : p.octets.length = 8 := length_littleEndian 8 _

theorem Stamp.length_octets_le (s : Stamp) : s.octets.length ≤ 21 := by
  rw [octets, List.length_append, List.length_append, s.time.length_octets, length_littleEndian]
  cases s.writer with
  | scenario => decide
  | participant p =>
    rw [Writer.octets, List.length_cons, p.length_octets]

/-- An input is written in little more than the name of a radio takes. -/
theorem InputPayload.length_octets_le {p : InputPayload} {out : Octets} (written : p.octets = .ok out) :
    out.length ≤ longest + 17 := by
  cases p with
  | communicationTune radio frequency =>
    cases name : textOctets radio with
    | error fault => simp [octets, name, Bind.bind, Except.bind] at written
    | ok body =>
      have short : body.length ≤ longest + 2 := by
        unfold textOctets at name
        dsimp only at name
        split at name
        · rename_i short
          cases name
          have bound : (utf8 radio).length < longest + 1 := short
          rw [List.length_append, length_littleEndian]
          omega
        · cases name
      simp only [octets, name, Bind.bind, Except.bind] at written
      cases written
      rw [List.length_cons, List.length_append, Binary64.octets, length_littleEndian]
      omega
  | monitoringAck gauge =>
    cases written
    cases gauge <;> simp [Gauge.octets, longest]
  | trackingMove | pumpToggle | matchSelect | matchCentering =>
    cases written
    simp [Binary64.octets, longest]

namespace SyncMessage

/-- The message can be written in one frame. -/
def Fits (m : SyncMessage) : Prop := ∃ payload, m.encode = .ok payload ∧ payload.length ≤ maxPayloadSize

theorem fits_iff (session : SessionId) (sender : ParticipantId) (seq : UInt64) {m : SyncMessage} :
    m.Fits ↔ ∃ f, Frame.ofMessage session sender seq m = .ok f := by
  unfold Fits Frame.ofMessage
  cases m.encode with
  | error fault => exact iff_of_false nofun nofun
  | ok payload =>
    by_cases long : maxPayloadSize < payload.length
    · simp only [Except.ok.injEq, exists_eq_left', Nat.not_le.mpr long, false_iff]
      rintro ⟨f, written⟩
      simp only [Bind.bind, Except.bind, if_pos long] at written
      cases written
    · simp only [Except.ok.injEq, exists_eq_left', Nat.not_lt.mp long, true_iff]
      simp only [Bind.bind, Except.bind, if_neg long]
      exact ⟨_, rfl⟩

/-- What fits is not oversized. -/
theorem Fits.texts {m : SyncMessage} (h : m.Fits) : ∀ s ∈ m.texts, s.utf8ByteSize ≤ longest := by
  obtain ⟨payload, written, -⟩ := h
  exact (not_oversized.mp ((isOk_encode m).mp (by rw [written]; rfl))).2

/-- An input fits unless it has a text that is too long. -/
theorem fits_forward {e : InputEvent} {stamp : Stamp} :
    (forward e stamp).Fits ↔ ∀ s ∈ e.payload.texts, s.utf8ByteSize ≤ longest := by
  refine ⟨Fits.texts, fun short => ?_⟩
  have written := e.payload.writable.mpr short
  cases same : e.payload.octets with
  | error fault =>
    rw [same] at written
    cases written
  | ok input =>
    have body := InputPayload.length_octets_le same
    have front := stamp.length_octets_le
    refine ⟨_, by simp only [encode, same, Bind.bind, Except.bind]; rfl, ?_⟩
    simp only [List.length_append, e.origin.length_octets, e.time.length_octets]
    simp only [longest] at body
    simp only [maxPayloadSize]
    omega

end SyncMessage

/-! ## What an input leads to -/

/-- A text of an input is part of the address of each write that it comes to. -/
theorem InputWrites.texts {stamp : Stamp} {payload : InputPayload} {changes : List FieldChange}
    (h : InputWrites stamp payload changes) :
    ∀ s ∈ payload.texts, ∀ c ∈ changes, s.utf8ByteSize ≤ c.key.utf8ByteSize := by
  intro s text c mem
  cases h with
  | nothing => exact absurd mem List.not_mem_nil
  | tune radio frequency =>
    have name : s = radio := List.mem_singleton.mp text
    have around : radioFrequencyKey radio = "radio-" ++ radio ++ "-frequency" := rfl
    rw [List.mem_singleton.mp mem, around, name, String.utf8ByteSize_append, String.utf8ByteSize_append]
    omega
  | light | scale | move | toggle => exact absurd text List.not_mem_nil

/-- What takes effect of an input has its texts in the addresses. -/
theorem Battery.texts_of_applyInput (b : Battery) (e : InputEvent) (stamp : Stamp) (origin : Origin)
    {outcome : Outcome} (applied : (b.applyInput e stamp origin).2 = .ok outcome) :
    ∀ s ∈ e.payload.texts, ∀ c ∈ outcome.applied, s.utf8ByteSize ≤ c.key.utf8ByteSize := by
  have writes : ∀ s ∈ e.payload.texts, ∀ c ∈ (b.inputEffect e stamp).2.toOption.getD [],
      s.utf8ByteSize ≤ c.key.utf8ByteSize := by
    unfold inputEffect
    split
    · rename_i payload
      rw [payload]
      exact fun s text => absurd text List.not_mem_nil
    · rename_i payload
      rw [payload]
      exact fun s text => absurd text List.not_mem_nil
    · exact ((b.store.read e.target).inputWrites e.payload stamp).texts
  exact fun s text c mem => writes s text c ((b.applied_applyInput applied).subset mem)

namespace Reconciler

/-- **What an input leads to**: nothing, or the input and what took effect.  Then the input fits into a frame if what
took effect does. -/
theorem messages_onLocalInput (r : Reconciler) (b : Battery) (e : InputEvent) (now : SessionTime) :
    (r.onLocalInput b e now).2.2 = [] ∨ ∃ stamp changes,
      (r.onLocalInput b e now).2.2 = [.forward e stamp, .delta e.target changes] ∧
      ((SyncMessage.delta e.target changes).Fits → (SyncMessage.forward e stamp).Fits) := by
  unfold onLocalInput
  dsimp only
  split
  · exact Or.inl rfl
  · rename_i outcome same
    split
    · exact Or.inl rfl
    · rename_i effective
      split
      · exact Or.inl rfl
      · refine Or.inr ⟨_, _, rfl, fun fits => SyncMessage.fits_forward.mpr fun s text => ?_⟩
        have texts := b.texts_of_applyInput e _ _ (congrArg Prod.snd same) s text
        obtain ⟨c, mem⟩ := List.exists_mem_of_ne_nil outcome.applied fun none =>
          effective (by rw [Outcome.isNoop, none]; rfl)
        have key : c.key ∈ (SyncMessage.delta e.target outcome.applied).texts :=
          List.mem_flatMap.mpr ⟨c, mem, List.mem_append_left _ (List.mem_singleton_self _)⟩
        exact Nat.le_trans (texts c mem) (fits.texts _ key)

end Reconciler

/-! ## What the link answers -/

namespace Link

/-- The answers of a link to messages that are sent one after the other. -/
def answers (l : Link) (now : SessionTime) : List SyncMessage → List (Except Fault UInt64)
  | [] => []
  | m :: rest => (l.send m now).2 :: (l.send m now).1.answers now rest

/-- Two messages have been taken under consecutive numbers, or both have been refused; or there were none. -/
inductive Together : List (Except Fault UInt64) → Prop where
  | silent : Together []
  | taken (n : UInt64) : Together [.ok n, .ok (n + 1)]
  | refused (fault fault' : Fault) : Together [.error fault, .error fault']

/-- The link is open and has room for a message, which fits into a frame. -/
structure Takes (l : Link) (m : SyncMessage) : Prop where
  isOpen : l.state ≠ .closed
  room : l.retained.size < l.config.outboundCapacity
  fits : m.Fits

/-- A numbered message is taken under the next number, or it is refused. -/
theorem send_numbered (l : Link) {m : SyncMessage} (numbered : m.isLinkLocal = false) (now : SessionTime) :
    (l.Takes m ∧ ∃ f, l.send m now = (l.enqueue f now, .ok l.nextSeq)) ∨
      (¬ l.Takes m ∧ ∃ fault, l.send m now = (l, .error fault)) := by
  unfold send
  by_cases closed : l.state = .closed
  · exact Or.inr ⟨fun takes => takes.isOpen closed, _, if_pos closed⟩
  · rw [if_neg closed, if_neg (ne_true_of_eq_false numbered)]
    by_cases full : l.config.outboundCapacity ≤ l.retained.size
    · exact Or.inr ⟨fun takes => absurd takes.room (Nat.not_lt.mpr full), _, if_pos full⟩
    · rw [if_neg full]
      have fits := SyncMessage.fits_iff l.session l.localId l.nextSeq (m := m)
      cases written : Frame.ofMessage l.session l.localId l.nextSeq m with
      | ok f => exact Or.inl ⟨⟨closed, Nat.not_le.mp full, fits.mpr ⟨f, written⟩⟩, f, rfl⟩
      | error fault =>
        refine Or.inr ⟨fun takes => ?_, fault, rfl⟩
        obtain ⟨f, same⟩ := fits.mp takes.fits
        exact absurd (written.symm.trans same) nofun

/-- A link takes the first of two messages and refuses the second: the first takes the last place, or the second does
not fit into a frame. -/
structure Parts (l : Link) (first second : SyncMessage) : Prop where
  takes : l.Takes first
  tight : l.retained.size + 1 = l.config.outboundCapacity ∨ ¬ second.Fits

/-- After a message that is taken there is one place less. -/
theorem takes_enqueue {l : Link} {f : Frame} {now : SessionTime} {m : SyncMessage} : (l.enqueue f now).Takes m ↔
    l.state ≠ .closed ∧ l.retained.size + 1 < l.config.outboundCapacity ∧ m.Fits :=
  ⟨fun takes => ⟨takes.isOpen, takes.room, takes.fits⟩, fun takes => ⟨takes.1, takes.2.1, takes.2.2⟩⟩

/-- **Two messages, one after the other**, of which the first fits into a frame if the second does. -/
theorem answers_pair (l : Link) {first second : SyncMessage} (numbered : first.isLinkLocal = false)
    (numbered' : second.isLinkLocal = false) (paired : second.Fits → first.Fits) (now : SessionTime) :
    (l.Parts first second ∧ ∃ fault, l.answers now [first, second] = [.ok l.nextSeq, .error fault]) ∨
      (¬ l.Parts first second ∧ Together (l.answers now [first, second])) := by
  unfold answers answers answers
  rcases l.send_numbered numbered now with ⟨takes, f, sent⟩ | ⟨refuses, fault, sent⟩
  · rw [sent]
    rcases (l.enqueue f now).send_numbered numbered' now with ⟨takes', f', sent'⟩ | ⟨refuses', fault, sent'⟩
    · rw [sent']
      obtain ⟨-, room, fits⟩ := takes_enqueue.mp takes'
      refine Or.inr ⟨fun parts => ?_, .taken l.nextSeq⟩
      rcases parts.tight with last | unfit
      · omega
      · exact unfit fits
    · rw [sent']
      refine Or.inl ⟨⟨takes, ?_⟩, fault, rfl⟩
      refine Decidable.or_iff_not_imp_left.mpr fun more fits => refuses' (takes_enqueue.mpr ⟨takes.isOpen, ?_, fits⟩)
      have room := takes.room
      omega
  · rw [sent]
    rcases l.send_numbered numbered' now with ⟨takes', -⟩ | ⟨-, fault', sent'⟩
    · exact absurd ⟨takes'.isOpen, takes'.room, paired takes'.fits⟩ refuses
    · rw [sent']
      exact Or.inr ⟨fun parts => refuses parts.takes, .refused fault fault'⟩

end Link

/-! ## A local input of a step -/

namespace Peer

/-- The messages that an own input leads to. -/
def outgoing (p : Peer) (payload : InputPayload) (now : SessionTime) : List SyncMessage :=
  (p.reconciler.onLocalInput p.battery (.captured p.config.localId now payload) now).2.2

/-- What the link answers to the messages of an own input. -/
def answers (p : Peer) (payload : InputPayload) (now : SessionTime) : List (Except Fault UInt64) :=
  p.link.answers now (p.outgoing payload now)

/-- The link takes an input and refuses what it came to. -/
def Parts (p : Peer) (payload : InputPayload) (now : SessionTime) : Prop :=
  ∃ e stamp t changes, p.outgoing payload now = [.forward e stamp, .delta t changes] ∧
    p.link.Parts (.forward e stamp) (.delta t changes)

/-- A peer that sends messages one after the other counts what its link answers. -/
theorem stats_sends (messages : List SyncMessage) (now : SessionTime) (p : Peer) :
    (messages.foldl (fun q m => q.send m now) p).stats.messagesSent =
        p.stats.messagesSent + (p.link.answers now messages).countP Except.isOk ∧
      (messages.foldl (fun q m => q.send m now) p).stats.sendFailures =
        p.stats.sendFailures + (p.link.answers now messages).countP (fun answer => !answer.isOk) := by
  induction messages generalizing p with
  | nil => exact ⟨rfl, rfl⟩
  | cons m rest ih =>
    obtain ⟨sent, failed⟩ := ih (p.send m now)
    rw [List.foldl_cons, sent, failed, Link.answers, List.countP_cons, List.countP_cons]
    unfold send
    rcases p.link.send m now with ⟨link, fault | n⟩
    · exact ⟨rfl, Nat.add_right_comm _ _ _⟩
    · exact ⟨Nat.add_right_comm _ _ _, rfl⟩

/-- A peer that applies an own input counts the answers that the link gives to its messages. -/
theorem stats_applyInput (p : Peer) (payload : InputPayload) (now : SessionTime) :
    (p.applyInput payload now).stats.messagesSent =
        p.stats.messagesSent + (p.answers payload now).countP Except.isOk ∧
      (p.applyInput payload now).stats.sendFailures =
        p.stats.sendFailures + (p.answers payload now).countP (fun answer => !answer.isOk) :=
  stats_sends (p.outgoing payload now) now { p with
    reconciler := (p.reconciler.onLocalInput p.battery (.captured p.config.localId now payload) now).1
    battery := (p.reconciler.onLocalInput p.battery (.captured p.config.localId now payload) now).2.1 }

/-- **The two messages of an input**, whatever the peer. -/
theorem answers_cases (p : Peer) (payload : InputPayload) (now : SessionTime) :
    (p.Parts payload now ∧ ∃ n fault, p.answers payload now = [.ok n, .error fault]) ∨
      (¬ p.Parts payload now ∧ Link.Together (p.answers payload now)) := by
  unfold Parts answers outgoing
  rcases p.reconciler.messages_onLocalInput p.battery (.captured p.config.localId now payload) now with
    none | ⟨stamp, changes, messages, paired⟩
  · rw [none]
    refine Or.inr ⟨?_, .silent⟩
    rintro ⟨e, stamp, t, changes, same, -⟩
    cases same
  · rw [messages]
    rcases p.link.answers_pair rfl rfl paired now with ⟨parts, fault, same⟩ | ⟨whole, together⟩
    · exact Or.inl ⟨⟨_, _, _, _, rfl, parts⟩, _, fault, same⟩
    · refine Or.inr ⟨?_, together⟩
      rintro ⟨e, stamp', t, changes', same, parts⟩
      cases same
      exact whole parts

theorem appliedOwn_succ {p : Peer} {n : Nat} {payload : InputPayload}
    (next : p.heard.pendingInputs.toList[n]? = some payload) :
    p.appliedOwn (n + 1) = (p.appliedOwn n).applyInput payload p.heard.now := by
  unfold appliedOwn
  rw [List.take_add_one, next, List.foldl_append]
  rfl

theorem applyLocalInputs_running {p : Peer} (running : p.heard.phase = .running) :
    p.heard.applyLocalInputs p.heard.now = p.appliedOwn p.heard.pendingInputs.toList.length := by
  unfold applyLocalInputs appliedOwn
  rw [List.take_length]
  exact if_neg (not_not_intro running)

/-- **When the two messages of an input travel together.**  A step of a running session applies the inputs that wait,
one after the other, whatever has led to the peer `p`.  The link takes the input and what it came to, under consecutive
numbers, or it refuses both, exactly if it is not so that the input takes the last place, or that what it came to does
not fit into a frame.  Then it takes the input and refuses what it came to; never the other way round. -/
theorem together_iff {p : Peer} (running : p.heard.phase = .running) {n : Nat} {payload : InputPayload}
    (next : p.heard.pendingInputs.toList[n]? = some payload) :
    p.heard.applyLocalInputs p.heard.now = p.appliedOwn p.heard.pendingInputs.toList.length ∧
      p.appliedOwn (n + 1) = (p.appliedOwn n).applyInput payload p.heard.now ∧
      (Link.Together ((p.appliedOwn n).answers payload p.heard.now) ↔
        ¬ (p.appliedOwn n).Parts payload p.heard.now) ∧
      ((p.appliedOwn n).Parts payload p.heard.now →
        ∃ m fault, (p.appliedOwn n).answers payload p.heard.now = [.ok m, .error fault]) := by
  refine ⟨applyLocalInputs_running running, appliedOwn_succ next, ?_⟩
  rcases (p.appliedOwn n).answers_cases payload p.heard.now with ⟨parts, m, fault, same⟩ | ⟨whole, together⟩
  · refine ⟨iff_of_false ?_ (not_not_intro parts), fun _ => ⟨m, fault, same⟩⟩
    rw [same]
    nofun
  · exact ⟨iff_of_true together whole, fun parts => absurd parts whole⟩

/-! ### The last place -/

/-- A host whose link keeps no more than a number of messages. -/
def narrowConfig (capacity : Nat) : PeerConfig :=
  { PeerConfig.simulated .host with link := { LinkSettings.standard with outboundCapacity := capacity } }

/-- The session has started, the tracking task runs, and the participant has moved the cursor. -/
def moveRun : List PeerAction := metRun ++ [.submit (.trackingMove .zero .zero)]

/-- The host with a narrow link when the next step begins. -/
def narrowHost (capacity : Nat) : Peer :=
  ((Peer.new (narrowConfig capacity) startScript).performAll moveRun).advanced (.ofMillis 200)

theorem narrowHost_eq (capacity : Nat) : narrowHost capacity =
    (({ Peer.new (narrowConfig capacity) [] with queue := ⟨startScript, 0, false⟩ } : Peer).performAll
      moveRun).advanced (.ofMillis 200) := by
  rw [narrowHost, new_of_sorted _ (by decide)]

/-- With room for three messages, the start and the two of the input, both are taken. -/
theorem together_iff_narrowHost : (narrowHost 3).heard.phase = .running ∧
    (narrowHost 3).heard.pendingInputs.toList[0]? = some (.trackingMove .zero .zero) ∧
    ¬ ((narrowHost 3).appliedOwn 0).Parts (.trackingMove .zero .zero) (narrowHost 3).heard.now := by
  have facts : (narrowHost 3).heard.phase = .running ∧
      (narrowHost 3).heard.pendingInputs.toList[0]? = some (.trackingMove .zero .zero) ∧
      ((narrowHost 3).appliedOwn 0).answers (.trackingMove .zero .zero) (narrowHost 3).heard.now = [.ok 2, .ok 3] := by
    rw [narrowHost_eq]
    decide +kernel
  obtain ⟨running, next, answers⟩ := facts
  refine ⟨running, next, (together_iff running next).2.2.1.mp ?_⟩
  rw [answers]
  exact .taken 2

/-- With room for two messages, the input is taken and what it came to is refused. -/
theorem not_together_narrowHost : ¬ ∀ config commands actions dt n payload,
    (((Peer.new config commands).performAll actions).advanced dt).heard.phase = .running →
    (((Peer.new config commands).performAll actions).advanced dt).heard.pendingInputs.toList[n]? = some payload →
    Link.Together (((((Peer.new config commands).performAll actions).advanced dt).appliedOwn n).answers payload
      (((Peer.new config commands).performAll actions).advanced dt).heard.now) := by
  intro claim
  have facts : (narrowHost 2).heard.phase = .running ∧
      (narrowHost 2).heard.pendingInputs.toList[0]? = some (.trackingMove .zero .zero) ∧
      ((narrowHost 2).appliedOwn 0).answers (.trackingMove .zero .zero) (narrowHost 2).heard.now =
        [.ok 2, .error (.outboundFull 2)] := by
    rw [narrowHost_eq]
    decide +kernel
  obtain ⟨running, next, answers⟩ := facts
  have together := claim _ _ _ _ _ _ running next
  have parted : Link.Together [.ok 2, .error (.outboundFull 2)] := answers ▸ together
  cases parted

end Peer

end Tandem

import Tandem.Proofs.Wire.RoundTrip
/-!
# What can be written, and frames that come back

`SyncMessage.decode_encode` says what becomes of a message that can be written.  Two things are missing from the
whole story of the wire, and they are settled here.

* Which messages can be written at all.  Only counts and lengths of 16 bits stand in the way:
  `SyncMessage.Oversized` lists what is beyond them, without looking at the writer, and the writer refuses nothing
  else.  Each part of a message is settled by `Writable`: it can be written exactly if its texts are short enough.
* The header in front of the payload.  A frame is read back as it was written if it has the version that is spoken
  here and announces the payload that it has.  The frames that carry messages are `WellFormed` in this sense, and
  stamping them anew keeps them so.

`SyncMessage.roundTrip` puts the two together with the round trip of payloads.
-/

namespace Tandem

open Wire

/-! ## Which messages can be written -/

namespace Wire

/-- The largest length of a text in octets, and the largest number of changes in a message. -/
def longest : Nat := 65535

/-- A part of a message that has these texts is written exactly if each of them is short enough. -/
def Writable (out : Except Fault Octets) (texts : List String) : Prop :=
  out.isOk = true ↔ ∀ s ∈ texts, s.utf8ByteSize ≤ longest

theorem isOk_bind {α β : Type} (x : Except Fault α) (f : α → Except Fault β) :
    (x >>= f).isOk = true ↔ ∃ a, x = .ok a ∧ (f a).isOk = true := by
  cases x with
  | error fault => exact iff_of_false Bool.false_ne_true fun ⟨a, same, _⟩ => by cases same
  | ok a => exact ⟨fun done => ⟨a, rfl, done⟩, fun ⟨b, same, done⟩ => by cases same; exact done⟩

/-- Wrapping up what is written refuses nothing. -/
theorem isOk_wrap {α β : Type} (x : Except Fault α) (f : α → β) :
    (x >>= fun a => pure (f a)).isOk = x.isOk := by
  cases x <;> rfl

theorem writable_ok (out : Octets) : Writable (.ok out) [] :=
  iff_of_true rfl fun _ mem => absurd mem List.not_mem_nil

theorem writable_text (s : String) : Writable (textOctets s) [s] := by
  have size : (utf8 s).length = s.utf8ByteSize := by
    rw [utf8, Array.length_toList]
    rfl
  rw [Writable, List.forall_mem_singleton, ← size, textOctets]
  by_cases short : (utf8 s).length < UInt16.size
  · simp only [short, if_true]
    exact iff_of_true rfl (Nat.le_of_lt_succ short)
  · simp only [short, if_false]
    exact iff_of_false Bool.false_ne_true fun le => short (Nat.lt_succ_of_le le)

/-- A part with something in front of it, or around it, has the same texts. -/
theorem Writable.wrap {x : Except Fault Octets} {texts : List String} (h : Writable x texts)
    (f : Octets → Octets) : Writable (x >>= fun a => pure (f a)) texts := by
  rw [Writable, isOk_wrap]
  exact h

/-- Two parts one after the other. -/
theorem Writable.pair {x y : Except Fault Octets} {texts more : List String} (first : Writable x texts)
    (second : Writable y more) (f : Octets → Octets → Octets) :
    Writable (x >>= fun a => y >>= fun b => pure (f a b)) (texts ++ more) := by
  rw [Writable, List.forall_mem_append, isOk_bind]
  constructor
  · rintro ⟨a, rfl, done⟩
    rw [isOk_wrap] at done
    exact ⟨first.mp rfl, second.mp done⟩
  · rintro ⟨fits, fits'⟩
    cases x with
    | error fault => exact absurd (first.mpr fits) Bool.false_ne_true
    | ok a => exact ⟨a, rfl, by rw [isOk_wrap]; exact second.mpr fits'⟩

end Wire

/-- The texts in a value. -/
def FieldValue.texts : FieldValue → List String
  | .text s => [s]
  | _ => []

theorem FieldValue.writable (v : FieldValue) : Writable v.octets v.texts := by
  cases v with
  | text s => exact (writable_text s).wrap _
  | bool | int | real | point => exact writable_ok _

/-- The texts in a field change: its key, and the value if that is a text. -/
def FieldChange.texts (c : FieldChange) : List String := [c.key] ++ c.value.texts

theorem FieldChange.writable (c : FieldChange) : Writable c.octets c.texts :=
  (writable_text c.key).pair c.value.writable _

/-- Several changes are written if each of them is. -/
theorem FieldChange.isOk_mapM (changes : List FieldChange) : (changes.mapM FieldChange.octets).isOk = true ↔
    ∀ s ∈ changes.flatMap FieldChange.texts, s.utf8ByteSize ≤ longest := by
  induction changes with
  | nil => exact iff_of_true rfl fun _ mem => absurd mem List.not_mem_nil
  | cons c rest ih =>
    have one : c.octets.isOk = true ↔ _ := c.writable
    rw [List.mapM_cons, List.flatMap_cons, List.forall_mem_append, ← one, ← ih, isOk_bind]
    constructor
    · rintro ⟨body, written, done⟩
      rw [isOk_wrap] at done
      exact ⟨by rw [written]; rfl, done⟩
    · rintro ⟨done, others⟩
      cases written : c.octets with
      | error fault =>
        rw [written] at done
        exact absurd done Bool.false_ne_true
      | ok body => exact ⟨body, rfl, by rwa [isOk_wrap]⟩

/-- The texts in an input: the name of a radio. -/
def InputPayload.texts : InputPayload → List String
  | .communicationTune radio _ => [radio]
  | _ => []

theorem InputPayload.writable (p : InputPayload) : Writable p.octets p.texts := by
  cases p with
  | communicationTune radio frequency => exact (writable_text radio).wrap _
  | monitoringAck | trackingMove | pumpToggle | matchSelect | matchCentering => exact writable_ok _

namespace SyncMessage

/-- The field changes in a message. -/
def changes : SyncMessage → List FieldChange
  | delta _ changes => changes
  | _ => []

/-- The texts in a message. -/
def texts : SyncMessage → List String
  | delta _ changes => changes.flatMap FieldChange.texts
  | forward e _ => e.payload.texts
  | _ => []

/-- The message has too many changes, or a text whose UTF-8 form is too long. -/
def Oversized (m : SyncMessage) : Prop :=
  longest < m.changes.length ∨ ∃ s ∈ m.texts, longest < s.utf8ByteSize

theorem not_oversized {m : SyncMessage} :
    ¬ m.Oversized ↔ m.changes.length ≤ longest ∧ ∀ s ∈ m.texts, s.utf8ByteSize ≤ longest := by
  simp only [Oversized, not_or, Nat.not_lt, not_exists, not_and]

/-- **What can be written**: everything that is not oversized. -/
theorem isOk_encode (m : SyncMessage) : m.encode.isOk = true ↔ ¬ m.Oversized := by
  rw [not_oversized]
  cases m with
  | delta task changes =>
    show (if changes.length < UInt16.size then _ else _ : Except Fault Octets).isOk = true ↔
      changes.length ≤ longest ∧ _
    by_cases short : changes.length < UInt16.size
    · rw [if_pos short, isOk_wrap, FieldChange.isOk_mapM]
      exact ⟨fun fits => ⟨Nat.le_of_lt_succ short, fits⟩, And.right⟩
    · rw [if_neg short]
      exact iff_of_false Bool.false_ne_true fun fits => short (Nat.lt_succ_of_le fits.1)
  | forward e stamp =>
    have written : Writable (forward e stamp).encode e.payload.texts := e.payload.writable.wrap _
    exact written.trans ⟨fun fits => ⟨Nat.zero_le _, fits⟩, And.right⟩
  | heartbeat | hello | start | pause | resume | finish =>
    exact iff_of_true rfl ⟨Nat.zero_le _, fun _ mem => absurd mem List.not_mem_nil⟩

end SyncMessage

/-! ## Frames -/

namespace FrameHeader

theorem length_take_octets (h : FrameHeader) (rest : Octets) :
    ((h.octets ++ rest).take headerSize).length = headerSize := by
  rw [List.length_take, List.length_append, h.length_octets]
  exact Nat.min_eq_left (Nat.le_add_right _ _)

/-- A header of the version that is spoken here is read back. -/
theorem reads {h : FrameHeader} (version : h.version = wireVersion) : Reads FrameHeader.read h.octets h := by
  intro rest
  have enough := h.length_take_octets rest
  have known : MessageType.ofByte h.type.toByte = .ok h.type := by simp [MessageType.ofByte]
  have fields : Reads (readRest h.version h.type) (h.octets.drop 2) h :=
    (reads_uint16 h.flags.bits).bind ((reads_uint64 h.session.id).bind (h.sender.reads.bind
      ((reads_uint64 h.seq).bind ((reads_uint64 h.ack).bind ((reads_uint32 h.payloadLength).wrap _)))))
  have opened : FrameHeader.read (h.octets ++ rest) =
      if ((h.octets ++ rest).take headerSize).length < headerSize then
        .error (.bufferTooShort headerSize (h.octets ++ rest).length)
      else if h.version ≠ wireVersion then .error (.wire (.unsupportedVersion h.version))
      else (MessageType.ofByte h.type.toByte).bind (readRest h.version · (h.octets.drop 2 ++ rest)) := rfl
  rw [opened, if_neg (by rw [enough]; exact Nat.lt_irrefl _), if_neg (not_not_intro version), known]
  exact fields rest

end FrameHeader

namespace Frame

/-- The frame has the version that is spoken here and announces the payload that it has. -/
structure WellFormed (f : Frame) : Prop where
  version : f.header.version = wireVersion
  announced : f.header.payloadLength.toNat = f.payload.length

/-- A frame that carries a message is well formed. -/
theorem wellFormed_ofMessage {session : SessionId} {sender : ParticipantId} {seq : UInt64} {m : SyncMessage}
    {f : Frame} (built : Frame.ofMessage session sender seq m = .ok f) : f.WellFormed := by
  unfold Frame.ofMessage at built
  cases written : m.encode with
  | error fault => simp [written, Bind.bind, Except.bind] at built
  | ok payload =>
    simp only [written, Bind.bind, Except.bind] at built
    by_cases tooLarge : maxPayloadSize < payload.length
    · rw [if_pos tooLarge] at built
      cases built
    · rw [if_neg tooLarge] at built
      cases built
      refine ⟨rfl, UInt32.toNat_ofNat_of_lt' ?_⟩
      exact Nat.lt_of_le_of_lt (Nat.not_lt.mp tooLarge) (by decide)

/-- Another acknowledgement and other flags do not matter. -/
theorem WellFormed.restamped {f : Frame} (h : f.WellFormed) (ack : UInt64) (flags : FrameFlags) :
    (f.restamped ack flags).WellFormed := ⟨h.version, h.announced⟩

/-- **A well-formed frame is read back** from its octets. -/
theorem parse_octets {f : Frame} (h : f.WellFormed) : Frame.parse f.octets = .ok f := by
  have length : UInt32.ofNat f.payload.length = f.header.payloadLength := by
    rw [← h.announced, UInt32.ofNat_toNat]
  have octets : f.octets = f.header.octets ++ f.payload := by rw [Frame.octets, length]
  have read := FrameHeader.reads h.version f.payload
  simp only [Frame.parse, octets, read, Bind.bind, Except.bind, h.announced, ne_eq, not_true_eq_false, if_false]
  rfl

end Frame

/-! ## The wire as a whole -/

namespace SyncMessage

theorem arrived_eq_asRemote {m : SyncMessage}
    (aimed : ∀ e stamp, m = forward e stamp → e.target = e.payload.task) : m.arrived = m.asRemote := by
  cases m with
  | forward e stamp =>
    have target := aimed e stamp rfl
    simp only [arrived, asRemote, InputEvent.asRemote, ← target]
  | _ => rfl

/-- **The round trip.**  Writing refuses a message exactly if it is oversized.  A message that is written is read
back as it was, bit for bit, except that an input in it comes from the other peer; it has to be meant for the task
that its payload acts on.  And the frame of a message is read back as it was, whatever it has been stamped with. -/
theorem roundTrip (m : SyncMessage) :
    (m.encode.isOk = false ↔ m.Oversized) ∧
    (∀ payload, m.encode = .ok payload → (∀ e stamp, m = forward e stamp → e.target = e.payload.task) →
      decode m.type payload = .ok m.asRemote) ∧
    (∀ session sender seq f ack flags, Frame.ofMessage session sender seq m = .ok f →
      Frame.parse (f.restamped ack flags).octets = .ok (f.restamped ack flags)) := by
  refine ⟨?_, ?_, ?_⟩
  · rw [← Bool.not_eq_true, isOk_encode, Classical.not_not]
  · intro payload written aimed
    rw [decode_encode written, arrived_eq_asRemote aimed]
  · intro session sender seq f ack flags built
    exact Frame.parse_octets ((Frame.wellFormed_ofMessage built).restamped ack flags)

/-- A participant tunes a radio to a frequency that is not a number. -/
def tuning : SyncMessage :=
  forward (.captured ⟨1⟩ ⟨5250⟩ (.communicationTune "com-1" ⟨0x7FF8000000000001⟩)) ⟨⟨5250⟩, 3, .participant ⟨1⟩⟩

theorem roundTrip_tuning : ∃ payload f, tuning.encode = .ok payload ∧
    Frame.ofMessage ⟨1⟩ ⟨1⟩ 7 tuning = .ok f ∧ decode .inputForward payload = .ok tuning.asRemote ∧
    Frame.parse (f.restamped 4 ⟨3⟩).octets = .ok (f.restamped 4 ⟨3⟩) := by
  obtain ⟨-, back, framed⟩ := roundTrip tuning
  refine ⟨_, _, rfl, rfl, back _ rfl ?_, framed _ _ _ _ _ _ rfl⟩
  intro e stamp same
  cases same
  rfl

end SyncMessage

end Tandem

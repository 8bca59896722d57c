import Tandem.Wire.Frame
/-!
# What is written is read back

Reader and writer of each part of a payload stand side by side in the wire modules.  Here they are tied
together by one notion: `Reads r out a` says that the reader `r` takes exactly the octets `out` off the front of
whatever follows and yields `a`.  It composes along `bind`, so that each part is settled from its own parts
and no statement ever mentions the octets behind it.

A message does not come out as it went in: a forwarded input travels without its target and locality, and is
read as an input of the other peer meant for the task its payload acts on.  `SyncMessage.arrived` is that
reading, and `SyncMessage.decode_encode` the round trip for every message that can be written at all.
-/

namespace Tandem

namespace Wire

/-- The reader takes exactly these octets, whatever follows them, and yields the value. -/
def Reads {α : Type} (r : Reader α) (out : Octets) (a : α) : Prop := ∀ rest, r (out ++ rest) = .ok (a, rest)

namespace Reads

variable {α β : Type}

theorem pure (a : α) : Reads (Pure.pure a : Reader α) [] a := fun _ => rfl

/-- Readers in sequence take their octets in sequence. -/
theorem bind {r : Reader α} {f : α → Reader β} {out more : Octets} {a : α} {b : β} (first : Reads r out a)
    (second : Reads (f a) more b) : Reads (r >>= f) (out ++ more) b := by
  intro rest
  have taken := first (more ++ rest)
  simp only [Bind.bind, StateT.bind, Except.bind, List.append_assoc, taken]
  exact second rest

/-- A reader whose value is only wrapped up takes the same octets. -/
theorem wrap {r : Reader α} {out : Octets} {a : α} (first : Reads r out a) (f : α → β) :
    Reads (r >>= fun x => Pure.pure (f x)) out (f a) := by
  have both := first.bind (f := fun x => Pure.pure (f x)) (pure (f a))
  rwa [List.append_nil] at both

/-- Octets that a reader takes as a whole are accepted as a whole. -/
theorem readAll {r : Reader α} {out : Octets} {a : α} (h : Reads r out a) : r.readAll out = .ok a := by
  have whole := h []
  rw [List.append_nil] at whole
  simp only [Reader.readAll, Bind.bind, Except.bind, whole]
  rfl

end Reads

/-! ## Numbers and texts -/

theorem reads_byte (b : UInt8) : Reads Reader.byte [b] b := fun _ => rfl

theorem reads_nat (width n : Nat) : Reads (Reader.nat width) (littleEndian width n) (n % capacity width) :=
  readNat_littleEndian width n

theorem reads_uint16 (n : UInt16) : Reads Reader.uint16 (littleEndian 2 n.toNat) n := by
  have back : UInt16.ofNat (n.toNat % capacity 2) = n := by
    rw [Nat.mod_eq_of_lt (show n.toNat < capacity 2 from n.toNat_lt), UInt16.ofNat_toNat]
  have read := (reads_nat 2 n.toNat).wrap UInt16.ofNat
  rwa [back] at read

theorem reads_uint32 (n : UInt32) : Reads Reader.uint32 (littleEndian 4 n.toNat) n := by
  have back : UInt32.ofNat (n.toNat % capacity 4) = n := by
    rw [Nat.mod_eq_of_lt (show n.toNat < capacity 4 from n.toNat_lt), UInt32.ofNat_toNat]
  have read := (reads_nat 4 n.toNat).wrap UInt32.ofNat
  rwa [back] at read

theorem reads_uint64 (n : UInt64) : Reads Reader.uint64 (littleEndian 8 n.toNat) n := by
  have back : UInt64.ofNat (n.toNat % capacity 8) = n := by
    rw [Nat.mod_eq_of_lt (show n.toNat < capacity 8 from n.toNat_lt), UInt64.ofNat_toNat]
  have read := (reads_nat 8 n.toNat).wrap UInt64.ofNat
  rwa [back] at read

theorem reads_text {s : String} {out : Octets} (h : textOctets s = .ok out) : Reads Reader.text out s :=
  readText_textOctets h

end Wire

open Wire

/-! ## The parts of a message -/

theorem SessionTime.reads (t : SessionTime) : Reads SessionTime.read t.octets t :=
  (reads_uint64 t.ms).wrap SessionTime.mk

theorem ParticipantId.reads (p : ParticipantId) : Reads ParticipantId.read p.octets p :=
  (reads_uint64 p.id).wrap ParticipantId.mk

theorem Binary64.reads (x : Binary64) : Reads Binary64.read x.octets x := (reads_uint64 x.bits).wrap Binary64.mk

theorem Writer.reads (w : Writer) : Reads Writer.read w.octets w := by
  cases w with
  | scenario => exact (reads_byte 0).bind (Reads.pure _)
  | participant p => exact (reads_byte 1).bind (p.reads.wrap Writer.participant)

theorem Stamp.reads (s : Stamp) : Reads Stamp.read s.octets s :=
  s.time.reads.bind ((reads_uint32 s.counter).bind (s.writer.reads.wrap (Stamp.mk s.time s.counter)))

theorem FieldValue.reads {v : FieldValue} {out : Octets} (h : v.octets = .ok out) :
    Reads FieldValue.read out v := by
  cases v with
  | bool b =>
    cases h
    cases b with
    | false => exact (reads_byte 0).bind ((reads_byte 0).bind (Reads.pure _))
    | true => exact (reads_byte 0).bind ((reads_byte 1).bind (Reads.pure _))
  | int i =>
    cases h
    exact (reads_byte 1).bind ((reads_uint64 i.toUInt64).wrap (fun n => FieldValue.int ⟨n⟩))
  | real x =>
    cases h
    exact (reads_byte 2).bind (x.reads.wrap FieldValue.real)
  | text s =>
    cases written : textOctets s with
    | error fault => simp [FieldValue.octets, written, Bind.bind, Except.bind] at h
    | ok body =>
      simp only [FieldValue.octets, written, Bind.bind, Except.bind] at h
      cases h
      exact (reads_byte 3).bind ((reads_text written).wrap FieldValue.text)
  | point x y =>
    cases h
    exact (reads_byte 4).bind (x.reads.bind (y.reads.wrap (FieldValue.point x)))

theorem FieldChange.reads {c : FieldChange} {out : Octets} (h : c.octets = .ok out) :
    Reads FieldChange.read out c := by
  cases key : textOctets c.key with
  | error fault => simp [FieldChange.octets, key, Bind.bind, Except.bind] at h
  | ok keyOctets =>
    cases value : c.value.octets with
    | error fault => simp [FieldChange.octets, key, value, Bind.bind, Except.bind] at h
    | ok valueOctets =>
      simp only [FieldChange.octets, key, value, Bind.bind, Except.bind] at h
      cases h
      exact (reads_text key).bind ((FieldValue.reads value).bind
        (c.stamp.reads.wrap (FieldChange.mk c.key c.value)))

/-- Changes that are written one after the other are read one after the other; those taken before come
first. -/
theorem FieldChange.reads_readMany {changes : List FieldChange} {bodies : List Octets}
    (h : changes.mapM FieldChange.octets = .ok bodies) (acc : List FieldChange) :
    Reads (FieldChange.readMany changes.length acc) bodies.flatten (acc.reverse ++ changes) := by
  induction changes generalizing bodies acc with
  | nil =>
    cases h
    intro rest
    simp [FieldChange.readMany]
  | cons c changes ih =>
    rw [List.mapM_cons] at h
    cases one : c.octets with
    | error fault => simp [one, Bind.bind, Except.bind] at h
    | ok body =>
      cases others : changes.mapM FieldChange.octets with
      | error fault => simp [one, others, Bind.bind, Except.bind] at h
      | ok more =>
        simp only [one, others, Bind.bind, Except.bind] at h
        cases h
        intro rest
        have head := FieldChange.reads one (more.flatten ++ rest)
        have tail := ih others (c :: acc) rest
        simp only [List.length_cons, FieldChange.readMany, List.flatten_cons, List.append_assoc, head, tail]
        simp

theorem TaskId.reads (t : TaskId) : Reads TaskId.read [t.toByte] t := by
  cases t <;> exact fun _ => rfl

theorem Gauge.reads (g : Gauge) : Reads Gauge.read g.octets g := by
  cases g with
  | light n => exact (reads_byte 0).bind ((reads_byte n).bind (Reads.pure _))
  | scale n => exact (reads_byte 1).bind ((reads_byte n).bind (Reads.pure _))

theorem InputPayload.reads {p : InputPayload} {out : Octets} (h : p.octets = .ok out) :
    Reads InputPayload.read out p := by
  cases p with
  | monitoringAck gauge =>
    cases h
    exact (reads_byte 0).bind (gauge.reads.wrap InputPayload.monitoringAck)
  | trackingMove dx dy =>
    cases h
    exact (reads_byte 1).bind (dx.reads.bind (dy.reads.wrap (InputPayload.trackingMove dx)))
  | communicationTune radio frequency =>
    cases written : textOctets radio with
    | error fault => simp [InputPayload.octets, written, Bind.bind, Except.bind] at h
    | ok name =>
      simp only [InputPayload.octets, written, Bind.bind, Except.bind] at h
      cases h
      exact (reads_byte 2).bind ((reads_text written).bind
        (frequency.reads.wrap (InputPayload.communicationTune radio)))
  | pumpToggle pump =>
    cases h
    exact (reads_byte 3).bind ((reads_byte pump).wrap InputPayload.pumpToggle)
  | matchSelect object =>
    cases h
    exact (reads_byte 4).bind ((reads_uint32 object.id).wrap (fun n => InputPayload.matchSelect ⟨n⟩))
  | matchCentering score =>
    cases h
    exact (reads_byte 5).bind (score.reads.wrap InputPayload.matchCentering)

/-! ## Whole messages -/

namespace SyncMessage

/-- The message as it comes off the wire.  A forwarded input is an input of the other peer, meant for the task
that its payload acts on. -/
def arrived : SyncMessage → SyncMessage
  | forward e stamp => forward ⟨e.origin, false, e.payload.task, e.time, e.payload⟩ stamp
  | m => m

@[simp] theorem isLinkLocal_arrived (m : SyncMessage) : m.arrived.isLinkLocal = m.isLinkLocal := by
  cases m <;> rfl

theorem reads {m : SyncMessage} {payload : Octets} (h : m.encode = .ok payload) :
    Reads (read m.type) payload m.arrived := by
  cases m with
  | delta task changes =>
    by_cases short : changes.length < UInt16.size
    · cases written : changes.mapM FieldChange.octets with
      | error fault => simp [encode, short, written, Bind.bind, Except.bind] at h
      | ok bodies =>
        simp only [encode, short, if_true, written, Bind.bind, Except.bind] at h
        cases h
        have count : changes.length % capacity 2 = changes.length := Nat.mod_eq_of_lt short
        have many := FieldChange.reads_readMany written []
        have counted := reads_nat 2 changes.length
        rw [count] at counted
        exact task.reads.bind (counted.bind (many.wrap (delta task)))
    · simp [encode, short] at h
  | forward event stamp =>
    cases written : event.payload.octets with
    | error fault => simp [encode, written, Bind.bind, Except.bind] at h
    | ok input =>
      simp only [encode, written, Bind.bind, Except.bind] at h
      cases h
      exact event.origin.reads.bind (event.time.reads.bind (stamp.reads.bind
        ((InputPayload.reads written).wrap (fun payload =>
          forward ⟨event.origin, false, payload.task, event.time, payload⟩ stamp))))
  | heartbeat time =>
    cases h
    exact time.reads.wrap heartbeat
  | hello participant resumeFrom =>
    cases h
    exact (reads_byte 0).bind (participant.reads.bind ((reads_uint64 resumeFrom).wrap (hello participant)))
  | start seed =>
    cases h
    exact (reads_byte 1).bind (seed.reads.wrap start)
  | pause time =>
    cases h
    exact (reads_byte 2).bind (time.reads.wrap pause)
  | resume time =>
    cases h
    exact (reads_byte 3).bind (time.reads.wrap resume)
  | finish =>
    cases h
    exact (reads_byte 4).bind (Reads.pure _)

/-- **The round trip.**  A message that can be written is read back, as it arrives at the other peer. -/
theorem decode_encode {m : SyncMessage} {payload : Octets} (h : m.encode = .ok payload) :
    decode m.type payload = .ok m.arrived :=
  (reads h).readAll

end SyncMessage

end Tandem

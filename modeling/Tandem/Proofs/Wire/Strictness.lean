import Tandem.Proofs.Scenario.Lines
import Tandem.Proofs.Wire.RoundTrip
/-!
# What is read was written

The round trip starts from a message; here nothing is known of the octets but that a reader accepts them.
`Reader.Takes r writes` says what can be said then: whatever the reader takes off the front stands in the relation
`writes` to what it yields, and the reader would take the same if something else followed.  It composes along `bind`, so
that each part of a message is settled from its own parts, as in the round trip.

There is one spelling for each part but for truth values: any octet but zero stands for true, and one is written.
`SyncMessage.truthMarks` says where a message has its truth values, and `settle` is what writing them again does to the
octets there.  So a payload that is accepted is what its message is written as, up to these octets
(`SyncMessage.encode_of_decode`), and as no reader looks beyond what it takes, nothing that starts with an accepted
payload is accepted but the payload itself (`SyncMessage.eq_of_isPrefix`).
-/

namespace Tandem

namespace Wire

/-! ## Readers that accept -/

/-- What the reader takes stands in a relation to what it yields, and it takes the same whatever follows. -/
def Reader.Takes {α : Type} (r : Reader α) (writes : α → Octets → Prop) : Prop :=
  ∀ s a rest, r s = .ok (a, rest) → ∃ front, s = front ++ rest ∧ Reads r front a ∧ writes a front

namespace Reader.Takes

variable {α β : Type} {r : Reader α} {f : α → Reader β} {writes : α → Octets → Prop} {writes' : β → Octets → Prop}

theorem pure {b : β} (holds : writes' b []) : Takes (Pure.pure b : Reader β) writes' := by
  intro s a rest same
  cases same
  exact ⟨[], rfl, Reads.pure b, holds⟩

theorem fail (f : WireFault) : Takes (Reader.fail f : Reader β) writes' := fun _ _ _ same => nomatch same

/-- Readers in sequence: the second one goes on where the first one has stopped. -/
theorem bind (first : r.Takes writes)
    (second : ∀ a front, writes a front → (f a).Takes fun b more => writes' b (front ++ more)) :
    (r >>= f).Takes writes' := by
  intro s b rest read
  obtain ⟨⟨a, left⟩, taken, after⟩ := Except.bind_eq_ok_iff.mp read
  obtain ⟨front, rfl, reads, wrote⟩ := first s a left taken
  obtain ⟨more, rfl, reads', wrote'⟩ := second a front wrote left b rest after
  exact ⟨front ++ more, (List.append_assoc ..).symm, reads.bind reads', wrote'⟩

/-- A reader whose value is only wrapped up. -/
theorem wrap {g : α → β} (first : r.Takes writes) (wrapped : ∀ a out, writes a out → writes' (g a) out) :
    (r >>= fun a => Pure.pure (g a)).Takes writes' :=
  first.bind fun a front wrote => .pure (by rw [List.append_nil]; exact wrapped a front wrote)

theorem mono (h : r.Takes writes) {weaker : α → Octets → Prop} (implies : ∀ a out, writes a out → weaker a out) :
    r.Takes weaker := by
  intro s a rest read
  obtain ⟨front, same, reads, wrote⟩ := h s a rest read
  exact ⟨front, same, reads, implies a front wrote⟩

/-- Octets that are accepted as a whole are taken as a whole. -/
theorem readAll (h : r.Takes writes) {s : Octets} {a : α} (read : r.readAll s = .ok a) : Reads r s a ∧ writes a s := by
  obtain ⟨⟨b, rest⟩, taken, after⟩ := Except.bind_eq_ok_iff.mp read
  obtain ⟨front, rfl, reads, wrote⟩ := h s b rest taken
  cases rest with
  | nil =>
    cases after
    rw [List.append_nil]
    exact ⟨reads, wrote⟩
  | cons => cases after

end Reader.Takes

/-! ## Numbers and texts -/

theorem takes_take (n : Nat) : (Reader.take n).Takes fun front out => out = front ∧ front.length = n := by
  intro s front rest read
  unfold Reader.take at read
  dsimp only at read
  split at read
  · cases read
  · rename_i enough
    cases read
    have length : (s.take n).length = n := by
      rw [List.length_take] at enough ⊢
      omega
    refine ⟨s.take n, (List.take_append_drop n s).symm, fun tail => ?_, rfl, length⟩
    have again := take_append (s.take n) tail
    rwa [length] at again

theorem takes_byte : Reader.byte.Takes fun b out => out = [b] := by
  intro s b rest read
  cases s with
  | nil => cases read
  | cons c more =>
    cases read
    exact ⟨[b], rfl, reads_byte b, rfl⟩

theorem takes_nat (width : Nat) :
    (Reader.nat width).Takes fun n out => out = littleEndian width n ∧ n < capacity width := by
  refine (takes_take width).wrap ?_
  rintro front out ⟨rfl, rfl⟩
  exact ⟨(littleEndian_value out).symm, value_lt out⟩

theorem takes_uint32 : Reader.uint32.Takes fun n out => out = littleEndian 4 n.toNat := by
  refine (takes_nat 4).wrap ?_
  rintro n out ⟨rfl, bound⟩
  rw [UInt32.toNat_ofNat', Nat.mod_eq_of_lt (show n < 2 ^ 32 from bound)]

theorem takes_uint64 : Reader.uint64.Takes fun n out => out = littleEndian 8 n.toNat := by
  refine (takes_nat 8).wrap ?_
  rintro n out ⟨rfl, bound⟩
  rw [UInt64.toNat_ofNat', Nat.mod_eq_of_lt (show n < 2 ^ 64 from bound)]

/-- The octets of a text are those that it was read from. -/
theorem utf8_of_fromUTF8? {body : Octets} {s : String} (read : String.fromUTF8? (ByteArray.mk body.toArray) = some s) :
    utf8 s = body := by
  unfold String.fromUTF8? at read
  split at read
  · cases read
    rfl
  · cases read

theorem takes_text : Reader.text.Takes fun s out => textOctets s = .ok out := by
  refine (takes_nat 2).bind ?_
  rintro n _ ⟨rfl, bound⟩
  refine (takes_take n).bind ?_
  rintro _ body ⟨rfl, rfl⟩
  split
  · rename_i s read
    refine .pure ?_
    have body := utf8_of_fromUTF8? read
    unfold textOctets
    rw [body, if_pos (show _ < UInt16.size from bound), List.append_nil]
  · exact .fail _

/-! ## Truth values -/

/-- Writes the truth values again that stand at marked places. -/
def settle : List Bool → Octets → Octets
  | true :: marks, b :: rest => (if b = 0 then 0 else 1) :: settle marks rest
  | false :: marks, b :: rest => b :: settle marks rest
  | [], rest => rest
  | _, [] => []

@[simp] theorem settle_nil (out : Octets) : settle [] out = out := by cases out <;> rfl

@[simp] theorem length_settle (marks : List Bool) (out : Octets) : (settle marks out).length = out.length := by
  induction marks generalizing out with
  | nil => rw [settle_nil]
  | cons mark marks ih => cases out <;> cases mark <;> simp [settle, ih]

/-- Marks that cover the first octets leave the others to the marks that follow. -/
theorem settle_append {marks : List Bool} {front : Octets} (cover : marks.length = front.length) (more : List Bool)
    (rest : Octets) : settle (marks ++ more) (front ++ rest) = settle marks front ++ settle more rest := by
  induction marks generalizing front with
  | nil =>
    rw [List.eq_nil_of_length_eq_zero cover.symm, settle_nil]
    rfl
  | cons mark marks ih =>
    cases front with
    | nil => cases cover
    | cons b front =>
      have tail := ih (Nat.succ.inj cover)
      cases mark <;> simp only [List.cons_append, settle, tail]

@[simp] theorem settle_replicate (n : Nat) (out : Octets) : settle (List.replicate n false) out = out := by
  induction n generalizing out with
  | zero => rw [List.replicate_zero, settle_nil]
  | succ n ih => cases out <;> simp [List.replicate_succ, settle, ih]

/-- Only octets that stand for true and are not one are written in another way. -/
theorem getElem?_settle_ne {marks : List Bool} {out : Octets} {i : Nat} (differ : (settle marks out)[i]? ≠ out[i]?) :
    marks[i]? = some true ∧ (settle marks out)[i]? = some 1 ∧ ∃ b, out[i]? = some b ∧ 1 < b := by
  induction marks generalizing out i with
  | nil => exact absurd (by rw [settle_nil]) differ
  | cons mark marks ih =>
    cases out with
    | nil => cases mark <;> exact absurd rfl differ
    | cons b rest =>
      cases i with
      | succ i => cases mark <;> exact ih differ
      | zero =>
        cases mark with
        | false => exact absurd rfl differ
        | true =>
          have first : (settle (true :: marks) (b :: rest))[0]? = some (if b = 0 then 0 else 1) := rfl
          rw [first] at differ ⊢
          have other : (if b = 0 then 0 else 1) ≠ b := fun same => differ (congrArg some same)
          by_cases zero : b = 0
          · rw [if_pos zero] at other
            exact absurd zero.symm other
          · rw [if_neg zero] at other ⊢
            have notZero : b.toNat ≠ 0 := fun same => zero (UInt8.toNat_inj.mp same)
            have notOne : b.toNat ≠ 1 := fun same => other (UInt8.toNat_inj.mp same).symm
            refine ⟨rfl, rfl, b, rfl, UInt8.lt_iff_toNat_lt.mpr ?_⟩
            show 1 < b.toNat
            omega

end Wire

open Wire

/-- For each octet of a field value whether it is a truth value. -/
def FieldValue.truthMarks : FieldValue → List Bool
  | .bool _ => [false, true]
  | .int _ | .real _ => List.replicate 9 false
  | .text s => List.replicate (3 + (utf8 s).length) false
  | .point .. => List.replicate 17 false

/-- For each octet of a field change whether it is the truth value of the field. -/
def FieldChange.truthMarks (c : FieldChange) : List Bool :=
  List.replicate (2 + (utf8 c.key).length) false
    ++ (c.value.truthMarks ++ List.replicate c.stamp.octets.length false)

/-- Where a message has the truth values of fields, from its first octet on. -/
def SyncMessage.truthMarks : SyncMessage → List Bool
  | .delta _ changes => List.replicate 3 false ++ changes.flatMap FieldChange.truthMarks
  | _ => []

/-! ## The parts of a message -/

theorem SessionTime.takes : SessionTime.read.Takes fun t out => out = t.octets :=
  takes_uint64.wrap fun _ _ wrote => wrote

theorem ParticipantId.takes : ParticipantId.read.Takes fun p out => out = p.octets :=
  takes_uint64.wrap fun _ _ wrote => wrote

theorem Binary64.takes : Binary64.read.Takes fun x out => out = x.octets :=
  takes_uint64.wrap fun _ _ wrote => wrote

theorem Writer.takes : Writer.read.Takes fun w out => out = w.octets := by
  refine takes_byte.bind ?_
  rintro tag _ rfl
  split
  · rename_i same
    exact .pure (by rw [same]; rfl)
  · split
    · rename_i same
      refine ParticipantId.takes.wrap ?_
      rintro p _ rfl
      rw [same]
      rfl
    · exact .fail _

theorem Stamp.takes : Stamp.read.Takes fun s out => out = s.octets := by
  refine SessionTime.takes.bind ?_
  rintro time _ rfl
  refine takes_uint32.bind ?_
  rintro counter _ rfl
  refine Writer.takes.wrap ?_
  rintro writer _ rfl
  rfl

/-- The value is written as these octets, once its truth value is settled. -/
def FieldValue.Written (v : FieldValue) (out : Octets) : Prop :=
  v.truthMarks.length = out.length ∧ v.octets = .ok (settle v.truthMarks out)

theorem FieldValue.Written.unmarked {v : FieldValue} {out : Octets}
    (marks : v.truthMarks = List.replicate out.length false) (written : v.octets = .ok out) : v.Written out := by
  unfold Written
  rw [marks, settle_replicate]
  exact ⟨List.length_replicate, written⟩

theorem length_of_textOctets {s : String} {out : Octets} (written : textOctets s = .ok out) :
    out.length = 2 + (utf8 s).length := by
  unfold textOctets at written
  dsimp only at written
  split at written
  · cases written
    rw [List.length_append, length_littleEndian]
  · cases written

theorem FieldValue.takes : FieldValue.read.Takes FieldValue.Written := by
  refine takes_byte.bind ?_
  rintro tag _ rfl
  split
  · rename_i same
    refine takes_byte.wrap ?_
    rintro b _ rfl
    refine ⟨rfl, ?_⟩
    by_cases zero : b = 0 <;> simp [octets, truthMarks, settle, same, zero]
  split
  · rename_i same
    refine takes_uint64.wrap ?_
    rintro n _ rfl
    exact .unmarked rfl (by rw [same]; rfl)
  split
  · rename_i same
    refine Binary64.takes.wrap ?_
    rintro x _ rfl
    exact .unmarked rfl (by rw [same]; rfl)
  split
  · rename_i same
    refine takes_text.wrap ?_
    intro s out written
    refine .unmarked ?_ ?_
    · rw [List.length_append, length_of_textOctets written, ← Nat.add_assoc]
      rfl
    · rw [same, octets, written]
      rfl
  split
  · rename_i same
    refine Binary64.takes.bind ?_
    rintro x _ rfl
    refine Binary64.takes.wrap ?_
    rintro y _ rfl
    exact .unmarked rfl (by rw [same]; rfl)
  · exact .fail _

/-- The change is written as these octets, once its truth value is settled. -/
def FieldChange.Written (c : FieldChange) (out : Octets) : Prop :=
  c.truthMarks.length = out.length ∧ c.octets = .ok (settle c.truthMarks out)

theorem FieldChange.takes : FieldChange.read.Takes FieldChange.Written := by
  refine takes_text.bind fun key keyOctets keyWritten => ?_
  refine FieldValue.takes.bind fun value valueOctets ⟨cover, valueWritten⟩ => ?_
  refine Stamp.takes.wrap ?_
  rintro stamp _ rfl
  have length := length_of_textOctets keyWritten
  refine ⟨?_, ?_⟩
  · simp only [truthMarks, List.length_append, List.length_replicate, cover, length]
  · have front : (List.replicate (2 + (utf8 key).length) false).length = keyOctets.length := by
      rw [List.length_replicate, length]
    rw [truthMarks, settle_append front, settle_append cover, settle_replicate, settle_replicate, octets, keyWritten,
      valueWritten]
    rfl

/-- The changes are written one after the other as these octets, once their truth values are settled. -/
def FieldChange.AllWritten (changes : List FieldChange) (out : Octets) : Prop :=
  (changes.flatMap truthMarks).length = out.length ∧
    ∃ bodies, changes.mapM octets = .ok bodies ∧ bodies.flatten = settle (changes.flatMap truthMarks) out

theorem FieldChange.readMany_succ (n : Nat) (acc : List FieldChange) :
    readMany (n + 1) acc = FieldChange.read >>= fun c => readMany n (c :: acc) := by
  funext s
  simp only [readMany, Bind.bind, StateT.bind, Except.bind]
  cases FieldChange.read s <;> rfl

theorem FieldChange.takes_readMany (n : Nat) (acc : List FieldChange) : (readMany n acc).Takes fun changes out =>
    ∃ taken, changes = acc.reverse ++ taken ∧ taken.length = n ∧ AllWritten taken out := by
  induction n generalizing acc with
  | zero => exact .pure ⟨[], (List.append_nil _).symm, rfl, rfl, [], rfl, rfl⟩
  | succ n ih =>
    rw [readMany_succ]
    refine FieldChange.takes.bind fun c front ⟨cover, written⟩ => ?_
    refine (ih (c :: acc)).mono ?_
    rintro changes more ⟨taken, rfl, rfl, cover', bodies, written', flat⟩
    refine ⟨c :: taken, by simp, rfl, ?_, settle c.truthMarks front :: bodies, ?_, ?_⟩
    · rw [List.flatMap_cons, List.length_append, List.length_append, cover, cover']
    · rw [List.mapM_cons, written, written']
      rfl
    · rw [List.flatMap_cons, settle_append cover, List.flatten_cons, flat]

theorem TaskId.takes : TaskId.read.Takes fun t out => out = [t.toByte] := by
  refine takes_byte.bind ?_
  rintro b _ rfl
  split
  · rename_i t found
    exact .pure (by rw [TaskId.toByte_of_ofByte? found]; rfl)
  · exact .fail _

theorem Gauge.takes : Gauge.read.Takes fun g out => out = g.octets := by
  refine takes_byte.bind ?_
  rintro tag _ rfl
  refine takes_byte.bind ?_
  rintro n _ rfl
  split
  · rename_i same
    exact .pure (by rw [same]; rfl)
  split
  · rename_i same
    exact .pure (by rw [same]; rfl)
  · exact .fail _

theorem InputPayload.takes : InputPayload.read.Takes fun p out => p.octets = .ok out := by
  refine takes_byte.bind ?_
  rintro tag _ rfl
  split
  · rename_i same
    refine Gauge.takes.wrap ?_
    rintro gauge _ rfl
    rw [same]
    rfl
  split
  · rename_i same
    refine Binary64.takes.bind ?_
    rintro dx _ rfl
    refine Binary64.takes.wrap ?_
    rintro dy _ rfl
    rw [same]
    rfl
  split
  · rename_i same
    refine takes_text.bind fun radio name written => ?_
    refine Binary64.takes.wrap ?_
    rintro frequency _ rfl
    rw [octets, written, same]
    rfl
  split
  · rename_i same
    refine takes_byte.wrap ?_
    rintro pump _ rfl
    rw [same]
    rfl
  split
  · rename_i same
    refine takes_uint32.wrap ?_
    rintro n _ rfl
    rw [same]
    rfl
  split
  · rename_i same
    refine Binary64.takes.wrap ?_
    rintro score _ rfl
    rw [same]
    rfl
  · exact .fail _

/-! ## Whole messages -/

namespace SyncMessage

/-- The message is of a type, arrives as it is, and is written as these octets once its truth values are settled. -/
structure Written (type : MessageType) (m : SyncMessage) (out : Octets) : Prop where
  type_eq : m.type = type
  arrived : m.arrived = m
  written : m.encode = .ok (settle m.truthMarks out)

/-- A message without truth values of fields is written as it has come. -/
theorem Written.unmarked {type : MessageType} {m : SyncMessage} {out : Octets} (type_eq : m.type = type)
    (arrived : m.arrived = m) (marks : m.truthMarks = []) (written : m.encode = .ok out) : Written type m out where
  type_eq := type_eq
  arrived := arrived
  written := by rw [marks, settle_nil, written]

theorem takes_readDelta : readDelta.Takes (Written .stateDelta) := by
  refine TaskId.takes.bind ?_
  rintro task _ rfl
  refine (takes_nat 2).bind ?_
  rintro n _ ⟨rfl, bound⟩
  refine (FieldChange.takes_readMany n []).wrap ?_
  rintro changes out ⟨_, rfl, rfl, cover, bodies, written, flat⟩
  refine ⟨rfl, rfl, ?_⟩
  have head : (List.replicate 3 false).length = ([task.toByte] ++ littleEndian 2 changes.length).length := by simp
  rw [← List.append_assoc, truthMarks, settle_append head, settle_replicate, ← flat, encode,
    if_pos (show _ < UInt16.size from bound), written]
  rfl

theorem takes_readForward : readForward.Takes (Written .inputForward) := by
  refine ParticipantId.takes.bind ?_
  rintro origin _ rfl
  refine SessionTime.takes.bind ?_
  rintro time _ rfl
  refine Stamp.takes.bind ?_
  rintro stamp _ rfl
  refine InputPayload.takes.wrap fun payload out written => .unmarked rfl rfl rfl ?_
  rw [encode, written]
  rfl

theorem takes_readHeartbeat : readHeartbeat.Takes (Written .heartbeat) := by
  refine SessionTime.takes.wrap ?_
  rintro time _ rfl
  exact .unmarked rfl rfl rfl rfl

theorem takes_readControl : readControl.Takes (Written .sessionControl) := by
  refine takes_byte.bind ?_
  rintro tag _ rfl
  split
  · rename_i same
    refine ParticipantId.takes.bind ?_
    rintro participant _ rfl
    refine takes_uint64.wrap ?_
    rintro resumeFrom _ rfl
    rw [same]
    exact .unmarked rfl rfl rfl rfl
  split
  · rename_i same
    refine SessionTime.takes.wrap ?_
    rintro seed _ rfl
    rw [same]
    exact .unmarked rfl rfl rfl rfl
  split
  · rename_i same
    refine SessionTime.takes.wrap ?_
    rintro time _ rfl
    rw [same]
    exact .unmarked rfl rfl rfl rfl
  split
  · rename_i same
    refine SessionTime.takes.wrap ?_
    rintro time _ rfl
    rw [same]
    exact .unmarked rfl rfl rfl rfl
  split
  · rename_i same
    rw [same]
    exact .pure (.unmarked rfl rfl rfl rfl)
  · exact .fail _

theorem takes (type : MessageType) : (read type).Takes (Written type) := by
  cases type with
  | stateDelta => exact takes_readDelta
  | inputForward => exact takes_readForward
  | heartbeat => exact takes_readHeartbeat
  | sessionControl => exact takes_readControl

variable {type : MessageType} {payload payload' : Octets} {m m' : SyncMessage}

/-- A payload that is accepted is what its message is written as, once the truth values in it are settled. -/
theorem encode_of_decode (accepted : decode type payload = .ok m) : m.encode = .ok (settle m.truthMarks payload) :=
  ((takes type).readAll accepted).2.written

/-- Settling the truth values of a payload does not change its message. -/
theorem decode_settle (accepted : decode type payload = .ok m) : decode type (settle m.truthMarks payload) = .ok m := by
  obtain ⟨rfl, arrived, written⟩ := ((takes type).readAll accepted).2
  have back := decode_encode written
  rwa [arrived] at back

/-- Of two payloads that are accepted neither is the beginning of the other one. -/
theorem eq_of_isPrefix (accepted : decode type payload = .ok m) (accepted' : decode type payload' = .ok m')
    (within : payload <+: payload') : payload = payload' := by
  obtain ⟨rest, rfl⟩ := within
  have reads := ((takes type).readAll accepted).1 rest
  obtain ⟨⟨a, left⟩, taken, after⟩ := Except.bind_eq_ok_iff.mp accepted'
  cases reads.symm.trans taken
  cases rest with
  | nil => exact (List.append_nil payload).symm
  | cons => cases after

/-- **The reader of payloads is strict.**  What it accepts can be written again, in as many octets, and is read as the
same message.  An octet is written in another way only if it is the truth value of a field and greater than one.  And no
proper beginning and no proper continuation of the payload is accepted under the same type. -/
theorem decode_strict (accepted : decode type payload = .ok m) :
    (∃ out, m.encode = .ok out ∧ out.length = payload.length ∧ decode type out = .ok m ∧
        ∀ i : Nat, out[i]? ≠ payload[i]? →
          m.truthMarks[i]? = some true ∧ out[i]? = some 1 ∧ ∃ b, payload[i]? = some b ∧ 1 < b) ∧
      ∀ other, other <+: payload ∨ payload <+: other → other ≠ payload → ∃ fault, decode type other = .error fault := by
  refine ⟨⟨_, encode_of_decode accepted, length_settle _ _, decode_settle accepted, fun i => getElem?_settle_ne⟩, ?_⟩
  intro other nested differ
  cases read : decode type other with
  | error fault => exact ⟨fault, rfl⟩
  | ok m' =>
    rcases nested with within | beyond
    · exact absurd (eq_of_isPrefix read accepted within) differ
    · exact absurd (eq_of_isPrefix accepted read beyond).symm differ

/-- A delta that shows the tracking task, with a seven for the truth value. -/
def looseDelta : Octets :=
  [2, 1, 0, 7, 0, 118, 105, 115, 105, 98, 108, 101, 0, 7] ++ List.replicate 13 0

theorem decode_looseDelta :
    decode .stateDelta looseDelta = .ok (.delta .tracking [⟨"visible", .bool true, .genesis⟩]) := rfl

/-- It is accepted, and cut short or followed by something else it is not. -/
theorem decode_strict_looseDelta :
    decode .stateDelta looseDelta = .ok (.delta .tracking [⟨"visible", .bool true, .genesis⟩]) ∧
      (∃ out, encode (.delta .tracking [⟨"visible", .bool true, .genesis⟩]) = .ok out ∧
        out.length = looseDelta.length) ∧
      ∃ fault, decode .stateDelta (looseDelta ++ [0]) = .error fault := by
  obtain ⟨⟨out, written, length, -⟩, strict⟩ := decode_strict decode_looseDelta
  exact ⟨decode_looseDelta, ⟨out, written, length⟩, strict _ (Or.inr (List.prefix_append _ _)) (by decide)⟩

end SyncMessage

end Tandem

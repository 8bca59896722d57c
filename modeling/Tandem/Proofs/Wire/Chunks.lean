import Tandem.Proofs.Wire.Frames
import Tandem.Wire.Stream
/-!
# A stream may arrive in any chunks

What is taken off a stream does not depend on where its chunks end.  The reason is that a buffer is judged by its
front alone: whether its first frame is complete, what that frame is, and whether there is a fault, stays as it is
when more octets arrive (`nextFrame?_append_some`, `nextFrame?_append_error`).  Only an incomplete front is looked at
again.  So taking every frame off a buffer and then off what is left with a chunk behind it comes to the same as taking
every frame off the whole (`splitFrames_append`).

For this a header has to be read off its forty octets and nothing else, also where it is at fault: `Wire.Sized` says of
a reader that a number of octets is all that it needs.

`Split.ofChunks_framing` adds what comes of the octets of frames: the frames themselves, each with the length of its
payload in its header.
-/

namespace Tandem

namespace Wire

/-! ## Readers of a fixed size -/

/-- Any octets of this number are taken as a whole, whatever follows them. -/
def Sized {α : Type} (r : Reader α) (size : Nat) : Prop := ∀ front : Octets, front.length = size → ∃ a, Reads r front a

namespace Sized

variable {α β : Type} {r : Reader α} {m n : Nat}

theorem pure (a : α) : Sized (Pure.pure a : Reader α) 0 := by
  intro front length
  rw [List.length_eq_zero_iff.mp length]
  exact ⟨a, Reads.pure a⟩

theorem bind {f : α → Reader β} (first : Sized r m) (second : ∀ a, Sized (f a) n) :
    Sized (r >>= f) (m + n) := by
  intro front length
  obtain ⟨a, read⟩ := first (front.take m) (by rw [List.length_take]; omega)
  obtain ⟨b, read'⟩ := second a (front.drop m) (by rw [List.length_drop]; omega)
  have both := read.bind read'
  rw [List.take_append_drop] at both
  exact ⟨b, both⟩

theorem wrap (first : Sized r m) (f : α → β) : Sized (r >>= fun x => Pure.pure (f x)) m :=
  first.bind (n := 0) fun a => pure (f a)

theorem nat (width : Nat) : Sized (Reader.nat width) width := by
  intro front length
  have read := reads_nat width (value front)
  rw [← length, littleEndian_value] at read
  exact ⟨_, length ▸ read⟩

end Sized

end Wire

open Wire

namespace FrameHeader

theorem sized_readRest (version : UInt8) (type : MessageType) : Sized (readRest version type) 38 :=
  ((Sized.nat 2).wrap _).bind (n := 36) fun _ =>
    ((Sized.nat 8).wrap _).bind (n := 28) fun _ =>
      (((Sized.nat 8).wrap _).wrap _).bind (n := 20) fun _ =>
        ((Sized.nat 8).wrap _).bind (n := 12) fun _ =>
          ((Sized.nat 8).wrap _).bind (n := 4) fun _ => ((Sized.nat 4).wrap _).wrap _

/-- **A header depends on its octets alone**, also where it is at fault. -/
theorem read_append {front : Octets} (size : front.length = headerSize) (rest : Octets) :
    FrameHeader.read (front ++ rest) = (FrameHeader.parse front).map (·, rest) := by
  obtain ⟨version, type, fields, rfl, length⟩ :
      ∃ version type fields, front = version :: type :: fields ∧ fields.length = 38 := by
    match front, size with
    | version :: type :: fields, size => exact ⟨version, type, fields, rfl, by simpa [headerSize] using size⟩
  have opened : ∀ more, FrameHeader.read (version :: type :: (fields ++ more)) =
      if version ≠ wireVersion then .error (.wire (.unsupportedVersion version))
      else (MessageType.ofByte type).bind (readRest version · (fields ++ more)) := by
    intro more
    have enough : ¬ ((version :: type :: (fields ++ more)).take headerSize).length < headerSize := by
      simp only [List.length_take, List.length_cons, List.length_append, length, headerSize]
      omega
    exact if_neg enough
  have alone := opened []
  rw [List.append_nil] at alone
  rw [List.cons_append, List.cons_append, FrameHeader.parse, alone, opened rest]
  by_cases spoken : version = wireVersion
  · rw [if_neg (not_not_intro spoken), if_neg (not_not_intro spoken)]
    cases MessageType.ofByte type with
    | error fault => rfl
    | ok type =>
      obtain ⟨h, read⟩ := sized_readRest version type fields length
      have whole := read []
      rw [List.append_nil] at whole
      simp only [Except.bind, read rest, whole]
      rfl
  · rw [if_pos spoken, if_pos spoken]
    rfl

end FrameHeader

namespace Wire

/-! ## The front of a buffer -/

/-- The first frame of a buffer that begins with a header. -/
theorem nextFrame?_eq {front : Octets} (size : front.length = headerSize) (rest : Octets) :
    nextFrame? (front ++ rest) =
      match FrameHeader.parse front with
      | .error fault => .error fault
      | .ok header =>
        if maxPayloadSize < header.payloadLength.toNat then
          .error (.wire (.payloadTooLarge header.payloadLength.toNat maxPayloadSize))
        else if rest.length < header.payloadLength.toNat then .ok none
        else .ok (some (⟨header, rest.take header.payloadLength.toNat⟩, rest.drop header.payloadLength.toNat)) := by
  have enough : ¬ ((front ++ rest).take headerSize).length < headerSize := by
    rw [List.length_take, List.length_append]
    omega
  have short : ∀ n, (rest.take n).length < n ↔ rest.length < n := by
    intro n
    rw [List.length_take]
    omega
  rw [nextFrame?, if_neg enough, FrameHeader.read_append size]
  cases FrameHeader.parse front with
  | error fault => rfl
  | ok header => simp only [Except.map, short]

/-- A buffer begins with a header, or is too short for one. -/
theorem header_cases (buffer : Octets) : (buffer.length < headerSize ∧ nextFrame? buffer = .ok none) ∨
    ∃ front rest, front.length = headerSize ∧ buffer = front ++ rest := by
  by_cases short : buffer.length < headerSize
  · refine Or.inl ⟨short, if_pos ?_⟩
    rw [List.length_take]
    omega
  · refine Or.inr ⟨buffer.take headerSize, buffer.drop headerSize, ?_, (List.take_append_drop _ _).symm⟩
    rw [List.length_take]
    omega

/-- **A fault stays** when more octets arrive. -/
theorem nextFrame?_append_error {buffer : Octets} {fault : Fault} (h : nextFrame? buffer = .error fault)
    (more : Octets) : nextFrame? (buffer ++ more) = .error fault := by
  rcases header_cases buffer with ⟨-, incomplete⟩ | ⟨front, rest, size, rfl⟩
  · rw [incomplete] at h
    cases h
  · rw [nextFrame?_eq size] at h
    rw [List.append_assoc, nextFrame?_eq size]
    cases parsed : FrameHeader.parse front with
    | error fault' =>
      rw [parsed] at h
      cases h
      rfl
    | ok header =>
      simp only [parsed] at h ⊢
      split at h
      · rename_i tooLarge
        cases h
        exact if_pos tooLarge
      · split at h <;> cases h

/-- **A complete frame stays** when more octets arrive, and they come behind what is left. -/
theorem nextFrame?_append_some {buffer rest : Octets} {f : Frame} (h : nextFrame? buffer = .ok (some (f, rest)))
    (more : Octets) :
    nextFrame? (buffer ++ more) = .ok (some (f, rest ++ more)) ∧ rest.length + headerSize ≤ buffer.length := by
  rcases header_cases buffer with ⟨-, incomplete⟩ | ⟨front, behind, size, rfl⟩
  · rw [incomplete] at h
    cases h
  · rw [nextFrame?_eq size] at h
    rw [List.append_assoc, nextFrame?_eq size]
    cases parsed : FrameHeader.parse front with
    | error fault =>
      rw [parsed] at h
      cases h
    | ok header =>
      simp only [parsed] at h ⊢
      split at h
      · cases h
      · rename_i fits
        split at h
        · cases h
        · rename_i complete
          cases h
          have complete' : ¬ (behind ++ more).length < header.payloadLength.toNat := by
            rw [List.length_append]
            omega
          have within : header.payloadLength.toNat ≤ behind.length := Nat.le_of_not_lt complete
          rw [if_neg fits, if_neg complete', List.take_append_of_le_length within, List.drop_append_of_le_length within]
          refine ⟨rfl, ?_⟩
          rw [List.length_append, List.length_drop]
          omega

/-! ## Every frame of a buffer -/

/-- The frames that have been taken before come first. -/
theorem splitUpTo_eq (limit : Nat) (buffer : Octets) (acc : List Frame) : splitUpTo limit buffer acc =
    ⟨acc.reverse ++ (splitUpTo limit buffer []).frames, (splitUpTo limit buffer []).rest,
      (splitUpTo limit buffer []).fault⟩ := by
  induction limit generalizing buffer acc with
  | zero => simp [splitUpTo]
  | succ limit ih =>
    unfold splitUpTo
    split
    · simp
    · simp
    · rename_i f rest _
      rw [ih rest (f :: acc), ih rest [f]]
      simp

/-- Where the buffer has no room for more frames, the limit does not matter. -/
theorem splitUpTo_limit {limit limit' : Nat} {buffer : Octets} (enough : buffer.length / headerSize < limit)
    (enough' : buffer.length / headerSize < limit') : splitUpTo limit buffer [] = splitUpTo limit' buffer [] := by
  induction limit generalizing limit' buffer with
  | zero => exact absurd enough (Nat.not_lt_zero _)
  | succ limit ih =>
    obtain _ | limit' := limit'
    · exact absurd enough' (Nat.not_lt_zero _)
    · unfold splitUpTo
      split
      · rfl
      · rfl
      · rename_i f rest next
        obtain ⟨-, shorter⟩ := nextFrame?_append_some next []
        rw [splitUpTo_eq limit, splitUpTo_eq limit']
        have fewer : rest.length / headerSize < buffer.length / headerSize := by
          unfold headerSize at shorter ⊢
          omega
        have same : splitUpTo limit rest [] = splitUpTo limit' rest [] := ih (by omega) (by omega)
        rw [same]

/-- Taking every frame off a buffer is a matter of the first one and of what is behind it. -/
theorem splitFrames_eq (buffer : Octets) : splitFrames buffer =
    match nextFrame? buffer with
    | .error fault => ⟨[], buffer, some fault⟩
    | .ok none => ⟨[], buffer, none⟩
    | .ok (some (f, rest)) => ⟨f :: (splitFrames rest).frames, (splitFrames rest).rest, (splitFrames rest).fault⟩ := by
  rw [splitFrames, splitUpTo]
  cases next : nextFrame? buffer with
  | error fault => rfl
  | ok found =>
    cases found with
    | none => rfl
    | some found =>
      obtain ⟨f, rest⟩ := found
      obtain ⟨-, shorter⟩ := nextFrame?_append_some next []
      have fewer : rest.length / headerSize < buffer.length / headerSize := by
        unfold headerSize at shorter ⊢
        omega
      dsimp only
      rw [splitUpTo_eq, splitUpTo_limit fewer (Nat.lt_succ_self _)]
      rfl

/-- **Taking every frame off a whole** is taking every frame off its front, and then off what is left with the rest
behind it. -/
theorem splitFrames_append (front more : Octets) : splitFrames (front ++ more) =
    match (splitFrames front).fault with
    | some fault => ⟨(splitFrames front).frames, (splitFrames front).rest ++ more, some fault⟩
    | none =>
      let s := splitFrames ((splitFrames front).rest ++ more)
      ⟨(splitFrames front).frames ++ s.frames, s.rest, s.fault⟩ := by
  -- The induction is on how many octets are in front: each frame takes its header off them.
  obtain ⟨size, bounded⟩ : ∃ size, front.length ≤ size := ⟨_, Nat.le_refl _⟩
  induction size generalizing front with
  | zero =>
    rw [List.length_eq_zero_iff.mp (Nat.le_zero.mp bounded)]
    rfl
  | succ size ih =>
    cases next : nextFrame? front with
    | error fault =>
      rw [splitFrames_eq front, splitFrames_eq (front ++ more), next, nextFrame?_append_error next more]
    | ok found =>
      cases found with
      | none =>
        rw [splitFrames_eq front, next]
        rfl
      | some found =>
        obtain ⟨f, rest⟩ := found
        obtain ⟨next_whole, shorter⟩ := nextFrame?_append_some next more
        rw [splitFrames_eq front, splitFrames_eq (front ++ more), next, next_whole]
        dsimp only
        rw [ih rest (by unfold headerSize at shorter; omega)]
        cases (splitFrames rest).fault <;> rfl

namespace Split

/-- The same has been taken, and without a fault the same is left. -/
structure Same (s t : Split) : Prop where
  frames : s.frames = t.frames
  fault : s.fault = t.fault
  rest : t.fault = none → s.rest = t.rest

theorem feed_of_fault {s : Split} {fault : Fault} (h : s.fault = some fault) (chunk : Octets) : s.feed chunk = s := by
  rw [feed, h]

/-- A chunk that arrives. -/
theorem Same.feed {s : Split} {front : Octets} (h : s.Same (splitFrames front)) (chunk : Octets) :
    (s.feed chunk).Same (splitFrames (front ++ chunk)) := by
  rw [splitFrames_append]
  cases fault : (splitFrames front).fault with
  | some f =>
    rw [feed_of_fault (h.fault.trans fault)]
    exact ⟨h.frames, h.fault.trans fault, nofun⟩
  | none =>
    rw [Split.feed, h.fault.trans fault, h.rest fault]
    exact ⟨congrArg (· ++ _) h.frames, rfl, fun _ => rfl⟩

theorem same_fresh : fresh.Same (splitFrames []) := ⟨rfl, rfl, fun _ => rfl⟩

/-- **Chunks come to the same as the whole stream.** -/
theorem same_ofChunks (chunks : List Octets) : (ofChunks chunks).Same (splitFrames chunks.flatten) := by
  have each : ∀ (chunks : List Octets) {s : Split} {front : Octets}, s.Same (splitFrames front) →
      (chunks.foldl feed s).Same (splitFrames (front ++ chunks.flatten)) := by
    intro chunks
    induction chunks with
    | nil =>
      intro s front same
      rw [List.flatten_nil, List.append_nil]
      exact same
    | cons chunk rest ih =>
      intro s front same
      rw [List.flatten_cons, ← List.append_assoc]
      exact ih (same.feed chunk)
  exact each chunks same_fresh

end Split

end Wire

/-! ## The octets of frames -/

namespace Frame

/-- The frame with the length of its payload in its header. -/
def announcing (f : Frame) : Frame :=
  { f with header := { f.header with payloadLength := UInt32.ofNat f.payload.length } }

/-- The frame can be taken off a stream: it has the version that is spoken here and a payload that is not too large. -/
def Streamable (f : Frame) : Prop := f.header.version = wireVersion ∧ f.payload.length ≤ maxPayloadSize

theorem toNat_payloadLength_announcing {f : Frame} (h : f.Streamable) :
    f.announcing.header.payloadLength.toNat = f.payload.length :=
  UInt32.toNat_ofNat_of_lt' (Nat.lt_of_le_of_lt h.2 (by decide))

/-- A frame is taken off the front of a stream. -/
theorem nextFrame?_octets {f : Frame} (h : f.Streamable) (rest : Octets) :
    nextFrame? (f.octets ++ rest) = .ok (some (f.announcing, rest)) := by
  have octets : f.octets = f.announcing.header.octets ++ f.payload := rfl
  have parsed : FrameHeader.parse f.announcing.header.octets = .ok f.announcing.header := by
    have read := FrameHeader.reads (h := f.announcing.header) h.1 []
    rw [List.append_nil] at read
    rw [FrameHeader.parse, read]
    rfl
  have complete : ¬ (f.payload ++ rest).length < f.payload.length := by
    rw [List.length_append]
    omega
  rw [octets, List.append_assoc, nextFrame?_eq f.announcing.header.length_octets, parsed]
  dsimp only
  rw [toNat_payloadLength_announcing h, if_neg (Nat.not_lt.mpr h.2), if_neg complete, List.take_left, List.drop_left]
  rfl

/-- The octets of frames come apart into the frames, and nothing is left. -/
theorem splitFrames_octets {frames : List Frame} (h : ∀ f ∈ frames, f.Streamable) :
    splitFrames (frames.flatMap Frame.octets) = ⟨frames.map announcing, [], none⟩ := by
  induction frames with
  | nil => rfl
  | cons f rest ih =>
    rw [List.flatMap_cons, splitFrames_eq, nextFrame?_octets (h f List.mem_cons_self)]
    dsimp only
    rw [ih fun g mem => h g (List.mem_cons_of_mem f mem), List.map_cons]

end Frame

/-! ## The stream as a whole -/

namespace Wire

theorem Split.ofChunks_singleton (stream : Octets) : Split.ofChunks [stream] = splitFrames stream := by
  show Split.fresh.feed stream = _
  rfl

/-- **Framing does not depend on the chunks.**  Whatever the stream, and wherever its chunks end, the frames and the
fault that come of it are those of the stream in one piece, and without a fault the same octets are left.  The octets of
frames that can be streamed come to these frames, each with the length of its payload in its header, and nothing is
left. -/
theorem Split.ofChunks_framing (chunks : List Octets) (frames : List Frame) :
    ((ofChunks chunks).frames = (ofChunks [chunks.flatten]).frames ∧
      (ofChunks chunks).fault = (ofChunks [chunks.flatten]).fault ∧
      ((ofChunks [chunks.flatten]).fault = none → (ofChunks chunks).rest = (ofChunks [chunks.flatten]).rest)) ∧
    ((∀ f ∈ frames, f.header.version = wireVersion ∧ f.payload.length ≤ maxPayloadSize) →
      ofChunks [frames.flatMap Frame.octets] = ⟨frames.map Frame.announcing, [], none⟩) := by
  have same := same_ofChunks chunks
  rw [ofChunks_singleton, ofChunks_singleton]
  exact ⟨⟨same.frames, same.fault, same.rest⟩, Frame.splitFrames_octets⟩

/-- Two frames, the first of which does not know the length of its payload yet. -/
def twoFrames : List Frame :=
  [⟨⟨wireVersion, .heartbeat, .none, ⟨7⟩, ⟨1⟩, 0, 3, 0⟩, [1, 2, 3]⟩,
   ⟨⟨wireVersion, .sessionControl, .none, ⟨7⟩, ⟨1⟩, 1, 3, 0⟩, []⟩]

/-- Their octets, cut inside the payload of the first and inside the header of the second. -/
def twoFramesCut : List Octets :=
  [(twoFrames.flatMap Frame.octets).take 41, ((twoFrames.flatMap Frame.octets).drop 41).take 10,
    (twoFrames.flatMap Frame.octets).drop 51]

/-- The two frames come out of the three chunks. -/
theorem Split.ofChunks_framing_twoFrames :
    (∀ f ∈ twoFrames, f.header.version = wireVersion ∧ f.payload.length ≤ maxPayloadSize) ∧
    (ofChunks twoFramesCut).frames = twoFrames.map Frame.announcing ∧ (ofChunks twoFramesCut).fault = none ∧
    (ofChunks twoFramesCut).rest = [] := by
  have streamable : ∀ f ∈ twoFrames, f.header.version = wireVersion ∧ f.payload.length ≤ maxPayloadSize := by decide
  obtain ⟨⟨frames, fault, rest⟩, whole⟩ := Split.ofChunks_framing twoFramesCut twoFrames
  have stream : twoFramesCut.flatten = twoFrames.flatMap Frame.octets := rfl
  rw [stream, whole streamable] at frames fault rest
  exact ⟨streamable, frames, fault, rest rfl⟩

end Wire

end Tandem

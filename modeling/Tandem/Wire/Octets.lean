import Tandem.Fault
/-!
# Reading and writing octets

Everything on the wire is octets: integers of fixed width with the low octet first, and texts as a 16-bit
length with their UTF-8 octets.  A `Reader` takes what it needs off the front of the octets it is given and
leaves the rest; a writer yields the octets to be read.  `readNat_littleEndian` and `readText_textOctets`
say that the two sides fit.
-/

namespace Tandem

/-- A run of octets. -/
abbrev Octets := List UInt8

/-- Why octets make no message. -/
inductive WireFault where
  | unsupportedVersion (version : UInt8)
  | payloadTooLarge (size limit : Nat)
  | lengthMismatch (actual announced : Nat)
  | textTooLong (size : Nat)
  | notUtf8
  | tooManyChanges (n : Nat)
  | unknownTask (byte : UInt8)
  | unknownWriter (tag : UInt8)
  | unknownValue (tag : UInt8)
  | unknownInput (tag : UInt8)
  | unknownGauge (tag : UInt8)
  | unknownControl (tag : UInt8)
  | trailing (n : Nat)
deriving DecidableEq

namespace WireFault

/-- An octet in hexadecimal, with both digits. -/
def hexByte (b : UInt8) : String := String.ofList ('0' :: 'x' :: Text.paddedDigits 16 2 b.toNat)

/-- The wording for people. -/
def message : WireFault → String
  | unsupportedVersion version => s!"unsupported wire version {version.toNat}"
  | payloadTooLarge size limit => s!"payload too large: {size} > {limit}"
  | lengthMismatch actual announced => s!"frame length {actual} does not match header ({announced})"
  | textTooLong size => s!"string too long: {size}"
  | notUtf8 => "string is not UTF-8"
  | tooManyChanges n => s!"too many changes: {n}"
  | unknownTask byte => s!"unknown task byte {hexByte byte}"
  | unknownWriter tag => s!"unknown writer tag {tag.toNat}"
  | unknownValue tag => s!"unknown value tag {tag.toNat}"
  | unknownInput tag => s!"unknown input tag {tag.toNat}"
  | unknownGauge tag => s!"unknown gauge kind {tag.toNat}"
  | unknownControl tag => s!"unknown control tag {tag.toNat}"
  | trailing n => s!"{n} trailing bytes"

end WireFault

/-- A wire fault as a fault of the session. -/
def Fault.wire (f : WireFault) : Fault := .invalidWireFormat f.message

namespace Wire

/-! ## Writing -/

/-- A natural number in `width` octets, low octet first; higher digits are cut off. -/
def littleEndian : (width : Nat) → Nat → Octets
  | 0, _ => []
  | width + 1, n => UInt8.ofNat n :: littleEndian width (n / 256)

/-- The number that octets stand for, low octet first. -/
def value : Octets → Nat
  | [] => 0
  | b :: rest => b.toNat + 256 * value rest

/-- The octets of a text in UTF-8. -/
def utf8 (s : String) : Octets := s.toByteArray.data.toList

/-- A text with its length, unless it is too long for 16 bits. -/
def textOctets (s : String) : Except Fault Octets :=
  let body := utf8 s
  if body.length < UInt16.size then .ok (littleEndian 2 body.length ++ body)
  else .error (.wire (.textTooLong body.length))

/-! ## Reading -/

/-- Takes a value off the front of octets. -/
abbrev Reader := StateT Octets (Except Fault)

namespace Reader

/-- Fails without reading. -/
def fail {α : Type} (f : WireFault) : Reader α := fun _ => .error (.wire f)

/-- Takes a number of octets. -/
def take (n : Nat) : Reader Octets := fun s =>
  let front := s.take n
  if front.length < n then .error (.bufferTooShort n front.length) else .ok (front, s.drop n)

/-- Takes one octet. -/
def byte : Reader UInt8
  | [] => .error (.bufferTooShort 1 0)
  | b :: rest => .ok (b, rest)

/-- Takes a natural number of `width` octets. -/
def nat (width : Nat) : Reader Nat := do
  let front ← take width
  pure (value front)

/-- Takes a number of 16 bits. -/
def uint16 : Reader UInt16 := do
  let n ← nat 2
  pure (UInt16.ofNat n)

/-- Takes a number of 32 bits. -/
def uint32 : Reader UInt32 := do
  let n ← nat 4
  pure (UInt32.ofNat n)

/-- Takes a number of 64 bits. -/
def uint64 : Reader UInt64 := do
  let n ← nat 8
  pure (UInt64.ofNat n)

/-- Takes a text. -/
def text : Reader String := do
  let length ← nat 2
  let body ← take length
  match String.fromUTF8? (ByteArray.mk body.toArray) with
  | some s => pure s
  | none => fail .notUtf8

/-- Succeeds when nothing is left. -/
def finish : Reader Unit := fun s =>
  if s.isEmpty then .ok ((), s) else .error (.wire (.trailing s.length))

/-- Reads a whole run of octets. -/
def readAll {α : Type} (r : Reader α) (s : Octets) : Except Fault α := do
  let (a, rest) ← r s
  let _ ← finish rest
  pure a

end Reader

/-! ## The two sides fit -/

/-- How many numbers `width` octets tell apart. -/
def capacity : (width : Nat) → Nat
  | 0 => 1
  | width + 1 => 256 * capacity width

@[simp] theorem length_littleEndian (width n : Nat) : (littleEndian width n).length = width := by
  induction width generalizing n with
  | zero => rfl
  | succ width ih => simp [littleEndian, ih]

theorem value_littleEndian (width n : Nat) : value (littleEndian width n) = n % capacity width := by
  induction width generalizing n with
  | zero => simp [littleEndian, value, capacity, Nat.mod_one]
  | succ width ih =>
    rw [littleEndian, value, ih, UInt8.toNat_ofNat', capacity]
    exact Nat.mod_mul.symm

theorem value_lt (s : Octets) : value s < capacity s.length := by
  induction s with
  | nil => simp [value, capacity]
  | cons b rest ih =>
    have := b.toNat_lt
    simp only [value, List.length_cons, capacity]
    omega

theorem littleEndian_value (s : Octets) : littleEndian s.length (value s) = s := by
  induction s with
  | nil => rfl
  | cons b rest ih =>
    have bound := b.toNat_lt
    have low : UInt8.ofNat (b.toNat + 256 * value rest) = b := by
      apply UInt8.toNat_inj.mp
      rw [UInt8.toNat_ofNat']
      omega
    have high : (b.toNat + 256 * value rest) / 256 = value rest := by omega
    simp only [List.length_cons, value, littleEndian, low, high, ih]

theorem take_append (front rest : Octets) :
    Reader.take front.length (front ++ rest) = .ok (front, rest) := by
  simp [Reader.take]

/-- Reading a number back. -/
theorem readNat_littleEndian (width n : Nat) (rest : Octets) :
    Reader.nat width (littleEndian width n ++ rest) = .ok (n % capacity width, rest) := by
  have h := take_append (littleEndian width n) rest
  rw [length_littleEndian] at h
  simp only [Reader.nat, bind, StateT.bind, Except.bind, h]
  rw [value_littleEndian]
  rfl

/-- Reading a text back. -/
theorem readText_textOctets {s : String} {out : Octets} (h : textOctets s = .ok out) (rest : Octets) :
    Reader.text (out ++ rest) = .ok (s, rest) := by
  unfold textOctets at h
  simp only at h
  split at h
  · rename_i short
    cases h
    have lengthBack : (utf8 s).length % capacity 2 = (utf8 s).length :=
      Nat.mod_eq_of_lt short
    have bytes : ByteArray.mk (utf8 s).toArray = s.toByteArray := by simp [utf8]
    have back : String.fromUTF8? s.toByteArray = some s := by
      simp [String.fromUTF8?, s.isValidUTF8, String.fromUTF8]
    simp only [Reader.text, bind, StateT.bind, Except.bind, List.append_assoc, readNat_littleEndian,
      lengthBack, take_append, bytes, back]
    rfl
  · cases h

end Wire

end Tandem

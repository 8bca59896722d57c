import Tandem.Text.Digits
/-!
# Who and what takes part in a session

Participants, sessions and scene objects are known by fixed-width numbers, so that they travel in a frame
without a length.
-/

namespace Tandem

/-- One of the two people, and the peer they sit at. -/
structure ParticipantId where
  id : UInt64
deriving DecidableEq

namespace ParticipantId

instance : LT ParticipantId := ⟨fun a b => a.id < b.id⟩
instance : LE ParticipantId := ⟨fun a b => a.id ≤ b.id⟩
instance : DecidableLT ParticipantId := fun a b => inferInstanceAs (Decidable (a.id < b.id))
instance : DecidableLE ParticipantId := fun a b => inferInstanceAs (Decidable (a.id ≤ b.id))

instance : Std.IsLinearOrder ParticipantId where
  le_refl a := Std.IsPreorder.le_refl a.id
  le_trans a b c := Std.IsPreorder.le_trans a.id b.id c.id
  le_antisymm a b h₁ h₂ := by
    obtain ⟨a⟩ := a
    obtain ⟨b⟩ := b
    exact congrArg ParticipantId.mk (Std.IsPartialOrder.le_antisymm a b h₁ h₂)
  le_total a b := Std.IsLinearPreorder.le_total a.id b.id

instance : Std.LawfulOrderLT ParticipantId where
  lt_iff a b := Std.LawfulOrderLT.lt_iff a.id b.id

/-- The short name in field addresses and messages, `p` and the number. -/
def label (p : ParticipantId) : String := s!"p{p.id.toNat}"

/-- The form for diagnostics. -/
def describe (p : ParticipantId) : String := s!"Participant({p.id.toNat})"

end ParticipantId

/-- A session; both peers of it share the number. -/
structure SessionId where
  id : UInt64
deriving DecidableEq

namespace SessionId

/-- The number in hexadecimal, with all sixteen digits. -/
def label (s : SessionId) : String := String.ofList (Text.paddedDigits 16 16 s.id.toNat)

/-- The form for diagnostics. -/
def describe (s : SessionId) : String := s!"Session({s.label})"

end SessionId

/-- An object placed in the shared scene.  Numbers are given in the order in which objects are added, which
is the same on both peers because both run the same scenario. -/
structure ObjectId where
  id : UInt32
deriving DecidableEq

namespace ObjectId

/-- The number. -/
def label (o : ObjectId) : String := toString o.id.toNat

/-- The form for diagnostics. -/
def describe (o : ObjectId) : String := s!"Object({o.id.toNat})"

end ObjectId

/-- The kind of a scene object, which is what the matching task compares. -/
structure ObjectKind where
  id : UInt32
deriving DecidableEq

end Tandem

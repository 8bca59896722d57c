import Tandem.Peer.Config
/-!
# The two ends of a simulation

A simulation has a host end and a guest end.  `Ends` holds one thing for each of them; an end is named by the
role of the peer there.
-/

namespace Tandem

namespace Role

/-- The role at the other end. -/
def other : Role → Role
  | host => guest
  | guest => host

@[simp] theorem other_other (r : Role) : r.other.other = r := by cases r <;> rfl

/-- The two ends are all there are. -/
theorem forall_of {P : Role → Prop} (r : Role) (here : P r) (there : P r.other) : ∀ s, P s := by
  intro s
  cases r <;> cases s <;> assumption

/-- The address of an end in a simulated network. -/
def simulatedAddress : Role → SocketAddress
  | host => .v4 [10, 0, 0, 1] 7400
  | guest => .v4 [10, 0, 0, 2] 50000

end Role

/-- One thing for each end. -/
structure Ends (α : Type) where
  host : α
  guest : α

namespace Ends

variable {α : Type}

/-- What is at an end. -/
def get (e : Ends α) : Role → α
  | .host => e.host
  | .guest => e.guest

/-- Replaces what is at an end. -/
def set (e : Ends α) (r : Role) (a : α) : Ends α :=
  match r with
  | .host => { e with host := a }
  | .guest => { e with guest := a }

theorem get_set (e : Ends α) (r s : Role) (a : α) : (e.set r a).get s = if r = s then a else e.get s := by
  cases r <;> cases s <;> rfl

@[simp] theorem get_set_self (e : Ends α) (r : Role) (a : α) : (e.set r a).get r = a := by cases r <;> rfl

@[simp] theorem get_set_other (e : Ends α) (r : Role) (a : α) : (e.set r a).get r.other = e.get r.other := by
  cases r <;> rfl

@[simp] theorem set_get (e : Ends α) (r : Role) : e.set r (e.get r) = e := by cases r <;> rfl

@[simp] theorem set_set (e : Ends α) (r : Role) (a a' : α) : (e.set r a).set r a' = e.set r a' := by cases r <;> rfl

/-- Whether something holds at both ends. -/
def both (e : Ends α) (f : α → Bool) : Bool := f e.host && f e.guest

end Ends

end Tandem

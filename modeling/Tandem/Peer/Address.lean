import Tandem.Number.Reader
import Tandem.Text.Digits
/-!
# Socket addresses

A peer listens or connects at a socket address: a version 4 address of four octets or a version 6 address of
eight groups in brackets, followed by the number of one of its ports.  A version 6 address is written with
its longest run of zero groups left out, the first of equally long ones, unless the run is a single group;
one that maps a version 4 address shows that address.
-/

namespace Tandem

/-- An address and the number of one of its ports. -/
inductive SocketAddress where
  | v4 (octets : List Nat) (portNumber : Nat)
  | v6 (groups : List Nat) (scope portNumber : Nat)
deriving DecidableEq

namespace SocketAddress

/-- Takes something off the front of text. -/
abbrev Taking (α : Type) := List Char → Option (α × List Char)

/-- Takes one particular character. -/
def takeChar (c : Char) : Taking Unit
  | d :: rest => if d = c then some ((), rest) else none
  | [] => none

/-- Takes a decimal number below a bound, leading zeros allowed. -/
def takeDecimal (bound : Nat) : Taking Nat := fun s =>
  let digits := s.takeWhile Char.isDigit
  if digits = [] then none
  else (Number.digitsBelow? bound digits).map (·, s.dropWhile Char.isDigit)

/-- Takes an octet in decimal, without leading zeros. -/
def takeOctet : Taking Nat := fun s =>
  let digits := s.takeWhile Char.isDigit
  if digits.length ≤ 3 ∧ (digits.head? ≠ some '0' ∨ digits.length = 1) then takeDecimal 256 s else none

/-- Takes the four octets of a version 4 address. -/
def takeV4 : Taking (List Nat) := fun s => do
  let (a, s) ← takeOctet s
  let (_, s) ← takeChar '.' s
  let (b, s) ← takeOctet s
  let (_, s) ← takeChar '.' s
  let (c, s) ← takeOctet s
  let (_, s) ← takeChar '.' s
  let (d, s) ← takeOctet s
  pure ([a, b, c, d], s)

/-- Takes a group of a version 6 address: up to four hexadecimal digits. -/
def takeGroup : Taking Nat := fun s =>
  let digits := s.takeWhile (fun c => (Text.hexValue? c).isSome)
  if digits = [] ∨ 4 < digits.length then none
  else (Text.readHex? digits).map (·, s.drop digits.length)

/-- Takes what follows a separator, which is not there before the first group. -/
def afterSeparator {α : Type} (first : Bool) (take : Taking α) : Taking α := fun s =>
  if first then take s
  else do
    let (_, s) ← takeChar ':' s
    take s

/-- Takes up to `limit` groups separated by colons, of which a version 4 address may be the last two.  Also
tells whether there was such an address.  `acc` holds the groups taken before, last first. -/
def takeGroups : (limit : Nat) → List Nat → List Char → (List Nat × Bool) × List Char
  | 0, acc, s => ((acc.reverse, false), s)
  | limit + 1, acc, s =>
    match if 0 < limit then afterSeparator acc.isEmpty takeV4 s else none with
    | some ([a, b, c, d], rest) => ((((c * 256 + d) :: (a * 256 + b) :: acc).reverse, true), rest)
    | _ =>
      match afterSeparator acc.isEmpty takeGroup s with
      | some (g, rest) => takeGroups limit (g :: acc) rest
      | none => ((acc.reverse, false), s)

/-- Takes the groups of a version 6 address.  A double colon stands for at least one zero group. -/
def takeV6 : Taking (List Nat) := fun s =>
  let ((front, mapped), s) := takeGroups 8 [] s
  if front.length = 8 then some (front, s)
  else if mapped then none
  else do
    let (_, s) ← takeChar ':' s
    let (_, s) ← takeChar ':' s
    let ((back, _), s) := takeGroups (7 - front.length) [] s
    pure (front ++ List.replicate (8 - front.length - back.length) 0 ++ back, s)

/-- Takes the number after its colon. -/
def takePort : Taking Nat := fun s => do
  let (_, s) ← takeChar ':' s
  takeDecimal UInt16.size s

/-- Takes the scope of a version 6 address, zero if there is none. -/
def takeScope (s : List Char) : Nat × List Char :=
  ((takeChar '%' s).bind (fun r => takeDecimal UInt32.size r.2)).getD (0, s)

/-- Takes a version 4 address and the number after it. -/
def takeSocketV4 : Taking SocketAddress := fun s => do
  let (octets, s) ← takeV4 s
  let (portNumber, s) ← takePort s
  pure (.v4 octets portNumber, s)

/-- Takes a version 6 address in brackets and the number after it. -/
def takeSocketV6 : Taking SocketAddress := fun s => do
  let (_, s) ← takeChar '[' s
  let (groups, s) ← takeV6 s
  let (scope, s) := takeScope s
  let (_, s) ← takeChar ']' s
  let (portNumber, s) ← takePort s
  pure (.v6 groups scope portNumber, s)

/-- Reads an address and nothing else. -/
def ofText? (text : String) : Option SocketAddress := do
  let (address, rest) ← (takeSocketV4 text.toList).or (takeSocketV6 text.toList)
  if rest.isEmpty then some address else none

/-! ## Writing -/

/-- Octets with points between them. -/
def dotted (octets : List Nat) : String := ".".intercalate (octets.map toString)

/-- Groups with colons between them. -/
def colonSeparated (groups : List Nat) : String :=
  ":".intercalate (groups.map (fun g => String.ofList (Nat.toDigits 16 g)))

/-- The length of the run of zeros at the front. -/
def zeroRun (groups : List Nat) : Nat := (groups.takeWhile (· = 0)).length

/-- The start and the length of the longest run of zero groups, the first of equally long ones. -/
def longestZeroRun (groups : List Nat) : Nat × Nat :=
  (List.range groups.length).foldl
    (fun best i =>
      let n := zeroRun (groups.drop i)
      if best.2 < n then (i, n) else best)
    (0, 0)

/-- A version 6 address. -/
def groupsText (groups : List Nat) : String :=
  match groups with
  | [0, 0, 0, 0, 0, 0xffff, a, b] => s!"::ffff:{dotted [a / 256, a % 256, b / 256, b % 256]}"
  | _ =>
    let (start, length) := longestZeroRun groups
    if length ≤ 1 then colonSeparated groups
    else s!"{colonSeparated (groups.take start)}::{colonSeparated (groups.drop (start + length))}"

/-- An address in text. -/
def toText : SocketAddress → String
  | v4 octets portNumber => s!"{dotted octets}:{portNumber}"
  | v6 groups scope portNumber =>
    let scopeText := if scope = 0 then "" else s!"%{scope}"
    s!"[{groupsText groups}{scopeText}]:{portNumber}"

end SocketAddress

end Tandem

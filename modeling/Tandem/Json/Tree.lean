import Tandem.Json.Token
/-!
# JSON trees

The structure of JSON text, built from its tokens by one pass with a stack of open arrays and objects.  The
members of an object are kept in order and with repetitions, for the reader of an object to judge.
-/

namespace Tandem

/-- A JSON value.  Text whose escapes do not form characters has no value. -/
inductive Json where
  | null
  | bool (b : Bool)
  | number (n : Numeral)
  | text (s : Option String)
  | array (items : List Json)
  | object (members : List (Option String × Json))

namespace Json

/-- An array or object that is still open, what it holds so far last first. -/
inductive Open where
  | array (items : List Json)
  /-- With the key of the member that is being read. -/
  | object (members : List (Option String × Json)) (key : Option String)

/-- What may come next. -/
inductive Expected where
  | value
  | valueOrClose
  | key
  | keyOrClose
  | colon
  | commaOrClose
  /-- The text is complete. -/
  | nothing
deriving DecidableEq

/-- A text that has been read so far. -/
structure Building where
  opened : List Open
  expected : Expected
  root : Json

namespace Building

/-- Nothing read yet. -/
def start : Building := ⟨[], .value, .null⟩

/-- Puts a complete value in its place. -/
def place (b : Building) (j : Json) : Building :=
  match b.opened with
  | [] => { b with expected := .nothing, root := j }
  | .array items :: rest => { b with opened := .array (j :: items) :: rest, expected := .commaOrClose }
  | .object members key :: rest =>
    { b with opened := .object ((key, j) :: members) key :: rest, expected := .commaOrClose }

/-- Opens an array or object. -/
def push (b : Building) (o : Open) (expected : Expected) : Building :=
  { b with opened := o :: b.opened, expected := expected }

/-- Whether a value may come next. -/
def takesValue (b : Building) : Bool := b.expected = .value || b.expected = .valueOrClose

/-- Closes the innermost array. -/
def closeArray? (b : Building) : Option Building :=
  match b.opened with
  | .array items :: rest =>
    if b.expected = .valueOrClose ∨ b.expected = .commaOrClose then
      some ({ b with opened := rest }.place (.array items.reverse))
    else none
  | _ => none

/-- Closes the innermost object. -/
def closeObject? (b : Building) : Option Building :=
  match b.opened with
  | .object members _ :: rest =>
    if b.expected = .keyOrClose ∨ b.expected = .commaOrClose then
      some ({ b with opened := rest }.place (.object members.reverse))
    else none
  | _ => none

/-- Takes a text: a key where one is expected, else a value. -/
def text? (b : Building) (s : Option String) : Option Building :=
  if b.takesValue then some (b.place (.text s))
  else if b.expected = .key ∨ b.expected = .keyOrClose then
    match b.opened with
    | .object members _ :: rest => some { b with opened := .object members s :: rest, expected := .colon }
    | _ => none
  else none

/-- Takes a comma. -/
def comma? (b : Building) : Option Building :=
  if b.expected = .commaOrClose then
    match b.opened with
    | .array _ :: _ => some { b with expected := .value }
    | .object .. :: _ => some { b with expected := .key }
    | [] => none
  else none

/-- Takes a value that is not made of others. -/
def leaf? (b : Building) (j : Json) : Option Building := if b.takesValue then some (b.place j) else none

/-- Takes a token. -/
def step? (b : Building) : Token → Option Building
  | .openObject => if b.takesValue then some (b.push (.object [] none) .keyOrClose) else none
  | .openArray => if b.takesValue then some (b.push (.array []) .valueOrClose) else none
  | .closeObject => b.closeObject?
  | .closeArray => b.closeArray?
  | .colon => if b.expected = .colon then some { b with expected := .value } else none
  | .comma => b.comma?
  | .null => b.leaf? .null
  | .bool x => b.leaf? (.bool x)
  | .number n => b.leaf? (.number n)
  | .text s => b.text? s

end Building

/-- Builds the tree of tokens. -/
def ofTokens? (tokens : List Token) : Option Json := do
  let b ← tokens.foldlM Building.step? .start
  if b.expected = .nothing then some b.root else none

/-- The tree of a text.  Parts that are never read need not have a value. -/
def parse? (s : String) : Option Json := (tokens? s).bind ofTokens?

/-- How many arrays and objects are open, and how many have been open at once, after one more token. -/
def nestingStep : Nat × Nat → Token → Nat × Nat
  | (opened, most), .openArray | (opened, most), .openObject => (opened + 1, max most (opened + 1))
  | (opened, most), .closeArray | (opened, most), .closeObject => (opened - 1, most)
  | counts, _ => counts

/-- The most arrays and objects within each other. -/
def nesting (tokens : List Token) : Nat := (tokens.foldl nestingStep (0, 0)).2

/-- The most arrays and objects within each other in a text that is read as a whole. -/
def nestingLimit : Nat := 127

/-- The tree of a text of which every part has a value, nested within the limit. -/
def parseStrict? (s : String) : Option Json := do
  let tokens ← tokens? s
  let j ← ofTokens? tokens
  if tokens.all Token.hasValue ∧ nesting tokens ≤ nestingLimit then some j else none

/-! ## Reading parts of a tree -/

/-- The text of a text. -/
def text? : Json → Option String
  | text s => s
  | _ => none

/-- The items of an array, none for anything else. -/
def items : Json → List Json
  | array items => items
  | _ => []

/-- The first member of an object with a key. -/
def get? (key : String) : Json → Option Json
  | object members => (members.find? (fun m => m.1 = some key)).map (·.2)
  | _ => none

/-- An integer of any size. -/
def int? : Json → Option Int
  | number n => n.toInt?
  | _ => none

/-- A natural number of 64 bits. -/
def nat? : Json → Option Nat
  | number n => n.toNat?
  | _ => none

/-- A natural number below a bound. -/
def natBelow? (bound : Nat) (j : Json) : Option Nat := j.nat?.filter (· < bound)

/-- A floating-point number. -/
def binary64? : Json → Option Binary64
  | number n => n.toBinary64?
  | _ => none

/-- Whether every member of an object has a key that can be read. -/
def keysReadable (members : List (Option String × Json)) : Bool := members.all (fun m => m.1.isSome)

/-- The members of an object with a key. -/
def withKey (members : List (Option String × Json)) (key : String) : List Json :=
  members.filterMap (fun m => if m.1 = some key then some m.2 else none)

/-- The one member of an object with a key: absent, or present once. -/
def member? (members : List (Option String × Json)) (key : String) : Option (Option Json) :=
  match withKey members key with
  | [] => some none
  | [j] => some (some j)
  | _ => none

/-- The fields of a record in the order of their names, an absent one as nothing.  A record is written as an
object, in which further keys are ignored, or as an array of its leading fields. -/
def record? (names : List String) : Json → Option (List (Option Json))
  | object members => if keysReadable members then names.mapM (member? members) else none
  | array items =>
    if items.length ≤ names.length then
      some (items.map some ++ List.replicate (names.length - items.length) none)
    else none
  | _ => none

/-- The name of a choice without particulars: a text, or an object with the name as its only key and null
under it. -/
def choice? : Json → Option String
  | text s => s
  | object [(name, null)] => name
  | _ => none

end Json

end Tandem

import Tandem.Json.Numeral
import Tandem.Text.Digits
/-!
# Tokens of JSON text

JSON text is cut into tokens before its structure is looked at.  Between tokens there may be spaces, tabs
and line ends.  A text token whose escapes do not form characters, because half of a surrogate pair stands
alone, is a token without a value: it may be skipped but not read.
-/

namespace Tandem.Json

/-- A token. -/
inductive Token where
  | openObject
  | closeObject
  | openArray
  | closeArray
  | colon
  | comma
  | null
  | bool (b : Bool)
  | number (n : Numeral)
  | text (s : Option String)

/-- Whether a character may stand between tokens. -/
def isGap (c : Char) : Bool := c = ' ' || c = '\t' || c = '\n' || c = '\x0d'

/-- The character of an escape by one letter. -/
def escaped? : Char → Option Char
  | '"' => some '"'
  | '\\' => some '\\'
  | '/' => some '/'
  | 'b' => some '\x08'
  | 'f' => some '\x0c'
  | 'n' => some '\n'
  | 'r' => some '\x0d'
  | 't' => some '\t'
  | _ => none

/-- What a text token has come to so far. -/
structure Spelling where
  /-- The characters, last first. -/
  chars : List Char
  /-- A first half of a surrogate pair that waits for the second. -/
  half : Option Nat
  /-- Whether all escapes have formed characters. -/
  sound : Bool

namespace Spelling

/-- Adds a character that stands for itself. -/
def push (s : Spelling) (c : Char) : Spelling :=
  { s with chars := c :: s.chars, half := none, sound := s.sound && s.half.isNone }

/-- Adds a 16-bit unit: a character, or half of a pair. -/
def pushUnit (s : Spelling) (u : Nat) : Spelling :=
  if 0xd800 ≤ u ∧ u < 0xdc00 then { s with half := some u, sound := s.sound && s.half.isNone }
  else if 0xdc00 ≤ u ∧ u < 0xe000 then
    match s.half with
    | some h => { s with
        chars := Char.ofNat (0x10000 + (h - 0xd800) * 0x400 + (u - 0xdc00)) :: s.chars, half := none }
    | none => { s with sound := false }
  else s.push (Char.ofNat u)

/-- The text, if it has a value. -/
def finish (s : Spelling) : Option String :=
  if s.sound && s.half.isNone then some (String.ofList s.chars.reverse) else none

end Spelling

/-- Reads a text token after its opening quote. -/
def scanText? : List Char → Spelling → Option (Token × List Char)
  | '"' :: rest, s => some (.text s.finish, rest)
  | '\\' :: 'u' :: a :: b :: c :: d :: rest, s =>
    match Text.readHex? [a, b, c, d] with
    | some u => scanText? rest (s.pushUnit u)
    | none => none
  | '\\' :: c :: rest, s =>
    match escaped? c with
    | some e => scanText? rest (s.push e)
    | none => none
  | c :: rest, s => if c = '\\' ∨ c.toNat < 0x20 then none else scanText? rest (s.push c)
  | [], _ => none

/-- The digits at the front, and the rest. -/
def takeDigits (s : List Char) : List Char × List Char := (s.takeWhile Char.isDigit, s.dropWhile Char.isDigit)

/-- Reads the fraction of a numeral: nothing, or digits after a point. -/
def scanFraction? : List Char → Option (List Char × List Char)
  | '.' :: rest =>
    let (digits, rest) := takeDigits rest
    if digits = [] then none else some (digits, rest)
  | s => some ([], s)

/-- Reads the exponent of a numeral: nothing, or digits after a mark and perhaps a sign. -/
def scanExponent? (s : List Char) : Option (Option (Bool × List Char) × List Char) :=
  match s with
  | c :: rest =>
    if c = 'e' ∨ c = 'E' then
      let (down, rest) := Number.takeSign rest
      let (digits, rest) := takeDigits rest
      if digits = [] then none else some (some (down, digits), rest)
    else some (none, s)
  | [] => some (none, [])

/-- Reads a numeral.  A numeral of several digits does not start with zero. -/
def scanNumeral? (s : List Char) : Option (Token × List Char) := do
  let (negative, s) := match s with
    | '-' :: rest => (true, rest)
    | s => (false, s)
  let (whole, s) := takeDigits s
  guard (whole ≠ [] ∧ (whole.head? ≠ some '0' ∨ whole.length = 1))
  let (fraction, s) ← scanFraction? s
  let (exponent, s) ← scanExponent? s
  pure (.number ⟨negative, whole, fraction, exponent⟩, s)

/-- Reads one token; the text does not start with a gap. -/
def scanToken? : List Char → Option (Token × List Char)
  | '\x7b' :: rest => some (.openObject, rest)
  | '\x7d' :: rest => some (.closeObject, rest)
  | '[' :: rest => some (.openArray, rest)
  | ']' :: rest => some (.closeArray, rest)
  | ':' :: rest => some (.colon, rest)
  | ',' :: rest => some (.comma, rest)
  | '"' :: rest => scanText? rest ⟨[], none, true⟩
  | 'n' :: 'u' :: 'l' :: 'l' :: rest => some (.null, rest)
  | 't' :: 'r' :: 'u' :: 'e' :: rest => some (.bool true, rest)
  | 'f' :: 'a' :: 'l' :: 's' :: 'e' :: rest => some (.bool false, rest)
  | s => scanNumeral? s

/-- Reads up to `limit` tokens to the end of the text; `acc` holds those read before, last first. -/
def scanUpTo? : (limit : Nat) → List Char → List Token → Option (List Token)
  | 0, _, _ => none
  | limit + 1, s, acc =>
    match s.dropWhile isGap with
    | [] => some acc.reverse
    | s =>
      match scanToken? s with
      | some (token, rest) => scanUpTo? limit rest (token :: acc)
      | none => none

/-- The tokens of a text.  Every token takes a character. -/
def tokens? (s : String) : Option (List Token) := scanUpTo? (s.toList.length + 1) s.toList []

/-- Whether a token has a value: text that forms characters, a number within range. -/
def Token.hasValue : Token → Bool
  | .text s => s.isSome
  | .number n => n.toBinary64?.isSome
  | _ => true

end Tandem.Json

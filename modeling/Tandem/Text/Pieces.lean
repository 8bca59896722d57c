/-!
# Cutting text at separators

Scenario lines are cut at semicolons, times at colons, field addresses at dashes and points at a comma.
Cutting never drops anything: an empty stretch between two separators is an empty piece.
-/

namespace Tandem.Text

/-- The pieces between the occurrences of a separator, in order; a text without one is its only piece. -/
def pieces (separator : Char) (s : String) : List String :=
  (s.toList.splitOn separator).map String.ofList

/-- The text before and after the first occurrence of a separator. -/
def cut? (separator : Char) (s : String) : Option (String × String) :=
  match s.toList.dropWhile (· ≠ separator) with
  | [] => none
  | _ :: after => some (String.ofList (s.toList.takeWhile (· ≠ separator)), String.ofList after)

/-- What follows a leading stretch of text, if the text starts with it. -/
def afterLeading? (leading s : String) : Option String :=
  if leading.toList.isPrefixOf s.toList then some (String.ofList (s.toList.drop leading.toList.length))
  else none

/-- The text with its ASCII capitals made small. -/
def lowercase (s : String) : String := String.ofList (s.toList.map Char.toLower)

end Tandem.Text

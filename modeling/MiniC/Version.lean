/-!
# Versions

The recognizers of a grammar carry the version they were made for. Only its first two numbers have to be those of the
library.
-/

namespace MiniC.Version

def current : String := "4.5.3"

/-- What stands before a character, and what stands behind it; without the character, all but the last character
and everything. -/
def cutAt (c : Char) (text : List Char) : List Char × List Char :=
  if text.contains c then (text.takeWhile (· != c), (text.dropWhile (· != c)).drop 1) else (text.dropLast, text)

/-- The first two numbers. The second ends at a point, or else at a dash. -/
def numbers (version : String) : String × String :=
  let (major, rest) := cutAt '.' version.toList
  let stop := if rest.contains '.' then '.' else '-'
  (String.ofList major, String.ofList (rest.takeWhile (· != stop)))

/-- What is said about a version that is not the one of the library. -/
def warning? (version : String) : Option String :=
  if numbers version = numbers current then none
  else some ("ANTLR runtime and generated code versions disagree: " ++ current ++ "!=" ++ version)

end MiniC.Version

/-!
# Faults

Every operation of the library that can fail does so with a `Fault`: the cause of the failure in the
words of the library. Causes that carry a text are the ones a user is meant to read.
-/

namespace MiniC

/-- Why an operation could not be carried out. -/
inductive Fault where
  /-- Something the operation relies on is not there. -/
  | missing
  | outOfRange
  /-- A name or number has no entry in a table. -/
  | unknownKey
  /-- A value is of a sort the operation does not work on. -/
  | unsuitable
  /-- A text or value does not have the form that is required. -/
  | malformed
  | undecodable (message : String)
  | noFile
  /-- The operation is not defined for this sort of thing. -/
  | undefinedHere (message : String)
  /-- A rule of the library is violated; the text says which. -/
  | illegal (message : String)
  /-- The object is in a state in which the operation makes no sense. -/
  | illegalState (message : String)
  | unsupported (message : String)
  /-- A reference that has to lead somewhere is empty. -/
  | emptyReference (message : String)
  /-- Recognition was given up at the first error. -/
  | cancelled
  /-- A text has no token in front of it that any rule could read. -/
  | noToken (message : String)
  | mismatch
  | noAlternative
  /-- A condition of the grammar does not hold. -/
  | refused (message : String)
  /-- A step budget ran out; budgets are chosen so that this does not happen. -/
  | exhausted
  deriving DecidableEq, Repr, Inhabited

/-- The text of a cause, for those that are meant to be read. -/
def Fault.message? : Fault → Option String
  | undecodable m | undefinedHere m | illegal m | illegalState m | unsupported m | emptyReference m
  | noToken m | refused m => some m
  | cancelled | exhausted => some ""
  | mismatch | noAlternative => some "None"
  | _ => none

end MiniC

/-! Faults: why a file cannot be opened, read or written. Where a place takes only so much, a longer
write leaves what it took there, and fails. -/

namespace StateAudit.Files

inductive Fault where
  | notFound
  | noDevice
  | notADirectory
  | isADirectory
  | nameTooLong
  | alreadyThere
  | badName
  | notText
  | other (message : String)
deriving DecidableEq

def Fault.message : Fault → String
  | .notFound => "No such file or directory (os error 2)"
  | .noDevice => "No such device or address (os error 6)"
  | .notADirectory => "Not a directory (os error 20)"
  | .isADirectory => "Is a directory (os error 21)"
  | .nameTooLong => "File name too long (os error 36)"
  | .alreadyThere => "File exists (os error 17)"
  | .badName => "file name contained an unexpected NUL byte"
  | .notText => "stream did not contain valid UTF-8"
  | .other message => message

/-- How much a place takes, and the fault of a write that goes beyond it. -/
structure Room where
  size : Nat
  fault : Fault
deriving DecidableEq

/-- What becomes of writes at a place: it may refuse them before they begin, or take only so much. -/
inductive Writing where
  | free
  | refused (fault : Fault)
  | limited (room : Room)
deriving DecidableEq

end StateAudit.Files

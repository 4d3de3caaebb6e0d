import StateAudit.Files.Fault

/-! What a program runs on besides its files. Its standard output may take only a part of what is
written there, while its error output takes every notice. Memory matters only where a program
asks for the place of many records at once; one that does not get it ends there. -/

namespace StateAudit

structure Machine where
  /-- What the standard output takes, counted in characters, where it does not take everything. -/
  output : Option Files.Room := none
  /-- The bytes that one record takes. -/
  recordSize : Nat := 184
  /-- The most bytes that can be had in one piece. -/
  memory : Nat := Nat.pow 2 47

/-- How a program ends that asks for more memory than it can be given. -/
inductive Crash where
  | capacityOverflow
  | outOfMemory
deriving DecidableEq

/-- A panic has a code of its own; an abort is told by its signal. -/
def Crash.code : Crash → Nat
  | .capacityOverflow => 101
  | .outOfMemory => 128 + 6

/-- What no machine gives in one piece: sizes are signed numbers of 64 bits. -/
def pieceLimit : Nat := Nat.pow 2 63

namespace Machine

/-- What the standard output shows of a text. It fails where it does not take the whole of it. -/
def print (machine : Machine) (text : String) : String × Except Files.Fault Unit :=
  match machine.output with
  | none => (text, .ok ())
  | some room =>
    (String.ofList (text.toList.take room.size), if text.length ≤ room.size then .ok () else .error room.fault)

/-- Asks for the place of some records. -/
def reserve (machine : Machine) (records : Nat) : Except Crash Unit :=
  let bytes := records * machine.recordSize
  if pieceLimit ≤ bytes then .error .capacityOverflow
  else if machine.memory < bytes then .error .outOfMemory
  else .ok ()

end Machine

end StateAudit

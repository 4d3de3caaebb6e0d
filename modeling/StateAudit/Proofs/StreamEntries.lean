import StateAudit.Proofs.InterruptedStreams

/-! What a reader finds that goes on behind failed reads. Bytes between two failures act in one
piece, however they were chunked, and a failure costs the line that it falls into and no other; a
read that is made again costs nothing. Complete lines are counted on over all failures, so no number
stands for two lines. -/

namespace StateAudit.Stream

/-- The number of a line that was read. A failed read has none of its own. -/
def Entry.number? : Entry → Option Nat
  | .record line _ => some line
  | .malformed line _ => some line
  | .failed _ _ => none

end StateAudit.Stream

import StateAudit.Aggregate
import StateAudit.Load
import StateAudit.Stream.Entry

/-! Aggregation of a stream. A line that is no record counts as malformed; a failed read ends
the stream and keeps what came before. -/

namespace StateAudit.Stream

def analyzeFrom (source : String) (aggregate : Aggregate) : List Entry → Loaded Aggregate
  | [] => { value := aggregate }
  | .record _ record :: rest => analyzeFrom source (aggregate.observe record) rest
  | .malformed _ _ :: rest => analyzeFrom source aggregate.observeMalformed rest
  | .failed line fault :: _ => { value := aggregate, problems := [.interrupted source line fault] }

def analyze (aggregate : Aggregate) (source : String) (chunks : List Chunk) : Loaded Aggregate :=
  analyzeFrom source aggregate (entries chunks)

end StateAudit.Stream

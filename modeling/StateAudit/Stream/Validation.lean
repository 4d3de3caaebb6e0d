import StateAudit.Load
import StateAudit.Report.Basic
import StateAudit.Stream.Entry

/-! Validation of a stream, entry by entry in its order. A failed read ends it and keeps what
came before. -/

namespace StateAudit.Stream

def validateFrom (validator : Validator) (source : String) (tracker : Tracker) (report : Report) :
    List Entry → Loaded Report
  | [] => { value := report }
  | .record line record :: rest =>
    let (verdict, tracker) := tracker.observe validator record
    validateFrom validator source tracker (report.push line record verdict) rest
  | .malformed line error :: rest =>
    validateFrom validator source tracker (report.pushMalformed line error) rest
  | .failed line fault :: _ => { value := report, problems := [.interrupted source line fault] }

def validate (validator : Validator) (source : String) (chunks : List Chunk) : Loaded Report :=
  validateFrom validator source {} {} (entries chunks)

end StateAudit.Stream

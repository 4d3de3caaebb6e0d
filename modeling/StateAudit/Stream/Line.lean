import StateAudit.Files.Fault
import StateAudit.Text.Utf8

/-! Byte streams and their lines. A stream arrives in chunks, between which a read may fail.
A line runs to its line feed, or to the end of the stream; what was read of a line before a
failure is lost. A read that was only interrupted is no failure: it is made again, and the line
goes on. -/

namespace StateAudit.Stream

inductive Chunk where
  | bytes (content : Bytes)
  /-- A read that was interrupted before it gave anything. -/
  | retried
  /-- A read that failed for any other reason. -/
  | failure (fault : Files.Fault)

inductive Line where
  | full (content : Bytes)
  | failed (fault : Files.Fault)

/-- The lines that a line feed ends, each with it, and the reversed bytes that are left. The
reversed bytes of `pending` come before the others. -/
def splitFrom (pending : Bytes) : Bytes → List Bytes × Bytes
  | [] => ([], pending)
  | byte :: rest =>
    if byte == 10 then
      let (lines, left) := splitFrom [] rest
      ((byte :: pending).reverse :: lines, left)
    else splitFrom (byte :: pending) rest

/-- The lines of a stream after the reversed bytes of an unfinished one. -/
def linesFrom (pending : Bytes) : List Chunk → List Line
  | [] => if pending.isEmpty then [] else [.full pending.reverse]
  | .bytes content :: rest =>
    let (lines, left) := splitFrom pending content
    lines.map .full ++ linesFrom left rest
  | .retried :: rest => linesFrom pending rest
  | .failure fault :: rest => .failed fault :: linesFrom [] rest

def lines (chunks : List Chunk) : List Line := linesFrom [] chunks

/-- The lines of a whole content, the last one perhaps without its line feed. -/
def contentLines (content : Bytes) : List Bytes :=
  let (lines, left) := splitFrom [] content
  if left.isEmpty then lines else lines ++ [left.reverse]

end StateAudit.Stream
